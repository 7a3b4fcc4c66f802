import KineIRCd.CharConv
import KineIRCd.Lib.Leases
import KineIRCd.Lib.Runs
import KineIRCd.Names
/-!
# Character sets of protocols

A protocol has a conversion descriptor for its input and one for its output. A
change of character set closes the old descriptor before the new one is opened,
so that it leaves none if that fails. Which descriptor is given is up to
`iconv_open()`, which may give one again after it was closed.
-/
namespace KineIRCd.Charsets

open Leases

inductive Side where
  | input
  | output
  deriving DecidableEq

/-- `inputCharConvDesc` or `outputCharConvDesc` of the protocol with a number. -/
abbrev Slot := Nat × Side

/-- The descriptors, with what they convert to and from. -/
abbrev Descriptors := Leases.State Slot Nat (Octets × Octets)

structure State where
  alive : Nat → Bool := fun _ => false
  /-- The number of protocols so far. The next one gets this number. -/
  allocated : Nat := 0
  descs : Descriptors := {}

/-- What `iconv_open()` returns: a descriptor, or -1 with `errno`. -/
abbrev Answer := Except Errno Nat

def KINE_INTERNAL_CHARSET : Octets := octets "UCS-4-INTERNAL"

/-! ## Changes -/

/-- `changeConvDesc`. -/
def changeConvDesc (convDesc : Slot) (charsetTo charsetFrom : Octets) (answer : Answer) (descs : Descriptors) :
    Error × Descriptors :=
  let closed := release convDesc descs
  match answer with
  | .ok desc => (.noError, take convDesc closed desc (charsetTo, charsetFrom))
  | .error .EINVAL => (.unknownCharset, closed)
  | .error _ => (.unknownError, closed)

/-- `Protocol::Output::changeOutputCharset`. -/
def changeOutputCharset (p : Nat) (charset : Octets) (answer : Answer) (descs : Descriptors) : Error × Descriptors :=
  changeConvDesc (p, .output) charset KINE_INTERNAL_CHARSET answer descs

/-- `Protocol::Input::changeInputCharset`. -/
def changeInputCharset (p : Nat) (charset : Octets) (answer : Answer) (descs : Descriptors) : Error × Descriptors :=
  changeConvDesc (p, .input) KINE_INTERNAL_CHARSET charset answer descs

def changeCharset (slot : Slot) (charset : Octets) (answer : Answer) (descs : Descriptors) : Error × Descriptors :=
  match slot.2 with
  | .input => changeInputCharset slot.1 charset answer descs
  | .output => changeOutputCharset slot.1 charset answer descs

inductive Op where
  /-- The constructor of a registrar's or a user's protocol, which sets UTF-8. -/
  | construct (input output : Answer)
  | change (slot : Slot) (charset : Octets) (answer : Answer)
  | destroy (p : Nat)

def step (s : State) : Op → State
  | .construct input output =>
    let p := s.allocated
    let descs := (changeInputCharset p (octets "UTF-8") input s.descs).2
    { alive := Function.update s.alive p true
      allocated := p + 1
      descs := (changeOutputCharset p (octets "UTF-8") output descs).2 }
  | .change slot charset answer =>
    if s.alive slot.1 then { s with descs := (changeCharset slot charset answer s.descs).2 } else s
  | .destroy p =>
    -- the destructors of the bases, the last one first
    if s.alive p then
      { s with alive := Function.update s.alive p false, descs := release (p, .input) (release (p, .output) s.descs) }
    else s

/-- A descriptor that is given is not open. -/
def Free (answer : Answer) (descs : Descriptors) : Prop := ∀ desc, answer = .ok desc → descs.opened desc = none

/-- `iconv_open()` gives free descriptors in the step. -/
def Fresh (s : State) : Op → Prop
  | .construct input output => Free input (release (s.allocated, .input) s.descs) ∧
      Free output (release (s.allocated, .output) (changeInputCharset s.allocated (octets "UTF-8") input s.descs).2)
  | .change slot _ answer => Free answer (release slot s.descs)
  | .destroy _ => True

/-- The character set a protocol speaks or hears. -/
def charset (s : State) (slot : Slot) : Option Octets :=
  (s.descs.purpose slot).map fun conversion =>
    match slot.2 with
    | .input => conversion.2
    | .output => conversion.1

/-- The character set that a change leads to. -/
def answered (charset : Octets) (answer : Answer) : Option Octets := answer.toOption.map fun _ => charset

/-- What a step asks for on a side of a protocol, if it does. -/
def asked (slot : Slot) (s : State) : Op → Option (Option Octets)
  | .construct input output =>
    if slot.1 = s.allocated then
      some (answered (octets "UTF-8") (match slot.2 with
        | .input => input
        | .output => output))
    else none
  | .change slot' charset answer =>
    if slot = slot' ∧ s.alive slot'.1 = true then some (answered charset answer) else none
  | .destroy p => if slot.1 = p ∧ s.alive p = true then some none else none

/-- What holds between steps. -/
structure Kept (s : State) : Prop where
  leased : Leased s.descs
  owner : ∀ slot, (s.descs.purpose slot).isSome = true → s.alive slot.1 = true
  alive_lt : ∀ p, s.alive p = true → p < s.allocated

section
variable {s : State} {slot : Slot} {descs : Descriptors} {answer : Answer}

theorem changeConvDesc_spec (h : Leased descs) (charsetTo charsetFrom : Octets) (hfree : Free answer (release slot descs)) :
    Leased (changeConvDesc slot charsetTo charsetFrom answer descs).2 ∧
      ∀ j, (changeConvDesc slot charsetTo charsetFrom answer descs).2.purpose j =
        if j = slot then answer.toOption.map fun _ => (charsetTo, charsetFrom) else descs.purpose j := by
  have hclosed : Leased (release slot descs) := h.release
  have hempty : (release slot descs).held slot = none := by rw [held_release, if_pos rfl]
  cases answer with
  | ok desc =>
    have hfree := hfree desc rfl
    refine ⟨hclosed.take hempty hfree, fun j => ?_⟩
    rw [changeConvDesc, hclosed.purpose_take hfree, h.purpose_release]
    split_ifs <;> rfl
  | error errno =>
    have hsnd : (changeConvDesc slot charsetTo charsetFrom (.error errno) descs).2 = release slot descs := by
      cases errno <;> rfl
    rw [hsnd]
    exact ⟨hclosed, fun j => h.purpose_release j⟩

theorem free_ok {desc : Nat} : Free (.ok desc) descs ↔ descs.opened desc = none := by simp [Free]

/-- The error of a change says whether the character set is in use. -/
theorem changeConvDesc_fst (charsetTo charsetFrom : Octets) :
    (changeConvDesc slot charsetTo charsetFrom answer descs).1 = .noError ↔ answer.toOption.isSome = true := by
  cases answer with
  | ok desc => simp [changeConvDesc, Except.toOption]
  | error errno => cases errno <;> simp [changeConvDesc, Except.toOption]

theorem changeCharset_fst (charset : Octets) :
    (changeCharset slot charset answer descs).1 = .noError ↔ answered charset answer = some charset := by
  have hanswered : answered charset answer = some charset ↔ answer.toOption.isSome = true := by
    rw [answered]
    cases answer.toOption <;> simp
  obtain ⟨p, side⟩ := slot
  rw [hanswered]
  cases side with
  | input => exact changeConvDesc_fst _ _
  | output => exact changeConvDesc_fst _ _

/-- What a change of character set is for. -/
def conversion (side : Side) (charset : Octets) : Octets × Octets :=
  match side with
  | .input => (KINE_INTERNAL_CHARSET, charset)
  | .output => (charset, KINE_INTERNAL_CHARSET)

theorem changeCharset_spec (slot : Slot) (h : Leased descs) (charset : Octets)
    (hfree : Free answer (release slot descs)) :
    Leased (changeCharset slot charset answer descs).2 ∧ ∀ j, (changeCharset slot charset answer descs).2.purpose j =
      if j = slot then (answered charset answer).map (conversion slot.2) else descs.purpose j := by
  obtain ⟨p, side⟩ := slot
  cases side with
  | input =>
    obtain ⟨hleased, hpurpose⟩ := changeConvDesc_spec h KINE_INTERNAL_CHARSET charset hfree
    refine ⟨hleased, fun j => (hpurpose j).trans ?_⟩
    rw [answered, Option.map_map]
    rfl
  | output =>
    obtain ⟨hleased, hpurpose⟩ := changeConvDesc_spec h charset KINE_INTERNAL_CHARSET hfree
    refine ⟨hleased, fun j => (hpurpose j).trans ?_⟩
    rw [answered, Option.map_map]
    rfl

/-! ## Steps -/

/-- The descriptors after a step, and what they are for. -/
theorem step_spec (h : Kept s) (op : Op) (hfresh : Fresh s op) : Leased (step s op).descs ∧ ∀ slot,
    (step s op).descs.purpose slot = match asked slot s op with
      | none => s.descs.purpose slot
      | some charset => charset.map (conversion slot.2) := by
  cases op with
  | construct input output =>
    obtain ⟨hinput, hinputs⟩ := changeCharset_spec (s.allocated, .input) h.leased (octets "UTF-8") hfresh.1
    obtain ⟨houtput, houtputs⟩ := changeCharset_spec (s.allocated, .output) hinput (octets "UTF-8") hfresh.2
    refine ⟨houtput, fun slot => (houtputs slot).trans ?_⟩
    obtain ⟨p, side⟩ := slot
    rw [hinputs]
    by_cases hp : p = s.allocated
    · subst hp
      cases side <;> simp [asked]
    · simp [asked, hp]
  | change slot charset answer =>
    simp only [step, asked]
    split_ifs with halive
    · obtain ⟨hleased, hpurpose⟩ := changeCharset_spec _ h.leased charset hfresh
      refine ⟨hleased, fun j => (hpurpose j).trans ?_⟩
      by_cases hj : j = slot
      · simp [hj, halive]
      · simp [hj]
    · exact ⟨h.leased, fun j => by simp [halive]⟩
  | destroy p =>
    simp only [step, asked]
    split_ifs with halive
    · refine ⟨h.leased.release.release, fun j => ?_⟩
      rw [h.leased.release.purpose_release, h.leased.purpose_release]
      obtain ⟨q, side⟩ := j
      by_cases hq : q = p
      · subst hq
        cases side <;> simp [halive]
      · simp [hq]
    · exact ⟨h.leased, fun j => by simp [halive]⟩

theorem kept_step (h : Kept s) (op : Op) (hfresh : Fresh s op) : Kept (step s op) := by
  obtain ⟨hleased, hpurpose⟩ := step_spec h op hfresh
  refine ⟨hleased, fun slot hslot => ?_, fun q hq => ?_⟩
  · rw [hpurpose] at hslot
    cases op with
    | construct input output =>
      simp only [step, Function.update_apply]
      split_ifs with hnew
      · rfl
      · rw [asked, if_neg hnew] at hslot
        exact h.owner slot hslot
    | change slot' charset answer =>
      have halive : (step s (.change slot' charset answer)).alive = s.alive := by
        simp only [step]
        split_ifs <;> rfl
      rw [halive]
      by_cases hasked : slot = slot' ∧ s.alive slot'.1 = true
      · rw [hasked.1]
        exact hasked.2
      · rw [asked, if_neg hasked] at hslot
        exact h.owner slot hslot
    | destroy p =>
      by_cases hasked : slot.1 = p ∧ s.alive p = true
      · rw [asked, if_pos hasked] at hslot
        cases hslot
      · rw [asked, if_neg hasked] at hslot
        have howner := h.owner slot hslot
        simp only [step]
        split_ifs with halive
        · have hne : slot.1 ≠ p := fun e => hasked ⟨e, halive⟩
          exact (Function.update_of_ne hne _ _).trans howner
        · exact howner
  · cases op with
    | construct input output =>
      simp only [step, Function.update_apply] at hq ⊢
      split_ifs at hq with hnew
      · rw [hnew]
        exact Nat.lt_succ_self _
      · exact Nat.lt_succ_of_lt (h.alive_lt q hq)
    | change slot' charset answer =>
      simp only [step] at hq ⊢
      split_ifs at hq ⊢ <;> exact h.alive_lt q hq
    | destroy p =>
      simp only [step] at hq ⊢
      split_ifs at hq ⊢
      · simp only [Function.update_apply] at hq
        split_ifs at hq
        exact h.alive_lt q hq
      · exact h.alive_lt q hq

theorem charset_eq (s : State) (slot : Slot) (c : Option Octets) (h : s.descs.purpose slot = c.map (conversion slot.2)) :
    charset s slot = c := by
  rw [charset, h, Option.map_map]
  obtain ⟨p, side⟩ := slot
  cases c with
  | none => rfl
  | some c => cases side <;> rfl

theorem charset_step (h : Kept s) (op : Op) (hfresh : Fresh s op) (slot : Slot) :
    charset (step s op) slot = (asked slot s op).getD (charset s slot) := by
  have hpurpose := (step_spec h op hfresh).2 slot
  cases hasked : asked slot s op with
  | none =>
    rw [hasked] at hpurpose
    rw [charset, hpurpose]
    rfl
  | some c =>
    rw [hasked] at hpurpose
    exact charset_eq _ _ _ hpurpose

end

/-! ## Runs -/

theorem kept_start : Kept {} := ⟨leased_start, by simp [Leases.State.purpose], by simp⟩

/-- Whatever protocols come, change their character sets and go, as long as
`iconv_open()` gives no descriptor that is open: nothing is closed that is not open,
the open descriptors are those that the protocols have, each on one side of one
protocol, and a protocol uses the character set that was asked for last, or none
if that failed, which the error of a change tells. -/
theorem charsets_kept (ops : List Op) (hfresh : Runs.Along step Fresh {} ops) :
    let s := ops.foldl step {}
    s.descs.misused = false ∧
      (∀ desc, (s.descs.opened desc).isSome = true ↔
        ∃ slot, s.alive slot.1 = true ∧ s.descs.held slot = some desc) ∧
      (∀ slot slot' desc, s.descs.held slot = some desc → s.descs.held slot' = some desc → slot = slot') ∧
      (∀ slot, charset s slot = (Runs.collect step (asked slot) {} ops).getLast?.getD none) ∧
      ∀ slot wanted answer, s.alive slot.1 = true → Fresh s (.change slot wanted answer) →
        ((changeCharset slot wanted answer s.descs).1 = .noError ↔
          charset (step s (.change slot wanted answer)) slot = some wanted) := by
  intro s
  have hkept : Kept s := Runs.run_inv (fun _ op h hfresh => kept_step h op hfresh) kept_start hfresh
  refine ⟨hkept.leased.proper, fun desc => ?_, hkept.leased.unique, fun slot => ?_, ?_⟩
  · rw [hkept.leased.held]
    refine exists_congr fun slot => (and_iff_right_of_imp fun hheld => hkept.owner slot ?_).symm
    rw [Leases.State.purpose, hheld]
    exact (hkept.leased.held desc).2 ⟨slot, hheld⟩
  · exact Runs.observe_eq_last_along (charset · slot) (fun _ op h hfresh => kept_step h op hfresh)
      (fun _ op h hfresh => charset_step h op hfresh slot) kept_start hfresh
  · intro slot wanted answer halive hfree
    rw [charset_step hkept (.change slot wanted answer) hfree, asked, if_pos ⟨rfl, halive⟩]
    exact changeCharset_fst wanted

/-- The first protocol's output gets a descriptor again that it has just closed, and
its input loses its own. The second protocol goes. -/
def changes : List Op :=
  [.construct (.ok 1) (.ok 2), .change (0, .output) (octets "ISO-8859-1") (.ok 2), .construct (.ok 3) (.ok 4),
    .change (0, .input) (octets "nonsense") (.error .EINVAL), .destroy 1]

theorem charsets_kept_changes : let s := changes.foldl step {}
    s.descs.misused = false ∧ (∃ slot, s.alive slot.1 = true ∧ s.descs.held slot = some 2) ∧
      charset s (0, .output) = some (octets "ISO-8859-1") ∧ charset s (0, .input) = none := by
  intro s
  have hfresh : Runs.Along step Fresh {} changes :=
    ⟨⟨free_ok.2 rfl, free_ok.2 rfl⟩, free_ok.2 rfl, ⟨free_ok.2 rfl, free_ok.2 rfl⟩, nofun, trivial, trivial⟩
  obtain ⟨hproper, hopen, -, hcharset, -⟩ := charsets_kept changes hfresh
  exact ⟨hproper, (hopen 2).1 (by decide), (hcharset _).trans (by decide), (hcharset _).trans (by decide)⟩

end KineIRCd.Charsets

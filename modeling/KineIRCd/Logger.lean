import KineIRCd.Lib.Accesses
import KineIRCd.Lib.LastWriter
import KineIRCd.Text
import Mathlib.Algebra.Group.Nat.Defs
import Mathlib.Data.List.GetD
/-!
# Log masks

The categories of what is logged: the table that the template makes of
`logger.def`, the look-ups in it, and the words of the configuration that a log's
mask is made of.
-/
namespace KineIRCd.Logger

open Accessing

/-- `Logger::MaskMapper`. -/
structure MaskMapper where
  mask : UInt32
  character : UInt8
  name : Octets
  nameUpper : Octets
  deriving DecidableEq

/-- The characters and names of `logger.def`. -/
def loggerMasks : List (UInt8 × String) :=
  [(0x44, "Debug"), (0x65, "Error_Local"), (0x45, "Error_Remote"), (0x46, "Fatal_Error"), (0x47, "Globals"),
   (0x48, "Helpers"), (0x6A, "NetJoin_Minor"), (0x4A, "NetJoin_Major"), (0x6B, "Kill_Local"), (0x4B, "Kill_Global"),
   (0x4C, "Locals"), (0x6E, "NetSplit_Minor"), (0x4E, "Netsplit_Major"), (0x6F, "Oper_Global"), (0x4F, "Oper_Local"),
   (0x73, "Client_Signon"), (0x53, "Client_Signoff"), (0x77, "Oper_Wallops"), (0x57, "Warning"),
   (0x7A, "KineIRCd_Internal"), (0x5A, "Housekeeping")]

/-- `Logger::maskTable`. The masks are the powers of two in order. -/
def maskTable : List MaskMapper :=
  loggerMasks.mapIdx fun i entry => ⟨.ofNat (2 ^ i), entry.1, octets entry.2, toUpper (octets entry.2)⟩

/-! ## Looking up an entry -/

/-- What `getMaskMapper` is given, one form for each of its overloads. -/
inductive Key where
  | mask (m : UInt32)
  | character (c : UInt8)
  | name (n : Octets)

/-- Is this the one? -/
def Key.isFor : Key → MaskMapper → Bool
  | mask m, entry => entry.mask = m
  | character c, entry => entry.character = c
  | name n, entry => sameIgnoringCase entry.name n

/-- The loop of `getMaskMapper`, from an index down to 1. `beyond` is what the
memory behind the table reads as. -/
def findMapper (table : List MaskMapper) (beyond : MaskMapper) (key : Key) : Nat → Accessing MaskMapper
  | 0 => get table beyond 0
  | i + 1 => do
    let entry ← get table beyond (i + 1)
    if key.isFor entry then pure entry else findMapper table beyond key i

/-- `Logger::getMaskMapper`. -/
def getMaskMapper (table : List MaskMapper) (beyond : MaskMapper) (key : Key) : Accessing MaskMapper :=
  findMapper table beyond key table.length

/-- The look-up stays inside the table, and finds an entry if there is one. -/
structure LooksUp (table : List MaskMapper) (beyond : MaskMapper) (key : Key) : Prop where
  within : (getMaskMapper table beyond key).Within table.length
  found : (∃ entry ∈ table, key.isFor entry = true) →
    (getMaskMapper table beyond key).value ∈ table ∧ key.isFor (getMaskMapper table beyond key).value = true

variable {table : List MaskMapper} {beyond : MaskMapper} {key : Key}

/-- Below the end of the table, the loop finds an entry unless none is left. -/
theorem findMapper_found {i : Nat} (hi : i < table.length) (h : ∃ entry ∈ table.take (i + 1), key.isFor entry = true) :
    (findMapper table beyond key i).value ∈ table ∧ key.isFor (findMapper table beyond key i).value = true := by
  induction i with
  | zero =>
    obtain ⟨first, table, rfl⟩ := List.exists_cons_of_ne_nil (List.ne_nil_of_length_pos hi)
    obtain ⟨entry, hentry, hkey⟩ := h
    obtain rfl := List.mem_singleton.1 hentry
    exact ⟨List.mem_cons_self, hkey⟩
  | succ i ih =>
    have hread : table.getD (i + 1) beyond = table[i + 1] := List.getD_eq_getElem _ _ hi
    simp only [findMapper, value_bind, value_ite, value_pure, hread]
    split_ifs with hkey
    · exact ⟨List.getElem_mem hi, hkey⟩
    · apply ih (Nat.lt_of_succ_lt hi)
      obtain ⟨entry, hentry, hentrykey⟩ := h
      rw [List.take_succ_eq_append_getElem hi, List.mem_append, List.mem_singleton] at hentry
      rcases hentry with hentry | rfl
      · exact ⟨entry, hentry, hentrykey⟩
      · exact absurd hentrykey hkey

/-- What is read behind the table is passed over when it is not for the key. -/
theorem getMaskMapper_found (hbeyond : key.isFor beyond = false) (h : ∃ entry ∈ table, key.isFor entry = true) :
    (getMaskMapper table beyond key).value ∈ table ∧ key.isFor (getMaskMapper table beyond key).value = true := by
  obtain ⟨entry, hentry, hkey⟩ := h
  obtain ⟨n, hn⟩ := Nat.exists_eq_add_one.2 (List.length_pos_of_mem hentry)
  have hread : table.getD (n + 1) beyond = beyond := List.getD_eq_default _ _ (by omega)
  simp only [getMaskMapper, hn, findMapper, value_bind, value_ite, value_pure, hread]
  rw [if_neg (by rw [hbeyond]; exact Bool.false_ne_true)]
  apply findMapper_found (by omega)
  rw [← hn, List.take_length]
  exact ⟨entry, hentry, hkey⟩

/-- It is what the look-up returns when it is. -/
theorem getMaskMapper_beyond (hbeyond : key.isFor beyond = true) (hne : table ≠ []) :
    (getMaskMapper table beyond key).value = beyond := by
  obtain ⟨n, hn⟩ := Nat.exists_eq_add_one.2 (List.length_pos_iff.2 hne)
  have hread : table.getD (n + 1) beyond = beyond := List.getD_eq_default _ _ (by omega)
  simp only [getMaskMapper, hn, findMapper, value_bind, value_ite, value_pure, hread]
  rw [if_pos hbeyond]

/-- The first entry read is the one behind the table. -/
theorem reads_getMaskMapper (table : List MaskMapper) (beyond : MaskMapper) (key : Key) :
    table.length ∈ (getMaskMapper table beyond key).reads := by
  unfold getMaskMapper
  cases table.length with
  | zero => exact List.mem_cons_self
  | succ n => exact List.mem_cons_self

/-- No look-up stays inside the table. It finds an entry of the table all the same,
unless what lies behind is one for the key. -/
theorem getMaskMapper_overruns (table : List MaskMapper) (beyond : MaskMapper) (key : Key) :
    ¬ LooksUp table beyond key ∧
      (key.isFor beyond = false → (∃ entry ∈ table, key.isFor entry = true) →
        (getMaskMapper table beyond key).value ∈ table ∧ key.isFor (getMaskMapper table beyond key).value = true) ∧
      (key.isFor beyond = true → table ≠ [] → (getMaskMapper table beyond key).value = beyond) := by
  refine ⟨?_, getMaskMapper_found, getMaskMapper_beyond⟩
  intro h
  exact absurd (h.within _ (reads_getMaskMapper table beyond key)) (Nat.lt_irrefl _)

/-- A look-up of the last category reads index 21 of 21 entries. -/
theorem not_looksUp_housekeeping :
    ¬ LooksUp maskTable ⟨0, 0, [], []⟩ (.character 0x5A) := by
  intro h
  exact absurd (h.within 21 (by decide)) (by decide)

/-! ## The words of a mask -/

namespace Mask

def Nothing : UInt32 := 0x00000000

def Everything : UInt32 := 0xFFFFFFFF

end Mask

/-- `|=`, or `&= ~` when it is toggled off. -/
def toggle (mask : UInt32) (toggleOn : Bool) (logMask : UInt32) : UInt32 :=
  if toggleOn then logMask ||| mask else logMask &&& ~~~ mask

/-- The prefix of a word, and the word in upper case without it. -/
def splitWord (word : Octets) : Bool × Octets :=
  if word.head? = some 0x2D then (false, (toUpper word).drop 1)
  else if word.head? = some 0x2B then (true, (toUpper word).drop 1)
  else (true, toUpper word)

/-- One round of the loop of `varHandleLogMask`. -/
def handleWord (logMask : UInt32) (word : Octets) : UInt32 :=
  let (toggleOn, maskWord) := splitWord word
  if maskWord = octets "NOTHING" ∨ maskWord = octets "NONE" then toggle Mask.Nothing toggleOn logMask
  else if maskWord = octets "EVERYTHING" ∨ maskWord = octets "ALL" then toggle Mask.Everything toggleOn logMask
  else
    match maskTable.find? fun entry => maskWord = entry.nameUpper with
    | some entry => toggle entry.mask toggleOn logMask
    | none => logMask

/-- `Logger::Config::varHandleLogMask`: what it returns, and the mask. -/
def varHandleLogMask (values : List Octets) : Bool × UInt32 :=
  if values = [] then (true, Mask.Everything) else (true, values.foldl handleWord Mask.Nothing)

/-- A log of the mask logs the category. -/
def Enabled (entry : MaskMapper) (logMask : UInt32) : Prop := logMask &&& entry.mask ≠ 0

instance (entry : MaskMapper) (logMask : UInt32) : Decidable (Enabled entry logMask) := inferInstanceAs (Decidable (_ ≠ _))

/-- The word less its prefix. -/
def body (word : Octets) : Octets := if word.head? = some 0x2D ∨ word.head? = some 0x2B then word.drop 1 else word

/-- The word names the category, or all of them, in letters of any case. -/
def names (entry : MaskMapper) (word : Octets) : Bool :=
  toUpper (body word) = toUpper entry.name ∨ toUpper (body word) = octets "EVERYTHING" ∨
    toUpper (body word) = octets "ALL"

/-- The word is not toggled off. -/
def isOn (word : Octets) : Bool := word.head? ≠ some 0x2D

theorem splitWord_eq (word : Octets) : splitWord word = (isOn word, toUpper (body word)) := by
  have hdrop : (toUpper word).drop 1 = toUpper (word.drop 1) := List.map_drop.symm
  unfold splitWord isOn body
  rw [hdrop]
  by_cases hminus : word.head? = some 0x2D
  · simp [hminus]
  · by_cases hplus : word.head? = some 0x2B
    · simp [hplus]
    · simp [hminus, hplus]

/-! ### The bits of a category -/

section
variable {mask bits logMask : UInt32} {toggleOn : Bool}

theorem toggle_covers (h : mask &&& bits = bits) : toggle mask toggleOn logMask &&& bits = if toggleOn then bits else 0 := by
  rw [← UInt32.toBitVec_inj] at h ⊢
  cases toggleOn with
  | true =>
    show (logMask.toBitVec ||| mask.toBitVec) &&& bits.toBitVec = bits.toBitVec
    rw [BitVec.and_or_distrib_right, ← UInt32.toBitVec_and mask, h]
    ext i hi
    simp
  | false =>
    show (logMask.toBitVec &&& ~~~ mask.toBitVec) &&& bits.toBitVec = 0#32
    rw [← h]
    ext i hi
    simp
    grind

theorem toggle_disjoint (h : mask &&& bits = 0) : toggle mask toggleOn logMask &&& bits = logMask &&& bits := by
  rw [← UInt32.toBitVec_inj] at h ⊢
  cases toggleOn with
  | true =>
    show (logMask.toBitVec ||| mask.toBitVec) &&& bits.toBitVec = logMask.toBitVec &&& bits.toBitVec
    rw [BitVec.and_or_distrib_right, ← UInt32.toBitVec_and mask, h]
    ext i hi
    simp
  | false =>
    show (logMask.toBitVec &&& ~~~ mask.toBitVec) &&& bits.toBitVec = logMask.toBitVec &&& bits.toBitVec
    ext i hi
    have hbit := congrArg (fun v : BitVec 32 => v[i]) h
    simp at hbit ⊢
    grind

end

/-- The categories have bits and names of their own. -/
theorem maskTable_apart : ∀ entry ∈ maskTable, ∀ other ∈ maskTable,
    if other.nameUpper = entry.nameUpper then other.mask = entry.mask else other.mask &&& entry.mask = 0 := by
  decide +kernel

theorem nameUpper_eq : ∀ entry ∈ maskTable, entry.nameUpper = toUpper entry.name := by decide +kernel

theorem mask_ne_zero : ∀ entry ∈ maskTable, entry.mask ≠ 0 := by decide +kernel

/-- No category is named like the words for none or all. -/
theorem nameUpper_ne : ∀ entry ∈ maskTable, entry.nameUpper ≠ octets "NOTHING" ∧ entry.nameUpper ≠ octets "NONE" := by
  decide +kernel

variable {entry : MaskMapper} {word : Octets}

theorem names_iff (hentry : entry ∈ maskTable) : names entry word = true ↔ toUpper (body word) = entry.nameUpper ∨
    toUpper (body word) = octets "EVERYTHING" ∨ toUpper (body word) = octets "ALL" := by
  rw [nameUpper_eq entry hentry, names, decide_eq_true_iff]

/-- A word that names a category sets its bit, and any other word leaves it. -/
theorem handleWord_and (hentry : entry ∈ maskTable) (logMask : UInt32) (word : Octets) :
    handleWord logMask word &&& entry.mask =
      if names entry word then (if isOn word then entry.mask else 0) else logMask &&& entry.mask := by
  have hnames := @names_iff entry word hentry
  have hnone : octets "NOTHING" ≠ octets "EVERYTHING" ∧ octets "NOTHING" ≠ octets "ALL" ∧
    octets "NONE" ≠ octets "EVERYTHING" ∧ octets "NONE" ≠ octets "ALL" := by decide
  obtain ⟨hnothing, hnone'⟩ := nameUpper_ne entry hentry
  simp only [handleWord, splitWord_eq]
  generalize toUpper (body word) = maskWord at *
  by_cases hno : maskWord = octets "NOTHING" ∨ maskWord = octets "NONE"
  · rw [if_pos hno, if_neg (by rw [hnames]; rcases hno with rfl | rfl <;> grind)]
    exact toggle_disjoint (UInt32.zero_and)
  · rw [if_neg hno]
    by_cases hall : maskWord = octets "EVERYTHING" ∨ maskWord = octets "ALL"
    · rw [if_pos hall, if_pos (hnames.2 (.inr hall))]
      exact toggle_covers (UInt32.neg_one_and)
    · rw [or_iff_left hall] at hnames
      rw [if_neg hall]
      cases hfind : maskTable.find? fun entry => maskWord = entry.nameUpper with
      | none =>
        have hother := List.find?_eq_none.1 hfind entry hentry
        rw [if_neg (by simpa [hnames] using hother)]
      | some other =>
        have hother : maskWord = other.nameUpper := by simpa using List.find?_some hfind
        have hapart := maskTable_apart entry hentry other (List.mem_of_find?_eq_some hfind)
        by_cases hsame : other.nameUpper = entry.nameUpper
        · rw [if_pos hsame] at hapart
          rw [if_pos (hnames.2 (hother.trans hsame)), ← hapart]
          exact toggle_covers UInt32.and_self
        · rw [if_neg hsame] at hapart
          rw [if_neg fun h => hsame (hother.symm.trans (hnames.1 h))]
          exact toggle_disjoint hapart

/-- Of the words that name a category, the last one decides. -/
theorem enabled_iff (hentry : entry ∈ maskTable) (values : List Octets) :
    Enabled entry (varHandleLogMask values).2 ↔
      values = [] ∨ ∃ word ∈ (values.filter (names entry)).getLast?, isOn word = true := by
  have hne := mask_ne_zero entry hentry
  unfold varHandleLogMask Enabled
  split_ifs with hvalues
  · apply iff_of_true _ (.inl hvalues)
    rwa [show Mask.Everything &&& entry.mask = entry.mask from UInt32.neg_one_and]
  · have hlast := @LastWriter.observe_foldl _ _ _ handleWord (· &&& entry.mask) (names entry)
      (fun word => if isOn word then entry.mask else 0) (handleWord_and hentry) Mask.Nothing values
    rw [show Mask.Nothing &&& entry.mask = 0 from UInt32.zero_and] at hlast
    rw [hlast, or_iff_right hvalues]
    cases (values.filter (names entry)).getLast? with
    | none => simp
    | some word => cases hon : isOn word <;> simp [hon, hne]

/-- A word that names no category changes nothing. -/
theorem handleWord_unnamed (h : ∀ entry ∈ maskTable, names entry word = false) (logMask : UInt32) :
    handleWord logMask word = logMask := by
  have hword : ∀ entry ∈ maskTable, ¬ (toUpper (body word) = entry.nameUpper ∨
      toUpper (body word) = octets "EVERYTHING" ∨ toUpper (body word) = octets "ALL") := by
    intro entry hentry
    rw [← names_iff hentry, h entry hentry]
    exact Bool.false_ne_true
  obtain ⟨-, hall⟩ := not_or.1 (hword maskTable[0] (List.getElem_mem _))
  simp only [handleWord, splitWord_eq]
  split_ifs with hno
  · cases isOn word with
    | true => exact UInt32.or_zero
    | false => exact UInt32.and_neg_one
  · cases hfind : maskTable.find? fun entry => toUpper (body word) = entry.nameUpper with
    | none => rfl
    | some other =>
      have hother : toUpper (body word) = other.nameUpper := by simpa using List.find?_some hfind
      exact absurd (.inl hother) (hword other (List.mem_of_find?_eq_some hfind))

/-- The last word that names a category, or all of them, decides whether it is
enabled, and words that name none change nothing. -/
theorem varHandleLogMask_lastWriter (values : List Octets) :
    (∀ entry ∈ maskTable, (Enabled entry (varHandleLogMask values).2 ↔
      values = [] ∨ ∃ word ∈ (values.filter (names entry)).getLast?, isOn word = true)) ∧
    (∀ word, (∀ entry ∈ maskTable, names entry word = false) → ∀ logMask, handleWord logMask word = logMask) :=
  ⟨fun _ hentry => enabled_iff hentry values, fun _ => handleWord_unnamed⟩

/-- Everything but errors elsewhere. -/
theorem varHandleLogMask_sample :
    (Enabled maskTable[2] (varHandleLogMask [octets "all", octets "-Error_Remote"]).2 ↔
      [octets "all", octets "-Error_Remote"] = [] ∨
        ∃ word ∈ ([octets "all", octets "-Error_Remote"].filter (names maskTable[2])).getLast?, isOn word = true) ∧
    handleWord 5 (octets "none") = 5 := by
  obtain ⟨henabled, hunnamed⟩ := varHandleLogMask_lastWriter [octets "all", octets "-Error_Remote"]
  exact ⟨henabled maskTable[2] (List.getElem_mem _), hunnamed (octets "none") (by decide +kernel) 5⟩

end KineIRCd.Logger

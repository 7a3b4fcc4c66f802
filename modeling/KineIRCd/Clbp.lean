import KineIRCd.Lib.Lines
import KineIRCd.Text
import Mathlib.Data.List.Induction
/-!
# The command line based protocol (LibCLBP)

Input arrives in chunks, and `handleInput` cuts it into lines for `parseLine`.
Output waits in a queue until the connection withdraws a block of it. Each
protocol object brings its own `parseLine`, so `handleInput` is written over
any object that has an input queue.
-/
namespace KineIRCd.Clbp

open Lines

def CR : UInt8 := 13
def LF : UInt8 := 10

/-- `Output::EOL_CR_LF`. -/
def EOL_CR_LF : Octets := [CR, LF]

/-- Does this octet end a line? -/
def isEol (c : UInt8) : Bool := decide (c ∈ EOL_CR_LF)

/-! ## Input -/

/-- A protocol object, or a whole state it lives in: its input queue and its
`parseLine`. -/
structure Input (σ : Type) where
  inputQueue : σ → Octets
  setInputQueue : Octets → σ → σ
  parseLine : Octets → σ → σ

namespace Input
variable {σ : Type} (I : Input σ)

/-- Parse what was buffered together with the end of the line. -/
def takeLine (line : Octets) (s : σ) : σ :=
  if (I.inputQueue s).isEmpty then I.parseLine line s
  else
    -- the queue is cleared after the line is parsed, not before
    I.setInputQueue [] (I.parseLine (I.inputQueue s ++ line) s)

/-- The position after a line end at `eolPos`: a CR LF pair is skipped whole.
Reading at `data.length` gives the terminating NUL. -/
def afterEol (data : Octets) (eolPos : Nat) : Nat :=
  let pos := eolPos + 1
  if data.getD (pos - 1) 0 = CR ∧ data.getD pos 0 = LF then pos + 1 else pos

theorem lt_afterEol (data : Octets) (eolPos : Nat) : eolPos < afterEol data eolPos := by
  simp only [afterEol]; split <;> omega

/-- The loop of `handleInput`, from `pos`. -/
def handleInputFrom (data : Octets) (pos : Nat) (s : σ) : σ :=
  match _h : findFirstOf EOL_CR_LF data pos with
  | none =>
    -- the whole chunk, not only what is left of it from `pos`
    I.setInputQueue (I.inputQueue s ++ data) s
  | some eolPos =>
    let s := I.takeLine (substr data pos (eolPos - pos)) s
    let pos' := afterEol data eolPos
    if pos' ≥ data.length then s else handleInputFrom data pos' s
termination_by data.length - pos
decreasing_by
  obtain ⟨_, _, -⟩ := findFirstOf_some _h
  have := lt_afterEol data eolPos
  omega

def handleInput (data : Octets) (s : σ) : σ := I.handleInputFrom data 0 s

/-- Whatever `takeLine` and the final buffering keep, a whole chunk keeps. -/
theorem handleInputFrom_keeps {P : σ → Prop} (hline : ∀ l s, P s → P (I.takeLine l s))
    (hqueue : ∀ q s, P s → P (I.setInputQueue q s)) (data : Octets) (pos : Nat) (s : σ) (h : P s) :
    P (I.handleInputFrom data pos s) := by
  fun_induction handleInputFrom I data pos s with
  | case1 pos s _ => exact hqueue _ _ h
  | case2 pos s eolPos _ s' pos' _ => exact hline _ _ h
  | case3 pos s eolPos _ s' pos' _ ih => exact ih (hline _ _ h)

/-! ### The loop, one line at a time -/

/-- The loop, unless it is through. -/
def resume (data : Octets) (pos : Nat) (s : σ) : σ := if pos ≥ data.length then s else I.handleInputFrom data pos s

variable {I} {data : Octets} {pos : Nat} {s : σ}

theorem handleInputFrom_none (h : findFirstOf EOL_CR_LF data pos = none) :
    I.handleInputFrom data pos s = I.setInputQueue (I.inputQueue s ++ data) s := by
  rw [handleInputFrom]
  split <;> simp_all

theorem handleInputFrom_some {eolPos : Nat} (h : findFirstOf EOL_CR_LF data pos = some eolPos) :
    I.handleInputFrom data pos s =
      I.resume data (afterEol data eolPos) (I.takeLine (substr data pos (eolPos - pos)) s) := by
  rw [handleInputFrom]
  split
  · simp_all
  · rename_i e he
    obtain rfl : e = eolPos := Option.some_inj.1 (he.symm.trans h)
    rfl

/-- Induction on the lines of a chunk. -/
theorem loop_induction (data : Octets) {P : Nat → Prop} (buffer : ∀ pos, findFirstOf EOL_CR_LF data pos = none → P pos)
    (line : ∀ pos eolPos, findFirstOf EOL_CR_LF data pos = some eolPos →
      (afterEol data eolPos < data.length → P (afterEol data eolPos)) → P pos) (pos : Nat) : P pos := by
  induction hn : data.length - pos using Nat.strongRecOn generalizing pos with
  | ind n ih =>
    cases h : findFirstOf EOL_CR_LF data pos with
    | none => exact buffer pos h
    | some eolPos =>
      refine line pos eolPos h fun _ => ih _ ?_ _ rfl
      obtain ⟨_, _, -⟩ := findFirstOf_some h
      have := lt_afterEol data eolPos
      omega

/-! ### Simulation -/

section
variable {τ : Type} {K : Input τ} {R : σ → τ → Prop} {t : τ}
  (hqueue : ∀ s t, R s t → I.inputQueue s = K.inputQueue t)
  (hset : ∀ q s t, R s t → R (I.setInputQueue q s) (K.setInputQueue q t))
  (hparse : ∀ l s t, R s t → R (I.parseLine l s) (K.parseLine l t))
include hqueue hset hparse

theorem takeLine_sim (line : Octets) (h : R s t) : R (I.takeLine line s) (K.takeLine line t) := by
  unfold takeLine
  rw [hqueue s t h]
  split_ifs
  · exact hparse _ _ _ h
  · exact hset _ _ _ (hparse _ _ _ h)

/-- Two objects that agree on their queues, and line for line, agree after a chunk. -/
theorem handleInputFrom_sim (data : Octets) (pos : Nat) (h : R s t) :
    R (I.handleInputFrom data pos s) (K.handleInputFrom data pos t) := by
  induction pos using loop_induction data generalizing s t with
  | buffer pos hfind =>
    rw [handleInputFrom_none hfind, handleInputFrom_none hfind, hqueue s t h]
    exact hset _ _ _ h
  | line pos eolPos hfind ih =>
    rw [handleInputFrom_some hfind, handleInputFrom_some hfind]
    have htake := takeLine_sim hqueue hset hparse (substr data pos (eolPos - pos)) h
    unfold resume
    split_ifs with hend
    · exact htake
    · exact ih (by omega) htake

end

/-! ### A chunk up to a line end -/

/-- Where the loop goes on after `front`: the LF of a pair is skipped. -/
def resumeAt (front rest : Octets) : Nat :=
  front.length + if front.getLast? = some CR ∧ rest.head? = some LF then 1 else 0

theorem afterEol_append_of_lt {front : Octets} (rest : Octets) {eolPos : Nat} (h : eolPos + 1 < front.length) :
    afterEol (front ++ rest) eolPos = afterEol front eolPos := by
  simp only [afterEol, Nat.add_sub_cancel, List.getD_eq_getElem?_getD]
  rw [List.getElem?_append_left (by omega), List.getElem?_append_left h]

theorem afterEol_append_last {front : Octets} (rest : Octets) {eolPos : Nat} (h : eolPos + 1 = front.length) :
    afterEol (front ++ rest) eolPos = resumeAt front rest := by
  have hlast : front.getLast? = some (front.getD eolPos 0) := by
    rw [List.getLast?_eq_getElem?, ← h, Nat.add_sub_cancel, List.getD_eq_getElem?_getD]
    rw [List.getElem?_eq_getElem (by omega)]
    rfl
  have hhead : rest.getD 0 0 = LF ↔ rest.head? = some LF := by
    cases rest with
    | nil => simp [LF]
    | cons x xs => simp
  simp only [afterEol, resumeAt, Nat.add_sub_cancel, hlast, Option.some_inj, ← hhead, List.getD_eq_getElem?_getD]
  rw [List.getElem?_append_left (by omega), List.getElem?_append_right (by omega), h, Nat.sub_self]
  split_ifs <;> omega

theorem afterEol_append_end {front : Octets} (rest : Octets) {eolPos : Nat} (hlt : eolPos < front.length)
    (hend : front.length ≤ afterEol front eolPos) : afterEol (front ++ rest) eolPos = resumeAt front rest := by
  rcases Nat.eq_or_lt_of_le (Nat.succ_le_of_lt hlt) with hlast | hpair
  · exact afterEol_append_last rest hlast
  · -- the front ends with a pair, so there is nothing to skip
    rw [afterEol_append_of_lt rest hpair]
    simp only [afterEol, Nat.add_sub_cancel] at hend ⊢
    split_ifs at hend ⊢ with hcrlf
    · have hlength : eolPos + 1 + 1 = front.length := by omega
      have hlf : front.getLast? = some LF := by
        rw [List.getLast?_eq_getElem?, ← hlength, Nat.add_sub_cancel, List.getElem?_eq_getElem (by omega), ← hcrlf.2,
          List.getD_eq_getElem?_getD, List.getElem?_eq_getElem (by omega)]
        rfl
      rw [resumeAt, hlf, if_neg (fun h => absurd h.1 (by decide))]
      omega
    · omega

/-- A chunk is handled as its front that ends with a line end, and then the rest. -/
theorem handleInputFrom_append {front : Octets} (rest : Octets) (hlast : ∃ x ∈ front.getLast?, x ∈ EOL_CR_LF)
    {pos : Nat} (hpos : pos < front.length) :
    I.handleInputFrom (front ++ rest) pos s = I.resume (front ++ rest) (resumeAt front rest) (I.handleInputFrom front pos s) := by
  induction pos using loop_induction front generalizing s with
  | buffer pos hfind =>
    obtain ⟨x, hx, hxe⟩ := hlast
    obtain ⟨init, rfl⟩ := List.getLast?_eq_some_iff.1 hx
    refine absurd hxe (findFirstOf_none hfind x ?_)
    rw [List.drop_append_of_le_length (by simpa using Nat.le_of_lt_succ (by simpa using hpos))]
    simp
  | line pos eolPos hfind ih =>
    obtain ⟨sep, hle, hlt, -⟩ := findFirstOf_some hfind
    have hsubstr : substr (front ++ rest) pos (eolPos - pos) = substr front pos (eolPos - pos) := by
      rw [substr, substr, List.drop_append_of_le_length (by omega), List.take_append_of_le_length (by simp; omega)]
    rw [handleInputFrom_some (findFirstOf_append rest hfind), handleInputFrom_some hfind, hsubstr]
    by_cases hend : front.length ≤ afterEol front eolPos
    · rw [afterEol_append_end rest hlt hend, resume.eq_def I front, if_pos hend]
    · have hbefore := lt_afterEol front eolPos
      rw [afterEol_append_of_lt rest (by omega), resume.eq_def I front, if_neg hend, resume.eq_def I (front ++ rest)]
      rw [if_neg (by simp; omega)]
      exact ih (by omega) (by omega)

/-- A front to stop at: nothing, or what ends with a line end. -/
def Stop (front : Octets) : Prop := front = [] ∨ ∃ x ∈ front.getLast?, x ∈ EOL_CR_LF

/-- The state at a stop. Before the chunk, nothing was handled. -/
def atStop (I : Input σ) (front : Octets) (s : σ) : σ := if front = [] then s else I.handleInput front s

/-- Every string is a stop and an open run. -/
theorem exists_stop (data : Octets) : ∃ front run, data = front ++ run ∧ Stop front ∧ ∀ x ∈ run, x ∉ EOL_CR_LF := by
  induction data using List.reverseRecOn with
  | nil => exact ⟨[], [], rfl, .inl rfl, by simp⟩
  | append_singleton data x ih =>
    by_cases hx : x ∈ EOL_CR_LF
    · exact ⟨data ++ [x], [], by simp, .inr ⟨x, by simp, hx⟩, by simp⟩
    · obtain ⟨front, run, rfl, hfront, hrun⟩ := ih
      refine ⟨front, run ++ [x], by simp, hfront, ?_⟩
      intro y hy
      rcases List.mem_append.1 hy with hy | hy
      · exact hrun y hy
      · rwa [List.mem_singleton.1 hy]

theorem handleInput_append {front rest : Octets} (hfront : Stop front) (hrest : rest ≠ []) :
    I.handleInput (front ++ rest) s = I.resume (front ++ rest) (resumeAt front rest) (I.atStop front s) := by
  rcases hfront with rfl | hlast
  · have hlength := List.length_pos_iff.2 hrest
    simp [atStop, resume, resumeAt, handleInput, hrest]
  · have hne : front ≠ [] := by rintro rfl; simp at hlast
    rw [atStop, if_neg hne]
    exact handleInputFrom_append rest hlast (List.length_pos_iff.2 hne)

theorem findFirstOf_run {front run : Octets} (hrun : ∀ x ∈ run, x ∉ EOL_CR_LF) :
    findFirstOf EOL_CR_LF (front ++ run) front.length = none := by
  simpa [findFirstOf, List.findIdx?_eq_none_iff] using hrun

theorem findFirstOf_line {front run : Octets} {sep : UInt8} (hrun : ∀ x ∈ run, x ∉ EOL_CR_LF) (hsep : sep ∈ EOL_CR_LF) :
    findFirstOf EOL_CR_LF (front ++ (run ++ [sep])) front.length = some (front.length + run.length) := by
  have hnone : run.findIdx? (fun x => decide (x ∈ EOL_CR_LF)) = none := by
    simpa [List.findIdx?_eq_none_iff] using hrun
  simp [findFirstOf, List.findIdx?_append, hnone, hsep]

/-- An open run is only buffered, with all of the chunk. -/
theorem handleInput_run {front run : Octets} (hfront : Stop front) (hrun : ∀ x ∈ run, x ∉ EOL_CR_LF) (hne : run ≠ []) :
    I.handleInput (front ++ run) s =
      I.setInputQueue (I.inputQueue (I.atStop front s) ++ (front ++ run)) (I.atStop front s) := by
  have hhead : run.head? ≠ some LF := fun h => hrun LF (List.mem_of_mem_head? h) (by decide)
  have hlength := List.length_pos_iff.2 hne
  rw [handleInput_append hfront hne, resumeAt, if_neg (fun h => hhead h.2), resume, if_neg (by simp; omega),
    Nat.add_zero, handleInputFrom_none (findFirstOf_run hrun)]

/-- The last line of a chunk, unless there is only the LF of a pair. -/
theorem handleInput_line {front run : Octets} {sep : UInt8} (hfront : Stop front) (hrun : ∀ x ∈ run, x ∉ EOL_CR_LF)
    (hsep : sep ∈ EOL_CR_LF) : I.handleInput (front ++ (run ++ [sep])) s = I.atStop front s ∨
      I.handleInput (front ++ (run ++ [sep])) s = I.takeLine run (I.atStop front s) := by
  rw [handleInput_append hfront (by simp), resumeAt]
  split_ifs with hpair
  · -- the line end is the LF
    left
    have hnil : run = [] := by
      cases run with
      | nil => rfl
      | cons x xs =>
        have hx : x = LF := by simpa using hpair.2
        exact absurd (by rw [hx]; decide) (hrun x (by simp))
    simp [resume, hnil]
  · right
    have hend : front.length + run.length + 1 ≤ afterEol (front ++ (run ++ [sep])) (front.length + run.length) :=
      lt_afterEol _ _
    rw [resume, if_neg (by simp), Nat.add_zero, handleInputFrom_some (findFirstOf_line hrun hsep), resume,
      if_pos (by simp; omega), substr, List.drop_left, Nat.add_sub_cancel_left, List.take_left]

/-- An octet that ends no line is only buffered. -/
theorem handleInput_concat (data : Octets) {x : UInt8} (hx : x ∉ EOL_CR_LF) : ∃ s' q q',
    I.handleInput (data ++ [x]) s = I.setInputQueue q s' ∧
      (I.handleInput data s = I.setInputQueue q' s' ∨ I.handleInput data s = s') := by
  obtain ⟨front, run, rfl, hfront, hrun⟩ := exists_stop data
  have hrun' : ∀ y ∈ run ++ [x], y ∉ EOL_CR_LF := by
    intro y hy
    rcases List.mem_append.1 hy with hy | hy
    · exact hrun y hy
    · rwa [List.mem_singleton.1 hy]
  rw [List.append_assoc, handleInput_run hfront hrun' (by simp)]
  refine ⟨I.atStop front s, _, I.inputQueue (I.atStop front s) ++ (front ++ run), rfl, ?_⟩
  by_cases hne : run = []
  · subst hne
    rw [List.append_nil, atStop]
    split_ifs with hnil
    · subst hnil
      exact .inl (handleInputFrom_none (by simp [findFirstOf]))
    · exact .inr rfl
  · exact .inl (handleInput_run hfront hrun hne)

end Input

/-! ## Output -/

/-- `outputRaw`. -/
def outputRaw (outputQueue message : Octets) : Octets := outputQueue ++ message

/-- `outputLine`, with the object's `eolChars`. -/
def outputLine (eolChars outputQueue message : Octets) : Octets :=
  outputRaw (outputRaw outputQueue message) eolChars

/-- `withdrawOutput`: the block taken and the queue left. -/
def withdrawOutput (amount : Nat) (outputQueue : Octets) : Octets × Octets :=
  let length := min amount outputQueue.length
  let output := substr outputQueue 0 length
  (output, if amount ≤ outputQueue.length then outputQueue.drop length else [])

/-- `moreOutput`. -/
def moreOutput (outputQueue : Octets) : Bool := !outputQueue.isEmpty

/-- The block is the front of the queue, whatever its size against the queue's. -/
theorem withdrawOutput_split (amount : Nat) (q : Octets) :
    (withdrawOutput amount q).1 ++ (withdrawOutput amount q).2 = q := by
  simp only [withdrawOutput, substr, List.drop_zero]
  split
  · exact List.take_append_drop _ q
  · rw [Nat.min_eq_right (by omega), List.take_length, List.append_nil]

/-- What is left of the queue was in it before. -/
theorem moreOutput_withdrawOutput {amount : Nat} {q : Octets} (h : moreOutput (withdrawOutput amount q).2 = true) :
    moreOutput q = true := by
  have hsplit := withdrawOutput_split amount q
  simp only [moreOutput, Bool.not_eq_true', List.isEmpty_eq_false_iff] at h ⊢
  intro hnil
  rw [hnil, List.append_eq_nil_iff] at hsplit
  rw [hnil] at h
  exact h hsplit.2

end KineIRCd.Clbp

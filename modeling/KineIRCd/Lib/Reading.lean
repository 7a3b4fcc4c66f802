import Mathlib.Data.List.Basic
/-!
# Reading character by character

A reader has a state, takes a character off the front of its input and gives
some output for it. Reading goes on until the input is used up, or what is left
is no character or only the beginning of one.
-/
namespace Reading

/-- What is at the front of the input. -/
inductive Front (δ ι κ : Type*) where
  | invalid
  | incomplete
  /-- A character: the state after it, the input after it, and its output. -/
  | char (state : δ) (rest : List ι) (output : List κ)

/-- A character takes up some of the input. -/
structure Reader (δ ι κ : Type*) where
  next : δ → List ι → Front δ ι κ
  shorter : ∀ {s input s' rest output}, next s input = .char s' rest output → rest.length < input.length

/-- How a reading ends. -/
inductive Ending where
  | done
  | invalid
  | incomplete
  deriving DecidableEq

namespace Reader
variable {δ ι κ : Type*} (reader : Reader δ ι κ)

/-- Some characters, with the state after them and their output. -/
def readSome : Nat → δ → List ι → Ending × δ × List κ
  | 0, s, _ => (.done, s, [])
  | n + 1, s, input =>
    if input.isEmpty then (.done, s, [])
    else
      match reader.next s input with
      | .invalid => (.invalid, s, [])
      | .incomplete => (.incomplete, s, [])
      | .char s' rest output =>
        let after := readSome n s' rest
        (after.1, after.2.1, output ++ after.2.2)

/-- The whole input. -/
def read (s : δ) (input : List ι) : Ending × δ × List κ := reader.readSome input.length s input

variable {reader} {s s' : δ} {input rest : List ι} {output : List κ}

/-- As many rounds as there is input are enough. -/
theorem readSome_eq {m n : Nat} (hm : input.length ≤ m) (hn : input.length ≤ n) :
    reader.readSome m s input = reader.readSome n s input := by
  induction m generalizing n s input with
  | zero =>
    obtain rfl := List.length_eq_zero_iff.1 (Nat.le_zero.1 hm)
    cases n <;> rfl
  | succ m ih =>
    cases n with
    | zero =>
      obtain rfl := List.length_eq_zero_iff.1 (Nat.le_zero.1 hn)
      rfl
    | succ n =>
      rw [readSome, readSome]
      split_ifs
      · rfl
      · cases hnext : reader.next s input with
        | invalid => rfl
        | incomplete => rfl
        | char s' rest output =>
          have hshorter := reader.shorter hnext
          dsimp only
          rw [ih (by omega) (by omega : rest.length ≤ n)]

@[simp] theorem read_nil : reader.read s [] = (.done, s, []) := rfl

theorem read_invalid (hne : input ≠ []) (h : reader.next s input = .invalid) : reader.read s input = (.invalid, s, []) := by
  obtain ⟨i, input, rfl⟩ := List.exists_cons_of_ne_nil hne
  rw [read, List.length_cons, readSome, h]
  rfl

theorem read_incomplete (hne : input ≠ []) (h : reader.next s input = .incomplete) :
    reader.read s input = (.incomplete, s, []) := by
  obtain ⟨i, input, rfl⟩ := List.exists_cons_of_ne_nil hne
  rw [read, List.length_cons, readSome, h]
  rfl

/-- A character comes before what is read after it. -/
theorem read_char (h : reader.next s input = .char s' rest output) : reader.read s input =
    ((reader.read s' rest).1, (reader.read s' rest).2.1, output ++ (reader.read s' rest).2.2) := by
  have hshorter := reader.shorter h
  obtain ⟨i, input, rfl⟩ := List.exists_cons_of_ne_nil (List.ne_nil_of_length_pos (by omega : 0 < input.length))
  rw [List.length_cons] at hshorter
  rw [read, List.length_cons, readSome, h]
  dsimp only
  rw [read, readSome_eq (by omega : rest.length ≤ input.length) (Nat.le_refl rest.length)]
  rfl

/-- Induction along a reading. -/
theorem read_induction (reader : Reader δ ι κ) {P : δ → List ι → Prop} (nil : ∀ s, P s [])
    (invalid : ∀ s input, input ≠ [] → reader.next s input = .invalid → P s input)
    (incomplete : ∀ s input, input ≠ [] → reader.next s input = .incomplete → P s input)
    (char : ∀ s input s' rest output, reader.next s input = .char s' rest output → P s' rest → P s input)
    (s : δ) (input : List ι) : P s input := by
  induction hn : input.length using Nat.strongRecOn generalizing s input with
  | ind n ih =>
    by_cases hne : input = []
    · rw [hne]
      exact nil s
    · cases hnext : reader.next s input with
      | invalid => exact invalid s input hne hnext
      | incomplete => exact incomplete s input hne hnext
      | char s' rest output =>
        have hshorter := reader.shorter hnext
        exact char s input s' rest output hnext (ih rest.length (by omega) s' rest rfl)

variable (reader) in
/-- Some characters come off the front of the input. -/
inductive Takes : δ → List ι → δ → List ι → List κ → Prop
  | none (s : δ) (input : List ι) : Takes s input s input []
  | char {s s₁ s' : δ} {input input₁ rest : List ι} {first output : List κ} (hnext : reader.next s input = .char s₁ input₁ first)
      (after : Takes s₁ input₁ s' rest output) : Takes s input s' rest (first ++ output)

theorem Takes.length_le (h : reader.Takes s input s' rest output) : rest.length ≤ input.length := by
  induction h with
  | none => exact Nat.le_refl _
  | char hnext _ ih =>
    have hshorter := reader.shorter hnext
    omega

/-- What was taken comes before what is read after it. -/
theorem Takes.read_eq (h : reader.Takes s input s' rest output) : reader.read s input =
    ((reader.read s' rest).1, (reader.read s' rest).2.1, output ++ (reader.read s' rest).2.2) := by
  induction h with
  | none => rfl
  | char hnext _ ih => rw [read_char hnext, ih, List.append_assoc]

end Reader

end Reading

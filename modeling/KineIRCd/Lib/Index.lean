import Mathlib.Data.Finset.Basic
import Mathlib.Data.List.AList
/-!
# Indexes

A finite map that indexes objects by a key computed from each object. An index
is sound when every entry stands under the key of its object. Objects may
change their keys, so soundness is stated for a key function, and the renaming
lemma moves from one key function to the next.
-/
namespace Index

variable {κ ι : Type*} [DecidableEq κ] {key : ι → κ} {m : AList (fun _ : κ => ι)} {k k' : κ} {i j : ι}

/-- The number of entries. -/
def size (m : AList (fun _ : κ => ι)) : Nat := m.keys.length

/-- `std::map::insert`: an existing entry stays. -/
def tryInsert (k : κ) (i : ι) (m : AList (fun _ : κ => ι)) : AList (fun _ : κ => ι) :=
  if (m.lookup k).isSome then m else m.insert k i

theorem tryInsert_of_none (h : m.lookup k = none) : tryInsert k i m = m.insert k i := by simp [tryInsert, h]

theorem tryInsert_of_some (h : m.lookup k = some j) : tryInsert k i m = m := by simp [tryInsert, h]

theorem size_insert (h : m.lookup k = none) : size (m.insert k i) = size m + 1 := by
  have hk : k ∉ m.keys := AList.lookup_eq_none.1 h
  rw [size, AList.keys_insert, List.erase_of_not_mem hk, List.length_cons, size]

theorem size_erase (h : m.lookup k = some i) : size (m.erase k) + 1 = size m := by
  have hk : k ∈ m.keys := AList.lookup_isSome.1 (by simp [h])
  have hpos := List.length_pos_of_mem hk
  rw [size, AList.keys_erase, List.length_erase_of_mem hk, size]
  omega

/-- Every entry stands under its object's key. -/
def Sound (key : ι → κ) (m : AList (fun _ : κ => ι)) : Prop := ∀ k i, m.lookup k = some i → key i = k

theorem sound_empty : Sound key ∅ := by simp [Sound]

theorem Sound.insert (h : Sound key m) : Sound key (m.insert (key i) i) := by
  intro k j hj
  by_cases hk : k = key i
  · subst hk
    rw [AList.lookup_insert, Option.some_inj] at hj
    rw [hj]
  · exact h k j (by rwa [AList.lookup_insert_ne hk] at hj)

theorem Sound.erase (h : Sound key m) : Sound key (m.erase k) := by
  intro k' j hj
  by_cases hk : k' = k
  · subst hk; simp at hj
  · exact h k' j (by rwa [AList.lookup_erase_ne hk] at hj)

/-- Keys may change for the objects that are not in the index. -/
theorem Sound.congr {key' : ι → κ} (h : Sound key m) (hkey : ∀ k i, m.lookup k = some i → key' i = key i) :
    Sound key' m := fun k i hi => (hkey k i hi).trans (h k i hi)

/-- An erased object is in the index no more. -/
theorem Sound.ne_of_erase (h : Sound key m) (hj : (m.erase (key i)).lookup k = some j) : j ≠ i := by
  rintro rfl
  by_cases hk : k = key j
  · subst hk; simp at hj
  · rw [AList.lookup_erase_ne hk] at hj
    exact hk (h k j hj).symm

/-- Erasing an object and inserting it under its new key keeps the index sound,
also when the insertion finds the key taken. -/
theorem Sound.rename {key' : ι → κ} (h : Sound key m) (i : ι) (hkey : ∀ j, j ≠ i → key' j = key j) :
    Sound key' (tryInsert (key' i) i (m.erase (key i))) := by
  have herase : Sound key' (m.erase (key i)) := h.erase.congr fun k j hj => hkey j (h.ne_of_erase hj)
  unfold tryInsert
  split
  · exact herase
  · exact herase.insert

/-! ## Two indexes without a common key -/

/-- No key has an entry in both. -/
def Apart {ι' : Type*} (m : AList (fun _ : κ => ι)) (n : AList (fun _ : κ => ι')) : Prop :=
  ∀ k, m.lookup k = none ∨ n.lookup k = none

section Apart
variable {ι' : Type*} {n : AList (fun _ : κ => ι')}

theorem apart_empty : Apart m (∅ : AList (fun _ : κ => ι')) := fun _ => .inr rfl

theorem Apart.symm (h : Apart m n) : Apart n m := fun k => (h k).symm

theorem apart_comm : Apart m n ↔ Apart n m := ⟨Apart.symm, Apart.symm⟩

theorem Apart.erase (h : Apart m n) : Apart (m.erase k) n := by
  intro k'
  by_cases hk : k' = k
  · rw [hk]
    exact .inl (AList.lookup_erase _ _)
  · rw [AList.lookup_erase_ne hk]
    exact h k'

/-- An insertion keeps them apart exactly when the other has no entry there. -/
theorem Apart.insert_iff (h : Apart m n) : Apart (m.insert k i) n ↔ n.lookup k = none := by
  constructor
  · intro hins
    rcases hins k with hnone | hnone
    · rw [AList.lookup_insert] at hnone
      simp at hnone
    · exact hnone
  · intro hnone k'
    by_cases hk : k' = k
    · rw [hk]
      exact .inr hnone
    · rw [AList.lookup_insert_ne hk]
      exact h k'

theorem Apart.tryInsert_iff (h : Apart m n) : Apart (tryInsert k i m) n ↔ n.lookup k = none := by
  cases hk : m.lookup k with
  | none =>
    rw [tryInsert_of_none hk]
    exact h.insert_iff
  | some j =>
    rw [tryInsert_of_some hk]
    refine iff_of_true h ((h k).resolve_left ?_)
    simp [hk]

end Apart

/-! ## Indexes of a set of objects -/

/-- The index has an entry for each object of `S`, under its key, and no other. -/
def Exact (key : ι → κ) (S : Finset ι) (m : AList (fun _ : κ => ι)) : Prop := ∀ k i, m.lookup k = some i ↔ i ∈ S ∧ key i = k

variable {S : Finset ι}

theorem exact_empty : Exact key ∅ ∅ := by simp [Exact]

theorem Exact.lookup (h : Exact key S m) (hi : i ∈ S) : m.lookup (key i) = some i := (h _ i).2 ⟨hi, rfl⟩

theorem Exact.mem (h : Exact key S m) (hi : m.lookup k = some i) : i ∈ S := ((h k i).1 hi).1

variable [DecidableEq ι]

/-- An object whose key is free may come in. -/
theorem Exact.insert (h : Exact key S m) (hfree : m.lookup (key i) = none) :
    Exact key (insert i S) (m.insert (key i) i) := by
  intro k j
  rw [Finset.mem_insert]
  by_cases hk : k = key i
  · subst hk
    rw [AList.lookup_insert, Option.some_inj]
    constructor
    · rintro rfl
      exact ⟨.inl rfl, rfl⟩
    · rintro ⟨rfl | hj, hkey⟩
      · rfl
      · rw [← hkey, h.lookup hj] at hfree
        simp at hfree
  · rw [AList.lookup_insert_ne hk, h k j]
    constructor
    · rintro ⟨hj, hkey⟩
      exact ⟨.inr hj, hkey⟩
    · rintro ⟨rfl | hj, hkey⟩
      · exact absurd hkey.symm hk
      · exact ⟨hj, hkey⟩

/-- An object of the set may go, with its entry. -/
theorem Exact.erase (h : Exact key S m) (hi : i ∈ S) : Exact key (S.erase i) (m.erase (key i)) := by
  intro k j
  rw [Finset.mem_erase]
  by_cases hk : k = key i
  · subst hk
    rw [AList.lookup_erase]
    constructor
    · simp
    · rintro ⟨⟨hne, hj⟩, hkey⟩
      have hlook := h.lookup hj
      rw [hkey, h.lookup hi, Option.some_inj] at hlook
      exact absurd hlook.symm hne
  · rw [AList.lookup_erase_ne hk, h k j]
    constructor
    · rintro ⟨hj, hkey⟩
      refine ⟨⟨?_, hj⟩, hkey⟩
      rintro rfl
      exact hk hkey.symm
    · rintro ⟨⟨-, hj⟩, hkey⟩
      exact ⟨hj, hkey⟩

end Index

import Mathlib.Data.Finset.Card
import Mathlib.Data.List.AList
/-!
# Consecutive numbers for names

A table that gives each new name the next number. The numbers are of any type
that has a value in `Nat` of its own for each of them; `Numbered value m n`
says that the names of the table and the numbers from 1 to `n` are in
bijection.
-/
namespace Numbering

variable {κ ι : Type*} [DecidableEq κ]

/-- Every name of the table has a number from 1 to `n`, no two have the same, and
no number is left out. -/
structure Numbered (value : ι → Nat) (m : AList (fun _ : κ => ι)) (n : Nat) : Prop where
  bounds : ∀ k i, m.lookup k = some i → 0 < value i ∧ value i ≤ n
  injective : ∀ k k' i, m.lookup k = some i → m.lookup k' = some i → k = k'
  surjective : ∀ v, 0 < v → v ≤ n → ∃ k i, m.lookup k = some i ∧ value i = v
  size : m.keys.length = n

/-- The first table knows no name that the second one knows under another number. -/
def Extends (m m' : AList (fun _ : κ => ι)) : Prop := ∀ k i, m.lookup k = some i → m'.lookup k = some i

variable {value : ι → Nat} {m m' m'' : AList (fun _ : κ => ι)} {n : Nat} {k : κ} {i : ι}

theorem Extends.refl : Extends m m := fun _ _ h => h

theorem Extends.trans (h : Extends m m') (h' : Extends m' m'') : Extends m m'' := fun k i hi => h' k i (h k i hi)

theorem extends_insert (h : m.lookup k = none) : Extends m (m.insert k i) := by
  intro k' i' hi'
  have hne : k' ≠ k := by
    rintro rfl
    simp [h] at hi'
  rwa [AList.lookup_insert_ne hne]

theorem numbered_empty : Numbered value (∅ : AList (fun _ : κ => ι)) 0 where
  bounds := by simp
  injective := by simp
  surjective := fun v hpos hle => absurd (Nat.lt_of_lt_of_le hpos hle) (Nat.lt_irrefl 0)
  size := rfl

/-- A new name takes the next number. -/
theorem Numbered.insert (h : Numbered value m n) (hnew : m.lookup k = none) (hi : value i = n + 1) :
    Numbered value (m.insert k i) (n + 1) where
  bounds := by
    intro k' j hj
    by_cases hk : k' = k
    · subst hk
      rw [AList.lookup_insert, Option.some_inj] at hj
      rw [← hj]
      omega
    · rw [AList.lookup_insert_ne hk] at hj
      have := h.bounds k' j hj
      omega
  injective := by
    -- the new number is above every old one
    have hfresh : ∀ k', m.lookup k' ≠ some i := by
      intro k' hk'
      have := h.bounds k' i hk'
      omega
    intro k₁ k₂ j h₁ h₂
    by_cases hk₁ : k₁ = k
    · by_cases hk₂ : k₂ = k
      · rw [hk₁, hk₂]
      · subst hk₁
        rw [AList.lookup_insert, Option.some_inj] at h₁
        rw [AList.lookup_insert_ne hk₂, ← h₁] at h₂
        exact absurd h₂ (hfresh k₂)
    · rw [AList.lookup_insert_ne hk₁] at h₁
      by_cases hk₂ : k₂ = k
      · subst hk₂
        rw [AList.lookup_insert, Option.some_inj] at h₂
        rw [← h₂] at h₁
        exact absurd h₁ (hfresh k₁)
      · rw [AList.lookup_insert_ne hk₂] at h₂
        exact h.injective k₁ k₂ j h₁ h₂
  surjective := by
    intro v hpos hle
    by_cases hv : v ≤ n
    · obtain ⟨k', j, hj, hval⟩ := h.surjective v hpos hv
      exact ⟨k', j, extends_insert hnew k' j hj, hval⟩
    · exact ⟨k, i, AList.lookup_insert m, by omega⟩
  size := by
    have hk : k ∉ m.keys := AList.lookup_eq_none.1 hnew
    rw [AList.keys_insert, List.erase_of_not_mem hk, List.length_cons, h.size]

/-- The old table has every number up to its size, so a name that comes later has a larger one. -/
theorem Numbered.lt_of_new {n' : Nat} (h : Numbered value m n) (h' : Numbered value m' n') (hext : Extends m m')
    (hvalue : Function.Injective value) (hnew : m.lookup k = none) (hk : m'.lookup k = some i) : n < value i := by
  by_contra hle
  obtain ⟨hpos, -⟩ := h'.bounds k i hk
  obtain ⟨k', i', hk', hval⟩ := h.surjective (value i) hpos (Nat.le_of_not_lt hle)
  have hsame : k' = k := h'.injective k' k i (hvalue hval ▸ hext k' i' hk') hk
  rw [hsame, hnew] at hk'
  simp at hk'

/-- Names that are all in `S` take no number past its size. -/
theorem Numbered.le_card (h : Numbered value m n) {S : Finset κ} (hS : ∀ k ∈ m, k ∈ S) : n ≤ S.card := by
  have hsub : m.keys.toFinset ⊆ S := by
    intro k hk
    exact hS k (AList.mem_keys.2 (List.mem_toFinset.1 hk))
  rw [← h.size, ← List.toFinset_card_of_nodup m.keys_nodup]
  exact Finset.card_le_card hsub

/-- A new name of `S` finds a number that is no larger than its size. -/
theorem Numbered.lt_card (h : Numbered value m n) {S : Finset κ} (hS : ∀ k ∈ m, k ∈ S) (hk : k ∈ S)
    (hnew : m.lookup k = none) : n < S.card := by
  have hle := h.le_card (S := S.erase k) (by
    intro k' hk'
    refine Finset.mem_erase.2 ⟨?_, hS k' hk'⟩
    rintro rfl
    exact AList.lookup_eq_none.1 hnew hk')
  rw [Finset.card_erase_of_mem hk] at hle
  have hpos := Finset.card_pos.2 ⟨k, hk⟩
  omega

end Numbering

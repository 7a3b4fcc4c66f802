import Mathlib.Algebra.Order.BigOperators.Group.List
/-!
# Weights

Two lists that go with each other, item by item, with a weight for each item.
When none on one side weighs less than the one it goes with, and all of them no
more than all of the others, they weigh the same item by item.
-/
namespace Weights

variable {κ μ M : Type*} [AddCommMonoid M] [LinearOrder M] [IsOrderedCancelAddMonoid M] {R : κ → μ → Prop} {f : κ → M}
  {g : μ → M} {xs : List κ} {ys : List μ}

theorem sum_le (h : List.Forall₂ R xs ys) (hle : ∀ x y, R x y → g y ≤ f x) : (ys.map g).sum ≤ (xs.map f).sum := by
  apply List.Forall₂.sum_le_sum
  rw [List.forall₂_map_left_iff, List.forall₂_map_right_iff]
  exact (h.imp hle).flip

/-- What is lighter in one place is not made up for in another. -/
theorem eq_of_sum_le (h : List.Forall₂ R xs ys) (hle : ∀ x y, R x y → g y ≤ f x) (hsum : (xs.map f).sum ≤ (ys.map g).sum) :
    List.Forall₂ (fun x y => R x y ∧ f x = g y) xs ys := by
  induction h with
  | nil => exact .nil
  | cons hxy hrest ih =>
    rw [List.map_cons, List.map_cons, List.sum_cons, List.sum_cons] at hsum
    have hfirst := hle _ _ hxy
    have hothers := sum_le hrest hle
    refine .cons ⟨hxy, le_antisymm ?_ hfirst⟩ (ih ?_)
    · exact le_of_add_le_add_right (le_trans (add_le_add_right hothers _) hsum)
    · exact le_of_add_le_add_left (le_trans (add_le_add_left hfirst _) hsum)

end Weights

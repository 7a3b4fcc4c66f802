import Mathlib.Data.List.Induction
/-!
# The last writer wins

Something observed of a state, which some operations set to a value of their
own and the others leave as it was. After a run it is what the last operation
that sets it sets it to.
-/
namespace LastWriter

variable {σ ω β : Type*} {step : σ → ω → σ} {observe : σ → β} {writes : ω → Bool} {value : ω → β}

theorem observe_foldl (h : ∀ s w, observe (step s w) = if writes w then value w else observe s) (s : σ) (ops : List ω) :
    observe (ops.foldl step s) = ((ops.filter writes).getLast?.map value).getD (observe s) := by
  induction ops using List.reverseRecOn with
  | nil => rfl
  | append_singleton ops w ih =>
    rw [List.foldl_append, List.foldl_cons, List.foldl_nil, h, List.filter_append]
    by_cases hw : writes w = true
    · rw [if_pos hw, List.filter_cons_of_pos hw, List.filter_nil, List.getLast?_concat]
      rfl
    · rw [if_neg hw, List.filter_cons_of_neg hw, List.filter_nil, List.append_nil, ih]

end LastWriter

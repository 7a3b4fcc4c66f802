import Mathlib.Data.List.Basic
/-!
# Accesses to a list

A computation that reads a list by position, with the positions it reads.
A read past the end gives a default value, so a computation has a value
whatever it reads; `Within` says that it reads no such position.
-/

universe u

/-- A value, and the positions read for it, in order. -/
structure Accessing (α : Type u) where
  value : α
  reads : List Nat := []

namespace Accessing
variable {α β ε : Type u}

instance : Monad Accessing where
  pure a := ⟨a, []⟩
  bind x f := ⟨(f x.value).value, x.reads ++ (f x.value).reads⟩

/-- The element of a list at a position. -/
@[reducible] def get (l : List ε) (default : ε) (i : Nat) : Accessing ε := ⟨l.getD i default, [i]⟩

/-- Every position read is below `n`. -/
def Within (x : Accessing α) (n : Nat) : Prop := ∀ i ∈ x.reads, i < n

variable {a : α} {x y : Accessing α} {f : α → Accessing β} {g : α → β} {l : List ε} {default : ε} {c : Prop}
  [Decidable c] {i n : Nat}

@[simp] theorem value_pure : (pure a : Accessing α).value = a := rfl

@[simp] theorem value_bind : (x >>= f).value = (f x.value).value := rfl

@[simp] theorem value_map : (g <$> x).value = g x.value := rfl

@[simp] theorem value_ite : (if c then x else y).value = if c then x.value else y.value := apply_ite value c x y

@[simp] theorem within_pure : (pure a : Accessing α).Within n := fun _ hi => nomatch hi

@[simp] theorem within_get : (get l default i).Within n ↔ i < n := List.forall_mem_singleton

@[simp] theorem within_bind : (x >>= f).Within n ↔ x.Within n ∧ (f x.value).Within n := List.forall_mem_append

@[simp] theorem within_map : (g <$> x).Within n ↔ x.Within n := by
  rw [show g <$> x = x >>= fun a => pure (g a) from rfl, within_bind, and_iff_left within_pure]

theorem within_ite : (if c then x else y).Within n ↔ (c → x.Within n) ∧ (¬ c → y.Within n) := by
  split_ifs with h
  · exact ⟨fun hx => ⟨fun _ => hx, fun hc => absurd h hc⟩, fun hxy => hxy.1 h⟩
  · exact ⟨fun hy => ⟨fun hc => absurd hc h, fun _ => hy⟩, fun hxy => hxy.2 h⟩

end Accessing

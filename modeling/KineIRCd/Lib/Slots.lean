import Mathlib.Data.List.Basic
/-!
# Vectors of slots

A vector whose slots may be empty. It grows with empty slots, a slot past the
end reads as empty, and one vector is laid over another slot by slot.
-/
namespace Slots

variable {α : Type*}

/-- What a slot holds. -/
def get (l : List (Option α)) (i : Nat) : Option α := (l[i]?).join

/-- The number of slots that hold something. -/
def held (l : List (Option α)) : Nat := l.countP Option.isSome

/-- At least `n` slots. -/
def grow (l : List (Option α)) (n : Nat) : List (Option α) := l ++ List.replicate (n - l.length) none

/-- The slots of `new` that hold something, and those of `old` elsewhere. -/
def overlay : List (Option α) → List (Option α) → List (Option α)
  | [], old => old
  | new, [] => new
  | n :: new, o :: old => n.or o :: overlay new old

/-- The number of slots that hold something in both. -/
def shared (l m : List (Option α)) : Nat := (List.zipWith (fun a b => a.isSome && b.isSome) l m).countP id

variable {l m : List (Option α)} {i j n : Nat} {a : α}

@[simp] theorem get_nil : get ([] : List (Option α)) i = none := rfl

@[simp] theorem get_cons_zero (o : Option α) : get (o :: l) 0 = o := rfl

@[simp] theorem get_cons_succ (o : Option α) : get (o :: l) (i + 1) = get l i := rfl

theorem lt_of_get (h : get l i = some a) : i < l.length := by
  by_contra hlt
  rw [get, List.getElem?_eq_none (Nat.le_of_not_lt hlt)] at h
  simp at h

theorem mem_of_get (h : get l i = some a) : some a ∈ l :=
  List.mem_of_getElem? (Option.join_eq_some_iff.1 h)

theorem get_eq_none (h : l.length ≤ i) : get l i = none := by
  rw [get, List.getElem?_eq_none h]
  rfl

/-! ## Growing -/

theorem length_grow : (grow l n).length = max l.length n := by
  rw [grow, List.length_append, List.length_replicate]
  omega

theorem get_replicate : get (List.replicate n (none : Option α)) i = none := by
  unfold get
  rw [List.getElem?_replicate]
  split <;> rfl

/-- New slots are empty. -/
theorem get_grow : get (grow l n) i = get l i := by
  by_cases h : i < l.length
  · rw [get, grow, List.getElem?_append_left h, get]
  · have hle := Nat.le_of_not_lt h
    rw [get_eq_none hle, grow, get, List.getElem?_append_right hle]
    exact get_replicate

theorem held_grow : held (grow l n) = held l := by
  rw [held, grow, List.countP_append, List.countP_replicate]
  simp [held]

/-! ## Setting a slot -/

theorem get_set (h : i < l.length) : get (l.set i (some a)) j = if j = i then some a else get l j := by
  unfold get
  by_cases hj : j = i
  · subst hj
    rw [List.getElem?_set_self h, if_pos rfl]
    rfl
  · rw [List.getElem?_set_ne (Ne.symm hj), if_neg hj]

/-- An empty slot that is set counts, one that held something counted before. -/
theorem held_set (h : i < l.length) : held (l.set i (some a)) = held l + (if (get l i).isSome then 0 else 1) := by
  induction l generalizing i with
  | nil => simp at h
  | cons o l ih =>
    cases i with
    | zero =>
      rw [List.set_cons_zero, get_cons_zero, held, held, List.countP_cons, List.countP_cons]
      cases o <;> simp
    | succ i =>
      have hlt : i < l.length := by simpa using h
      have htail := ih hlt
      unfold held at htail ⊢
      rw [List.set_cons_succ, List.countP_cons, List.countP_cons, get_cons_succ, htail]
      omega

/-! ## Laying one over another -/

theorem length_overlay : (overlay l m).length = max l.length m.length := by
  fun_induction overlay l m with
  | case1 old => simp
  | case2 new hne => simp
  | case3 n new o old ih =>
    rw [List.length_cons, ih, List.length_cons, List.length_cons]
    omega

theorem get_overlay : get (overlay l m) i = (get l i).or (get m i) := by
  fun_induction overlay l m generalizing i with
  | case1 old => simp
  | case2 new hne => simp
  | case3 n new o old ih =>
    cases i with
    | zero => simp
    | succ i => simpa using ih

/-- Nothing is made up. -/
theorem mem_overlay (h : some a ∈ overlay l m) : some a ∈ l ∨ some a ∈ m := by
  obtain ⟨i, hi⟩ := List.mem_iff_getElem?.1 h
  have hget : (get l i).or (get m i) = some a := by
    rw [← get_overlay, get, hi]
    rfl
  rcases Option.or_eq_some_iff.1 hget with hl | ⟨-, hm⟩
  · exact .inl (mem_of_get hl)
  · exact .inr (mem_of_get hm)

/-- Slots that both hold are counted once. -/
theorem held_overlay : held (overlay l m) + shared l m = held l + held m := by
  fun_induction overlay l m with
  | case1 old => simp [shared, held]
  | case2 new hne => simp [shared, held]
  | case3 n new o old ih =>
    unfold held shared at ih ⊢
    rw [List.zipWith_cons_cons, List.countP_cons, List.countP_cons, List.countP_cons, List.countP_cons]
    cases n <;> cases o <;> simp <;> omega

theorem shared_eq_zero : shared l m = 0 ↔ ∀ i, get l i = none ∨ get m i = none := by
  fun_induction overlay l m with
  | case1 old => simp [shared]
  | case2 new hne => simp [shared]
  | case3 n new o old ih =>
    have hstep : shared (n :: new) (o :: old) = shared new old + if n.isSome && o.isSome then 1 else 0 := by
      unfold shared
      rw [List.zipWith_cons_cons, List.countP_cons]
      rfl
    rw [hstep]
    constructor
    · intro hzero i
      cases i with
      | zero => cases n <;> cases o <;> simp at hzero ⊢
      | succ i => exact ih.1 (by omega) i
    · intro hall
      have hrest := ih.2 fun i => hall (i + 1)
      have hfirst := hall 0
      cases n <;> cases o <;> simp_all

end Slots

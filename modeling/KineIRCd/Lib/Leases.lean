import Mathlib.Data.List.Basic
import Mathlib.Logic.Function.Basic
/-!
# Leases

Holders take handles that are opened for them, for some purpose each, and release
them. What is open is what is held, once, as long as a handle that is opened is
not open already.
-/
namespace Leases

variable {ι ρ κ : Type*}

/-- What each holder has, and what each open handle is for. -/
structure State (ι ρ κ : Type*) where
  held : ι → Option ρ := fun _ => none
  opened : ρ → Option κ := fun _ => none
  /-- Was something closed that was not open? -/
  misused : Bool := false

/-- Every open handle is held, by one holder. -/
structure Leased (s : State ι ρ κ) : Prop where
  proper : s.misused = false
  held : ∀ r, (s.opened r).isSome = true ↔ ∃ i, s.held i = some r
  unique : ∀ i j r, s.held i = some r → s.held j = some r → i = j

/-- What the holder's handle is for. -/
def State.purpose (s : State ι ρ κ) (i : ι) : Option κ := (s.held i).bind s.opened

theorem leased_start : Leased ({} : State ι ρ κ) := ⟨rfl, by simp, by simp⟩

section
variable [DecidableEq ι] [DecidableEq ρ] (i : ι) (s : State ι ρ κ)

/-- Close what the holder has, if it has something. -/
def release : State ι ρ κ :=
  match s.held i with
  | none => s
  | some r =>
    { held := Function.update s.held i none
      opened := Function.update s.opened r none
      misused := s.misused || (s.opened r).isNone }

/-- The holder has a handle that was opened for it. -/
def take (r : ρ) (k : κ) : State ι ρ κ :=
  { s with held := Function.update s.held i (some r), opened := Function.update s.opened r (some k) }

variable {i s} {r : ρ} {k : κ}

theorem held_release (j : ι) : (release i s).held j = if j = i then none else s.held j := by
  unfold release
  cases hi : s.held i with
  | none =>
    split_ifs with h
    · rw [h, hi]
    · rfl
  | some r => exact Function.update_apply _ _ _ _

theorem opened_release (r : ρ) : (release i s).opened r = if s.held i = some r then none else s.opened r := by
  unfold release
  cases hi : s.held i with
  | none => rfl
  | some r' =>
    dsimp only
    rw [Function.update_apply]
    simp only [Option.some_inj, eq_comm]

theorem held_take (j : ι) : (take i s r k).held j = if j = i then some r else s.held j :=
  Function.update_apply _ _ _ _

theorem opened_take (r' : ρ) : (take i s r k).opened r' = if r' = r then some k else s.opened r' :=
  Function.update_apply _ _ _ _

theorem Leased.release (h : Leased s) : Leased (release i s) where
  proper := by
    unfold Leases.release
    cases hi : s.held i with
    | none => exact h.proper
    | some r =>
      have hopen : (s.opened r).isSome = true := (h.held r).2 ⟨i, hi⟩
      simp [h.proper, hopen]
  held r := by
    simp only [opened_release, held_release]
    split_ifs with hi
    · -- the only holder has released it
      refine iff_of_false (by simp) ?_
      rintro ⟨j, hj⟩
      split_ifs at hj with hji
      exact hji (h.unique j i r hj hi)
    · rw [h.held]
      constructor
      · rintro ⟨j, hj⟩
        exact ⟨j, by rwa [if_neg (by rintro rfl; exact hi hj)]⟩
      · rintro ⟨j, hj⟩
        split_ifs at hj
        exact ⟨j, hj⟩
  unique j j' r hj hj' := by
    simp only [held_release] at hj hj'
    split_ifs at hj hj'
    exact h.unique j j' r hj hj'

theorem Leased.take (h : Leased s) (hi : s.held i = none) (hr : s.opened r = none) : Leased (take i s r k) where
  proper := h.proper
  held r' := by
    simp only [held_take, opened_take]
    split_ifs with hr'
    · exact iff_of_true rfl ⟨i, by rw [if_pos rfl, hr']⟩
    · rw [h.held]
      constructor
      · rintro ⟨j, hj⟩
        exact ⟨j, by rwa [if_neg (by rintro rfl; rw [hi] at hj; cases hj)]⟩
      · rintro ⟨j, hj⟩
        split_ifs at hj
        · exact absurd (Option.some_inj.1 hj).symm hr'
        · exact ⟨j, hj⟩
  unique j j' r' hj hj' := by
    have hnew : ∀ j, s.held j ≠ some r := fun j hj => by
      have hopen := (h.held r).2 ⟨j, hj⟩
      rw [hr] at hopen
      cases hopen
    simp only [held_take] at hj hj'
    split_ifs at hj hj' with hji hj'i hj'i
    · rw [hji, hj'i]
    · exact absurd (hj'.trans hj.symm) (hnew j')
    · exact absurd (hj.trans hj'.symm) (hnew j)
    · exact h.unique j j' r' hj hj'

/-- Nobody else's handle is touched. -/
theorem Leased.purpose_release (h : Leased s) (j : ι) :
    (Leases.release i s).purpose j = if j = i then none else s.purpose j := by
  rw [State.purpose, held_release]
  split_ifs with hji
  · rfl
  · rw [State.purpose]
    cases hj : s.held j with
    | none => rfl
    | some r =>
      rw [Option.bind_some, Option.bind_some, opened_release, if_neg]
      exact fun hi => hji (h.unique j i r hj hi)

theorem Leased.purpose_take (h : Leased s) (hr : s.opened r = none) (j : ι) :
    (Leases.take i s r k).purpose j = if j = i then some k else s.purpose j := by
  rw [State.purpose, held_take]
  split_ifs with hji
  · rw [Option.bind_some, opened_take, if_pos rfl]
  · rw [State.purpose]
    cases hj : s.held j with
    | none => rfl
    | some r' =>
      have hopen := (h.held r').2 ⟨j, hj⟩
      rw [Option.bind_some, Option.bind_some, opened_take, if_neg]
      rintro rfl
      rw [hr] at hopen
      cases hopen

end

end Leases

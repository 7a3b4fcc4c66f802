import Mathlib.Data.List.Induction
/-!
# Runs of a machine

A machine takes a step for each input of a list. `Along P` says that every
step of a run meets `P`, judged at the state the step starts from, and the
rules carry an invariant over such a run.
-/
namespace Runs

variable {σ α : Type*} (step : σ → α → σ)

/-- Every step of the run from `s` meets `P`. -/
def Along (P : σ → α → Prop) : σ → List α → Prop
  | _, [] => True
  | s, a :: as => P s a ∧ Along P (step s a) as

/-- Every state of the run from `s`, the first and the last included, meets `I`. -/
def Throughout (I : σ → Prop) : σ → List α → Prop
  | s, [] => I s
  | s, a :: as => I s ∧ Throughout I (step s a) as

/-- The sum of what `f` finds in each step of the run from `s`. -/
def total (f : σ → α → ℕ) : σ → List α → ℕ
  | _, [] => 0
  | s, a :: as => f s a + total f (step s a) as

/-- What `f` finds in the steps of the run from `s`, in order. -/
def collect {β : Type*} (f : σ → α → Option β) : σ → List α → List β
  | _, [] => []
  | s, a :: as => (f s a).toList ++ collect f (step s a) as

variable {step} {P Q R : σ → α → Prop} {I J : σ → Prop} {s : σ} {a : α} {as : List α}

@[simp] theorem along_nil : Along step P s [] := trivial

@[simp] theorem along_cons : Along step P s (a :: as) ↔ P s a ∧ Along step P (step s a) as := Iff.rfl

theorem along_concat : Along step P s (as ++ [a]) ↔ Along step P s as ∧ P (as.foldl step s) a := by
  induction as generalizing s with
  | nil => simp
  | cons b as ih => simp [ih, and_assoc]

theorem total_concat (f : σ → α → ℕ) : total step f s (as ++ [a]) = total step f s as + f (as.foldl step s) a := by
  induction as generalizing s with
  | nil => simp [total]
  | cons b as ih => rw [List.cons_append, total, ih, total, Nat.add_assoc, List.foldl_cons]

theorem collect_append {β : Type*} (f : σ → α → Option β) (bs : List α) :
    collect step f s (as ++ bs) = collect step f s as ++ collect step f (as.foldl step s) bs := by
  induction as generalizing s with
  | nil => rfl
  | cons a as ih => rw [List.cons_append, collect, ih, collect, List.append_assoc, List.foldl_cons]

theorem collect_concat {β : Type*} (f : σ → α → Option β) :
    collect step f s (as ++ [a]) = collect step f s as ++ (f (as.foldl step s) a).toList := by
  induction as generalizing s with
  | nil => simp [collect]
  | cons b as ih => rw [List.cons_append, collect, ih, collect, List.append_assoc, List.foldl_cons]

/-- Something observed of the state, which a step sets to what `f` finds in it or
leaves as it was, is after a run what `f` found last. -/
theorem observe_eq_last {β : Type*} {observe : σ → β} {f : σ → α → Option β}
    (h : ∀ s a, observe (step s a) = (f s a).getD (observe s)) (s : σ) (as : List α) :
    observe (as.foldl step s) = (collect step f s as).getLast?.getD (observe s) := by
  induction as using List.reverseRecOn with
  | nil => rfl
  | append_singleton as a ih =>
    rw [List.foldl_append, List.foldl_cons, List.foldl_nil, h, collect_concat]
    cases f (as.foldl step s) a with
    | none => simpa using ih
    | some b => simp

theorem along_and : Along step (fun s a => P s a ∧ Q s a) s as ↔ Along step P s as ∧ Along step Q s as := by
  induction as generalizing s with
  | nil => simp
  | cons a as ih =>
    rw [along_cons, along_cons, along_cons, ih]
    exact and_and_and_comm

/-- A condition on the inputs alone. -/
theorem along_forall {p : α → Prop} : Along step (fun _ a => p a) s as ↔ ∀ a ∈ as, p a := by
  induction as generalizing s with
  | nil => simp
  | cons a as ih => simp [ih]

/-- An invariant that steps meeting `P` keep holds after a run along `P`. -/
theorem run_inv (hstep : ∀ s a, I s → P s a → I (step s a)) (h : I s) (ha : Along step P s as) :
    I (as.foldl step s) := by
  induction as generalizing s with
  | nil => exact h
  | cons a as ih => exact ih (hstep s a h ha.1) ha.2

/-- What `observe_eq_last` says, from good states along a run. -/
theorem observe_eq_last_along {β : Type*} (observe : σ → β) {f : σ → α → Option β}
    (hstep : ∀ s a, I s → P s a → I (step s a))
    (h : ∀ s a, I s → P s a → observe (step s a) = (f s a).getD (observe s)) (hi : I s) (ha : Along step P s as) :
    observe (as.foldl step s) = (collect step f s as).getLast?.getD (observe s) := by
  induction as using List.reverseRecOn with
  | nil => rfl
  | append_singleton as a ih =>
    obtain ⟨has, hlast⟩ := along_concat.1 ha
    rw [List.foldl_append, List.foldl_cons, List.foldl_nil, h _ a (run_inv hstep hi has) hlast, collect_concat]
    cases f (as.foldl step s) a with
    | none => simpa using ih has
    | some b => simp

/-- An invariant that every step keeps holds after every run. -/
theorem run_keeps (hstep : ∀ s a, I s → I (step s a)) (h : I s) : I (as.foldl step s) := by
  induction as generalizing s with
  | nil => exact h
  | cons a as ih => exact ih (hstep s a h)

/-- An invariant that steps meeting `P` keep holds in every state of a run along `P`. -/
theorem throughout_of_along (hstep : ∀ s a, I s → P s a → I (step s a)) (h : I s) (ha : Along step P s as) :
    Throughout step I s as := by
  induction as generalizing s with
  | nil => exact h
  | cons a as ih => exact ⟨h, ih (hstep s a h ha.1) ha.2⟩

/-- Steps from states that meet the invariant answer by `Q`. -/
theorem along_of_along (hstep : ∀ s a, I s → P s a → I (step s a)) (hQ : ∀ s a, I s → P s a → Q s a) (h : I s)
    (ha : Along step P s as) : Along step Q s as := by
  induction as generalizing s with
  | nil => trivial
  | cons a as ih => exact ⟨hQ s a h ha.1, ih (hstep s a h ha.1) ha.2⟩

theorem Throughout.imp (hIJ : ∀ s, I s → J s) (h : Throughout step I s as) : Throughout step J s as := by
  induction as generalizing s with
  | nil => exact hIJ s h
  | cons a as ih => exact ⟨hIJ s h.1, ih h.2⟩

/-- `Throughout` speaks of the state after each part of the run. -/
theorem throughout_iff : Throughout step I s as ↔ ∀ before, before <+: as → I (before.foldl step s) := by
  induction as generalizing s with
  | nil => simp [Throughout]
  | cons a as ih =>
    rw [Throughout, ih]
    constructor
    · rintro ⟨h, hs⟩ before hb
      cases before with
      | nil => exact h
      | cons b before =>
        obtain ⟨rfl, hrest⟩ := List.cons_prefix_cons.1 hb
        exact hs before hrest
    · intro h
      refine ⟨h [] List.nil_prefix, ?_⟩
      intro before hb
      exact h (a :: before) (List.cons_prefix_cons.2 ⟨rfl, hb⟩)

/-- When `P` says exactly which steps from good states answer by `Q` and lead to
good states, it says exactly which runs do. The facts `J` hold in any case where
steps meet `R`. -/
theorem throughout_along_iff_of (hJ : ∀ s a, J s → R s a → J (step s a))
    (hstep : ∀ s a, J s → R s a → I s → (Q s a ∧ I (step s a) ↔ P s a)) (hj : J s) (hR : Along step R s as)
    (hi : I s) : Throughout step I s as ∧ Along step Q s as ↔ Along step P s as := by
  induction as generalizing s with
  | nil => simpa [Throughout] using hi
  | cons a as ih =>
    have hrest := fun hi' => ih (hJ s a hj hR.1) hR.2 hi'
    rw [Throughout, along_cons, along_cons, ← hstep s a hj hR.1 hi]
    constructor
    · rintro ⟨⟨-, hs⟩, hq, hqs⟩
      have hi' : I (step s a) := throughout_iff.1 hs [] List.nil_prefix
      exact ⟨⟨hq, hi'⟩, (hrest hi').1 ⟨hs, hqs⟩⟩
    · rintro ⟨⟨hq, hi'⟩, hps⟩
      obtain ⟨hs, hqs⟩ := (hrest hi').2 hps
      exact ⟨⟨hi, hs⟩, hq, hqs⟩

theorem along_true : Along step (fun _ _ => True) s as := by
  induction as generalizing s with
  | nil => trivial
  | cons a as ih => exact ⟨trivial, ih⟩

theorem throughout_along_iff (hJ : ∀ s a, J s → J (step s a))
    (hstep : ∀ s a, J s → I s → (Q s a ∧ I (step s a) ↔ P s a)) (hj : J s) (hi : I s) :
    Throughout step I s as ∧ Along step Q s as ↔ Along step P s as :=
  throughout_along_iff_of (R := fun _ _ => True) (fun s a h _ => hJ s a h) (fun s a h _ => hstep s a h) hj along_true hi

/-- When `P` says exactly which steps from good states lead to good states, it
says exactly which runs stay in good states. -/
theorem throughout_iff_along_of (hJ : ∀ s a, J s → R s a → J (step s a))
    (hstep : ∀ s a, J s → R s a → I s → (I (step s a) ↔ P s a)) (hj : J s) (hR : Along step R s as) (hi : I s) :
    Throughout step I s as ↔ Along step P s as := by
  rw [← throughout_along_iff_of (Q := fun _ _ => True) hJ _ hj hR hi]
  · exact (and_iff_left along_true).symm
  · intro s a hj hR hi
    rw [true_and]
    exact hstep s a hj hR hi

theorem throughout_iff_along (hJ : ∀ s a, J s → J (step s a)) (hstep : ∀ s a, J s → I s → (I (step s a) ↔ P s a))
    (hj : J s) (hi : I s) : Throughout step I s as ↔ Along step P s as :=
  throughout_iff_along_of (R := fun _ _ => True) (fun s a h _ => hJ s a h) (fun s a h _ => hstep s a h) hj along_true hi

end Runs

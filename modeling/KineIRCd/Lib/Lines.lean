import Mathlib.Data.List.Basic
/-!
# Lines of a separated stream

A stream over any alphabet is cut by the symbols a predicate picks out. Its
lines are the non-empty runs that a separator ends, and what follows the last
separator is still open. Both come from `List.splitOnP`; the lemmas say how
they behave when more of the stream arrives.
-/
namespace Lines

variable {α : Type*} (p : α → Bool)

/-- The non-empty separator-free runs that a separator ends, in order. -/
def lines (s : List α) : List (List α) := (s.splitOnP p).dropLast.filter (fun l => !l.isEmpty)

/-- What follows the last separator. -/
def rest (s : List α) : List α := (s.splitOnP p).getLast (List.splitOnP_ne_nil p s)

/-- No separator in `s`. -/
def Clean (s : List α) : Prop := ∀ x ∈ s, p x = false

instance (s : List α) : Decidable (Clean p s) := inferInstanceAs (Decidable (∀ x ∈ s, p x = false))

variable {p}

@[simp] theorem clean_nil : Clean p [] := by simp [Clean]

@[simp] theorem clean_append {s t : List α} : Clean p (s ++ t) ↔ Clean p s ∧ Clean p t := by
  simp only [Clean, List.mem_append]
  exact ⟨fun h => ⟨fun x hx => h x (.inl hx), fun x hx => h x (.inr hx)⟩,
    fun h x hx => hx.elim (h.1 x) (h.2 x)⟩

theorem not_clean {s : List α} : ¬ Clean p s ↔ ∃ x ∈ s, p x = true := by
  simp [Clean]

theorem lines_clean {s : List α} (h : Clean p s) : lines p s = [] := by
  simp [lines, List.splitOnP_eq_singleton h]

theorem rest_clean {s : List α} (h : Clean p s) : rest p s = s := by
  simp [rest, List.splitOnP_eq_singleton h]

@[simp] theorem lines_nil : lines p [] = [] := lines_clean clean_nil

@[simp] theorem rest_nil : rest p [] = [] := rest_clean clean_nil

theorem lines_cons_sep (s t : List α) {sep : α} (h : p sep = true) :
    lines p (s ++ sep :: t) = (s.splitOnP p).filter (fun l => !l.isEmpty) ++ lines p t := by
  rw [lines, List.splitOnP_append_cons s t h, List.dropLast_append_of_ne_nil (List.splitOnP_ne_nil p t),
    List.filter_append, lines]

@[simp] theorem rest_cons_sep (s t : List α) {sep : α} (h : p sep = true) :
    rest p (s ++ sep :: t) = rest p t := by
  simp only [rest, List.splitOnP_append_cons s t h]
  exact List.getLast_append_of_ne_nil _ (List.splitOnP_ne_nil p t)

/-- A separator closes the run before it, which is a line unless it is empty. -/
theorem lines_close {l : List α} (t : List α) {sep : α} (hl : Clean p l) (h : p sep = true) :
    lines p (l ++ sep :: t) = (if l = [] then [] else [l]) ++ lines p t := by
  rw [lines_cons_sep l t h, List.splitOnP_eq_singleton hl]
  cases l <;> simp

/-- Up to the last separator, and the open run after it. -/
theorem exists_last_sep {s : List α} (h : ¬ Clean p s) :
    ∃ a sep b, s = a ++ sep :: b ∧ p sep = true ∧ Clean p b := by
  induction s with
  | nil => simp at h
  | cons x xs ih =>
    by_cases hxs : Clean p xs
    · refine ⟨[], x, xs, rfl, ?_, hxs⟩
      by_contra hx
      exact h (fun y hy => (List.mem_cons.1 hy).elim (fun e => by simpa [e] using hx) (hxs y))
    · obtain ⟨a, sep, b, rfl, hsep, hb⟩ := ih hxs
      exact ⟨x :: a, sep, b, rfl, hsep, hb⟩

/-- Up to the first separator, and what follows it. -/
theorem exists_first_sep {s : List α} (h : ¬ Clean p s) :
    ∃ a sep b, s = a ++ sep :: b ∧ p sep = true ∧ Clean p a := by
  induction s with
  | nil => simp at h
  | cons x xs ih =>
    by_cases hx : p x = true
    · exact ⟨[], x, xs, rfl, hx, clean_nil⟩
    · have hxs : ¬ Clean p xs := fun hc => h (fun y hy => (List.mem_cons.1 hy).elim
        (fun e => by simpa [e] using hx) (hc y))
      obtain ⟨a, sep, b, rfl, hsep, ha⟩ := ih hxs
      refine ⟨x :: a, sep, b, rfl, hsep, fun y hy => (List.mem_cons.1 hy).elim ?_ (ha y)⟩
      intro e
      simpa [e] using hx

/-- More of the stream only extends the lines: the open run takes it up. -/
theorem lines_append (s t : List α) : lines p (s ++ t) = lines p s ++ lines p (rest p s ++ t) := by
  by_cases h : Clean p s
  · rw [lines_clean h, rest_clean h, List.nil_append]
  · obtain ⟨a, sep, b, rfl, hsep, hb⟩ := exists_last_sep h
    rw [List.append_assoc, List.cons_append, lines_cons_sep a _ hsep, lines_cons_sep a b hsep, rest_cons_sep a b hsep,
      rest_clean hb, lines_clean hb, List.append_nil]

theorem rest_append (s t : List α) : rest p (s ++ t) = rest p (rest p s ++ t) := by
  by_cases h : Clean p s
  · rw [rest_clean h]
  · obtain ⟨a, sep, b, rfl, hsep, hb⟩ := exists_last_sep h
    rw [List.append_assoc, List.cons_append, rest_cons_sep a _ hsep, rest_cons_sep a b hsep, rest_clean hb]

/-- A stream whose last symbol is a separator has no open run. -/
theorem rest_of_getLast {s : List α} {sep : α} (h : s.getLast? = some sep) (hsep : p sep = true) : rest p s = [] := by
  obtain ⟨l, rfl⟩ := List.getLast?_eq_some_iff.1 h
  rw [rest_cons_sep l [] hsep, rest_nil]

/-- Nothing is open exactly after a separator, or at the start of the stream. -/
theorem rest_eq_nil {s : List α} : rest p s = [] ↔ s = [] ∨ ∃ x ∈ s.getLast?, p x = true := by
  constructor
  · intro h
    by_cases hc : Clean p s
    · exact .inl (by rwa [rest_clean hc] at h)
    · obtain ⟨a, sep, b, rfl, hsep, hb⟩ := exists_last_sep hc
      rw [rest_cons_sep a b hsep, rest_clean hb] at h
      exact .inr ⟨sep, by simp [h], hsep⟩
  · rintro (rfl | ⟨x, hx, hsep⟩)
    · exact rest_nil
    · exact rest_of_getLast hx hsep

theorem clean_rest (s : List α) : Clean p (rest p s) := by
  by_cases h : Clean p s
  · rwa [rest_clean h]
  · obtain ⟨a, sep, b, rfl, hsep, hb⟩ := exists_last_sep h
    rwa [rest_cons_sep a b hsep, rest_clean hb]

/-- Induction on the lines of a stream: an open run, or one run closed by a
separator before the rest. -/
theorem close_induction {P : List α → Prop} (clean : ∀ s, Clean p s → P s)
    (close : ∀ l sep t, Clean p l → p sep = true → P t → P (l ++ sep :: t)) (s : List α) : P s := by
  induction hn : s.length using Nat.strongRecOn generalizing s with
  | ind n ih =>
    by_cases h : Clean p s
    · exact clean s h
    · obtain ⟨l, sep, t, rfl, hsep, hl⟩ := exists_first_sep h
      exact close l sep t hl hsep (ih t.length (by simp at hn; omega) t rfl)

/-- Lines and open run hold exactly the symbols that are no separators, in order. -/
theorem lines_flatten (s : List α) : (lines p s).flatten ++ rest p s = s.filter (fun x => !p x) := by
  have keep : ∀ l : List α, Clean p l → l.filter (fun x => !p x) = l :=
    fun l hl => List.filter_eq_self.2 (fun x hx => by simp [hl x hx])
  induction s using close_induction (p := p) with
  | clean s h => rw [lines_clean h, rest_clean h, keep s h, List.flatten_nil, List.nil_append]
  | close l sep t hl hsep ih =>
    rw [lines_close t hl hsep, rest_cons_sep l t hsep, List.flatten_append, List.append_assoc, ih, List.filter_append,
      List.filter_cons_of_neg (by simp [hsep]), keep l hl]
    cases l <;> simp

theorem lines_mem {s l : List α} (h : l ∈ lines p s) : l ≠ [] ∧ Clean p l := by
  refine ⟨by simpa using (List.mem_filter.1 h).2, ?_⟩
  intro x hx
  have hm : x ∈ (lines p s).flatten ++ rest p s := List.mem_append_left _ (List.mem_flatten.2 ⟨l, h, hx⟩)
  rw [lines_flatten] at hm
  simpa using (List.mem_filter.1 hm).2

end Lines

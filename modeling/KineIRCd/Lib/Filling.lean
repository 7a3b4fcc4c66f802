import Mathlib.Data.List.Basic
/-!
# Filling lines

Items are put on lines one after another. Before an item goes on a line a test
says whether the line is full, in which case it is done and the item starts
the next one. The first line may be tested otherwise than those after it, and
when there are no more items the last line is done if it is worth keeping.
-/
namespace Filling

variable {α : Type*} (full : Bool → List α → α → Bool) (keep : List α → Bool)

/-- The lines done, from a line with some items on it. `first` says whether it
is the first line. -/
def lines (first : Bool) (line : List α) : List α → List (List α)
  | [] => if keep line then [line] else []
  | x :: xs => if full first line x then line :: lines false [x] xs else lines first (line ++ [x]) xs

/-- Items that go on a line: each passes the test, but for the item that starts a
line after the first. -/
def Takes (first : Bool) (line : List α) : Prop :=
  ∀ p x, p ++ [x] <+: line → (first = false → p ≠ []) → full first p x = false

/-- What is left of `xs` where a line starts. -/
inductive Starts (xs : List α) : Bool → List α → Prop
  | first : Starts xs true xs
  | next {first line x rest} : Starts xs first (line ++ x :: rest) → (first = false → line ≠ []) →
      Takes full first line → full first line x = true → Starts xs false (x :: rest)

variable {full keep} {first : Bool} {line rest xs : List α} {x : α}

theorem takes_nil : Takes full first [] := by
  intro p x h
  exact absurd (List.prefix_nil.1 h) (by simp)

theorem takes_single (x : α) : Takes full false [x] := by
  intro p y h hne
  have hlength := h.length_le
  rw [List.length_append, List.length_singleton, List.length_singleton] at hlength
  exact absurd (List.length_eq_zero_iff.1 (by omega)) (hne rfl)

theorem takes_concat (hne : first = false → line ≠ []) :
    Takes full first (line ++ [x]) ↔ Takes full first line ∧ full first line x = false := by
  constructor
  · intro h
    exact ⟨fun p y hp => h p y (hp.trans (List.prefix_append _ _)), h line x List.prefix_rfl hne⟩
  · rintro ⟨htakes, hx⟩ p y hp hpne
    rcases List.prefix_concat_iff.1 hp with heq | hinit
    · obtain ⟨rfl, rfl⟩ := List.append_inj' heq rfl |>.imp id List.singleton_inj.1
      exact hx
    · exact htakes p y hinit hpne

theorem Takes.of_prefix {short : List α} (h : Takes full first line) (hp : short <+: line) : Takes full first short :=
  fun p x hx => h p x (hx.trans hp)

/-- Nothing is lost when any last line with items on it is kept. -/
theorem flatten_lines (hkeep : ∀ l, l <:+ line ++ xs → l ≠ [] → keep l = true) :
    (lines full keep first line xs).flatten = line ++ xs := by
  induction xs generalizing first line with
  | nil =>
    rw [lines, List.append_nil]
    split_ifs with h
    · exact List.flatten_singleton
    · rw [List.append_nil] at hkeep
      exact (Classical.byContradiction fun hne => h (hkeep line List.suffix_rfl hne)).symm
  | cons x xs ih =>
    rw [lines]
    split_ifs
    · rw [List.flatten_cons, ih fun l hl => hkeep l (hl.trans (List.suffix_append line (x :: xs))),
        List.singleton_append]
    · rw [ih fun l hl => hkeep l (by rwa [List.append_assoc] at hl), List.append_assoc, List.singleton_append]

/-- A line with items on it never loses them. -/
theorem ne_nil_of_mem_lines (hne : line ≠ []) : ∀ l ∈ lines full keep first line xs, l ≠ [] := by
  induction xs generalizing first line with
  | nil =>
    intro l hl
    rw [lines] at hl
    split_ifs at hl
    · obtain rfl := List.mem_singleton.1 hl
      exact hne
    · cases hl
  | cons x xs ih =>
    intro l hl
    rw [lines] at hl
    split_ifs at hl
    · rcases List.mem_cons.1 hl with rfl | hl
      · exact hne
      · exact ih (List.cons_ne_nil _ _) l hl
    · exact ih (List.append_ne_nil_of_right_ne_nil _ (List.cons_ne_nil _ _)) l hl

/-- A line without items is done only when the very first item finds it full. -/
theorem nil_mem_lines_iff (hkeep : keep [] = false) :
    [] ∈ lines full keep true [] xs ↔ ∃ x ∈ xs.head?, full true [] x = true := by
  cases xs with
  | nil => simp [lines, hkeep]
  | cons x xs =>
    rw [lines]
    split_ifs with h
    · exact iff_of_true List.mem_cons_self ⟨x, rfl, h⟩
    · apply iff_of_false (fun hnil => ne_nil_of_mem_lines (List.cons_ne_nil _ _) [] hnil rfl)
      rintro ⟨y, hy, hfull⟩
      obtain rfl := Option.some_inj.1 hy
      exact h hfull

/-- Items that a line takes are put on it. -/
theorem lines_of_takes (hne : first = false → line ≠ []) (more : List α) (h : Takes full first (line ++ more)) :
    lines full keep first line (more ++ rest) = lines full keep first (line ++ more) rest := by
  induction more generalizing line with
  | nil => rw [List.nil_append, List.append_nil]
  | cons x more ih =>
    have happend : line ++ x :: more = line ++ [x] ++ more := by simp
    rw [happend] at h ⊢
    have hx : full first line x = false := ((takes_concat hne).1 (h.of_prefix (List.prefix_append _ _))).2
    rw [List.cons_append, lines, if_neg (by rw [hx]; exact Bool.false_ne_true)]
    exact ih (fun _ => List.append_ne_nil_of_right_ne_nil _ (List.cons_ne_nil _ _)) h

/-- Lines may be filled with images of the items when the tests do not tell the difference. -/
theorem lines_map {β : Type*} {full' : Bool → List β → β → Bool} {keep' : List β → Bool} (f : α → β)
    (hfull : ∀ first line x, full first line x = full' first (line.map f) (f x))
    (hkeep : ∀ line, keep line = keep' (line.map f)) :
    (lines full keep first line xs).map (List.map f) = lines full' keep' first (line.map f) (xs.map f) := by
  induction xs generalizing first line with
  | nil =>
    rw [List.map_nil, lines, lines, ← hkeep]
    split_ifs <;> rfl
  | cons x xs ih =>
    rw [List.map_cons, lines, lines, ← hfull]
    split_ifs
    · rw [List.map_cons, ih, List.map_singleton]
    · rw [ih, List.map_append, List.map_singleton]

/-! ## Where the lines start -/

/-- From where a line starts, the lines done are some of all. -/
theorem lines_subset (h : Starts full xs first (line ++ rest)) (hne : first = false → line ≠ [])
    (htakes : Takes full first line) : lines full keep first line rest ⊆ lines full keep true [] xs := by
  generalize hs : line ++ rest = s at h
  induction h generalizing line rest with
  | first =>
    subst hs
    rw [@lines_of_takes α full keep true [] rest nofun line htakes]
    exact List.Subset.refl _
  | @next first' line' x rest' _ hne' htakes' hfull ih =>
    obtain ⟨more, rfl, rfl⟩ : ∃ more, line = x :: more ∧ rest' = more ++ rest := by
      cases line with
      | nil => exact absurd rfl (hne rfl)
      | cons y more =>
        obtain ⟨rfl, rfl⟩ := List.cons.inj hs
        exact ⟨more, rfl, rfl⟩
    have hline : lines full keep false [x] (more ++ rest) = lines full keep false (x :: more) rest :=
      @lines_of_takes α full keep false [x] rest (fun _ => List.cons_ne_nil _ _) more htakes
    have hdone : lines full keep first' line' (x :: (more ++ rest)) =
        line' :: lines full keep false [x] (more ++ rest) := by
      rw [lines, if_pos hfull]
    refine List.Subset.trans ?_ (ih hne' htakes' rfl)
    rw [← hline, hdone]
    exact List.subset_cons_self _ _

/-- Each line done is made of items it took from where it starts. -/
theorem starts_of_mem_lines (h : Starts full xs first (line ++ rest)) (hne : first = false → line ≠ [])
    (htakes : Takes full first line) :
    ∀ l ∈ lines full keep first line rest, ∃ first' rest',
      Starts full xs first' (l ++ rest') ∧ Takes full first' l := by
  induction rest generalizing first line with
  | nil =>
    intro l hl
    rw [lines] at hl
    split_ifs at hl
    · obtain rfl := List.mem_singleton.1 hl
      exact ⟨first, [], h, htakes⟩
    · cases hl
  | cons x rest ih =>
    intro l hl
    rw [lines] at hl
    split_ifs at hl with hfull
    · rcases List.mem_cons.1 hl with rfl | hl
      · exact ⟨first, x :: rest, h, htakes⟩
      · exact ih (.next h hne htakes hfull) (fun _ => List.cons_ne_nil _ _) (takes_single x) l hl
    · have htakes' := (takes_concat hne).2 ⟨htakes, Bool.eq_false_iff.2 hfull⟩
      have hstart : Starts full xs first (line ++ [x] ++ rest) := by
        rw [List.append_assoc]
        exact h
      exact ih hstart (fun _ => List.append_ne_nil_of_right_ne_nil _ (List.cons_ne_nil _ _)) htakes' l hl

/-- The items on a line are the first of one that is done, unless all the others
join them on a line not worth keeping. -/
theorem exists_line (first : Bool) (line rest : List α) :
    ∃ l, line <+: l ∧ (l ∈ lines full keep first line rest ∨ l = line ++ rest ∧ keep l = false) := by
  induction rest generalizing line with
  | nil =>
    refine ⟨line, List.prefix_rfl, ?_⟩
    rw [lines]
    split_ifs with h
    · exact .inl List.mem_cons_self
    · exact .inr ⟨(List.append_nil _).symm, Bool.eq_false_iff.2 h⟩
  | cons x rest ih =>
    rw [lines]
    split_ifs
    · exact ⟨line, List.prefix_rfl, .inl List.mem_cons_self⟩
    · obtain ⟨l, hinit, hl⟩ := ih (line ++ [x])
      rw [List.append_assoc, List.singleton_append] at hl
      exact ⟨l, (List.prefix_append _ _).trans hinit, hl⟩

theorem Starts.suffix {s : List α} (h : Starts full xs first s) : s <:+ xs := by
  induction h with
  | first => exact List.suffix_rfl
  | next _ _ _ _ ih => exact (List.suffix_append _ _).trans ih

/-- A property that shorter lines have when longer ones do holds of the lines
done when it holds of any items a line takes from where it starts. -/
theorem forall_lines_iff {P : List α → Prop} (hP : ∀ short line, short <+: line → P line → P short)
    (hkeep : ∀ line, line <:+ xs → keep line = false → P line) :
    (∀ l ∈ lines full keep true [] xs, P l) ↔
      ∀ first line rest, Starts full xs first (line ++ rest) → Takes full first line → P line := by
  constructor
  · intro h first line rest hstart htakes
    have hlonger : ∀ first line rest, line ++ rest <:+ xs →
        lines full keep first line rest ⊆ lines full keep true [] xs → P line := by
      intro first line rest hsuffix hsubset
      obtain ⟨l, hinit, hl | ⟨rfl, hl⟩⟩ := @exists_line α full keep first line rest
      · exact hP line l hinit (h l (hsubset hl))
      · exact hP line _ hinit (hkeep _ hsuffix hl)
    by_cases hline : line = []
    · subst hline
      exact hlonger true [] xs List.suffix_rfl (List.Subset.refl _)
    · exact hlonger first line rest hstart.suffix (lines_subset hstart (fun _ => hline) htakes)
  · intro h l hl
    obtain ⟨first, rest, hstart, htakes⟩ := @starts_of_mem_lines α full keep true [] xs xs .first nofun takes_nil l hl
    exact h first l rest hstart htakes

/-- Such a property can be checked item by item, each where it passes the test. -/
theorem forall_lines_iff_step {P : List α → Prop} (hP : ∀ short line, short <+: line → P line → P short)
    (hkeep : ∀ line, line <:+ xs → keep line = false → P line) (hnil : P []) (hsingle : ∀ x ∈ xs, P [x]) :
    (∀ l ∈ lines full keep true [] xs, P l) ↔
      ∀ first line x rest, Starts full xs first (line ++ x :: rest) → (first = false → line ≠ []) →
        Takes full first line → full first line x = false → P (line ++ [x]) := by
  rw [forall_lines_iff hP hkeep]
  constructor
  · intro h first line x rest hstart hne htakes hx
    apply h first (line ++ [x]) rest
    · rw [List.append_assoc]
      exact hstart
    · exact (takes_concat hne).2 ⟨htakes, hx⟩
  · intro h first line rest hstart htakes
    rcases List.eq_nil_or_concat' line with rfl | ⟨p, x, rfl⟩
    · exact hnil
    · rw [List.append_assoc, List.singleton_append] at hstart
      by_cases hp : first = false ∧ p = []
      · obtain ⟨rfl, rfl⟩ := hp
        exact hsingle x (hstart.suffix.subset List.mem_cons_self)
      · have hne : first = false → p ≠ [] := fun hfirst hnil => hp ⟨hfirst, hnil⟩
        obtain ⟨htakes, hx⟩ := (takes_concat hne).1 htakes
        exact h first p x rest hstart hne htakes hx

end Filling

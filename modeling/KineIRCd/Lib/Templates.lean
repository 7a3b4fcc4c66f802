import Mathlib.Data.List.Basic
/-!
# Templates

A template copies its characters, except that an escape character and the one
after it, the specifier, stand for some text. An escape character at the end
stands for nothing.
-/
namespace Templates

variable {α : Type*} [DecidableEq α] (escape : α)

def expand (meaning : α → List α) : List α → List α
  | [] => []
  | [c] => if c = escape then [] else [c]
  | c :: next :: rest => if c = escape then meaning next ++ expand meaning rest else c :: expand meaning (next :: rest)

def specifiers : List α → List α
  | [] => []
  | [_] => []
  | c :: next :: rest => if c = escape then next :: specifiers rest else specifiers (next :: rest)

variable {escape} {f g : α → List α} {template : List α}

theorem expand_congr (h : ∀ c ∈ specifiers escape template, f c = g c) :
    expand escape f template = expand escape g template := by
  fun_induction specifiers escape template with
  | case1 => rfl
  | case2 => rfl
  | case3 next rest ih =>
    rw [expand, expand, if_pos rfl, if_pos rfl, h next List.mem_cons_self,
      ih fun c hc => h c (List.mem_cons_of_mem _ hc)]
  | case4 c next rest hc ih => rw [expand, expand, if_neg hc, if_neg hc, ih h]

/-- Texts of the same lengths can be told apart in what the template expands to. -/
theorem expand_inj (hlength : ∀ c, (f c).length = (g c).length) :
    expand escape f template = expand escape g template ↔ ∀ c ∈ specifiers escape template, f c = g c := by
  refine ⟨?_, expand_congr⟩
  intro h
  fun_induction specifiers escape template with
  | case1 => exact fun _ hc => nomatch hc
  | case2 => exact fun _ hc => nomatch hc
  | case3 next rest ih =>
    rw [expand, expand, if_pos rfl, if_pos rfl] at h
    obtain ⟨hnext, hrest⟩ := List.append_inj h (hlength next)
    exact List.forall_mem_cons.2 ⟨hnext, ih hrest⟩
  | case4 c next rest hc ih =>
    rw [expand, expand, if_neg hc, if_neg hc] at h
    exact ih (List.cons.inj h).2

end Templates

import Mathlib.Data.List.Infix
import Mathlib.Order.Bounds.Basic
/-!
# Abbreviations

A name may be cut short to any of its beginnings that has enough elements.
With enough of them to tell the names apart, an abbreviation is one of one name.
-/
namespace Abbreviations

variable {α : Type*} {names : List (List α)} {name other request : List α} {least m k : ℕ}

/-- The request is a beginning of the name with so many elements or more. -/
def Abbreviates (least : ℕ) (name request : List α) : Prop := least ≤ request.length ∧ request <+: name

instance [DecidableEq α] : Decidable (Abbreviates least name request) := inferInstanceAs (Decidable (_ ∧ _))

/-- So many elements of a name are not how another one of the names begins. -/
def TellsApart (names : List (List α)) (name : List α) (k : ℕ) : Prop :=
  ∀ other ∈ names, other ≠ name → other.take k ≠ name.take k

theorem Abbreviates.take_eq (h : Abbreviates least name request) : name.take least = request.take least :=
  (List.prefix_iff_eq_take.1 h.2) ▸ by rw [List.take_take, Nat.min_eq_left h.1]

theorem TellsApart.mono (h : TellsApart names name m) (hk : m ≤ k) : TellsApart names name k := by
  intro other hmem hne e
  refine h other hmem hne ?_
  rw [← Nat.min_eq_left hk, ← List.take_take, ← List.take_take, e]

/-- Enough elements tell which name is meant. -/
theorem TellsApart.eq (h : TellsApart names name m) (hmem : other ∈ names) (hname : Abbreviates m name request)
    (hother : Abbreviates k other request) : other = name := by
  by_contra hne
  have hother' : Abbreviates m other request := ⟨hname.1, hother.2⟩
  exact h other hmem hne (hother'.take_eq.trans hname.take_eq.symm)

/-- Names with an abbreviation in common are the same as far as both need. -/
theorem Abbreviates.take_max_eq (hname : Abbreviates m name request) (hother : Abbreviates k other request) :
    name.take (max m k) = other.take (max m k) := by
  have hmax : max m k ≤ request.length := Nat.max_le.2 ⟨hname.1, hother.1⟩
  have hname' : Abbreviates (max m k) name request := ⟨hmax, hname.2⟩
  have hother' : Abbreviates (max m k) other request := ⟨hmax, hother.2⟩
  exact hname'.take_eq.trans hother'.take_eq.symm

theorem take_eq_iff_begins (h : other <+: name) {earlier : List α} :
    earlier.take other.length = name.take other.length ↔ other <+: earlier := by
  rw [← List.prefix_iff_eq_take.1 h, List.prefix_iff_eq_take, eq_comm]

/-- At most one of the things that are listed once each has a property that only
one can have. -/
theorem length_filter_le_one {ι κ : Type*} {p : ι → Bool} {l : List ι} {f : ι → κ} (hnodup : (l.map f).Nodup)
    (h : ∀ a ∈ l, ∀ b ∈ l, p a = true → p b = true → f a = f b) : (l.filter p).length ≤ 1 := by
  have hfilter : ((l.filter p).map f).Nodup := hnodup.sublist (List.filter_sublist.map f)
  have hmem : ∀ a ∈ l.filter p, a ∈ l ∧ p a = true := fun a => List.mem_filter.1
  generalize l.filter p = found at hfilter hmem ⊢
  match found with
  | [] => exact Nat.zero_le _
  | [a] => exact Nat.le_refl _
  | a :: b :: rest =>
    obtain ⟨ha, hpa⟩ := hmem a (by simp)
    obtain ⟨hb, hpb⟩ := hmem b (by simp)
    rw [List.map_cons, List.map_cons, h a ha b hb hpa hpb] at hfilter
    simp at hfilter

/-- The first with the property is then the only one. -/
theorem find?_toList {ι : Type*} {p : ι → Bool} {l : List ι} (h : (l.filter p).length ≤ 1) :
    (l.find? p).toList = l.filter p := by
  rw [← List.head?_filter]
  match l.filter p, h with
  | [], _ => rfl
  | [a], _ => rfl

end Abbreviations

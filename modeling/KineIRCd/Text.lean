import Mathlib.Data.List.Basic
/-!
# Octets and wide characters

`std::string` and `std::wstring` as lists, with the operations of theirs that
the daemon uses. `char` is an octet and `wchar_t` a 32-bit code; the locale is
"C", so only ASCII has case and classes.
-/
namespace KineIRCd

/-- The contents of a `std::string`. -/
abbrev Octets := List UInt8

abbrev WChar := UInt32

/-- The contents of a `std::wstring`. -/
abbrev WString := List WChar

/-- A narrow literal. -/
def octets (s : String) : Octets := s.toList.map (fun c => UInt8.ofNat c.toNat)

/-- A wide literal. -/
def wide (s : String) : WString := s.toList.map (fun c => UInt32.ofNat c.toNat)

section Strings
variable {α : Type} [DecidableEq α]

/-- `substr(pos, n)`. -/
def substr (s : List α) (pos n : Nat) : List α := (s.drop pos).take n

/-- `find_first_of(set, pos)`, with `none` for `npos`. -/
def findFirstOf (set s : List α) (pos : Nat) : Option Nat :=
  ((s.drop pos).findIdx? (fun x => decide (x ∈ set))).map (pos + ·)

theorem findFirstOf_none {set s : List α} {pos : Nat} (h : findFirstOf set s pos = none) :
    ∀ x ∈ s.drop pos, x ∉ set := by
  simpa [findFirstOf, List.findIdx?_eq_none_iff] using h

/-- The position found splits what is left of the string at the first member of `set`. -/
theorem findFirstOf_some {set s : List α} {pos i : Nat} (h : findFirstOf set s pos = some i) :
    ∃ sep, pos ≤ i ∧ i < s.length ∧ s[i]? = some sep ∧ sep ∈ set ∧
      s.drop pos = substr s pos (i - pos) ++ sep :: s.drop (i + 1) ∧ ∀ x ∈ substr s pos (i - pos), x ∉ set := by
  obtain ⟨j, hj, rfl⟩ := Option.map_eq_some_iff.1 h
  obtain ⟨hlt, hset, hfirst⟩ := List.findIdx?_eq_some_iff_getElem.1 hj
  have hlt' : pos + j < s.length := by simp at hlt; omega
  have hget : (s.drop pos)[j] = s[pos + j] := by simp
  refine ⟨s[pos + j], by omega, hlt', List.getElem?_eq_getElem hlt', by simpa using hset, ?_, ?_⟩
  · rw [substr, Nat.add_sub_cancel_left, ← hget, Nat.add_assoc, ← List.drop_drop, ← List.drop_eq_getElem_cons hlt,
      List.take_append_drop]
  · intro x hx
    rw [substr, Nat.add_sub_cancel_left] at hx
    obtain ⟨k, hk, rfl⟩ := List.mem_iff_getElem.1 hx
    have hkj : k < j := by simp at hk; omega
    simpa using hfirst k hkj

/-- What is found in a string is found in any that goes on from it. -/
theorem findFirstOf_append {set s : List α} (t : List α) {pos i : Nat} (h : findFirstOf set s pos = some i) :
    findFirstOf set (s ++ t) pos = some i := by
  obtain ⟨-, hle, hlt, -⟩ := findFirstOf_some h
  obtain ⟨j, hj, rfl⟩ := Option.map_eq_some_iff.1 h
  rw [findFirstOf, List.drop_append_of_le_length (by omega), List.findIdx?_append, hj]
  rfl

end Strings

/-- `std::toupper` on one octet. -/
def toUpperOctet (c : UInt8) : UInt8 := if 97 ≤ c ∧ c ≤ 122 then c - 32 else c

/-- `String::toUpper`. -/
def toUpper (s : Octets) : Octets := s.map toUpperOctet

/-- `std::tolower` on one octet. -/
def toLowerOctet (c : UInt8) : UInt8 := if 65 ≤ c ∧ c ≤ 90 then c + 32 else c

/-- `String::toLower`. -/
def toLower (s : Octets) : Octets := s.map toLowerOctet

/-- `strcasecmp` finds no difference. -/
def sameIgnoringCase (s t : Octets) : Bool := toLower s = toLower t

theorem toUpperOctet_idem (c : UInt8) : toUpperOctet (toUpperOctet c) = toUpperOctet c := by
  unfold toUpperOctet
  grind

theorem toLowerOctet_idem (c : UInt8) : toLowerOctet (toLowerOctet c) = toLowerOctet c := by
  unfold toLowerOctet
  grind

/-- Text in upper case stays as it is. -/
theorem toUpper_idem (s : Octets) : toUpper (toUpper s) = toUpper s := by
  unfold toUpper
  rw [List.map_map]
  exact List.map_congr_left fun c _ => toUpperOctet_idem c

theorem toLower_idem (s : Octets) : toLower (toLower s) = toLower s := by
  unfold toLower
  rw [List.map_map]
  exact List.map_congr_left fun c _ => toLowerOctet_idem c

/-- The decimal digits an output stream writes for a number. -/
def decimal (n : Nat) : Octets := octets (toString n)

theorem mem_decimal {n : Nat} {c : UInt8} (h : c ∈ decimal n) : 48 ≤ c ∧ c ≤ 57 := by
  obtain ⟨d, hd, rfl⟩ := List.mem_map.1 h
  rw [show (toString n).toList = Nat.toDigits 10 n from Nat.toList_repr] at hd
  obtain ⟨hlow, hhigh⟩ := Char.isDigit_iff_toNat.1 (Nat.isDigit_of_mem_toDigits (by decide) (by decide) hd)
  have hd : (UInt8.ofNat d.toNat).toNat = d.toNat := by
    rw [UInt8.toNat_ofNat']
    exact Nat.mod_eq_of_lt (Nat.lt_of_le_of_lt hhigh (by decide))
  constructor
  · rw [UInt8.le_iff_toNat_le, hd]
    exact hlow
  · rw [UInt8.le_iff_toNat_le, hd]
    exact hhigh

theorem notMem_decimal {n : Nat} {c : UInt8} (h : c < 48 ∨ 57 < c) : c ∉ decimal n := by
  intro hmem
  obtain ⟨hlow, hhigh⟩ := mem_decimal hmem
  rcases h with h | h
  · exact absurd hlow (UInt8.not_le.2 h)
  · exact absurd hhigh (UInt8.not_le.2 h)

/-- A piece added to a buffer, with a delimiter before it unless the buffer is empty. -/
def addDelimited (delimiter : UInt8) (buffer piece : Octets) : Octets :=
  if buffer = [] then piece else buffer ++ delimiter :: piece

/-- Pieces added one after another to an empty buffer. -/
def joinDelimited (delimiter : UInt8) (pieces : List Octets) : Octets := pieces.foldl (addDelimited delimiter) []

theorem foldl_addDelimited {d : UInt8} {buffer : Octets} (h : buffer ≠ []) (pieces : List Octets) :
    pieces.foldl (addDelimited d) buffer = buffer ++ pieces.flatMap (d :: ·) := by
  induction pieces generalizing buffer with
  | nil => simp
  | cons piece pieces ih =>
    rw [List.foldl_cons, addDelimited, if_neg h, ih (by simp), List.flatMap_cons, List.append_assoc]

theorem intercalate_cons_eq (d : UInt8) (piece : Octets) (pieces : List Octets) :
    [d].intercalate (piece :: pieces) = piece ++ pieces.flatMap (d :: ·) := by
  induction pieces generalizing piece with
  | nil => simp
  | cons p ps ih =>
    rw [List.intercalate_cons_cons, ih p, List.flatMap_cons]
    simp

/-- After a piece that is not empty every piece gets its delimiter. -/
theorem joinDelimited_cons (d : UInt8) {piece : Octets} (h : piece ≠ []) (pieces : List Octets) :
    joinDelimited d (piece :: pieces) = [d].intercalate (piece :: pieces) := by
  rw [joinDelimited, List.foldl_cons, addDelimited, if_pos rfl, foldl_addDelimited h, intercalate_cons_eq]

/-- Pieces that are not empty end up with delimiters between them. -/
theorem joinDelimited_eq (d : UInt8) {pieces : List Octets} (h : [] ∉ pieces) :
    joinDelimited d pieces = [d].intercalate pieces := by
  cases pieces with
  | nil => rfl
  | cons piece pieces =>
    apply joinDelimited_cons
    rintro rfl
    exact h List.mem_cons_self

theorem length_joinDelimited_le (d : UInt8) (pieces : List Octets) :
    (joinDelimited d pieces).length ≤ ([d].intercalate pieces).length := by
  induction pieces with
  | nil => exact Nat.le_refl _
  | cons piece pieces ih =>
    by_cases h : piece = []
    · subst h
      refine Nat.le_trans (show _ ≤ _ from ih) ?_
      cases pieces with
      | nil => exact Nat.le_refl _
      | cons p ps =>
        rw [List.intercalate_cons_cons, List.nil_append, List.singleton_append]
        exact Nat.le_succ _
    · exact Nat.le_of_eq (congrArg List.length (joinDelimited_cons d h pieces))

/-- Only an empty first piece loses the delimiter after it. -/
theorem joinDelimited_eq_iff (d : UInt8) (pieces : List Octets) :
    joinDelimited d pieces = [d].intercalate pieces ↔ (pieces.head? = some [] → pieces.length ≤ 1) := by
  rcases pieces with _ | ⟨piece, _ | ⟨next, pieces⟩⟩
  · exact iff_of_true rfl fun _ => Nat.zero_le _
  · exact iff_of_true (by simp [joinDelimited, addDelimited]) fun _ => Nat.le_refl _
  · by_cases h : piece = []
    · subst h
      refine iff_of_false ?_ fun hlength => absurd (hlength rfl) (by simp)
      intro heq
      have hle := length_joinDelimited_le d (next :: pieces)
      have : joinDelimited d ([] :: next :: pieces) = joinDelimited d (next :: pieces) := rfl
      rw [← this, heq, List.intercalate_cons_cons, List.nil_append, List.singleton_append] at hle
      exact absurd hle (Nat.not_succ_le_self _)
    · exact iff_of_true (joinDelimited_cons d h _) fun hhead => absurd (Option.some_inj.1 hhead) h

/-- `AIS::Util::StringTokens`: what of the string is still unread. -/
structure StringTokens where
  unread : Octets
  deriving DecidableEq

namespace StringTokens

def hasMoreTokens (t : StringTokens) : Bool := !t.unread.isEmpty

/-- The text up to the next delimiter or the end, and the tokens after that
delimiter. -/
def nextToken (t : StringTokens) (delimiter : UInt8) : Octets × StringTokens :=
  (t.unread.takeWhile (· ≠ delimiter), ⟨(t.unread.dropWhile (· ≠ delimiter)).drop 1⟩)

def rest (t : StringTokens) : Octets := t.unread

theorem nextToken_length (t : StringTokens) (d : UInt8) (h : t.hasMoreTokens = true) :
    (t.nextToken d).2.unread.length < t.unread.length := by
  have hne : t.unread ≠ [] := by simpa [hasMoreTokens] using h
  have hpos := List.length_pos_iff.2 hne
  have hle := (List.dropWhile_suffix (l := t.unread) (fun x => decide (x ≠ d))).length_le
  simp only [nextToken, List.length_drop]
  omega

/-- A text without the delimiter, and whatever follows it. -/
theorem nextToken_split {d : UInt8} {token : Octets} (h : d ∉ token) (tail : Octets) :
    (⟨token ++ tail⟩ : StringTokens).nextToken d =
      (token ++ tail.takeWhile (· ≠ d), ⟨(tail.dropWhile (· ≠ d)).drop 1⟩) := by
  have hall : ∀ x ∈ token, decide (x ≠ d) = true := by
    intro x hx
    rw [decide_eq_true_eq]
    rintro rfl
    exact h hx
  rw [nextToken, List.takeWhile_append_of_pos hall, List.dropWhile_append_of_pos hall]

/-- A token that ends at a delimiter. -/
theorem nextToken_append {d : UInt8} {token : Octets} (h : d ∉ token) (rest : Octets) :
    (⟨token ++ d :: rest⟩ : StringTokens).nextToken d = (token, ⟨rest⟩) := by
  rw [nextToken_split h]
  simp

/-- A token that ends with the string. -/
theorem nextToken_last {d : UInt8} {token : Octets} (h : d ∉ token) :
    (⟨token⟩ : StringTokens).nextToken d = (token, ⟨[]⟩) := by
  simpa using nextToken_split h []

/-- Every token a loop over `nextToken` gets. A delimiter at the end of the
string is followed by no token. -/
def tokens (t : StringTokens) (delimiter : UInt8) : List Octets :=
  if _h : t.hasMoreTokens = true then (t.nextToken delimiter).1 :: (t.nextToken delimiter).2.tokens delimiter else []
termination_by t.unread.length
decreasing_by exact nextToken_length t delimiter _h

theorem tokens_of_more {t : StringTokens} {d : UInt8} (h : t.hasMoreTokens = true) :
    t.tokens d = (t.nextToken d).1 :: (t.nextToken d).2.tokens d := by
  rw [tokens, dif_pos h]

theorem tokens_of_done {t : StringTokens} {d : UInt8} (h : ¬ t.hasMoreTokens = true) : t.tokens d = [] := by
  rw [tokens, dif_neg h]

theorem not_mem_of_mem_tokens {t : StringTokens} {d : UInt8} : ∀ token ∈ t.tokens d, d ∉ token := by
  fun_induction tokens t d with
  | case1 t hmore ih =>
    intro token htoken hd
    rcases List.mem_cons.1 htoken with rfl | htoken
    · exact of_decide_eq_true (List.all_eq_true.1 List.all_takeWhile d hd) rfl
    · exact ih token htoken hd
  | case2 t hdone => exact fun _ h => nomatch h

/-- A word by itself. -/
theorem tokens_single {d : UInt8} {token : Octets} (h : d ∉ token) (hne : token ≠ []) :
    (⟨token⟩ : StringTokens).tokens d = [token] := by
  rw [tokens_of_more (by simpa [hasMoreTokens] using hne), nextToken_last h, tokens_of_done (by simp [hasMoreTokens])]

/-- The pieces of a text that does not end with a delimiter. -/
theorem tokens_intercalate {d : UInt8} {pieces : List Octets} (h : ∀ piece ∈ pieces, d ∉ piece)
    (hlast : pieces.getLast? ≠ some []) : (⟨[d].intercalate pieces⟩ : StringTokens).tokens d = pieces := by
  induction pieces with
  | nil => exact tokens_of_done (by simp [hasMoreTokens])
  | cons piece pieces ih =>
    have hpiece := h piece (by simp)
    cases pieces with
    | nil =>
      rw [List.intercalate_singleton]
      exact tokens_single hpiece (by simpa using hlast)
    | cons next pieces =>
      have hmore : (⟨piece ++ d :: [d].intercalate (next :: pieces)⟩ : StringTokens).hasMoreTokens = true := by
        simp [hasMoreTokens]
      rw [List.intercalate_cons_cons, List.append_assoc, List.singleton_append, tokens_of_more hmore,
        nextToken_append hpiece, ih (fun p hp => h p (by simp [hp])) (by simpa using hlast)]

end StringTokens

end KineIRCd

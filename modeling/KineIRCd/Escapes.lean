import KineIRCd.Conversion
import KineIRCd.LanguageFiles
import KineIRCd.Lib.Weights
import Mathlib.Algebra.Order.Group.Defs
import Mathlib.Algebra.Order.Group.Int
import Mathlib.Algebra.Order.Group.Nat
/-!
# The data of a line, decoded

What a line of a language file says is written down here over its characters:
pieces, and the text of each piece. `loadFile` substitutes before it converts,
octet by octet, so what it makes of a piece are octets (`substitute_pieces`),
and they have to be UTF-8 with all the rest of the line.

Only pieces that come to one ASCII character or are copied survive that.
`decodes_iff` weighs the octets of a line against the text: none of the other
pieces can be made up for elsewhere.
-/
namespace KineIRCd

open Utf8

namespace LangTags

/-! ## What the data says -/

/-- The letters of escapes, but for the one of a new section. -/
def documented : List (WChar × WChar) :=
  [(0x5C, 0x5C), (0x62, 0o002), (0x63, 0o003), (0x43, 0o004), (0x66, 0o006), (0x67, 0o007), (0x69, 0o035), (0x6F, 0o017),
    (0x72, 0o026), (0x73, 0o040), (0x74, 0o011), (0x75, 0o037)]

inductive Piece where
  | percent
  | marker
  | number (d e f : WChar)
  | escape (c : WChar)
  /-- A backslash at the end. -/
  | backslash
  | plain (c : WChar)
  deriving DecidableEq

/-- The first piece of a text that starts at `c`, and what follows it. -/
def firstPiece (c : WChar) (rest : WString) : Piece × WString :=
  if c = 0x25 then
    if rest.head? = some 0x25 then (.percent, rest.tail) else (.marker, rest)
  else if c = 0x5C then
    match rest with
    | d :: e :: f :: rest' => if isDigit d && isDigit e && isDigit f then (.number d e f, rest') else (.escape d, e :: f :: rest')
    | d :: rest' => (.escape d, rest')
    | [] => (.backslash, [])
  else (.plain c, rest)

def piecesLoop : Nat → WString → List Piece
  | 0, _ => []
  | _ + 1, [] => []
  | n + 1, c :: rest => (firstPiece c rest).1 :: piecesLoop n (firstPiece c rest).2

def pieces (text : WString) : List Piece := piecesLoop text.length text

def isOctal (c : WChar) : Bool := 0x30 ≤ c && c ≤ 0x37

/-- The value of three octal digits. -/
def octalValue (d e f : WChar) : Nat := (d.toNat - 0x30) * 64 + (e.toNat - 0x30) * 8 + (f.toNat - 0x30)

/-- What an invalid number and a null character come to: some text without a marker. -/
structure Replacement where
  text : Piece → WString
  ne_nil : ∀ piece, text piece ≠ []
  not_mem : ∀ piece, parameterMarkerChar.toUInt32 ∉ text piece

namespace Replacement

/-- A character that is copied, as far as texts may show it. -/
def copied (replacement : Replacement) (c : WChar) : WString :=
  if c = 0 then replacement.text (.plain c) else [munge c]

def decoded (replacement : Replacement) : Piece → WString
  | .percent => [0x25]
  | .marker => [parameterMarkerChar.toUInt32]
  | .number d e f =>
    if isOctal d ∧ isOctal e ∧ isOctal f ∧ 0 < octalValue d e f ∧ octalValue d e f < 256 then
      [munge (UInt32.ofNat (octalValue d e f))]
    else replacement.text (.number d e f)
  | .escape c =>
    if c = 0x6E then [newLineMarkerChar.toUInt32]
    else
      match documented.lookup c with
      | some code => [code]
      | none => 0x5C :: replacement.copied c
  | .backslash => [0x5C]
  | .plain c => replacement.copied c

/-- The text that the data of a line says. -/
def decode (replacement : Replacement) (text : WString) : WString := (pieces text).flatMap replacement.decoded

end Replacement

/-! ## What the loop makes of it -/

section
variable {m n : Nat} {c d : UInt8} {rest data tail : Octets}

theorem substituteRound_length_le (c : UInt8) (rest : Octets) : (substituteRound c rest).2.2.length ≤ rest.length := by
  unfold substituteRound
  split_ifs
  · simp
  · simp
  · split
    · split_ifs
      · simp only [List.length_cons]
        omega
      · exact Nat.le_succ _
    · exact Nat.le_succ _
    · exact Nat.le_refl _
  · exact Nat.le_refl _

theorem substituteLoop_eq (hm : data.length ≤ m) (hn : data.length ≤ n) : substituteLoop m data = substituteLoop n data := by
  induction m generalizing n data with
  | zero =>
    obtain rfl := List.length_eq_zero_iff.1 (Nat.le_zero.1 hm)
    cases n <;> rfl
  | succ m ih =>
    cases data with
    | nil => cases n <;> rfl
    | cons c rest =>
      cases n with
      | zero => simp at hn
      | succ n =>
        have hle := substituteRound_length_le c rest
        simp only [List.length_cons, Nat.add_le_add_iff_right] at hm hn
        rw [substituteLoop, substituteLoop, ih (Nat.le_trans hle hm) (Nat.le_trans hle hn)]

/-- The line that the loop makes, round by round. -/
theorem substitute_cons (c : UInt8) (rest : Octets) :
    (substitute (c :: rest)).1 = (substituteRound c rest).1 ++ (substitute (substituteRound c rest).2.2).1 := by
  rw [substitute, List.length_cons, substituteLoop, substitute,
    substituteLoop_eq (substituteRound_length_le c rest) (Nat.le_refl _)]

theorem substitute_copy (hpercent : c ≠ 0x25) (hbackslash : c ≠ 0x5C) (rest : Octets) :
    (substitute (c :: rest)).1 = c :: (substitute rest).1 := by
  have hround : substituteRound c rest = ([c], [c], rest) := by
    unfold substituteRound
    rw [if_neg hpercent, if_neg hbackslash]
  rw [substitute_cons, hround, List.singleton_append]

/-- What goes on with a character is copied. -/
theorem substitute_tail (h : ∀ o ∈ tail, isTail o) (rest : Octets) :
    (substitute (tail ++ rest)).1 = tail ++ (substitute rest).1 := by
  induction tail with
  | nil => rfl
  | cons o tail ih =>
    have ho : isTail o = true := h o (by simp)
    rw [List.cons_append, substitute_copy, ih fun x hx => h x (by simp [hx]), List.cons_append]
    · rintro rfl
      cases ho
    · rintro rfl
      cases ho

/-- The characters of a number are at the front. -/
def startsNumber {κ : Type} (isDigit : κ → Bool) : List κ → Bool
  | d :: e :: f :: _ => isDigit d && isDigit e && isDigit f
  | _ => false

theorem substituteRound_number {d e f : UInt8} (h : startsNumber isDigitOctet (d :: e :: f :: rest)) :
    (substitute (0x5C :: d :: e :: f :: rest)).1 = escaped (octal [d, e, f]) :: (substitute rest).1 := by
  have hround : substituteRound 0x5C (d :: e :: f :: rest) =
      ([escaped (octal [d, e, f])], [0x5C, d, e, escaped (octal [d, e, f])], rest) := by
    unfold substituteRound
    rw [if_neg (by decide), if_pos rfl]
    exact if_pos h
  rw [substitute_cons, hround, List.singleton_append]

theorem substituteRound_escape (h : startsNumber isDigitOctet (d :: rest) = false) :
    (substitute (0x5C :: d :: rest)).1 = (substitutionMap.lookup d).toList ++ (substitute rest).1 := by
  have hround : substituteRound 0x5C (d :: rest) = ((substitutionMap.lookup d).toList, [0x5C, d], rest) := by
    unfold substituteRound
    rw [if_neg (by decide), if_pos rfl]
    match rest with
    | [] => rfl
    | [_] => rfl
    | e :: f :: rest => exact if_neg (by rw [show (isDigitOctet d && isDigitOctet e && isDigitOctet f) = false from h]; decide)
  rw [substitute_cons, hround]

theorem firstPiece_escape {d : WChar} {rest : WString} (h : startsNumber isDigit (d :: rest) = false) :
    firstPiece 0x5C (d :: rest) = (.escape d, rest) := by
  unfold firstPiece
  rw [if_neg (by decide), if_pos rfl]
  match rest with
  | [] => rfl
  | [_] => rfl
  | e :: f :: rest => exact if_neg (by rw [show (isDigit d && isDigit e && isDigit f) = false from h]; decide)

end

/-- The octets that a piece comes to. -/
def Chunk (chunk : Octets) : Piece → Prop
  | .percent => chunk = [0x25]
  | .marker => chunk = [parameterMarkerChar]
  | .number d e f => chunk = [escaped (octal [d.toUInt8, e.toUInt8, f.toUInt8])]
  | .escape c =>
    if c = 0x6E then chunk = [newLineMarkerChar]
    else
      match documented.lookup c with
      | some code => chunk = [code.toUInt8]
      | none => ∀ o ∈ chunk, isTail o
  | .backslash => chunk = []
  | .plain c => Sequence chunk c

section
variable {data : Octets} {text : WString} {c : WChar} {o : UInt8}

theorem isDigit_lt (h : isDigit c) : c < 0x80 := by
  unfold isDigit at h
  grind

section
variable {d e f : WChar} (hnumber : startsNumber isDigit (d :: e :: f :: text))
include hnumber

theorem startsNumber_octets {rest : Octets} : startsNumber isDigitOctet (d.toUInt8 :: e.toUInt8 :: f.toUInt8 :: rest) := by
  obtain ⟨⟨hd, he⟩, hf⟩ : (isDigit d ∧ isDigit e) ∧ isDigit f := by simpa [startsNumber] using hnumber
  simp only [startsNumber, isDigitOctet, toUInt32_toUInt8 (isDigit_lt hd), toUInt32_toUInt8 (isDigit_lt he),
    toUInt32_toUInt8 (isDigit_lt hf), hd, he, hf, Bool.and_true]

theorem utf8_number (h : Utf8 data (d :: e :: f :: text)) :
    ∃ rest, data = d.toUInt8 :: e.toUInt8 :: f.toUInt8 :: rest ∧ Utf8 rest text := by
  obtain ⟨⟨hd, he⟩, hf⟩ : (isDigit d ∧ isDigit e) ∧ isDigit f := by simpa [startsNumber] using hnumber
  obtain ⟨_, rfl, h₁⟩ := (utf8_cons_ascii (isDigit_lt hd)).1 h
  obtain ⟨_, rfl, h₂⟩ := (utf8_cons_ascii (isDigit_lt he)).1 h₁
  obtain ⟨rest, rfl, h₃⟩ := (utf8_cons_ascii (isDigit_lt hf)).1 h₂
  exact ⟨rest, rfl, h₃⟩

end

/-- Three digits are three digits, in octets as in characters. -/
theorem startsNumber_eq (h : Utf8 data text) : startsNumber isDigitOctet data = startsNumber isDigit text := by
  rw [Bool.eq_iff_iff]
  constructor
  · intro hdata
    match data, hdata with
    | d :: e :: f :: data, hdata =>
      have hdigits : (isDigit d.toUInt32 ∧ isDigit e.toUInt32) ∧ isDigit f.toUInt32 := by
        simpa [startsNumber, isDigitOctet] using hdata
      obtain ⟨_, rfl, h₁⟩ := h.of_ascii (UInt8.toUInt32_lt.1 (isDigit_lt hdigits.1.1))
      obtain ⟨_, rfl, h₂⟩ := h₁.of_ascii (UInt8.toUInt32_lt.1 (isDigit_lt hdigits.1.2))
      obtain ⟨_, rfl, -⟩ := h₂.of_ascii (UInt8.toUInt32_lt.1 (isDigit_lt hdigits.2))
      simp [startsNumber, hdigits]
  · intro htext
    match text, htext with
    | d :: e :: f :: text, htext =>
      obtain ⟨rest, rfl, -⟩ := utf8_number htext h
      rw [startsNumber_octets htext]

theorem toList_lookup_ascii (hc : c < 0x80) :
    (substitutionMap.lookup c.toUInt8).toList =
      if c = 0x6E then [newLineMarkerChar] else ((documented.lookup c).map UInt32.toUInt8).toList := by
  have hall : ∀ n : Fin 128, (substitutionMap.lookup (UInt32.ofNat n).toUInt8).toList =
      if UInt32.ofNat n = 0x6E then [newLineMarkerChar]
      else ((documented.lookup (UInt32.ofNat n)).map UInt32.toUInt8).toList := by
    decide +kernel
  have hback : UInt32.ofNat c.toNat = c := by simp
  rw [← hback]
  exact hall ⟨c.toNat, hc⟩

theorem lookup_none_of_all {κ μ : Type} [BEq κ] [LawfulBEq κ] {table : List (κ × μ)} {p : κ → Bool} {k : κ}
    (hall : table.all fun x => p x.1) (hk : p k = false) : table.lookup k = none := by
  rw [List.lookup_eq_none_iff]
  intro x hx
  have hp := List.all_eq_true.1 hall x hx
  apply bne_iff_ne.2
  rintro rfl
  exact absurd (hk.symm.trans hp) nofun

theorem lookup_substitutionMap_none (ho : 0xC2 ≤ o) : substitutionMap.lookup o = none :=
  lookup_none_of_all (p := (· < 0xC2)) (by decide) (decide_eq_false (UInt8.not_lt.2 ho))

theorem lookup_documented_none (hc : 0x80 ≤ c) : documented.lookup c = none :=
  lookup_none_of_all (p := (· < 0x80)) (by decide) (decide_eq_false (UInt32.not_lt.2 hc))

theorem chunk_escape_ascii (hc : c < 0x80) : Chunk (substitutionMap.lookup c.toUInt8).toList (.escape c) := by
  rw [toList_lookup_ascii hc]
  by_cases hn : c = 0x6E
  · simp [Chunk, hn]
  · cases hcode : documented.lookup c with
    | none => simp [Chunk, hn, hcode]
    | some code => simp [Chunk, hn, hcode]

theorem chunk_escape_tail {tail : Octets} (hc : 0x80 ≤ c) (htail : ∀ x ∈ tail, isTail x) : Chunk tail (.escape c) := by
  have hn : c ≠ 0x6E := by
    rintro rfl
    exact absurd hc (by decide)
  simpa [Chunk, hn, lookup_documented_none hc] using htail

/-- An escape, whatever character it is that is escaped. -/
theorem substitute_escape (h : Utf8 data (c :: text)) (hnumber : startsNumber isDigit (c :: text) = false) :
    ∃ chunk rest, Chunk chunk (.escape c) ∧ Utf8 rest text ∧ (substitute (0x5C :: data)).1 = chunk ++ (substitute rest).1 := by
  rw [← startsNumber_eq h] at hnumber
  rcases h with _ | ⟨hseq, hdata⟩
  rcases hseq.form with ⟨hc, rfl⟩ | ⟨hc, o, tail, rfl, ho, -, htail⟩
  · exact ⟨_, _, chunk_escape_ascii hc, hdata, substituteRound_escape hnumber⟩
  · -- its first octet is dropped with the backslash, and the others are copied
    refine ⟨tail, _, chunk_escape_tail hc htail, hdata, ?_⟩
    refine (substituteRound_escape hnumber).trans ?_
    rw [lookup_substitutionMap_none ho]
    exact substitute_tail htail _

/-- After a percentage sign. -/
theorem substitute_percent (h : Utf8 data text) : ∃ chunk rest, Chunk chunk (firstPiece 0x25 text).1 ∧
    Utf8 rest (firstPiece 0x25 text).2 ∧ (substitute (0x25 :: data)).1 = chunk ++ (substitute rest).1 := by
  by_cases hnext : text.head? = some 0x25
  · obtain ⟨text, rfl⟩ := List.head?_eq_some_iff.1 hnext
    obtain ⟨rest, rfl, hrest⟩ := (utf8_cons_ascii (by decide)).1 h
    exact ⟨[0x25], rest, rfl, hrest, substitute_cons _ _⟩
  · have hoctet : data.head? ≠ some 0x25 := by
      intro hhead
      obtain ⟨data, rfl⟩ := List.head?_eq_some_iff.1 hhead
      obtain ⟨text, rfl, -⟩ := h.of_ascii (by decide)
      exact hnext rfl
    have hpiece : firstPiece 0x25 text = (.marker, text) := by
      unfold firstPiece
      rw [if_pos rfl, if_neg hnext]
    have hround : substituteRound 0x25 data = ([parameterMarkerChar], [0x25], data) := by
      unfold substituteRound
      rw [if_pos rfl, if_neg hoctet]
    rw [hpiece, substitute_cons, hround]
    exact ⟨[parameterMarkerChar], data, rfl, h, rfl⟩

/-- After a backslash. -/
theorem substitute_backslash (h : Utf8 data text) : ∃ chunk rest, Chunk chunk (firstPiece 0x5C text).1 ∧
    Utf8 rest (firstPiece 0x5C text).2 ∧ (substitute (0x5C :: data)).1 = chunk ++ (substitute rest).1 := by
  cases hnumber : startsNumber isDigit text with
  | true =>
    match text, hnumber with
    | d :: e :: f :: text, hnumber =>
      obtain ⟨rest, rfl, hrest⟩ := utf8_number hnumber h
      have hpiece : firstPiece 0x5C (d :: e :: f :: text) = (.number d e f, text) := by
        unfold firstPiece
        rw [if_neg (by decide), if_pos rfl]
        exact if_pos hnumber
      rw [hpiece]
      exact ⟨_, rest, rfl, hrest, substituteRound_number (startsNumber_octets hnumber)⟩
  | false =>
    cases text with
    | nil =>
      cases h
      exact ⟨[], [], rfl, .nil, rfl⟩
    | cons d text =>
      rw [firstPiece_escape hnumber]
      exact substitute_escape h hnumber

/-- Any other character is copied, octet by octet. -/
theorem substitute_sequence {seq : Octets} (hseq : Sequence seq c) (hpercent : c ≠ 0x25) (hbackslash : c ≠ 0x5C)
    (rest : Octets) : (substitute (seq ++ rest)).1 = seq ++ (substitute rest).1 := by
  rcases hseq.form with ⟨hc, rfl⟩ | ⟨-, o, tail, rfl, ho, -, htail⟩
  · have hoctet {o : UInt8} (hne : c ≠ o.toUInt32) : c.toUInt8 ≠ o := by
      rintro rfl
      exact hne (toUInt32_toUInt8 hc).symm
    exact substitute_copy (hoctet hpercent) (hoctet hbackslash) rest
  · rw [List.cons_append, substitute_copy (by grind) (by grind), substitute_tail htail, List.cons_append]

/-- One piece: its octets come first in the line, and what is left is valid. -/
theorem substitute_firstPiece (h : Utf8 data (c :: text)) : ∃ chunk rest, Chunk chunk (firstPiece c text).1 ∧
    Utf8 rest (firstPiece c text).2 ∧ (substitute data).1 = chunk ++ (substitute rest).1 := by
  by_cases hpercent : c = 0x25
  · subst hpercent
    obtain ⟨data, rfl, hdata⟩ := (utf8_cons_ascii (by decide)).1 h
    exact substitute_percent hdata
  by_cases hbackslash : c = 0x5C
  · subst hbackslash
    obtain ⟨data, rfl, hdata⟩ := (utf8_cons_ascii (by decide)).1 h
    exact substitute_backslash hdata
  have hpiece : firstPiece c text = (.plain c, text) := by
    unfold firstPiece
    rw [if_neg hpercent, if_neg hbackslash]
  rw [hpiece]
  rcases h with _ | ⟨hseq, hdata⟩
  exact ⟨_, _, hseq, hdata, substitute_sequence hseq hpercent hbackslash _⟩

end

theorem firstPiece_length_le (c : WChar) (rest : WString) : (firstPiece c rest).2.length ≤ rest.length := by
  unfold firstPiece
  split_ifs
  · simp
  · exact Nat.le_refl _
  · split
    · split_ifs
      · simp only [List.length_cons]
        omega
      · exact Nat.le_succ _
    · exact Nat.le_succ _
    · exact Nat.le_refl _
  · exact Nat.le_refl _

/-- The line that the loop makes of valid data are the octets of its pieces. -/
theorem substitute_pieces {data : Octets} {text : WString} (h : Utf8 data text) :
    ∃ chunks, (substitute data).1 = chunks.flatten ∧ List.Forall₂ Chunk chunks (pieces text) := by
  suffices hloop : ∀ (n : Nat) (data : Octets) (text : WString), Utf8 data text → text.length ≤ n →
      ∃ chunks, (substitute data).1 = chunks.flatten ∧ List.Forall₂ Chunk chunks (piecesLoop n text) from
    hloop _ _ _ h (Nat.le_refl _)
  intro n
  induction n with
  | zero =>
    intro data text h hn
    obtain rfl := List.length_eq_zero_iff.1 (Nat.le_zero.1 hn)
    cases h
    exact ⟨[], rfl, .nil⟩
  | succ n ih =>
    intro data text h hn
    cases text with
    | nil =>
      cases h
      exact ⟨[], rfl, .nil⟩
    | cons c text =>
      obtain ⟨chunk, rest, hchunk, hrest, hline⟩ := substitute_firstPiece h
      have hle := firstPiece_length_le c text
      rw [List.length_cons] at hn
      obtain ⟨chunks, hchunks, hpieces⟩ := ih rest _ hrest (by omega)
      exact ⟨chunk :: chunks, by rw [hline, hchunks, List.flatten_cons], .cons hchunk hpieces⟩

/-! ## Weighing -/

/-- What the loop leaves whole: a piece that comes to one ASCII character, or that is copied. -/
def Piece.Kept : Piece → Prop
  | .percent | .marker => True
  | .number d e f => 0 < octal [d.toUInt8, e.toUInt8, f.toUInt8] ∧ octal [d.toUInt8, e.toUInt8, f.toUInt8] < 0x80
  | .escape c => (documented.lookup c).isSome
  | .backslash => False
  | .plain c => c ≠ 0

instance (piece : Piece) : Decidable piece.Kept :=
  match piece with
  | .percent | .marker => .isTrue trivial
  | .number _ _ _ => inferInstanceAs (Decidable (_ ∧ _))
  | .escape c => inferInstanceAs (Decidable ((documented.lookup c).isSome = true))
  | .backslash => .isFalse id
  | .plain c => inferInstanceAs (Decidable (c ≠ 0))

theorem munge_eq_zero (c : WChar) : munge c = 0 ↔ c = 0 := by
  unfold munge replacementCharacterGlyph
  grind

theorem count_map_munge (read : WString) : (read.map munge).count 0 = read.count 0 := by
  rw [List.count_eq_countP, List.countP_map, List.count_eq_countP]
  congr 1
  funext c
  simp [munge_eq_zero]

section
variable {replacement : Replacement} {chunk : Octets} {piece : Piece}

theorem length_decoded_pos (replacement : Replacement) (piece : Piece) : 0 < (replacement.decoded piece).length := by
  have hreplaced (piece : Piece) : 0 < (replacement.text piece).length :=
    List.length_pos_iff.2 (replacement.ne_nil piece)
  cases piece with
  | percent | marker | backslash => exact Nat.one_pos
  | number d e f =>
    rw [Replacement.decoded]
    split_ifs
    · exact Nat.one_pos
    · exact hreplaced _
  | escape c =>
    rw [Replacement.decoded]
    split_ifs
    · exact Nat.one_pos
    · split
      · exact Nat.one_pos
      · exact Nat.succ_pos _
  | plain c =>
    rw [Replacement.decoded, Replacement.copied]
    split_ifs
    · exact hreplaced _
    · exact Nat.one_pos

theorem not_mem_copied (replacement : Replacement) (c : WChar) : 0 ∉ replacement.copied c := by
  rw [Replacement.copied]
  split_ifs with hc
  · exact replacement.not_mem _
  · rw [List.mem_singleton, eq_comm, munge_eq_zero]
    exact hc

theorem documented_code {c code : WChar} (h : documented.lookup c = some code) : code ≠ 0 ∧ code < 0x80 ∧ munge code = code := by
  have hall : (documented.all fun p => p.2 ≠ 0 ∧ p.2 < 0x80 ∧ munge p.2 = p.2) = true := by decide
  obtain ⟨before, after, hmem, -⟩ := List.lookup_eq_some_iff.1 h
  exact of_decide_eq_true (List.all_eq_true.1 hall (c, code) (by rw [hmem]; simp))

theorem ofNat_ne_zero {value : Nat} (hpos : 0 < value) (hlt : value < 256) : UInt32.ofNat value ≠ 0 := by
  rw [Ne, ← UInt32.toNat_inj, UInt32.toNat_ofNat_of_lt' (Nat.lt_trans hlt (by decide))]
  exact Nat.ne_of_gt hpos

/-- Only markers have the character of a marker. -/
theorem not_mem_decoded (h : piece ≠ .marker) : 0 ∉ replacement.decoded piece := by
  cases piece with
  | percent | backslash =>
    rw [Replacement.decoded]
    decide
  | marker => exact absurd rfl h
  | number d e f =>
    rw [Replacement.decoded]
    split_ifs with hvalue
    · rw [List.mem_singleton, eq_comm, munge_eq_zero]
      exact ofNat_ne_zero hvalue.2.2.2.1 hvalue.2.2.2.2
    · exact replacement.not_mem _
  | escape c =>
    rw [Replacement.decoded]
    split_ifs
    · decide
    · split
      · rename_i code hcode
        simpa [eq_comm] using (documented_code hcode).1
      · simpa using not_mem_copied replacement c
  | plain c => exact not_mem_copied replacement c

variable (replacement) in
/-- The octets of a piece that is not kept weigh another null character, or too few
characters, or start a character that they do not go on with. -/
inductive Weighed (chunk : Octets) (piece : Piece) : Prop
  | kept (hkept : piece.Kept) (hnull : chunk.count 0 = (replacement.decoded piece).count 0)
    (hlength : chunk.countP (!isTail ·) ≤ (replacement.decoded piece).length) (hbalance : balance chunk = 0)
  | null (hnull : (replacement.decoded piece).count 0 < chunk.count 0)
  | short (hnull : chunk.count 0 = (replacement.decoded piece).count 0)
    (hlength : chunk.countP (!isTail ·) < (replacement.decoded piece).length)
  | started (hnull : chunk.count 0 = (replacement.decoded piece).count 0)
    (hlength : chunk.countP (!isTail ·) ≤ (replacement.decoded piece).length) (hbalance : 0 < balance chunk)

theorem weighed_tail (hpiece : piece ≠ .marker) (h : ∀ o ∈ chunk, isTail o) : Weighed replacement chunk piece := by
  have hcount : (replacement.decoded piece).count 0 = 0 := List.count_eq_zero.2 (not_mem_decoded hpiece)
  have hpos := length_decoded_pos replacement piece
  exact .short (by rw [count_tail h, hcount]) (by rw [countP_tail h]; exact hpos)

theorem weighed_octet {x : UInt8} (hpiece : piece ≠ .marker) (hkept : x ≠ 0 → x < 0x80 → piece.Kept) :
    Weighed replacement [x] piece := by
  have hcount : (replacement.decoded piece).count 0 = 0 := List.count_eq_zero.2 (not_mem_decoded hpiece)
  have hpos := length_decoded_pos replacement piece
  by_cases hzero : x = 0
  · exact .null (by rw [hcount, hzero]; decide)
  · have hnull : [x].count 0 = (replacement.decoded piece).count 0 := by simp [hcount, hzero]
    have hlength : [x].countP (!isTail ·) ≤ (replacement.decoded piece).length :=
      Nat.le_trans List.countP_le_length hpos
    by_cases hascii : x < 0x80
    · exact .kept (hkept hzero hascii) hnull hlength (balance_of_lt hascii)
    · by_cases htail : isTail x
      · exact weighed_tail hpiece (by simpa using htail)
      · have hle : 0xC0 ≤ x := by
          unfold isTail at htail
          grind
        exact .started hnull hlength (balance_of_le hle)

theorem escaped_ascii {value : Nat} (hzero : escaped value ≠ 0) (hascii : escaped value < 0x80) : 0 < value ∧ value < 0x80 := by
  unfold escaped at hzero hascii
  split_ifs at hzero hascii with hvalue
  · refine ⟨hvalue.1, ?_⟩
    have hnat : (UInt8.ofNat value).toNat < 128 := hascii
    rwa [UInt8.toNat_ofNat_of_lt' hvalue.2] at hnat
  · exact absurd rfl hzero

theorem Chunk.weighed (replacement : Replacement) (h : Chunk chunk piece) : Weighed replacement chunk piece := by
  cases piece with
  | percent =>
    obtain rfl : chunk = [0x25] := h
    exact weighed_octet (by decide) fun _ _ => trivial
  | marker =>
    obtain rfl : chunk = [parameterMarkerChar] := h
    exact .kept trivial rfl (Nat.le_refl _) rfl
  | number d e f =>
    obtain rfl : chunk = [escaped (octal [d.toUInt8, e.toUInt8, f.toUInt8])] := h
    exact weighed_octet nofun fun hzero hascii => escaped_ascii hzero hascii
  | escape c =>
    rw [Chunk] at h
    split_ifs at h with hn
    · obtain rfl : chunk = [newLineMarkerChar] := h
      exact weighed_tail nofun (List.forall_mem_singleton.2 rfl)
    · split at h
      · rename_i code hcode
        rw [h]
        refine weighed_octet nofun fun _ _ => ?_
        rw [Piece.Kept, hcode]
        rfl
      · exact weighed_tail nofun h
  | backslash =>
    obtain rfl : chunk = [] := h
    exact weighed_tail nofun nofun
  | plain c =>
    have hseq : Utf8 chunk [c] := by
      have hone := Utf8.cons h .nil
      rwa [List.append_nil] at hone
    by_cases hc : c = 0
    · have hcount : (replacement.decoded (.plain c)).count 0 = 0 := List.count_eq_zero.2 (not_mem_decoded nofun)
      exact .null (by rw [hcount, count_eq hseq, hc]; decide)
    · have hdecoded : replacement.decoded (.plain c) = [munge c] := by rw [Replacement.decoded, Replacement.copied, if_neg hc]
      refine .kept hc ?_ ?_ (balance_eq hseq)
      · rw [count_eq hseq, hdecoded]
        simp [hc, munge_eq_zero]
      · rw [countP_eq hseq, hdecoded]
        exact Nat.le_refl _

end

/-- Valid octets with the characters that the text says come from pieces that are kept. -/
theorem kept_of_utf8 {replacement : Replacement} {chunks : List Octets} {ps : List Piece} {read : WString}
    (hchunks : List.Forall₂ Chunk chunks ps) (hline : Utf8 chunks.flatten read)
    (hread : read.map munge = ps.flatMap replacement.decoded) : ∀ piece ∈ ps, piece.Kept := by
  have hnull : (chunks.map (List.count 0)).sum = (ps.map fun piece => (replacement.decoded piece).count 0).sum := by
    rw [← List.count_flatten, count_eq hline, ← count_map_munge, hread, List.count_flatMap]
    rfl
  have hlength : (chunks.map (List.countP (!isTail ·))).sum = (ps.map fun piece => (replacement.decoded piece).length).sum := by
    rw [← List.countP_flatten, countP_eq hline, ← List.length_map, hread, List.length_flatMap]
  have hbalance : (chunks.map balance).sum = (ps.map fun _ => (0 : Int)).sum := by
    have hflatten (chunks : List Octets) : (chunks.map balance).sum = balance chunks.flatten := by
      induction chunks with
      | nil => rfl
      | cons chunk chunks ih => rw [List.map_cons, List.sum_cons, List.flatten_cons, balance_append, ih]
    rw [hflatten, balance_eq hline]
    simp
  -- no null character too many, then no character too few, then none left open
  have h₁ := Weights.eq_of_sum_le hchunks (fun chunk piece h => by
    cases h.weighed replacement <;> omega) hnull.le
  have h₂ := Weights.eq_of_sum_le h₁.flip (f := fun piece => (replacement.decoded piece).length)
    (g := List.countP (!isTail ·)) (fun piece chunk h => by
      obtain ⟨h, heq⟩ := h
      cases h.weighed replacement <;> omega) hlength.ge
  have h₃ := Weights.eq_of_sum_le h₂.flip (f := balance) (g := fun _ => (0 : Int))
    (fun chunk piece h => by
      obtain ⟨⟨h, heq⟩, heq'⟩ := h
      cases h.weighed replacement <;> omega) hbalance.le
  have hkept : List.Forall₂ (fun (piece : Piece) (_ : Octets) => piece.Kept ∧ True) ps chunks := by
    refine h₃.flip.imp fun piece chunk h => ⟨?_, trivial⟩
    obtain ⟨⟨⟨h, hcount⟩, hlength⟩, hbalance⟩ := h
    cases h.weighed replacement with
    | kept hkept => exact hkept
    | null | short | started => omega
  exact ((List.forall₂_and_left _ _).1 hkept).1

/-! ## What is kept -/

section
variable {d e f : WChar} {value : Nat} {chunk : Octets} {piece : Piece}

theorem octal_eq (hd : isOctal d) (he : isOctal e) (hf : isOctal f) :
    octal [d.toUInt8, e.toUInt8, f.toUInt8] = octalValue d e f := by
  have hdigit {c : WChar} (hc : isOctal c) : c.toUInt8 < 0x38 ∧ c.toUInt8.toNat = c.toNat := by
    simp only [isOctal, Bool.and_eq_true, decide_eq_true_eq, UInt32.le_iff_toNat_le] at hc
    have hhigh : c.toNat ≤ 55 := hc.2
    have hnat : c.toUInt8.toNat = c.toNat := by
      rw [UInt32.toNat_toUInt8]
      omega
    refine ⟨?_, hnat⟩
    rw [UInt8.lt_iff_toNat_lt, hnat]
    exact Nat.lt_succ_of_le hhigh
  obtain ⟨hd, hd'⟩ := hdigit hd
  obtain ⟨he, he'⟩ := hdigit he
  obtain ⟨hf, hf'⟩ := hdigit hf
  simp [octal, List.takeWhile, hd, he, hf, hd', he', hf', octalValue]
  omega

theorem escaped_eq (hpos : 0 < value) (hlt : value < 0x80) :
    escaped value = (UInt32.ofNat value).toUInt8 ∧ UInt32.ofNat value < 0x80 := by
  have hnat : (UInt32.ofNat value).toNat = value := UInt32.toNat_ofNat_of_lt' (Nat.lt_trans hlt (by decide))
  constructor
  · rw [escaped, if_pos ⟨hpos, by omega⟩, ← UInt8.toNat_inj, UInt32.toNat_toUInt8, hnat, UInt8.toNat_ofNat']
  · rw [UInt32.lt_iff_toNat_lt, hnat]
    exact hlt

/-- What the loop has for invalid numbers. Where it has a null character, any other would
do. -/
def Replacement.ofLoop : Replacement where
  text
    | .number d e f =>
      let c := (escaped (octal [d.toUInt8, e.toUInt8, f.toUInt8])).toUInt32
      [if c = 0 then replacementCharacterGlyph else munge c]
    | _ => [replacementCharacterGlyph]
  ne_nil piece := by cases piece <;> exact List.cons_ne_nil _ _
  not_mem piece := by
    cases piece with
    | number d e f =>
      rw [List.mem_singleton]
      split_ifs with hzero
      · decide
      · rw [eq_comm]
        exact (munge_eq_zero _).not.2 hzero
    | _ =>
      rw [List.mem_singleton]
      decide

/-- A piece that is kept is one character, the one that the text says. -/
theorem Chunk.sequence (h : Chunk chunk piece) (hkept : piece.Kept) :
    ∃ c, Sequence chunk c ∧ Replacement.ofLoop.decoded piece = [munge c] := by
  cases piece with
  | percent =>
    obtain rfl : chunk = [0x25] := h
    exact ⟨0x25, sequence_ascii (c := 0x25) (by decide), rfl⟩
  | marker =>
    obtain rfl : chunk = [parameterMarkerChar] := h
    exact ⟨0, sequence_ascii (c := 0) (by decide), rfl⟩
  | number d e f =>
    obtain rfl : chunk = [escaped (octal [d.toUInt8, e.toUInt8, f.toUInt8])] := h
    obtain ⟨hescaped, hascii⟩ := escaped_eq hkept.1 hkept.2
    refine ⟨_, by rw [hescaped]; exact sequence_ascii hascii, ?_⟩
    rw [Replacement.decoded]
    split_ifs with hvalue
    · rw [octal_eq hvalue.1 hvalue.2.1 hvalue.2.2.1]
    · have hne : UInt32.ofNat (octal [d.toUInt8, e.toUInt8, f.toUInt8]) ≠ 0 := by
        exact ofNat_ne_zero hkept.1 (Nat.lt_trans hkept.2 (by decide))
      show [if _ then _ else _] = _
      rw [hescaped, toUInt32_toUInt8 hascii, if_neg hne]
  | escape c =>
    obtain ⟨code, hcode⟩ := Option.isSome_iff_exists.1 hkept
    obtain ⟨-, hascii, hmunge⟩ := documented_code hcode
    have hn : c ≠ 0x6E := by
      rintro rfl
      cases hcode
    rw [Chunk, if_neg hn, hcode] at h
    obtain rfl : chunk = [code.toUInt8] := h
    refine ⟨code, sequence_ascii hascii, ?_⟩
    rw [Replacement.decoded, if_neg hn, hcode, hmunge]
  | backslash => exact hkept.elim
  | plain c =>
    refine ⟨c, h, ?_⟩
    rw [Replacement.decoded, Replacement.copied, if_neg hkept]

/-- So a line of such pieces is valid, with the characters that the text says. -/
theorem utf8_of_kept {chunks : List Octets} {ps : List Piece} (h : List.Forall₂ Chunk chunks ps)
    (hkept : ∀ piece ∈ ps, piece.Kept) :
    ∃ read : WString, Utf8 chunks.flatten read ∧ read.map munge = ps.flatMap Replacement.ofLoop.decoded := by
  induction h with
  | nil => exact ⟨[], .nil, rfl⟩
  | @cons chunk piece chunks ps hchunk _ ih =>
    obtain ⟨c, hseq, hdecoded⟩ := hchunk.sequence (hkept piece (by simp))
    obtain ⟨read, hline, hread⟩ := ih fun p hp => hkept p (by simp [hp])
    exact ⟨c :: read, .cons hseq hline, by rw [List.map_cons, hread, List.flatMap_cons, hdecoded]; rfl⟩

end

end LangTags

open LangTags

namespace Languages
variable {δ : Type} {outside : Outside δ} {desc : δ} {line tag data : Octets} {text : WString}

/-- `loadFile` reads the line as the text that its data says. -/
def Decodes (outside : Outside δ) (desc : δ) (line tag data : Octets) (text : WString) : Prop :=
  ∃ (replacement : Replacement) (rounds : Nat),
    (readLines { outside with rounds := rounds } (some desc) [line]).1 = [⟨tag, (substitute data).2, replacement.decode text⟩]

/-- That is the text that the loop stores. -/
theorem Decodes.loadLines (h : Decodes outside desc line tag data text) : ∃ (replacement : Replacement) (rounds : Nat),
    ∀ s, (loadLines { outside with rounds := rounds } (some desc) [line] s).2 =
      readEntry s ⟨tag, (substitute data).2, replacement.decode text⟩ := by
  obtain ⟨replacement, rounds, hentry⟩ := h
  refine ⟨replacement, rounds, fun s => ?_⟩
  rw [loadLines_eq, hentry]
  rfl

theorem readLines_line {rounds : Nat} (hline : splitLine outside.trim line = some (tag, data)) :
    (readLines { outside with rounds := rounds } (some desc) [line]).1 = [⟨tag, (substitute data).2, text⟩] ↔
      ∃ convDesc read, convertChars outside.iconv .char .wchar rounds (some desc) (substitute data).1 [] =
        some (true, convDesc, read) ∧ read.map munge = text := by
  have hline' : splitLine ({ outside with rounds := rounds } : Outside δ).trim line = some (tag, data) := hline
  rw [readLines_singleton hline']
  dsimp only
  rcases convertChars outside.iconv .char .wchar rounds (some desc) (substitute data).1 [] with _ | ⟨_ | _, convDesc, read⟩
  · simp
  · simp
  · simp

section
variable (hiconv : outside.iconv.Posix .wchar (utf8Reader δ))
  (hreset : ∀ s, (outside.iconv.reset s ICONV_BUFFER_SIZE).2 = [])
include hiconv hreset

/-- What is converted is what is valid. -/
theorem convertChars_utf8 (line : Octets) (read : WString) :
    (∃ rounds convDesc, convertChars outside.iconv .char .wchar rounds (some desc) line [] = some (true, convDesc, read)) ↔
      Utf8 line read := by
  have hconversion (desc : δ) (line : Octets) : conversion outside.iconv .wchar (utf8Reader δ) desc (CharType.char.octets line) =
      ((utf8Reader δ).read (outside.iconv.reset desc ICONV_BUFFER_SIZE).1 line).2.2 := by
    rw [conversion, hreset]
    rfl
  constructor
  · rintro ⟨rounds, convDesc, hresult⟩
    obtain ⟨hdone, hread⟩ := convertChars_true hiconv CharType.wchar_lawful .char hresult
    rw [hread, hconversion]
    exact Utf8.of_read hdone
  · intro hline
    have hread := hline.read_eq (s := (outside.iconv.reset desc ICONV_BUFFER_SIZE).1)
    have hdone : ending outside.iconv (utf8Reader δ) (some desc) (CharType.char.octets line) = .done := congrArg Prod.fst hread
    obtain ⟨rounds, hrounds⟩ := convertChars_read hiconv CharType.wchar_lawful .char (by rw [hdone]; decide) []
    rcases hrounds (rounds + 1) (Nat.lt_succ_self _) with ⟨-, convDesc, hresult⟩ | ⟨hincomplete, -⟩
    · rw [hconversion, hread] at hresult
      exact ⟨rounds + 1, convDesc, hresult⟩
    · rw [hdone] at hincomplete
      cases hincomplete

/-- A line is read as its data says, just in case each piece of the data is kept. -/
theorem decodes_iff (hline : splitLine outside.trim line = some (tag, data)) (hdata : Utf8 data text) (desc : δ) :
    Decodes outside desc line tag data text ↔ ∀ piece ∈ pieces text, piece.Kept := by
  obtain ⟨chunks, hchunks, hpieces⟩ := substitute_pieces hdata
  constructor
  · rintro ⟨replacement, rounds, hentry⟩
    obtain ⟨convDesc, read, hresult, hread⟩ := (readLines_line hline).1 hentry
    have hvalid := (convertChars_utf8 hiconv hreset _ _).1 ⟨rounds, convDesc, hresult⟩
    rw [hchunks] at hvalid
    exact kept_of_utf8 hpieces hvalid hread
  · intro hkept
    obtain ⟨read, hvalid, hread⟩ := utf8_of_kept hpieces hkept
    rw [← hchunks] at hvalid
    obtain ⟨rounds, convDesc, hresult⟩ := (convertChars_utf8 hiconv hreset _ _).2 hvalid
    exact ⟨Replacement.ofLoop, rounds, (readLines_line hline).2 ⟨convDesc, read, hresult, hread⟩⟩

end

/-- The data of a line with one of each kind of piece that is kept. -/
def sampleData : Octets := octets "100%% of %p0:\\t\\101\\\\ " ++ [0xC3, 0xA9]

def sampleLine : Octets := octets "help = " ++ sampleData

def sampleDataText : WString := wide "100%% of %p0:\\t\\101\\\\ " ++ [0xE9]

theorem utf8_sampleData : Utf8 sampleData sampleDataText := by
  have htext : ((utf8Reader Unit).read () sampleData).2.2 = sampleDataText := by decide +kernel
  rw [← htext]
  apply Utf8.of_read
  decide +kernel

theorem decodes_sampleLine : Decodes Outside.sample () sampleLine (octets "HELP") sampleData sampleDataText := by
  refine (decodes_iff Iconv.utf8_posix (fun _ => rfl) ?_ utf8_sampleData ()).2 ?_
  · decide +kernel
  · decide +kernel

/-- A line with a new section: `loadFile` does not get past it. -/
theorem not_decodes_section : Iconv.utf8.Posix .wchar (utf8Reader Unit) ∧
    splitLine Outside.sample.trim (octets "HELP=one\\ntwo") = some (octets "HELP", octets "one\\ntwo") ∧
    Utf8 (octets "one\\ntwo") (wide "one\\ntwo") ∧
    ¬ Decodes Outside.sample () (octets "HELP=one\\ntwo") (octets "HELP") (octets "one\\ntwo") (wide "one\\ntwo") := by
  have hline : splitLine Outside.sample.trim (octets "HELP=one\\ntwo") = some (octets "HELP", octets "one\\ntwo") := by
    decide +kernel
  have htext : ((utf8Reader Unit).read () (octets "one\\ntwo")).2.2 = wide "one\\ntwo" := by decide +kernel
  refine ⟨Iconv.utf8_posix, hline, ?_, ?_⟩
  · rw [← htext]
    apply Utf8.of_read
    decide +kernel
  · rintro ⟨replacement, rounds, hentry⟩
    obtain ⟨convDesc, read, hresult, -⟩ := (readLines_line hline).1 hentry
    have hvalid := (convertChars_utf8 Iconv.utf8_posix (fun _ => rfl) _ _).1 ⟨rounds, convDesc, hresult⟩
    have hinvalid : ((utf8Reader Unit).read () (substitute (octets "one\\ntwo")).1).1 = .invalid := by decide +kernel
    rw [hvalid.read_eq] at hinvalid
    cases hinvalid

end Languages

end KineIRCd

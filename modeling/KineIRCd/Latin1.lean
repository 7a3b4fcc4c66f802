import KineIRCd.Conversion
import KineIRCd.Environment
import Mathlib.Algebra.Group.Nat.Defs
/-!
# Latin-1 on its way out

Octets become wide characters by `toWideStr` and go out in UTF-8 by
`delocaliseStr`. `toWideStr` widens them as signed characters, so only ASCII
arrives.
-/
namespace KineIRCd

open Reading

/-! ## Wide characters to UTF-8 -/

def isCodePoint (c : WChar) : Bool := c ≤ 0x10FFFF && !(0xD800 ≤ c && c ≤ 0xDFFF)

/-- A character in UTF-8. -/
def utf8Octets (c : WChar) : Octets :=
  let n := c.toNat
  if n < 0x80 then [.ofNat n]
  else if n < 0x800 then [.ofNat (0xC0 + n / 0x40), .ofNat (0x80 + n % 0x40)]
  else if n < 0x10000 then [.ofNat (0xE0 + n / 0x1000), .ofNat (0x80 + n / 0x40 % 0x40), .ofNat (0x80 + n % 0x40)]
  else
    [.ofNat (0xF0 + n / 0x40000), .ofNat (0x80 + n / 0x1000 % 0x40), .ofNat (0x80 + n / 0x40 % 0x40),
     .ofNat (0x80 + n % 0x40)]

/-- The reader of wide characters, for a descriptor to UTF-8. A value that is no
code point is invalid. -/
def wideUtf8Reader (δ : Type) : Reader δ UInt8 UInt8 where
  next s input :=
    match wcharsOf (input.take 4) with
    | c :: _ => if isCodePoint c then .char s (input.drop 4) (utf8Octets c) else .invalid
    | [] => .incomplete
  shorter := by
    intro s input s' rest output h
    split at h
    case h_1 c _ hchars =>
      split_ifs at h
      cases h
      have hne : input ≠ [] := by
        rintro rfl
        cases hchars
      have hpos := List.length_pos_iff.2 hne
      rw [List.length_drop]
      omega
    case h_2 => cases h

theorem isCodePoint_iff (c : WChar) :
    isCodePoint c = true ↔ c.toNat ≤ 0x10FFFF ∧ ¬ (0xD800 ≤ c.toNat ∧ c.toNat ≤ 0xDFFF) := by
  simp only [isCodePoint, UInt32.le_iff_toNat_le, Bool.and_eq_true, Bool.not_eq_true', decide_eq_true_iff,
    ← Bool.not_eq_true]
  rfl

section
variable {δ : Type} {s : δ}

theorem wideUtf8Reader_next (c : WChar) (rest : Octets) : (wideUtf8Reader δ).next s (wcharOctets c ++ rest) =
    if isCodePoint c then .char s rest (utf8Octets c) else .invalid := by
  have htake : (wcharOctets c ++ rest).take 4 = wcharOctets c ++ [] := by
    rw [List.append_nil]
    exact List.take_left' rfl
  have hdrop : (wcharOctets c ++ rest).drop 4 = rest := List.drop_left' rfl
  simp only [wideUtf8Reader, htake, hdrop, wcharsOf_wcharOctets]

/-- Code points are read to the end of the text. -/
theorem read_codePoints {text : WString} (h : ∀ c ∈ text, isCodePoint c = true) :
    (wideUtf8Reader δ).read s (CharType.wchar.octets text) = (.done, s, text.flatMap utf8Octets) := by
  induction text with
  | nil => rfl
  | cons c text ih =>
    obtain ⟨hc, htext⟩ := List.forall_mem_cons.1 h
    have hnext := @wideUtf8Reader_next δ s c (CharType.wchar.octets text)
    rw [if_pos hc] at hnext
    rw [show CharType.wchar.octets (c :: text) = wcharOctets c ++ CharType.wchar.octets text from rfl,
      Reader.read_char hnext, ih htext]
    rfl

/-- A reading does not get past anything else. -/
theorem read_invalid_of {text : WString} (h : ∃ c ∈ text, isCodePoint c = false) :
    ((wideUtf8Reader δ).read s (CharType.wchar.octets text)).1 = .invalid := by
  induction text with
  | nil =>
    obtain ⟨c, hc, -⟩ := h
    cases hc
  | cons c text ih =>
    have hnext := @wideUtf8Reader_next δ s c (CharType.wchar.octets text)
    rw [show CharType.wchar.octets (c :: text) = wcharOctets c ++ CharType.wchar.octets text from rfl]
    by_cases hc : isCodePoint c = true
    · rw [if_pos hc] at hnext
      obtain ⟨d, hd, hinvalid⟩ := h
      rcases List.mem_cons.1 hd with rfl | hd
      · rw [hc] at hinvalid
        cases hinvalid
      · rw [Reader.read_char hnext]
        exact ih ⟨d, hd, hinvalid⟩
    · have hne : wcharOctets c ++ CharType.wchar.octets text ≠ [] := List.cons_ne_nil _ _
      rw [if_neg hc] at hnext
      rw [Reader.read_invalid hne hnext]

end

/-! ## There and out -/

/-- The octets read as ISO-8859-1. -/
def latin1 (s : Octets) : WString := s.map (·.toUInt32)

/-- The text arrives in UTF-8. -/
def Survives {δ : Type} (iconv : Iconv δ) (desc : δ) (s : Octets) : Prop :=
  ∃ rounds desc', delocaliseStr iconv rounds (some desc) (toWideStr s) = some (desc', (latin1 s).flatMap utf8Octets)

theorem toWideStr_ascii {s : Octets} (h : ∀ c ∈ s, c < 0x80) : toWideStr s = latin1 s :=
  List.map_congr_left fun c hc => if_pos (h c hc)

theorem isCodePoint_octet (c : UInt8) : isCodePoint c.toUInt32 = true := by
  have hlt := c.toNat_lt
  rw [isCodePoint_iff, UInt8.toNat_toUInt32]
  omega

/-- A negative character widens to no code point. -/
theorem not_isCodePoint_negative (c : UInt8) : isCodePoint (c.toUInt32 ||| 0xFFFFFF00) = false := by
  rw [Bool.eq_false_iff, ne_eq, isCodePoint_iff, UInt32.toNat_or]
  have hle : 0xFFFFFF00 ≤ c.toUInt32.toNat ||| (0xFFFFFF00 : UInt32).toNat := Nat.right_le_or
  omega

/-- Of Latin-1 text, ASCII survives the trip, and only that. -/
theorem survives_iff {δ : Type} {iconv : Iconv δ} (h : iconv.Posix .char (wideUtf8Reader δ))
    (hreset : ∀ desc, (iconv.reset desc ICONV_BUFFER_SIZE).2 = []) (desc : δ) (s : Octets) :
    Survives iconv desc s ↔ ∀ c ∈ s, c < 0x80 := by
  constructor
  · rintro ⟨rounds, desc', hresult⟩ c hc
    by_contra hhigh
    obtain ⟨result, hconvert, -⟩ := Option.map_eq_some_iff.1 hresult
    have hending := (convertChars_returns h CharType.char_lawful .wchar (some desc) (toWideStr s) []).1 ⟨_, _, hconvert⟩
    apply hending
    apply read_invalid_of
    refine ⟨c.toUInt32 ||| 0xFFFFFF00, ?_, not_isCodePoint_negative c⟩
    exact List.mem_map.2 ⟨c, hc, if_neg hhigh⟩
  · intro hascii
    have hpoints : ∀ c ∈ latin1 s, isCodePoint c = true := by
      intro c hc
      obtain ⟨octet, -, rfl⟩ := List.mem_map.1 hc
      exact isCodePoint_octet octet
    have hread := @read_codePoints δ (iconv.reset desc ICONV_BUFFER_SIZE).1 _ hpoints
    have hending : ending iconv (wideUtf8Reader δ) (some desc) (CharType.wchar.octets (latin1 s)) = .done :=
      congrArg Prod.fst hread
    have hconversion : conversion iconv .char (wideUtf8Reader δ) desc (CharType.wchar.octets (latin1 s)) =
        (latin1 s).flatMap utf8Octets := by
      rw [conversion, hread, hreset]
      rfl
    obtain ⟨rounds₀, hrounds⟩ := convertChars_read h CharType.char_lawful .wchar (by rw [hending]; decide) []
    rcases hrounds (rounds₀ + 1) (Nat.lt_succ_self _) with ⟨-, desc', hconvert⟩ | ⟨hincomplete, -⟩
    · refine ⟨rounds₀ + 1, desc', ?_⟩
      rw [delocaliseStr, toWideStr_ascii hascii, hconvert, hconversion]
      rfl
    · rw [hending] at hincomplete
      cases hincomplete

/-- A descriptor from the characters of the machine to UTF-8. -/
def Iconv.toUtf8 : Iconv Unit where
  reset _ _ := ((), [])
  convert _ input room := Iconv.callOf .char (wideUtf8Reader Unit) input.length () input room

theorem length_utf8Octets_le (c : WChar) : (utf8Octets c).length ≤ 4 := by
  unfold utf8Octets
  dsimp only
  split_ifs <;> simp

theorem Iconv.toUtf8_posix : Iconv.toUtf8.Posix .char (wideUtf8Reader Unit) where
  convert s input room := by
    refine Iconv.callOf_posix CharType.char_lawful ?_ (Nat.le_refl _)
    intro s input s' rest output hnext
    simp only [wideUtf8Reader] at hnext
    split at hnext
    case h_1 c _ _ =>
      split_ifs at hnext
      cases hnext
      exact Nat.le_trans (length_utf8Octets_le c) (by decide)
    case h_2 => cases hnext
  reset s := ⟨[], rfl⟩

theorem survives_ascii : Iconv.toUtf8.Posix .char (wideUtf8Reader Unit) ∧
    (∀ desc, (Iconv.toUtf8.reset desc ICONV_BUFFER_SIZE).2 = []) ∧
    (Survives Iconv.toUtf8 () (octets "irc.kine") ↔ ∀ c ∈ octets "irc.kine", c < 0x80) :=
  ⟨Iconv.toUtf8_posix, fun _ => rfl, survives_iff Iconv.toUtf8_posix (fun _ => rfl) () (octets "irc.kine")⟩

/-- An é never comes out: the conversion does not end. -/
theorem not_survives_eAcute : ¬ Survives Iconv.toUtf8 () [0xE9] := by
  rintro ⟨rounds, desc', hresult⟩
  obtain ⟨result, hconvert, -⟩ := Option.map_eq_some_iff.1 hresult
  have hending := (convertChars_returns Iconv.toUtf8_posix CharType.char_lawful .wchar (some ()) (toWideStr [0xE9]) []).1
    ⟨_, _, hconvert⟩
  exact hending (read_invalid_of ⟨0xFFFFFFE9, by decide, by decide⟩)

end KineIRCd

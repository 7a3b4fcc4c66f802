import KineIRCd.CharConv
import KineIRCd.Lib.Reading
/-!
# UTF-8

What `utf8Char` takes for a character does not depend on what comes after it, so
valid octets are sequences one after the other, each with its character: the
octets that the reader of UTF-8 reads to their end.
-/
namespace KineIRCd

open Reading

namespace Utf8

/-- An octet that goes on with a character. -/
def isTail (c : UInt8) : Bool := 0x80 ≤ c && c ≤ 0xBF

/-- How many octets go on with the character that an octet starts. -/
def tailLength (c : UInt8) : Nat := if c < 0x80 then 0 else if c ≤ 0xDF then 1 else if c ≤ 0xEF then 2 else 3

/-- The octets of one character. -/
def Sequence (seq : Octets) (c : WChar) : Prop := ∀ rest, utf8Char (seq ++ rest) = .ok (c, rest)

/-- How they look: an ASCII character, or an octet that tells how many follow, and these. -/
def Form (seq : Octets) (c : WChar) : Prop :=
  (c < 0x80 ∧ seq = [c.toUInt8]) ∨
  (0x80 ≤ c ∧ ∃ o tail, seq = o :: tail ∧ 0xC2 ≤ o ∧ tail.length = tailLength o ∧ ∀ x ∈ tail, isTail x)

end Utf8

open Utf8

/-- Octets in valid UTF-8, with their characters. -/
inductive Utf8 : Octets → WString → Prop
  | nil : Utf8 [] []
  | cons {seq data : Octets} {c : WChar} {text : WString} (hseq : Sequence seq c) (hdata : Utf8 data text) :
    Utf8 (seq ++ data) (c :: text)

/-! ## One character -/

section
variable {n : Nat} {bits c : WChar} {input rest seq : Octets} {errno : Errno}

theorem utf8Tail_ok {read : WChar × Octets} (h : utf8Tail n bits input = .ok read) :
    ∃ tail, input = tail ++ read.2 ∧ tail.length = n ∧ (∀ o ∈ tail, isTail o) ∧
      ∀ rest, utf8Tail n bits (tail ++ rest) = .ok (read.1, rest) := by
  induction n generalizing bits input with
  | zero =>
    cases h
    exact ⟨[], rfl, rfl, nofun, fun _ => rfl⟩
  | succ n ih =>
    cases input with
    | nil => cases h
    | cons o input =>
      rw [utf8Tail] at h
      split_ifs at h with ho
      obtain ⟨tail, hinput, hlength, htail, hread⟩ := ih h
      refine ⟨o :: tail, ?_, ?_, ?_, fun rest => ?_⟩
      · rw [hinput, List.cons_append]
      · rw [List.length_cons, hlength]
      · simpa [isTail, ho] using htail
      · rw [List.cons_append, utf8Tail, if_pos ho, hread]

theorem utf8Tail_errno (h : utf8Tail n bits input = .error errno) : errno = .EINVAL ∨ errno = .EILSEQ := by
  induction n generalizing bits input with
  | zero => cases h
  | succ n ih =>
    cases input with
    | nil =>
      cases h
      exact .inl rfl
    | cons o input =>
      rw [utf8Tail] at h
      split_ifs at h
      · exact ih h
      · cases h
        exact .inr rfl

theorem utf8Check_ok {least : WChar} {read read' : WChar × Octets} (h : utf8Check least read = .ok read') :
    read' = read ∧ least ≤ read.1 ∧ ∀ rest, utf8Check least (read.1, rest) = .ok (read.1, rest) := by
  rw [utf8Check] at h
  split_ifs at h with hok
  cases h
  exact ⟨rfl, hok.1, fun rest => if_pos hok⟩

/-- The first octet is a character, or starts none, or tells how it goes on. -/
theorem utf8Char_cases (o : UInt8) : (o < 0x80 ∧ ∀ rest, utf8Char (o :: rest) = .ok (o.toUInt32, rest)) ∨
    (∀ rest, utf8Char (o :: rest) = .error .EILSEQ) ∨
    (0xC2 ≤ o ∧ ∃ bits least, 0x80 ≤ least ∧
      ∀ rest, utf8Char (o :: rest) = (utf8Tail (tailLength o) bits rest).bind (utf8Check least)) := by
  by_cases h₁ : o < 0x80
  · exact .inl ⟨h₁, fun rest => by rw [utf8Char, if_pos h₁]⟩
  by_cases h₂ : 0xC2 ≤ o ∧ o ≤ 0xDF
  · have hlength : tailLength o = 1 := by rw [tailLength, if_neg h₁, if_pos h₂.2]
    refine .inr (.inr ⟨h₂.1, (o &&& 0x1F).toUInt32, 0x80, by decide, fun rest => ?_⟩)
    rw [utf8Char, if_neg h₁, if_pos h₂, hlength]
  by_cases h₃ : 0xE0 ≤ o ∧ o ≤ 0xEF
  · have hlength : tailLength o = 2 := by
      rw [tailLength, if_neg h₁, if_neg (by grind), if_pos h₃.2]
    refine .inr (.inr ⟨by grind, (o &&& 0x0F).toUInt32, 0x800, by decide, fun rest => ?_⟩)
    rw [utf8Char, if_neg h₁, if_neg h₂, if_pos h₃, hlength]
  by_cases h₄ : 0xF0 ≤ o ∧ o ≤ 0xF4
  · have hlength : tailLength o = 3 := by
      rw [tailLength, if_neg h₁, if_neg (by grind), if_neg (by grind)]
    refine .inr (.inr ⟨by grind, (o &&& 0x07).toUInt32, 0x10000, by decide, fun rest => ?_⟩)
    rw [utf8Char, if_neg h₁, if_neg h₂, if_neg h₃, if_pos h₄, hlength]
  exact .inr (.inl fun rest => by rw [utf8Char, if_neg h₁, if_neg h₂, if_neg h₃, if_neg h₄])

theorem utf8Char_ok (h : utf8Char input = .ok (c, rest)) : ∃ seq, input = seq ++ rest ∧ Sequence seq c ∧ Form seq c := by
  cases input with
  | nil => cases h
  | cons o input =>
    rcases utf8Char_cases o with ⟨ho, hchar⟩ | hchar | ⟨ho, bits, least, hleast, hchar⟩
    · rw [hchar] at h
      cases h
      exact ⟨[o], rfl, hchar, .inl ⟨UInt8.toUInt32_lt.2 ho, by rw [UInt8.toUInt8_toUInt32]⟩⟩
    · rw [hchar] at h
      cases h
    · rw [hchar] at h
      cases htail : utf8Tail (tailLength o) bits input with
      | error errno =>
        rw [htail] at h
        cases h
      | ok read =>
        rw [htail] at h
        obtain ⟨rfl, hle, hcheck⟩ := utf8Check_ok h
        obtain ⟨tail, hinput, hlength, htails, hread⟩ := utf8Tail_ok htail
        refine ⟨o :: tail, by rw [hinput, List.cons_append], fun rest' => ?_, .inr ⟨?_, o, tail, rfl, ho, hlength, htails⟩⟩
        · rw [List.cons_append, hchar, hread]
          exact hcheck rest'
        · exact UInt32.le_trans hleast hle

theorem utf8Char_errno (h : utf8Char input = .error errno) : errno = .EINVAL ∨ errno = .EILSEQ := by
  cases input with
  | nil =>
    cases h
    exact .inl rfl
  | cons o input =>
    rcases utf8Char_cases o with ⟨-, hchar⟩ | hchar | ⟨-, bits, least, -, hchar⟩
    · rw [hchar] at h
      cases h
    · rw [hchar] at h
      cases h
      exact .inr rfl
    · rw [hchar] at h
      cases htail : utf8Tail (tailLength o) bits input with
      | error errno' =>
        rw [htail] at h
        cases h
        exact utf8Tail_errno htail
      | ok read =>
        rw [htail] at h
        replace h : utf8Check least read = .error errno := h
        rw [utf8Check] at h
        split_ifs at h
        cases h
        exact .inr rfl

namespace Utf8

theorem toUInt32_toUInt8 (hc : c < 0x80) : c.toUInt8.toUInt32 = c := by
  apply UInt32.toNat_inj.1
  have hnat : c.toNat < 128 := hc
  simp
  omega

theorem toUInt8_lt (hc : c < 0x80) : c.toUInt8 < 0x80 := by
  rw [← UInt8.toUInt32_lt, toUInt32_toUInt8 hc]
  exact hc

/-- ASCII characters are octets. -/
theorem sequence_ascii (hc : c < 0x80) : Sequence [c.toUInt8] c := by
  intro rest
  have hback : c.toUInt8.toUInt32 = c := toUInt32_toUInt8 hc
  rw [List.singleton_append, utf8Char, if_pos (toUInt8_lt hc), hback]

theorem Sequence.form (h : Sequence seq c) : Form seq c := by
  obtain ⟨seq', hseq, -, hform⟩ := utf8Char_ok (h [])
  rw [List.append_nil, List.append_nil] at hseq
  rw [hseq]
  exact hform

end Utf8

end

section
variable {data : Octets} {text : WString} {c : WChar} {o : UInt8}

/-- An ASCII character is its octet. -/
theorem utf8_cons_ascii (hc : c < 0x80) : Utf8 data (c :: text) ↔ ∃ rest, data = c.toUInt8 :: rest ∧ Utf8 rest text := by
  constructor
  · rintro (_ | ⟨hseq, hdata⟩)
    rcases hseq.form with ⟨-, rfl⟩ | ⟨hle, -⟩
    · exact ⟨_, rfl, hdata⟩
    · exact absurd hc (UInt32.not_lt.2 hle)
  · rintro ⟨rest, rfl, hrest⟩
    exact .cons (sequence_ascii hc) hrest

theorem Utf8.of_ascii (h : Utf8 (o :: data) text) (ho : o < 0x80) : ∃ rest, text = o.toUInt32 :: rest ∧ Utf8 data rest := by
  generalize hline : o :: data = line at h
  cases h with
  | nil => cases hline
  | cons hseq hdata =>
    rcases hseq.form with ⟨hc, rfl⟩ | ⟨-, o', tail, rfl, ho', -⟩
    · cases hline
      exact ⟨_, by rw [toUInt32_toUInt8 hc], hdata⟩
    · cases hline
      exact absurd ho (by grind)

end

/-! ## What valid octets weigh -/

namespace Utf8

/-- How many octets are missing that go on with characters. -/
def balance : Octets → Int
  | [] => 0
  | o :: octets => (if isTail o then -1 else (tailLength o : Int)) + balance octets

section
variable {tail data : Octets} {text : WString} {o : UInt8}

theorem not_isTail_of_lt (h : o < 0x80) : isTail o = false := by
  unfold isTail
  grind

theorem not_isTail_of_le (h : 0xC0 ≤ o) : isTail o = false := by
  unfold isTail
  grind

theorem count_tail (h : ∀ x ∈ tail, isTail x) : tail.count 0 = 0 := by
  refine List.count_eq_zero.2 fun hmem => ?_
  cases h 0 hmem

theorem countP_tail (h : ∀ x ∈ tail, isTail x) : tail.countP (!isTail ·) = 0 := by
  rw [List.countP_eq_zero]
  intro x hx
  simp [h x hx]

theorem balance_append (s t : Octets) : balance (s ++ t) = balance s + balance t := by
  induction s with
  | nil => exact (Int.zero_add _).symm
  | cons o s ih => rw [List.cons_append, balance, balance, ih, Int.add_assoc]

theorem balance_tail (h : ∀ x ∈ tail, isTail x) : balance tail = -tail.length := by
  induction tail with
  | nil => rfl
  | cons x tail ih =>
    rw [balance, if_pos (h x (by simp)), ih fun y hy => h y (by simp [hy]), List.length_cons]
    omega

theorem balance_of_lt (h : o < 0x80) : balance [o] = 0 := by
  rw [balance, not_isTail_of_lt h, tailLength, if_pos h]
  rfl

theorem balance_of_le (h : 0xC0 ≤ o) : 0 < balance [o] := by
  rw [balance, not_isTail_of_le h, tailLength]
  have hlt : ¬ o < 0x80 := by grind
  simp only [hlt, if_false, Bool.false_eq_true]
  split_ifs <;> decide

/-- The null octets are the null characters. -/
theorem count_eq (h : Utf8 data text) : data.count 0 = text.count 0 := by
  induction h with
  | nil => rfl
  | @cons seq data c text hseq hdata ih =>
    rw [List.count_append, List.count_cons, ih]
    rcases hseq.form with ⟨hc, rfl⟩ | ⟨hc, o, tail, rfl, ho, -, htail⟩
    · have hzero : c.toUInt8 = 0 ↔ c = 0 := by
        rw [← UInt8.toUInt32_inj, toUInt32_toUInt8 hc]
        rfl
      simp [List.count_cons, hzero, Nat.add_comm]
    · have hne : ¬ c = 0 := by grind
      have hne' : ¬ o = 0 := by grind
      simp [hne, hne', count_tail htail]

/-- Every character has one octet that starts it. -/
theorem countP_eq (h : Utf8 data text) : data.countP (!isTail ·) = text.length := by
  induction h with
  | nil => rfl
  | @cons seq data c text hseq hdata ih =>
    rw [List.countP_append, List.length_cons, ih]
    rcases hseq.form with ⟨hc, rfl⟩ | ⟨-, o, tail, rfl, ho, -, htail⟩
    · simp [not_isTail_of_lt (toUInt8_lt hc), Nat.add_comm]
    · have hfirst : isTail o = false := not_isTail_of_le (by grind)
      rw [List.countP_cons, countP_tail htail]
      simp [hfirst, Nat.add_comm]

/-- None are missing in valid octets. -/
theorem balance_eq (h : Utf8 data text) : balance data = 0 := by
  induction h with
  | nil => rfl
  | @cons seq data c text hseq hdata ih =>
    rw [balance_append, ih]
    rcases hseq.form with ⟨hc, rfl⟩ | ⟨-, o, tail, rfl, ho, hlength, htail⟩
    · rw [balance_of_lt (toUInt8_lt hc), Int.add_zero]
    · have hfirst : ¬ isTail o = true := by rw [not_isTail_of_le (by grind)]; decide
      rw [balance, if_neg hfirst, balance_tail htail, hlength]
      omega

end

end Utf8

/-! ## The reader -/

/-- The reader of UTF-8, for a descriptor that stays in its state. -/
def utf8Reader (δ : Type) : Reader δ UInt8 WChar where
  next s input :=
    match utf8Char input with
    | .error .EINVAL => .incomplete
    | .error _ => .invalid
    | .ok (c, rest) => .char s rest [c]
  shorter := by
    intro s input s' rest output h
    split at h
    · cases h
    · cases h
    · rename_i c _ hchar
      cases h
      obtain ⟨seq, rfl, hseq, -⟩ := utf8Char_ok hchar
      cases seq with
      | nil => cases hseq []
      | cons o seq =>
        simp only [List.length_append, List.length_cons]
        omega

section
variable {δ : Type} {s : δ} {data : Octets} {text : WString}

theorem utf8Reader_next {input rest : Octets} {c : WChar} (h : utf8Char input = .ok (c, rest)) :
    (utf8Reader δ).next s input = .char s rest [c] := by
  simp [utf8Reader, h]

theorem Utf8.read_eq (h : Utf8 data text) : (utf8Reader δ).read s data = (.done, s, text) := by
  induction h with
  | nil => rfl
  | cons hseq _ ih =>
    rw [Reader.read_char (utf8Reader_next (hseq _)), ih]
    rfl

theorem Utf8.of_read (h : ((utf8Reader δ).read s data).1 = .done) : Utf8 data ((utf8Reader δ).read s data).2.2 := by
  induction s, data using (utf8Reader δ).read_induction with
  | nil s => exact .nil
  | invalid s data hne hnext =>
    rw [Reader.read_invalid hne hnext] at h
    cases h
  | incomplete s data hne hnext =>
    rw [Reader.read_incomplete hne hnext] at h
    cases h
  | char s data s₁ rest output hnext ih =>
    cases hchar : utf8Char data with
    | error errno => rcases utf8Char_errno hchar with rfl | rfl <;> simp [utf8Reader, hchar] at hnext
    | ok read =>
      obtain ⟨c, rest'⟩ := read
      rw [utf8Reader_next hchar] at hnext
      cases hnext
      obtain ⟨seq, rfl, hseq, -⟩ := utf8Char_ok hchar
      rw [Reader.read_char (utf8Reader_next hchar)] at h ⊢
      exact .cons hseq (ih h)

end

end KineIRCd

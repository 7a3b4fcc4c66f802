import KineIRCd.Text
/-!
# Character set conversion

`Internal::convertChars` drives `iconv()` through an output buffer of fixed
size. `iconv()` works on octets: the strings on either side are read as octets,
and the buffer is read back as whole characters. The library itself is a
parameter, with a conversion from UTF-8 to wide characters as a sample.
-/
namespace KineIRCd

/-- The values of `errno` that `convertChars` tells apart. -/
inductive Errno where
  | E2BIG
  | EILSEQ
  | EINVAL
  | other
  deriving DecidableEq, Repr

/-- What one call of `iconv()` leaves behind: the error if it returned -1, the
state of the descriptor, the input still unread and the octets it wrote. -/
structure IconvCall (δ : Type) where
  errno : Option Errno
  desc : δ
  unread : Octets
  written : Octets

/-- `iconv()`, over the states `δ` of a conversion descriptor. `room` is how many
octets fit in the output buffer. -/
structure Iconv (δ : Type) where
  /-- Without input: back to the initial state, with the octets this takes. -/
  reset : (desc : δ) → (room : Nat) → δ × Octets
  convert : (desc : δ) → (input : Octets) → (room : Nat) → IconvCall δ

/-- A character type, as the octets of its strings in memory. -/
structure CharType (α : Type) where
  octets : List α → Octets
  /-- The whole characters at the start of a buffer. -/
  chars : Octets → List α

/-- `char`. -/
def CharType.char : CharType UInt8 where
  octets s := s
  chars buffer := buffer

/-- The octets of a `wchar_t`, the low one first. -/
def wcharOctets (c : WChar) : Octets := [c.toUInt8, (c >>> 8).toUInt8, (c >>> 16).toUInt8, (c >>> 24).toUInt8]

def wcharsOf : Octets → WString
  | a :: b :: c :: d :: rest =>
    (a.toUInt32 ||| b.toUInt32 <<< 8 ||| c.toUInt32 <<< 16 ||| d.toUInt32 <<< 24) :: wcharsOf rest
  | _ => []

/-- `wchar_t`. -/
def CharType.wchar : CharType WChar where
  octets s := s.flatMap wcharOctets
  chars := wcharsOf

def ICONV_BUFFER_SIZE : Nat := 2048

section
variable {δ α β : Type}

/-- The loop of `convertChars`, for some rounds: what is still to be converted,
what the buffer holds and what the output string holds. -/
def convertLoop (iconv : Iconv δ) (outT : CharType β) : Nat → δ → Octets → Octets → List β → Option (Bool × δ × List β)
  | 0, _, _, _, _ => none
  | rounds + 1, desc, input, buffer, output =>
    let call := iconv.convert desc input (ICONV_BUFFER_SIZE - buffer.length)
    match call.errno with
    | none => some (true, call.desc, output ++ outT.chars (buffer ++ call.written))
    | some .E2BIG | some .EILSEQ =>
      convertLoop iconv outT rounds call.desc call.unread [] (output ++ outT.chars (buffer ++ call.written))
    | some .EINVAL | some .other => some (false, call.desc, output)

/-- `Internal::convertChars`, with the descriptor and the output string as it
leaves them, and `none` when it has not returned after so many rounds. The
descriptor `none` is `(iconv_t)(-1)`. -/
def convertChars (iconv : Iconv δ) (inT : CharType α) (outT : CharType β) (rounds : Nat) (convDesc : Option δ)
    (input : List α) (output : List β) : Option (Bool × Option δ × List β) :=
  match convDesc with
  | none => some (false, none, output)
  | some desc =>
    let poke := iconv.reset desc ICONV_BUFFER_SIZE
    (convertLoop iconv outT rounds poke.1 (inT.octets input) poke.2 output).map fun r => (r.1, some r.2.1, r.2.2)

end

/-! ## UTF-8 to wide characters -/

/-- The `n` octets that carry on a character, with the bits read before them. -/
def utf8Tail : Nat → WChar → Octets → Except Errno (WChar × Octets)
  | 0, bits, rest => .ok (bits, rest)
  | _ + 1, _, [] => .error .EINVAL
  | n + 1, bits, c :: rest =>
    if 0x80 ≤ c ∧ c ≤ 0xBF then utf8Tail n (bits <<< 6 ||| (c &&& 0x3F).toUInt32) rest else .error .EILSEQ

/-- A character that takes more than one octet is none of a shorter form, no
surrogate, and in range. -/
def utf8Check (least : WChar) (read : WChar × Octets) : Except Errno (WChar × Octets) :=
  if least ≤ read.1 ∧ ¬ (0xD800 ≤ read.1 ∧ read.1 ≤ 0xDFFF) ∧ read.1 ≤ 0x10FFFF then .ok read else .error .EILSEQ

/-- The first character of the input. -/
def utf8Char : Octets → Except Errno (WChar × Octets)
  | [] => .error .EINVAL
  | c :: rest =>
    if c < 0x80 then .ok (c.toUInt32, rest)
    else if 0xC2 ≤ c ∧ c ≤ 0xDF then (utf8Tail 1 (c &&& 0x1F).toUInt32 rest).bind (utf8Check 0x80)
    else if 0xE0 ≤ c ∧ c ≤ 0xEF then (utf8Tail 2 (c &&& 0x0F).toUInt32 rest).bind (utf8Check 0x800)
    else if 0xF0 ≤ c ∧ c ≤ 0xF4 then (utf8Tail 3 (c &&& 0x07).toUInt32 rest).bind (utf8Check 0x10000)
    else .error .EILSEQ

def utf8Loop : Nat → Octets → Nat → Octets → IconvCall Unit
  | 0, input, _, written => ⟨none, (), input, written⟩
  | n + 1, input, room, written =>
    if input.isEmpty then ⟨none, (), input, written⟩
    else
      match utf8Char input with
      | .error e => ⟨some e, (), input, written⟩
      | .ok (c, rest) =>
        if room < 4 then ⟨some .E2BIG, (), input, written⟩ else utf8Loop n rest (room - 4) (written ++ wcharOctets c)

/-- A descriptor from UTF-8 to the characters of the machine. It has one state. -/
def Iconv.utf8 : Iconv Unit where
  reset _ _ := ((), [])
  convert _ input room := utf8Loop input.length input room []

end KineIRCd

import KineIRCd.Latin1
/-!
# Text on its way out and in

A protocol says its text in UTF-8 by `delocaliseStr` and hears it by
`localiseStr`. Every character has one form in UTF-8 only, so the one undoes
the other, both ways.
-/
namespace KineIRCd

open Reading

/-! ## The form of a character -/

section
variable {o : UInt8} {c : WChar} {input rest : Octets} {k : Nat}

end

section
variable {δ ε α β : Type} {iconv : Iconv δ} {outT : CharType β} {reader : Reader δ UInt8 β}

end

/-- All of the octets are heard as the text. -/
def Hears {δ : Type} (iconv : Iconv δ) (desc : δ) (data : Octets) (text : WString) : Prop :=
  ∃ rounds desc', convertChars iconv .char .wchar rounds (some desc) data [] = some (true, desc', text)

section
variable {δ : Type} {iconv : Iconv δ} {desc : δ} {data : Octets} {text : WString}

end

end KineIRCd

import KineIRCd.CharConv
import KineIRCd.Lib.Index
import KineIRCd.Lib.Slots
import KineIRCd.Names
/-!
# Languages

The language engine: `Languages` with its tag dictionary, the data of each
language, and `loadFile`, which reads a language file into them. Pointers are
addresses: a language's data is reached through its address, and so is the
memory that holds tag maps.
-/
namespace KineIRCd

open Slots

/-! ## The data of a language -/

/-- `Languages::LanguageData`. A null pointer in `tagData` is an empty slot, and
`tagCount` is an `unsigned long` that no file is long enough to overflow. -/
structure LanguageData where
  languageCode : Octets := []
  languageName : WString := []
  languageNote : WString := []
  maintainer : WString := []
  fileRevision : Int := 0
  tagCount : Nat := 0
  tagData : List (Option WString) := []
  deriving DecidableEq

namespace LanguageData

/-- `mergeWith`. The loop goes over the slots of `newData`: one that holds a text
is counted and replaces what is there. -/
def mergeWith (this newData : LanguageData) : LanguageData :=
  { this with
    tagData := overlay newData.tagData (grow this.tagData newData.tagData.length)
    tagCount := this.tagCount + held newData.tagData
    fileRevision := if newData.fileRevision > this.fileRevision then newData.fileRevision else this.fileRevision }

end LanguageData

/-! ## The engine -/

/-- An address a `tagMap_type*` can hold: that of an array of entries in some
module, or that of a parameter in a call frame. -/
inductive Address where
  | array (id : Nat)
  | frame (id : Nat)
  deriving DecidableEq

/-- `Languages::TagMapEntry`. -/
structure TagMapEntry where
  tagName : Octets
  tagID : UInt32
  deriving DecidableEq

/-- `Languages`, with the memory its pointers reach. -/
structure Languages where
  tagMaps : List Address
  tagDictionary : AList (fun _ : Octets => UInt32)
  highestTagID : UInt32
  languageDataMap : AList (fun _ : Octets => Nat)
  defaultLanguage : Option Nat
  /-- The language data that the pointers above point at, by address. -/
  languageData : List LanguageData
  /-- The entries found at an address, up to the null tag name. -/
  memory : Address → List TagMapEntry

namespace Languages

def unknownTagID : UInt32 := 0

/-- `Languages::Languages`. -/
def new (memory : Address → List TagMapEntry) : Languages := ⟨[], ∅, 0, ∅, none, [], memory⟩

def defaultLanguageCode : Octets := octets "i-default"

def getTagID (this : Languages) (tagName : Octets) : UInt32 :=
  (this.tagDictionary.lookup (toUpper tagName)).getD unknownTagID

def findByCode (this : Languages) (code : Octets) : Option Nat :=
  match this.languageDataMap.lookup (toLower code) with
  | some language => some language
  | none => if toLower code = defaultLanguageCode then this.defaultLanguage else none

/-! ## Tag maps -/

def processTagMap (this : Languages) (map : Address) : Languages :=
  { this with
    memory := Function.update this.memory map
      ((this.memory map).map fun entry => { entry with tagID := this.getTagID entry.tagName }) }

/-- Each address in the set is taken for that of an array. -/
def processMaps (this : Languages) : Languages := this.tagMaps.foldl processTagMap this

/-- `registerMap`, called with an array. The parameter, whose address goes into the
set, lies in the frame of the call. -/
def registerMap (frame map : Nat) (this : Languages) : Languages :=
  { this with tagMaps := this.tagMaps.insert (.frame frame) }.processTagMap (.array map)

/-- `deregisterMap`, called with an array. -/
def deregisterMap (frame _map : Nat) (this : Languages) : Languages :=
  { this with tagMaps := this.tagMaps.erase (.frame frame) }

end Languages

/-! ## Language files -/

namespace LangTags

def parameterMarkerChar : UInt8 := 0

def newLineMarkerChar : UInt8 := 0x85

def replacementCharacterGlyph : WChar := 0xFFFD

/-- The escape character substitution map, less its terminator. -/
def substitutionMap : List (UInt8 × UInt8) :=
  [(0x6E, newLineMarkerChar), (0x73, 0o040), (0x74, 0o011), (0x5C, 0x5C), (0x62, 0o002), (0x63, 0o003), (0x43, 0o004),
    (0x66, 0o006), (0x67, 0o007), (0x6F, 0o017), (0x72, 0o026), (0x69, 0o035), (0x75, 0o037)]

def isDigitOctet (c : UInt8) : Bool := isDigit c.toUInt32

/-- `strtol` on three digits, in base 8: it stops at a digit that is none in that base. -/
def octal (digits : Octets) : Nat := (digits.takeWhile (· < 0x38)).foldl (fun value c => value * 8 + (c.toNat - 0x30)) 0

/-- The character that a value stands for. -/
def escaped (value : Nat) : UInt8 := if 0 < value ∧ value < 256 then UInt8.ofNat value else 0

/-- One round of the loop over the data of a line, which starts at `c`: what goes to the
line, what the characters read are afterwards in the data, and what is left to read. -/
def substituteRound (c : UInt8) (rest : Octets) : Octets × Octets × Octets :=
  if c = 0x25 then
    if rest.head? = some 0x25 then ([0x25], [0x25, 0x25], rest.tail) else ([parameterMarkerChar], [0x25], rest)
  else if c = 0x5C then
    match rest with
    | d :: e :: f :: rest' =>
      if isDigitOctet d && isDigitOctet e && isDigitOctet f then
        ([escaped (octal [d, e, f])], [0x5C, d, e, escaped (octal [d, e, f])], rest')
      else ((substitutionMap.lookup d).toList, [0x5C, d], e :: f :: rest')
    | d :: rest' => ((substitutionMap.lookup d).toList, [0x5C, d], rest')
    | [] => ([], [0x5C], [])
  else ([c], [c], rest)

def substituteLoop : Nat → Octets → Octets × Octets
  | 0, _ => ([], [])
  | _ + 1, [] => ([], [])
  | n + 1, c :: rest =>
    let round := substituteRound c rest
    let after := substituteLoop n round.2.2
    (round.1 ++ after.1, round.2.1 ++ after.2)

/-- The loop that substitutes what it knows: the line it makes of the data, and the data
as the loop leaves it. -/
def substitute (data : Octets) : Octets × Octets := substituteLoop data.length data

/-- The control characters that no text may show. -/
def munge (c : WChar) : WChar :=
  if c = 0x01 ∨ c = 0x08 ∨ (0x0A ≤ c ∧ c ≤ 0x0D) ∨ (0x11 ≤ c ∧ c ≤ 0x14) then c + 0x2400
  else if c = 0x7F then 0x2421
  else if c = 0x85 ∨ c = 0x8D ∨ (0xFFFC ≤ c ∧ c ≤ 0xFFFF) then replacementCharacterGlyph
  else c

/-- `std::isspace` on one octet. -/
def isSpaceOctet (c : UInt8) : Bool := c = 0x20 || (0x09 ≤ c && c ≤ 0x0D)

/-- `atol`, with a `long` of 64 bits at whose ends it stops. -/
def atol (text : Octets) : Int :=
  let text := text.dropWhile isSpaceOctet
  let negative := text.head? = some 0x2D
  let digits := (if negative ∨ text.head? = some 0x2B then text.tail else text).takeWhile isDigitOctet
  let value := digits.foldl (fun (value : Int) c => value * 10 + (c.toNat - 0x30)) 0
  max Int64.minValue.toInt (min Int64.maxValue.toInt (if negative then -value else value))

/-- A line that was read to its end: the tag in upper case, the data as the substitution
leaves it, and the converted text. -/
structure Entry where
  tag : Octets
  data : Octets
  text : WString
  deriving DecidableEq

/-- A tag that the engine keeps for itself. -/
def isControl (tag : Octets) : Bool := tag.head? = some 0x2E

end LangTags

open LangTags

/-- What `loadFile` gets from outside: `String::trim`, `iconv()`, and how many rounds of
the conversion loop are waited for. -/
structure Outside (δ : Type) where
  trim : Octets → Octets
  iconv : Iconv δ
  rounds : Nat

/-- White space is cut off at both ends, and files are UTF-8. -/
def Outside.sample : Outside Unit where
  trim s := ((s.dropWhile LangTags.isSpaceOctet).reverse.dropWhile LangTags.isSpaceOctet).reverse
  iconv := Iconv.utf8
  rounds := 4

/-- A call of `loadFile`: what the file holds, if it opens; the descriptor that
`iconv_open()` gives, or the text of its error; and the argument. -/
structure FileLoad (δ : Type) where
  contents : Option Octets
  convDesc : Except Octets δ
  makeDefault : Bool

/-- What `loadFile` comes to: true, false with its error string, or no result yet, as a
conversion goes on. -/
inductive Outcome where
  | loaded
  | failed (errString : Octets)
  | converting
  deriving DecidableEq

namespace Languages
variable {δ : Type}

/-- The lines `std::getline` reads. The loop leaves when it meets the end of the file, so
what follows the last newline is not among them. -/
def getlines (contents : Octets) : List Octets := (contents.splitOnP (· == 0x0A)).dropLast

/-- The tag and the data of a line, unless it is skipped. -/
def splitLine (trim : Octets → Octets) (line : Octets) : Option (Octets × Octets) :=
  let line := trim line
  if line.isEmpty || line.head? = some 0x23 then none
  else
    let token := (⟨line⟩ : StringTokens).nextToken 0x3D
    some (toUpper (trim token.1), trim token.2.rest)

/-- What a control tag does to the language that is being read. -/
def setControl (languageData : LanguageData) (entry : Entry) : LanguageData :=
  let tag := entry.tag.tail
  if tag = octets "LANGCODE" then
    { languageData with languageCode := substr (toLower entry.data) 0 (entry.data.findIdx (· = 0x20)) }
  else if tag = octets "LANGNAME" then { languageData with languageName := entry.text }
  else if tag = octets "LANGNOTE" then { languageData with languageNote := entry.text }
  else if tag = octets "MAINTAINER" then { languageData with maintainer := entry.text }
  else if tag = octets "REVISION" then { languageData with fileRevision := atol entry.data }
  else languageData

/-- The dictionary's side of a tag: its ID, which is a new one if the tag is new. -/
def addTag (this : Languages) (tag : Octets) : UInt32 × Languages :=
  match this.tagDictionary.lookup tag with
  | some tagID => (tagID, this)
  | none =>
    (this.highestTagID + 1,
      { this with
        highestTagID := this.highestTagID + 1
        tagDictionary := this.tagDictionary.insert tag (this.highestTagID + 1) })

/-- The language's side of a tag. -/
def setTag (languageData : LanguageData) (tagID : UInt32) (text : WString) : LanguageData :=
  { languageData with
    tagData := (grow languageData.tagData tagID.toNat).set (tagID - 1).toNat (some text)
    tagCount := languageData.tagCount + 1 }

/-- What a line does to the engine and to the language that is being read. -/
def readEntry (s : Languages × LanguageData) (entry : Entry) : Languages × LanguageData :=
  if isControl entry.tag then (s.1, setControl s.2 entry)
  else ((s.1.addTag entry.tag).2, setTag s.2 (s.1.addTag entry.tag).1 entry.text)

/-- The loop over the lines. -/
def loadLines (outside : Outside δ) : Option δ → List Octets → Languages × LanguageData → Option Bool × Languages × LanguageData
  | _, [], s => (some true, s)
  | convDesc, line :: lines, s =>
    match splitLine outside.trim line with
    | none => loadLines outside convDesc lines s
    | some (tag, data) =>
      match convertChars outside.iconv .char .wchar outside.rounds convDesc (substitute data).1 [] with
      | none => (none, s)
      | some (false, _) => (some false, s)
      | some (true, convDesc, text) =>
        loadLines outside convDesc lines (readEntry s ⟨tag, (substitute data).2, text.map munge⟩)

/-- The language goes into the map, or over the one with its code. The result has the
address where its data is from now on. -/
def place (this : Languages) (languageData : LanguageData) : Nat × Languages :=
  match this.findByCode languageData.languageCode with
  | none =>
    (this.languageData.length,
      { this with
        languageDataMap := Index.tryInsert languageData.languageCode this.languageData.length this.languageDataMap
        languageData := this.languageData ++ [languageData] })
  | some langData => (langData, { this with languageData := this.languageData.modify langData (·.mergeWith languageData) })

/-- What `loadFile` does after the loop. -/
def finish (this : Languages) (languageData : LanguageData) (makeDefault : Bool) : Languages :=
  let placed := this.place languageData
  { placed.2 with
    defaultLanguage :=
      if this.defaultLanguage = none ∨ makeDefault then some placed.1 else this.defaultLanguage }.processMaps

def openError : Octets := octets "Could not open the file"

def descriptorError (error : Octets) : Octets :=
  octets "Could not open conversion descriptor for UTF-8 -> UCS-4-INTERNAL (" ++ error ++ octets ")"

def corruptError : Octets := octets "Illegal UTF-8 sequence or corrupt language file"

def loadFile (outside : Outside δ) (file : FileLoad δ) (this : Languages) : Outcome × Languages :=
  match file.contents with
  | none => (.failed openError, this)
  | some contents =>
    match file.convDesc with
    | .error error => (.failed (descriptorError error), this)
    | .ok convDesc =>
      match loadLines outside (some convDesc) (getlines contents) (this, {}) with
      | (none, s) => (.converting, s.1)
      | (some false, s) => (.failed corruptError, s.1)
      | (some true, s) => (.loaded, s.1.finish s.2 file.makeDefault)

/-- The state after a call. -/
def load (outside : Outside δ) (this : Languages) (file : FileLoad δ) : Languages := (loadFile outside file this).2

end Languages

end KineIRCd

import KineIRCd.Text
/-!
# Names and errors

The result codes of the core, the IRC case folding that keys the registry, and
the nickname rules.
-/
namespace KineIRCd

/-- `Kine::Error::error_type`. -/
inductive Error where
  | noError
  | noErrorOrData
  | unknownError
  | channelNameNonstandardPrefix
  | channelNamePrefixUnknown
  | entityExists
  | nameHasBadChars
  | nameIsAMask
  | nameIsInUse
  | nameTooLong
  | nicknameBeginsWithDigit
  | permissionDenied
  | serverNameHasDotDot
  | serverNameHasNoDot
  | serversDontMatch
  | textTooLong
  | textTooShort
  | unknownCharset
  | unregisteredEntity
  | unsupportedByEntity
  deriving DecidableEq, Repr

/-- `std::isdigit`. -/
def isDigit (c : WChar) : Bool := 0x30 ≤ c && c ≤ 0x39

/-- `std::isalnum`. -/
def isAlnum (c : WChar) : Bool := isDigit c || (0x41 ≤ c && c ≤ 0x5A) || (0x61 ≤ c && c ≤ 0x7A)

/-- `std::isalpha`. -/
def isAlpha (c : WChar) : Bool := (0x41 ≤ c && c ≤ 0x5A) || (0x61 ≤ c && c ≤ 0x7A)

/-- `std::tolower`. -/
def toLowerChar (c : WChar) : WChar := if 0x41 ≤ c ∧ c ≤ 0x5A then c + 0x20 else c

def irctolower (c : WChar) : WChar :=
  if c = 0x5B then 0x7B
  else if c = 0x5D then 0x7D
  else if c = 0x5C then 0x7C
  else if c = 0x5E then 0x7E
  else toLowerChar c

/-- `Name::IRCtoLower`. -/
def IRCtoLower (name : WString) : WString := name.map irctolower

namespace Client.Name

def isSpecialChar (chr : WChar) : Bool := (0x5B ≤ chr && chr ≤ 0x60) || (0x7B ≤ chr && chr ≤ 0x7D)

/-- A character the loop of `checkValidity` passes over. -/
def isNameChar (c : WChar) : Bool := c &&& 0x80 ≠ 0 || isAlnum c || isSpecialChar c || c = 0x2D

/-- `Client::Name::checkValidity`, with `config().getLimitsUsersMaxNickNameLength()`.
The first character of an empty name reads as NUL. -/
def checkValidity (maxNickNameLength : Nat) (name : WString) : Error :=
  if name.length > maxNickNameLength then .nameTooLong
  else if isDigit (name.getD 0 0) || name.getD 0 0 = 0x2D then .nicknameBeginsWithDigit
  else if name.all isNameChar then .noError
  else .nameHasBadChars

theorem checkValidity_nil (maxNickNameLength : Nat) : checkValidity maxNickNameLength [] = .noError := rfl

end Client.Name

/-- What a `const wchar_t*` parameter passes on: the text up to the first NUL. -/
def cString (text : WString) : WString := text.takeWhile (· ≠ 0)

namespace Server.Name

/-- The scan of `checkValidity`: the characters left, the one before them, and
the two counters. -/
def scan : WString → WChar → Nat → Nat → Error
  | [], _, dotCount, _ => if dotCount = 0 then .serverNameHasNoDot else .noError
  | c :: cs, previous, dotCount, labelLength =>
    if c = 0x2E then
      if labelLength = 0 then .serverNameHasDotDot
      else if previous = 0x2D then .nameHasBadChars
      else scan cs c (dotCount + 1) 0
    else if labelLength + 1 > 63 then .nameTooLong
    else if labelLength + 1 = 1 then
      if isAlpha c then scan cs c dotCount (labelLength + 1) else .nameHasBadChars
    else if isAlnum c || c = 0x2D then scan cs c dotCount (labelLength + 1)
    else .nameHasBadChars

/-- `Server::Name::checkValidity`. -/
def checkValidity (name : WString) : Error := if name.length > 255 then .nameTooLong else scan name 0 0 0

end Server.Name

namespace Network.Name

/-- The set of `Network::Name::checkValidity`, which starts with a NUL. -/
def badChars : WString := [0, 0x07, 0x0A, 0x0D] ++ wide " ,./@\\:"

/-- `Network::Name::checkValidity`. -/
def checkValidity (name : WString) : Error :=
  if (findFirstOf (cString badChars) name 1).isSome then .nameHasBadChars else .noError

end Network.Name

/-- The limits of the configuration that name checks read, and the table of
channel prefixes built in (less the NUL at its end). -/
structure Limits where
  maxNickNameLength : Nat
  maxChannelNameLength : Nat
  allowMaskLikeNames : Bool
  standardChannelTypePrefixes : WString

namespace Channel.Name

/-- The loop over the table of prefixes, from a position and for some rounds.
The loop has no increment: a round that finds another prefix comes back to the
same position. -/
def findPrefix (prefixes : WString) (first : WChar) (position : Nat) : Nat → Option Nat
  | 0 => none
  | rounds + 1 =>
    if prefixes.getD position 0 = 0 then some position
    else if first = prefixes.getD position 0 then some position
    else findPrefix prefixes first position rounds

def maskChars : WString := wide "*?"

/-- The sets of `Channel::Name::checkValidity`, which start with a NUL. -/
def badChars : WString := [0, 0x07, 0x0A, 0x0D] ++ wide " ,:"

/-- `Channel::Name::checkValidity`, with `none` when it has not returned after so
many rounds of its loop. -/
def checkValidity (limits : Limits) (rounds : Nat) (name : WString) : Option Error :=
  if name.length > limits.maxChannelNameLength then some .nameTooLong
  else
    (findPrefix limits.standardChannelTypePrefixes (name.getD 0 0) 0 rounds).map fun position =>
      if limits.standardChannelTypePrefixes.getD position 0 = 0 then .channelNameNonstandardPrefix
      else if limits.allowMaskLikeNames then
        match findFirstOf (cString (badChars ++ maskChars)) name 1 with
        | some place => if name.getD place 0 ∈ maskChars then .nameIsAMask else .nameHasBadChars
        | none => .noError
      else if (findFirstOf (cString badChars) name 1).isSome then .nameHasBadChars
      else .noError

end Channel.Name

end KineIRCd

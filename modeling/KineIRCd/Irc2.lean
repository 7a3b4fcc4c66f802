import KineIRCd.Text
/-!
# The IRC-2 message format (LibIRC2)

A line is an optional origin, a command and parameters. Output joins the
parameters with spaces and marks the last one with a colon; input takes them
apart again.
-/
namespace KineIRCd.LibIRC2

def SPACE : UInt8 := 32
def COLON : UInt8 := 58
def COMMA : UInt8 := 44

/-- `replacementParameter`. -/
def replacementParameter : Octets := octets "*"

/-- `errorCommandName`. -/
def errorCommandName : Octets := octets "ERROR"

/-! ## Input -/

structure Message where
  origin : Octets
  command : Octets
  parameters : List Octets
  deriving DecidableEq

/-- The parameters of a message. One that starts with a colon takes the rest of
the line. -/
def parseParameters (message : StringTokens) : List Octets :=
  if _h : message.hasMoreTokens = true then
    let thingy := (message.nextToken SPACE).1
    let message' := (message.nextToken SPACE).2
    if thingy.head? = some COLON then
      [if message'.hasMoreTokens then thingy.drop 1 ++ [SPACE] ++ message'.rest else thingy.drop 1]
    else thingy :: parseParameters message'
  else []
termination_by message.unread.length
decreasing_by exact StringTokens.nextToken_length message SPACE _h

/-- `LibIRC2::Input::parseLine`: the message given to `parseMessage`, unless the
command is empty. -/
def parseLine (line : Octets) : Option Message :=
  let message : StringTokens := ⟨line⟩
  let hasOrigin := line.head? = some COLON
  let origin := if hasOrigin then (message.nextToken SPACE).1.drop 1 else []
  let message := if hasOrigin then (message.nextToken SPACE).2 else message
  let command := toUpper (message.nextToken SPACE).1
  let parameters := parseParameters (message.nextToken SPACE).2
  if command = [] then none else some ⟨origin, command, parameters⟩

/-! ## Output -/

/-- Parameters as they follow the command: the last one after a colon. -/
def formatParameters : List Octets → Octets
  | [] => []
  | [p] => SPACE :: COLON :: p
  | p :: ps => SPACE :: p ++ formatParameters ps

/-- The line of `sendMessage`. -/
def formatMessage (command : Octets) (parameters : List Octets) : Octets := command ++ formatParameters parameters

/-- The line of `sendMessageFrom`. -/
def formatMessageFrom (origin command : Octets) (parameters : List Octets) : Octets :=
  COLON :: origin ++ SPACE :: command ++ formatParameters parameters

/-- `setfill('0') << setw(3)`. -/
def numericField (numeric : Nat) : Octets :=
  let digits := decimal numeric
  List.replicate (3 - digits.length) 48 ++ digits

/-- The line of `sendNumeric` to a client. -/
def formatNumeric (server nickname : Octets) (numeric : Nat) (parameters : List Octets) : Octets :=
  COLON :: server ++ SPACE :: numericField numeric ++ SPACE :: nickname ++ formatParameters parameters

/-! ## Numerics -/

namespace Numerics

def RPL_WELCOME : Nat := 1
def RPL_YOURHOST : Nat := 2
def RPL_CREATED : Nat := 3
def RPL_MYINFO : Nat := 4
def RPL_ISUPPORT : Nat := 5
def RPL_ENDOFSTATS : Nat := 219
def RPL_AWAY : Nat := 301
def RPL_USERHOST : Nat := 302
def RPL_ISON : Nat := 303
def RPL_UNAWAY : Nat := 305
def RPL_NOWAWAY : Nat := 306
def RPL_NAMREPLY : Nat := 353
def RPL_ENDOFNAMES : Nat := 366
def RPL_REHASHING : Nat := 382
def ERR_UNKNOWNERROR : Nat := 400
def ERR_NOSUCHCHANNEL : Nat := 403
def ERR_NOSUCHNICK : Nat := 401
def ERR_NOSUCHSERVER : Nat := 402
def ERR_TOOMANYTARGETS : Nat := 407
def ERR_NOSUCHSERVICE : Nat := 408
def ERR_NOORIGIN : Nat := 409
def ERR_NORECIPIENT : Nat := 411
def ERR_NOTEXTTOSEND : Nat := 412
def ERR_UNKNOWNCOMMAND : Nat := 421
def ERR_NONICKNAMEGIVEN : Nat := 431
def ERR_ERRONEUSNICKNAME : Nat := 432
def ERR_NICKNAMEINUSE : Nat := 433
def ERR_NOTONCHANNEL : Nat := 442
def ERR_NEEDMOREPARAMS : Nat := 461
def ERR_ALREADYREGISTERED : Nat := 462
def ERR_NOPRIVILEGES : Nat := 481
def ERR_NOOPERHOST : Nat := 491
def ERR_DISABLED : Nat := 517
def RPL_ENDOF_GENERIC : Nat := 666
def RPL_YOURLANGUAGEIS : Nat := 687
def RPL_LANGUAGE : Nat := 688
def ERR_TOOMANYLANGUAGES : Nat := 981
def ERR_NOLANGUAGE : Nat := 982
def ERR_TEXTTOOSHORT : Nat := 983
def ERR_CANNOTSENDTONICK : Nat := 976

end Numerics

end KineIRCd.LibIRC2

import KineIRCd.World
/-!
# The user protocol (mod_irc2user)

A registered client's commands. Most of them only answer the client; those that
reach beyond it are QUIT, which leaves the registry, and PRIVMSG and NOTICE,
which queue lines on the protocols of other users.
-/
namespace KineIRCd.Irc2User

open LibIRC2 LibIRC2.Numerics

/-- The environment of a running daemon: its listeners, by descriptor, the lines
with which the commands that only report something answer a user, and the name of
the service at an address. -/
structure Site extends Env where
  listeners : List (Nat × ListenerFlags)
  report : World → Nat → Octets → List Octets → List Octets
  serviceName : Nat → WString

/-- The protocol whose code runs: its address, its connection's, and its user. -/
structure Self where
  this : Nat
  connection : Nat
  user : User

/-- No user is an operator yet. -/
def User.isOperator (_ : User) : Bool := false

def User.isAway (u : User) : Bool := !u.awayMessage.isEmpty

/-- `Utility::makeNickUserHostIdent`. -/
def User.makeNickUserHostIdent (u : User) : WString := u.nickname ++ wide "!" ++ u.username ++ wide "@" ++ u.hostname

variable (site : Site) (self : Self)

/-! ## Output -/

/-- `GETLANG`, in the user's languages. -/
def getLang (tag : LangTag) (parameters : List WString := []) : Octets :=
  site.delocaliseStr (site.lang self.user.languageList tag parameters)

def sendNumeric (numeric : Nat) (parameters : List Octets) (w : World) : World :=
  w.outputLine self.this
    (formatNumeric (site.delocaliseStr site.serverName) (site.delocaliseStr self.user.nickname) numeric parameters)

/-- What `sendNumeric` is given. -/
structure Reply where
  numeric : Nat
  parameters : List Octets
  deriving DecidableEq

def sendReplies (replies : List Reply) (w : World) : World :=
  replies.foldl (fun w reply => sendNumeric site self reply.numeric reply.parameters w) w

def sendError (error : Octets) (w : World) : World :=
  (w.outputLine self.this (formatMessage errorCommandName [error])).goodbye self.connection

/-- Queue lines one after another. -/
def outputLines (lines : List Octets) (w : World) : World := lines.foldl (fun w line => w.outputLine self.this line) w

/-- A command that reports something, and changes nothing else. -/
def report (command : Octets) (parameters : List Octets) (w : World) : World :=
  outputLines self (site.report w self.this command parameters) w

def modifyUser (f : User → User) (w : World) : World := w.modifyProtocol self.this (·.modifyUser f)

/-! ## Messages to users -/

/-- What `findMessageTarget` finds. -/
inductive Receiver where
  | user (address : Nat)
  | service (address : Nat)
  deriving DecidableEq

def findMessageTarget (registry : Registry) (target : WString) (includeServices : Bool) : Option Receiver :=
  if target = [] then none
  else match registry.findUser target with
    | some address => some (.user address)
    | none => if includeServices then (registry.findService target).map .service else none

/-- `doEventReceivePrivateMessage` and `doEventReceivePrivateNotice` of the
receiver. One that was deleted has no protocol to send the line on. -/
def receivePrivate (commandName : Octets) (receiver : Nat) (message : WString) (w : World) : World :=
  match (w.protocol receiver).bind (·.user?) with
  | some receiverUser =>
    w.deliver self.connection receiver (formatMessageFrom (site.delocaliseStr self.user.makeNickUserHostIdent) commandName
      [site.delocaliseStr receiverUser.nickname, site.delocaliseStr message])
  | none => w

/-- The reply about a receiver who is away. -/
def sendAway (receiver : Nat) (w : World) : World :=
  match (w.protocol receiver).bind (·.user?) with
  | some foundUser =>
    if foundUser.isAway then
      sendNumeric site self RPL_AWAY [site.delocaliseStr foundUser.nickname, decimal (w.time - foundUser.awaySince),
        site.delocaliseStr foundUser.awayMessage] w
    else w
  | none => w

/-- One target of `doMessage`. Services take no messages. -/
def messageTarget (isNotice : Bool) (target : Octets) (message : WString) (w : World) : World :=
  let receiver := if target = [] then none else findMessageTarget w.registry (site.localiseStr target) true
  match receiver with
  | some (.user a) =>
    if isNotice then receivePrivate site self (octets "NOTICE") a message w
    else sendAway site self a (receivePrivate site self (octets "PRIVMSG") a message w)
  | some (.service _) =>
    if isNotice then w
    else sendNumeric site self ERR_CANNOTSENDTONICK
      [target, getLang site self .irc2_ERR_CANNOTSENDTONICK_UNRECEPTIVE] w
  | none =>
    if isNotice then w
    else sendNumeric site self ERR_NOSUCHNICK [target, getLang site self .irc2_ERR_NOSUCHNICK_OR_CHANNEL] w

def tooManyTargets (w : World) : World :=
  sendNumeric site self ERR_TOOMANYTARGETS
    [getLang site self .irc2_ERR_TOOMANYTARGETS [toWideStr (decimal site.maxTargets.toNat)]] w

/-- The loops over a recipient list. `targets` counts down before each test, as
an `unsigned int`. -/
def forTargets (each : Octets → World → World) (tooMany : World → World) (targets : UInt32) (recipients : StringTokens)
    (w : World) : World :=
  if _h : recipients.hasMoreTokens = true then
    let target := (recipients.nextToken COMMA).1
    let targets := targets - 1
    -- so the last of the targets allowed is one too many
    if targets > 0 ∨ self.user.isOperator then
      forTargets each tooMany targets (recipients.nextToken COMMA).2 (each target w)
    else tooMany w
  else w
termination_by recipients.unread.length
decreasing_by exact StringTokens.nextToken_length recipients COMMA _h

/-- What a command for messages says when its recipients or its text are missing. -/
def missingParameters (command : String) (parameters : List Octets) (w : World) : World :=
  if parameters = [] then
    sendNumeric site self ERR_NORECIPIENT [getLang site self .irc2_ERR_NORECIPIENT [wide command]] w
  else sendNumeric site self ERR_NOTEXTTOSEND [getLang site self .irc2_ERR_NOTEXTTOSEND] w

def doMessage (parameters : List Octets) (isNotice : Bool) (w : World) : World :=
  if parameters.length ≥ 2 then
    forTargets self
      (fun target w => messageTarget site self isNotice target (site.localiseStr (parameters.getD 1 [])) w)
      (fun w => if isNotice then w else tooManyTargets site self w)
      site.maxTargets.toUInt32 ⟨parameters.getD 0 []⟩ w
  else if isNotice then w
  else missingParameters site self "PRIVMSG" parameters w

/-! ## Commands -/

def handleAWAY (parameters : List Octets) (w : World) : World :=
  let awayMessage := if parameters = [] then [] else site.localiseStr (parameters.getD 0 [])
  let w := modifyUser self (fun u => { u with
    awayMessage
    awaySince := if parameters = [] then u.awaySince else w.time }) w
  -- doEventAwayToggle
  if awayMessage ≠ [] then
    sendNumeric site self RPL_NOWAWAY [getLang site self .irc2_RPL_NOWAWAY_WITH_MESSAGE [awayMessage]] w
  else sendNumeric site self RPL_UNAWAY [getLang site self .irc2_RPL_UNAWAY] w

def handleJOIN (parameters : List Octets) (w : World) : World :=
  sendNumeric site self ERR_NOSUCHCHANNEL
    [parameters.getD 0 [], getLang site self .irc2_ERR_NOSUCHCHANNEL_UNSUPPORTED_TYPE] w

/-- The loop over the codes of LANGUAGE: the list so far and the count, or
`none` once the limit was hit. -/
def languageCodes (langCodes : StringTokens) (languageCount : UInt8) (languageList : LanguageList) (w : World) :
    Option LanguageList × World :=
  if _h : langCodes.hasMoreTokens = true then
    let code := (langCodes.nextToken COMMA).1
    let rest := (langCodes.nextToken COMMA).2
    let languageData := site.findByCode code
    if languageData = none ∧ code.map (fun c => if 65 ≤ c ∧ c ≤ 90 then c + 32 else c) ≠ octets "none" then
      languageCodes rest languageCount languageList
        (sendNumeric site self ERR_NOLANGUAGE [code, getLang site self .irc2_ERR_NOLANGUAGE] w)
    else if languageCount + 1 > site.maxLanguages then
      (none, sendNumeric site self ERR_TOOMANYLANGUAGES
        [decimal site.maxLanguages.toNat, getLang site self .irc2_ERR_TOOMANYLANGUAGES] w)
    else languageCodes rest (languageCount + 1) (languageList ++ [languageData]) w
  else (some languageList, w)
termination_by langCodes.unread.length
decreasing_by all_goals exact StringTokens.nextToken_length langCodes COMMA _h

/-- The listing without parameters, and the list sent back after a change, are reports. -/
def handleLANGUAGE (parameters : List Octets) (w : World) : World :=
  if parameters = [] then report site self (octets "LANGUAGE") parameters w
  else
    let result := languageCodes site self ⟨parameters.getD 0 []⟩ 0 [] w
    match result.1 with
    | some (l :: ls) =>
      report site self (octets "LANGUAGE") parameters (modifyUser self (fun u => { u with languageList := l :: ls }) result.2)
    | _ => result.2

/-- `User::changeNickname` always returns `UNKNOWN_ERROR`. -/
def handleNICK (parameters : List Octets) (w : World) : World :=
  if parameters = [] then sendNumeric site self ERR_NONICKNAMEGIVEN [getLang site self .irc2_ERR_NONICKNAMEGIVEN] w
  else sendNumeric site self ERR_ERRONEUSNICKNAME
    [parameters.getD 0 [], getLang site self .irc2_ERR_ERRONEUSNICKNAME] w

def handlePING (parameters : List Octets) (w : World) : World :=
  let server := site.delocaliseStr site.serverName
  if parameters ≠ [] then
    w.outputLine self.this (formatMessageFrom server (octets "PONG") [server, parameters.getD 0 []])
  else sendNumeric site self ERR_NOORIGIN [getLang site self .irc2_ERR_NOORIGIN] w

/-- The user quits and the client is told so before the goodbye. -/
def leave (error : Octets) (w : World) : World :=
  (sendError self error (w.quit ⟨self.this, self.user.nickname⟩)).goodbye self.connection

def handleQUIT (parameters : List Octets) (w : World) : World :=
  let u := self.user
  let error :=
    if parameters = [] then
      getLang site self .irc2user_ERROR_CLOSING_LINK_QUIT [u.nickname, u.username, u.hostname]
    else getLang site self .irc2user_ERROR_CLOSING_LINK_QUIT_WITH_REASON
      [u.nickname, u.username, u.hostname, site.localiseStr (parameters.getD 0 [])]
  leave self error w

/-- One target of SQUERY. No service takes queries. -/
def queryTarget (target : Octets) (w : World) : World :=
  match findMessageTarget w.registry (site.localiseStr target) true with
  | some (.service a) =>
    sendNumeric site self ERR_CANNOTSENDTONICK
      [site.delocaliseStr (site.serviceName a), getLang site self .irc2_ERR_CANNOTSENDTONICK_UNRECEPTIVE] w
  | some (.user _) =>
    sendNumeric site self ERR_NOSUCHSERVICE [target, getLang site self .irc2_ERR_NOSUCHSERVICE_NOT_SERVICE] w
  | none => sendNumeric site self ERR_NOSUCHSERVICE [target, getLang site self .irc2_ERR_NOSUCHSERVICE] w

def handleSQUERY (parameters : List Octets) (w : World) : World :=
  if parameters.length ≥ 2 then
    forTargets self (queryTarget site self) (tooManyTargets site self) site.maxTargets.toUInt32
      ⟨parameters.getD 0 []⟩ w
  else missingParameters site self "SQUERY" parameters w

/-! ## The command table -/

/-- The handlers of the table. The ones that only report something are one
handler here, and so are those that only an operator could reach. -/
inductive Handler where
  | away | join | language | nick | notice | oper | part | ping | privmsg | quit | squery
  | reports
  | forOperators
  deriving DecidableEq

inductive Access where
  | anybody
  | operator
  | globalOperator
  deriving DecidableEq

/-- `Commands::CommandInfo`. -/
structure CommandInfo where
  handler : Handler
  minimumParams : Nat := 0
  access : Access := .anybody
  enabled : Bool := true
  changeIdleTime : Bool := false
  deriving DecidableEq

/-- `commands.def`. -/
def commandList : List (Octets × CommandInfo) :=
  [(octets "ADMIN", { handler := .reports }),
   (octets "AWAY", { handler := .away }),
   (octets "DIE", { handler := .forOperators, minimumParams := 1, access := .operator, enabled := false }),
   (octets "HELP", { handler := .reports }),
   (octets "INFO", { handler := .reports }),
   (octets "ISON", { handler := .reports, minimumParams := 1 }),
   (octets "JOIN", { handler := .join, minimumParams := 1 }),
   (octets "KILL", { handler := .forOperators, minimumParams := 2, access := .operator, changeIdleTime := true }),
   (octets "LANGUAGE", { handler := .language }),
   (octets "LUSERS", { handler := .reports }),
   (octets "MOTD", { handler := .reports }),
   (octets "NAMES", { handler := .reports }),
   (octets "NETWORKS", { handler := .reports }),
   (octets "NICK", { handler := .nick }),
   (octets "NOTICE", { handler := .notice }),
   (octets "OPER", { handler := .oper, minimumParams := 2 }),
   (octets "PART", { handler := .part, minimumParams := 1 }),
   (octets "PING", { handler := .ping }),
   (octets "PRIVMSG", { handler := .privmsg, changeIdleTime := true }),
   (octets "QUIT", { handler := .quit }),
   (octets "REHASH", { handler := .forOperators, access := .operator }),
   (octets "RESTART", { handler := .forOperators, minimumParams := 1, access := .operator, enabled := false,
                        changeIdleTime := true }),
   (octets "SQUERY", { handler := .squery, changeIdleTime := true }),
   (octets "STATS", { handler := .reports, minimumParams := 1 }),
   (octets "SUMMON", { handler := .reports, minimumParams := 1, changeIdleTime := true }),
   (octets "TIME", { handler := .reports }),
   (octets "USERHOST", { handler := .reports, minimumParams := 1 }),
   (octets "USERS", { handler := .reports }),
   (octets "VERSION", { handler := .reports }),
   (octets "WALLOPS", { handler := .forOperators, minimumParams := 1, access := .globalOperator, enabled := false,
                        changeIdleTime := true }),
   (octets "WHOIS", { handler := .reports, minimumParams := 1 }),
   (octets "WHOWAS", { handler := .reports, minimumParams := 1 })]

/-- `hasAccess`. -/
def CommandInfo.hasAccess (info : CommandInfo) (u : User) : Bool :=
  match info.access with
  | .anybody => true
  | .operator => u.isOperator
  | .globalOperator => u.isOperator

def handle (command : Octets) (parameters : List Octets) (w : World) : Handler → World
  | .away => handleAWAY site self parameters w
  | .join => handleJOIN site self parameters w
  | .language => handleLANGUAGE site self parameters w
  | .nick => handleNICK site self parameters w
  | .notice => doMessage site self parameters true w
  | .oper => sendNumeric site self ERR_NOOPERHOST [getLang site self .irc2_ERR_NOOPERHOST] w
  | .part => sendNumeric site self ERR_NOTONCHANNEL [getLang site self .irc2_ERR_NOTONCHANNEL] w
  | .ping => handlePING site self parameters w
  | .privmsg => doMessage site self parameters false w
  | .quit => handleQUIT site self parameters w
  | .squery => handleSQUERY site self parameters w
  | .reports => report site self command parameters w
  | .forOperators => w

/-- Does the table run the command for the user? -/
def handles (u : User) (m : Message) : Bool :=
  (commandList.lookup m.command).any fun info =>
    info.enabled && info.hasAccess u && decide (info.minimumParams ≤ m.parameters.length)

/-- `mod_irc2user::Protocol::parseMessage`, and whether a handler was called. -/
def parseMessage (m : Message) (w : World) : World × Bool :=
  match commandList.lookup m.command with
  | none => (sendNumeric site self ERR_UNKNOWNCOMMAND [m.command, getLang site self .irc2_ERR_UNKNOWNCOMMAND] w, false)
  | some info =>
    if !info.enabled then
      (sendNumeric site self ERR_DISABLED [m.command, getLang site self .irc2_ERR_DISABLED] w, false)
    else if !info.hasAccess self.user then
      (sendNumeric site self ERR_NOPRIVILEGES [m.command, getLang site self .irc2_ERR_NOPRIVILEGES] w, false)
    else if m.parameters.length < info.minimumParams then
      (sendNumeric site self ERR_NEEDMOREPARAMS [m.command, getLang site self .irc2_ERR_NEEDMOREPARAMS] w, false)
    else
      let w := if info.changeIdleTime then modifyUser self (fun u => { u with lastAwake := w.time }) w else w
      (handle site self m.command m.parameters w info.handler, true)

end KineIRCd.Irc2User

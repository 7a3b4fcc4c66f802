import KineIRCd.Clbp
import KineIRCd.Environment
import KineIRCd.Irc2
import KineIRCd.Registry
/-!
# The registrar (mod_irc2registrar)

The protocol a connection starts with. Its commands collect what a registrant
says about itself; once the fields of its type are complete, `parseMessage`
hands the connection over to a protocol of that type.
-/
namespace KineIRCd.Irc2Registrar

open LibIRC2 LibIRC2.Numerics

/-- `Kine::Registrant`. -/
structure Registrant where
  password : WString := []
  name : WString := []
  username : WString := []
  hostname : WString := []
  description : WString := []
  distribution : WString := []
  modes : Octets := []
  protocol : Octets := []
  startStamp : Int := -1
  linkStamp : Int := -1
  deriving DecidableEq

inductive RegistrationType where
  | none
  | iircn
  | server
  | service
  | user
  deriving DecidableEq

/-- `mod_irc2registrar::Protocol`. -/
structure Protocol where
  inputQueue : Octets := []
  outputQueue : Octets := []
  listener : ListenerFlags
  registrantData : Registrant := {}
  registrationType : RegistrationType := .none
  pongsLeft : Nat := 1
  pongMatch : Octets := []
  deriving DecidableEq

/-- What a registrar does that others can see, kept for the proofs only. -/
inductive Event where
  | ping (token : Octets)
  | pong (token : Octets)
  | create (type : RegistrationType)
  deriving DecidableEq

/-- The registrar while it runs, with what it touches outside itself: its
connection's `connected` and the number of values taken from `rand()`. -/
structure Session where
  this : Protocol
  connected : Bool := true
  rand : Nat := 0
  trace : List Event := []
  deriving DecidableEq

namespace Session

/-! ## Output -/

def outputLine (line : Octets) (s : Session) : Session :=
  { s with this := { s.this with outputQueue := Clbp.outputLine Clbp.EOL_CR_LF s.this.outputQueue line } }

def sendMessage (command : Octets) (parameters : List Octets) (s : Session) : Session :=
  s.outputLine (formatMessage command parameters)

/-- `connection.goodbye()`. -/
def goodbye (s : Session) : Session := { s with connected := false }

def sendError (error : Octets) (s : Session) : Session := (s.sendMessage errorCommandName [error]).goodbye

def record (e : Event) (s : Session) : Session := { s with trace := s.trace ++ [e] }

variable (env : Env)

/-- `GETLANG`. -/
def getLang (tag : LangTag) (parameters : List WString := []) : Octets :=
  env.delocaliseStr (env.lang [some (octets "en")] tag parameters)

def sendNumeric (numeric : Nat) (parameters : List Octets) (s : Session) : Session :=
  let nickname :=
    if s.this.registrantData.name = [] then replacementParameter else env.delocaliseStr s.this.registrantData.name
  s.outputLine (formatMessageFrom (env.delocaliseStr env.serverName) (decimal numeric) (nickname :: parameters))

def sendPing (s : Session) : Session :=
  let pongMatch := env.token s.rand
  (({ s with this := { s.this with pongMatch }, rand := s.rand + 1 }.sendMessage (octets "PING") [pongMatch]).record
    (.ping pongMatch))

/-! ## Commands -/

def setRegistrant (f : Registrant → Registrant) (s : Session) : Session :=
  { s with this := { s.this with registrantData := f s.this.registrantData } }

def setRegistrationType (type : RegistrationType) (s : Session) : Session :=
  { s with this := { s.this with registrationType := type } }

def needMoreParams (command : String) (s : Session) : Session :=
  s.sendNumeric env ERR_NEEDMOREPARAMS [octets command, getLang env .irc2_ERR_NEEDMOREPARAMS]

/-- The checks that IIRCN, SERVER, SERVICE and USER start with: the port must
accept the type, no type may be set yet, and there must be enough parameters. -/
def checkRegistration (allowed : Bool) (disallowed : LangTag) (command : String) (required : Nat)
    (parameters : List Octets) (accept : Session → Session) (s : Session) : Session :=
  if !allowed then (s.sendError (getLang env disallowed)).goodbye
  else if s.this.registrationType ≠ .none then
    (s.sendNumeric env ERR_ALREADYREGISTERED [getLang env .irc2_ERR_ALREADYREGISTERED]).goodbye
  else if parameters.length < required then s.needMoreParams env command
  else accept s

def brokenRegistrationData (s : Session) : Session :=
  (s.sendError (getLang env .irc2registrar_ERROR_BROKEN_REGISTRATION_DATA)).goodbye

def parseCAPAB (parameters : List Octets) (s : Session) : Session :=
  if parameters = [] then s.needMoreParams env "CAPAB" else s

def parseIIRCN (parameters : List Octets) (s : Session) : Session :=
  s.checkRegistration env s.this.listener.allowNetworks .irc2registrar_ERROR_CONN_DISALLOWED_IIRC "IIRCN" 6 parameters
    fun s =>
      if parameters.getD 1 [] ≠ replacementParameter then s.brokenRegistrationData env
      else
        let linkStamp := env.toLong (parameters.getD 4 [])
        let s := s.setRegistrant fun r => { r with
          name := env.localiseStr (parameters.getD 0 [])
          hostname := env.localiseStr (parameters.getD 2 [])
          protocol := toUpper (parameters.getD 3 [])
          linkStamp }
        -- the data stays, whatever the stamp
        if linkStamp ≤ 0 then s.brokenRegistrationData env
        else
          let s := if parameters.length > 5 then
            s.setRegistrant fun r => { r with description := env.localiseStr (parameters.getD 5 []) } else s
          s.setRegistrationType .iircn

def parseNICK (registry : Registry) (parameters : List Octets) (s : Session) : Session :=
  if parameters = [] then s.sendNumeric env ERR_NONICKNAMEGIVEN [getLang env .irc2_ERR_NONICKNAMEGIVEN]
  else
    let nick := env.localiseStr (parameters.getD 0 [])
    if Client.Name.checkValidity env.maxNickNameLength nick ≠ .noError then
      s.sendNumeric env ERR_ERRONEUSNICKNAME [getLang env .irc2_ERR_ERRONEUSNICKNAME]
    else if registry.findClient nick ≠ none then
      s.sendNumeric env ERR_NICKNAMEINUSE [getLang env .irc2_ERR_NICKNAMEINUSE]
    else
      -- nobody looks among the registrants that have yet to complete
      let s := s.setRegistrant fun r => { r with name := nick }
      -- the first NICK starts the pings, a later one only changes the name
      if s.this.pongsLeft > 0 ∧ s.this.pongMatch = [] then
        let s := s.sendPing env
        s.sendMessage (octets "NOTICE") [env.delocaliseStr nick,
          getLang env .irc2registrar_NOTICE_ANTI_SPOOF_PING_HELP
            [toWideStr s.this.pongMatch, wide "email@somewhere.org"]]
      else s

def parsePASS (parameters : List Octets) (s : Session) : Session :=
  if s.this.registrantData.password ≠ [] then s.brokenRegistrationData env
  else if parameters = [] then s.needMoreParams env "PASS"
  else s.setRegistrant fun r => { r with password := env.localiseStr (parameters.getD 0 []) }

/-- Lower the pong count. -/
def acceptPong (token : Octets) (s : Session) : Session :=
  { s with this := { s.this with pongsLeft := s.this.pongsLeft - 1 } }.record (.pong token)

def parsePONG (parameters : List Octets) (s : Session) : Session :=
  -- one that is not due is treated like a wrong one
  if s.this.pongsLeft = 0 ∨ parameters = [] then (s.sendError (getLang env .irc2registrar_ERROR_BAD_PONG)).goodbye
  else if parameters.getD 0 [] ≠ s.this.pongMatch then
    (s.sendError (getLang env .irc2registrar_ERROR_BAD_PONG)).goodbye
  else
    let s := s.acceptPong (parameters.getD 0 [])
    if s.this.pongsLeft > 0 then s.sendPing env else s

def parseQUIT (_parameters : List Octets) (s : Session) : Session := s.goodbye

/-- With exactly five parameters this reads `parameters[5]`, which is not
there; it is modelled as empty. -/
def parseSERVER (parameters : List Octets) (s : Session) : Session :=
  s.checkRegistration env s.this.listener.allowServers .irc2registrar_ERROR_CONN_DISALLOWED_SERVER "SERVER" 3 parameters
    fun s =>
      let s := s.setRegistrant fun r => { r with hostname := env.localiseStr (parameters.getD 0 []) }
      if env.toInt (parameters.getD 1 []) ≠ 1 then s.brokenRegistrationData env
      else
        let s := s.setRegistrant fun r =>
          if parameters.length ≥ 5 then { r with
            startStamp := env.toLong (parameters.getD 2 [])
            linkStamp := env.toLong (parameters.getD 3 [])
            protocol := parameters.getD 4 []
            description := env.localiseStr (substr (parameters.getD 5 []) 0 env.maxDescriptionLength) }
          else { r with description := env.localiseStr (substr (parameters.getD 2 []) 0 env.maxDescriptionLength) }
        s.setRegistrationType .server

def parseSERVICE (parameters : List Octets) (s : Session) : Session :=
  s.checkRegistration env s.this.listener.allowServices .irc2registrar_ERROR_CONN_DISALLOWED_SERVICE "SERVICE" 6
    parameters fun s =>
      (s.setRegistrant fun r => { r with
        username := env.localiseStr (parameters.getD 0 [])
        distribution := env.localiseStr (parameters.getD 2 [])
        description :=
          if parameters.length > 5 then env.localiseStr (substr (parameters.getD 5 []) 0 env.maxRealNameLength)
          else r.description }).setRegistrationType .service

def parseUSER (parameters : List Octets) (s : Session) : Session :=
  s.checkRegistration env s.this.listener.allowUsers .irc2registrar_ERROR_CONN_DISALLOWED_USER "USER" 4 parameters
    fun s =>
      (s.setRegistrant fun r => { r with
        username := env.localiseStr (parameters.getD 0 [])
        modes := parameters.getD 1 []
        hostname := env.localiseStr (parameters.getD 2 [])
        description :=
          if parameters.length > 3 then env.localiseStr (substr (parameters.getD 3 []) 0 env.maxRealNameLength)
          else r.description }).setRegistrationType .user

/-! ## Messages -/

/-- The registrar's commands. -/
inductive Command where
  | capab | iircn | nick | pass | pong | quit | server | service | user
  deriving DecidableEq

/-- `commandTable`. -/
def commandTable : List (Octets × Command) :=
  [(octets "CAPAB", .capab), (octets "IIRCN", .iircn), (octets "NICK", .nick), (octets "PASS", .pass),
   (octets "PONG", .pong), (octets "QUIT", .quit), (octets "SERVER", .server), (octets "SERVICE", .service),
   (octets "USER", .user)]

/-- The table's handlers. -/
def handle (registry : Registry) (parameters : List Octets) (s : Session) : Command → Session
  | .capab => s.parseCAPAB env parameters
  | .iircn => s.parseIIRCN env parameters
  | .nick => s.parseNICK env registry parameters
  | .pass => s.parsePASS env parameters
  | .pong => s.parsePONG env parameters
  | .quit => s.parseQUIT parameters
  | .server => s.parseSERVER env parameters
  | .service => s.parseSERVICE env parameters
  | .user => s.parseUSER env parameters

/-- The handler of a command, if the table has it. -/
def dispatch (registry : Registry) (m : Message) (s : Session) : Session :=
  match commandTable.lookup m.command with
  | some command => s.handle env registry m.parameters command
  | none => s

/-- What the lookup of a protocol complains about. -/
def protocolUnavailable (tag : LangTag) (s : Session) : Session :=
  if s.this.registrantData.protocol ≠ [] then
    s.sendError (getLang env tag [toWideStr s.this.registrantData.protocol])
  else s.sendError (getLang env .irc2registrar_ERROR_PROTOCOL_UNKNOWN)

/-- The protocol found for a type, or the complaint. -/
def foundOr (found : Option ProtocolInfo) (tag : LangTag) (s : Session) : Session × Option ProtocolInfo :=
  match found with
  | some info => (s, some info)
  | none => (s.protocolUnavailable env tag, none)

/-- The `switch` of `parseMessage`: the protocol to create, once the fields of
the registration type are complete. -/
def findCompletion (s : Session) : Session × Option ProtocolInfo :=
  let r := s.this.registrantData
  match s.this.registrationType with
  | .none => (s, none)
  | .user =>
    if r.name = [] ∨ r.username = [] ∨ r.hostname = [] ∨ s.this.pongsLeft > 0 then (s, none)
    else s.foundOr env
      (if r.protocol = [] then env.findProtocol .user (octets "IRC-2") else env.findProtocol .user (toUpper r.protocol))
      .irc2registrar_ERROR_PROTOCOL_UNAVAILABLE_USER
  | .iircn =>
    if r.password = [] ∨ r.name = [] ∨ r.hostname = [] ∨ r.protocol = [] ∨ r.linkStamp ≤ 0 then (s, none)
    else s.foundOr env (env.findProtocol .network (toUpper r.protocol)) .irc2registrar_ERROR_PROTOCOL_UNAVAILABLE_IIRC
  | .server =>
    if r.password = [] ∨ r.hostname = [] then (s, none)
    else s.foundOr env (if r.protocol = [] then none else env.findProtocol .server (toUpper r.protocol))
      .irc2registrar_ERROR_PROTOCOL_UNAVAILABLE_SERVER
  | .service =>
    if r.password = [] ∨ r.name = [] ∨ r.distribution = [] then (s, none)
    else (s.protocolUnavailable env .irc2registrar_ERROR_PROTOCOL_UNAVAILABLE_SERVICE, none)

/-- `mod_irc2registrar::Protocol::parseMessage`, and whether it hands over to a
new irc2user protocol. -/
def parseMessage (registry : Registry) (m : Message) (s : Session) : Session × Bool :=
  let completion := (s.dispatch env registry m).findCompletion env
  match completion.2 with
  | none => (completion.1, false)
  | some info =>
    let s := completion.1.record (.create completion.1.this.registrationType)
    match info with
    | .irc2user => (s, true)
    | .unavailable => (s.sendError (getLang env .irc2registrar_ERROR_PROTOCOL_INIT_FAIL), false)

end Session

end KineIRCd.Irc2Registrar

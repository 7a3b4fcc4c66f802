import KineIRCd.Lib.Accesses
import KineIRCd.Registrar
/-!
# What the registrar reads of its parameters

The registrar's handlers once more, with every `parameters[i]` they evaluate.
They give what the handlers give, and read past the end of the parameters in
one case only.
-/
namespace KineIRCd.Irc2Registrar.Accesses

open Accessing LibIRC2 LibIRC2.Numerics Session

variable (env : Env) (registry : Registry) (parameters : List Octets) (s : Session)

/-- `parameters[i]`. -/
abbrev parameter (i : Nat) : Accessing Octets := Accessing.get parameters [] i

/-- The checks of `checkRegistration` read no parameter. -/
def checkRegistration (allowed : Bool) (disallowed : LangTag) (command : String) (required : Nat)
    (accept : Session → Accessing Session) : Accessing Session :=
  if !allowed then pure (s.sendError (getLang env disallowed)).goodbye
  else if s.this.registrationType ≠ .none then
    pure (s.sendNumeric env ERR_ALREADYREGISTERED [getLang env .irc2_ERR_ALREADYREGISTERED]).goodbye
  else if parameters.length < required then pure (s.needMoreParams env command)
  else accept s

def parseCAPAB : Accessing Session := if parameters = [] then pure (s.needMoreParams env "CAPAB") else pure s

def parseIIRCN : Accessing Session :=
  checkRegistration env parameters s s.this.listener.allowNetworks .irc2registrar_ERROR_CONN_DISALLOWED_IIRC "IIRCN" 6
    fun s => do
      let network ← parameter parameters 1
      if network ≠ replacementParameter then pure (s.brokenRegistrationData env)
      else do
        let name ← parameter parameters 0
        let hostname ← parameter parameters 2
        let protocol ← parameter parameters 3
        let stamp ← parameter parameters 4
        let s := s.setRegistrant fun r => { r with
          name := env.localiseStr name
          hostname := env.localiseStr hostname
          protocol := toUpper protocol
          linkStamp := env.toLong stamp }
        if env.toLong stamp ≤ 0 then pure (s.brokenRegistrationData env)
        else if parameters.length > 5 then do
          let description ← parameter parameters 5
          pure ((s.setRegistrant fun r => { r with
            description := env.localiseStr description }).setRegistrationType .iircn)
        else pure (s.setRegistrationType .iircn)

def parseNICK : Accessing Session :=
  if parameters = [] then pure (s.sendNumeric env ERR_NONICKNAMEGIVEN [getLang env .irc2_ERR_NONICKNAMEGIVEN])
  else do
    let nick ← env.localiseStr <$> parameter parameters 0
    if Client.Name.checkValidity env.maxNickNameLength nick ≠ .noError then
      pure (s.sendNumeric env ERR_ERRONEUSNICKNAME [getLang env .irc2_ERR_ERRONEUSNICKNAME])
    else if registry.findClient nick ≠ none then
      pure (s.sendNumeric env ERR_NICKNAMEINUSE [getLang env .irc2_ERR_NICKNAMEINUSE])
    else
      let s := s.setRegistrant fun r => { r with name := nick }
      if s.this.pongsLeft > 0 ∧ s.this.pongMatch = [] then
        let s := s.sendPing env
        pure (s.sendMessage (octets "NOTICE") [env.delocaliseStr nick,
          getLang env .irc2registrar_NOTICE_ANTI_SPOOF_PING_HELP
            [toWideStr s.this.pongMatch, wide "email@somewhere.org"]])
      else pure s

def parsePASS : Accessing Session :=
  if s.this.registrantData.password ≠ [] then pure (s.brokenRegistrationData env)
  else if parameters = [] then pure (s.needMoreParams env "PASS")
  else do
    let password ← parameter parameters 0
    pure (s.setRegistrant fun r => { r with password := env.localiseStr password })

def parsePONG : Accessing Session :=
  if s.this.pongsLeft = 0 ∨ parameters = [] then pure (s.sendError (getLang env .irc2registrar_ERROR_BAD_PONG)).goodbye
  else do
    let pong ← parameter parameters 0
    if pong ≠ s.this.pongMatch then pure (s.sendError (getLang env .irc2registrar_ERROR_BAD_PONG)).goodbye
    else
      let s := s.acceptPong pong
      pure (if s.this.pongsLeft > 0 then s.sendPing env else s)

def parseQUIT : Accessing Session := pure s.goodbye

def parseSERVER : Accessing Session :=
  checkRegistration env parameters s s.this.listener.allowServers .irc2registrar_ERROR_CONN_DISALLOWED_SERVER "SERVER" 3
    fun s => do
      let hostname ← parameter parameters 0
      let s := s.setRegistrant fun r => { r with hostname := env.localiseStr hostname }
      let hops ← parameter parameters 1
      if env.toInt hops ≠ 1 then pure (s.brokenRegistrationData env)
      else if parameters.length ≥ 5 then do
        let startStamp ← parameter parameters 2
        let linkStamp ← parameter parameters 3
        let protocol ← parameter parameters 4
        -- with five parameters the last one has the position 4
        let description ← parameter parameters 5
        pure ((s.setRegistrant fun r => { r with
          startStamp := env.toLong startStamp
          linkStamp := env.toLong linkStamp
          protocol
          description := env.localiseStr (substr description 0 env.maxDescriptionLength) }).setRegistrationType .server)
      else do
        let description ← parameter parameters 2
        pure ((s.setRegistrant fun r => { r with
          description := env.localiseStr (substr description 0 env.maxDescriptionLength) }).setRegistrationType .server)

def parseSERVICE : Accessing Session :=
  checkRegistration env parameters s s.this.listener.allowServices .irc2registrar_ERROR_CONN_DISALLOWED_SERVICE
    "SERVICE" 6 fun s => do
      let username ← parameter parameters 0
      let distribution ← parameter parameters 2
      let s := s.setRegistrant fun r => { r with
        username := env.localiseStr username
        distribution := env.localiseStr distribution }
      if parameters.length > 5 then do
        let description ← parameter parameters 5
        pure ((s.setRegistrant fun r => { r with
          description := env.localiseStr (substr description 0 env.maxRealNameLength) }).setRegistrationType .service)
      else pure (s.setRegistrationType .service)

def parseUSER : Accessing Session :=
  checkRegistration env parameters s s.this.listener.allowUsers .irc2registrar_ERROR_CONN_DISALLOWED_USER "USER" 4
    fun s => do
      let username ← parameter parameters 0
      let modes ← parameter parameters 1
      let hostname ← parameter parameters 2
      let s := s.setRegistrant fun r => { r with
        username := env.localiseStr username
        modes
        hostname := env.localiseStr hostname }
      if parameters.length > 3 then do
        let description ← parameter parameters 3
        pure ((s.setRegistrant fun r => { r with
          description := env.localiseStr (substr description 0 env.maxRealNameLength) }).setRegistrationType .user)
      else pure (s.setRegistrationType .user)

def handle : Command → Accessing Session
  | .capab => parseCAPAB env parameters s
  | .iircn => parseIIRCN env parameters s
  | .nick => parseNICK env registry parameters s
  | .pass => parsePASS env parameters s
  | .pong => parsePONG env parameters s
  | .quit => parseQUIT s
  | .server => parseSERVER env parameters s
  | .service => parseSERVICE env parameters s
  | .user => parseUSER env parameters s

/-- The handler of a message, if the table has it. -/
def dispatch (m : Message) : Accessing Session :=
  match commandTable.lookup m.command with
  | some command => handle env registry m.parameters s command
  | none => pure s

/-! ## The same results -/

variable {env registry parameters s}

theorem value_checkRegistration {allowed : Bool} {disallowed : LangTag} {command : String} {required : Nat}
    {accept : Session → Accessing Session} {accept' : Session → Session}
    (h : required ≤ parameters.length → (accept s).value = accept' s) :
    (checkRegistration env parameters s allowed disallowed command required accept).value =
      s.checkRegistration env allowed disallowed command required parameters accept' := by
  unfold checkRegistration Session.checkRegistration
  split_ifs with hallowed htype hfew
  · rfl
  · rfl
  · rfl
  · exact h (by omega)

/-- The handlers give what they give without the record of their reads. -/
theorem value_handle (command : Command) :
    (handle env registry parameters s command).value = s.handle env registry parameters command := by
  cases command with
  | capab =>
    simp only [handle, parseCAPAB, Session.handle, Session.parseCAPAB, value_ite, value_pure]
  | iircn | server | service | user =>
    apply value_checkRegistration
    intro _
    simp only [value_bind, value_ite, value_pure]
    split_ifs <;> rfl
  | nick =>
    simp only [handle, parseNICK, Session.handle, Session.parseNICK, value_bind, value_ite, value_pure, value_map]
  | pass =>
    simp only [handle, parsePASS, Session.handle, Session.parsePASS, value_bind, value_ite, value_pure]
  | pong =>
    simp only [handle, parsePONG, Session.handle, Session.parsePONG, value_bind, value_ite, value_pure]
  | quit => rfl

theorem value_dispatch (m : Message) : (dispatch env registry s m).value = s.dispatch env registry m := by
  unfold dispatch Session.dispatch
  cases commandTable.lookup m.command with
  | none => rfl
  | some command => exact value_handle command

/-! ## Reads past the end -/

theorem within_checkRegistration {allowed : Bool} {disallowed : LangTag} {command : String} {required n : Nat}
    {accept : Session → Accessing Session} :
    (checkRegistration env parameters s allowed disallowed command required accept).Within n ↔
      (allowed = true → s.this.registrationType = .none → required ≤ parameters.length → (accept s).Within n) := by
  unfold checkRegistration
  simp only [within_ite, within_pure, implies_true, true_and, Bool.not_eq_true', Bool.not_eq_false, Nat.not_lt,
    ne_eq, not_not]

/-- The layout of SERVER that reads `parameters[5]` is chosen by five
parameters already. -/
def OverrunsServer (env : Env) (parameters : List Octets) (s : Session) : Prop :=
  s.this.listener.allowServers = true ∧ s.this.registrationType = .none ∧ parameters.length = 5 ∧
    env.toInt (parameters.getD 1 []) = 1

theorem parseSERVER_within :
    (parseSERVER env parameters s).Within parameters.length ↔ ¬ OverrunsServer env parameters s := by
  unfold parseSERVER OverrunsServer
  rw [within_checkRegistration]
  simp only [within_bind, within_ite, within_pure, within_get]
  constructor
  · rintro h ⟨hallowed, htype, hfive, hhops⟩
    have := ((h hallowed htype (by omega)).2.2.2 (not_not.2 hhops)).1 (by omega)
    omega
  · rintro h hallowed htype hthree
    refine ⟨by omega, by omega, fun _ => trivial, fun hhops => ⟨?_, fun _ => ⟨by omega, trivial⟩⟩⟩
    intro hfive
    have hne : parameters.length ≠ 5 := fun hlength => h ⟨hallowed, htype, hlength, not_not.1 hhops⟩
    exact ⟨by omega, by omega, by omega, by omega, trivial⟩

/-- Every other handler reads what its own test of the count has made sure of. -/
theorem within_of_ne_server (command : Command) (h : command ≠ .server) :
    (handle env registry parameters s command).Within parameters.length := by
  have hempty : ¬ parameters = [] → 0 < parameters.length := List.length_pos_iff.2
  cases command with
  | capab =>
    simp only [handle, parseCAPAB, within_ite, within_pure, implies_true, and_self]
  | iircn =>
    apply within_checkRegistration.2
    intro _ _ hsix
    simp only [within_bind, within_ite, within_pure, within_get, implies_true, true_and, and_true]
    refine ⟨by omega, fun _ => ⟨by omega, by omega, by omega, by omega, fun _ _ => by omega⟩⟩
  | nick =>
    simp only [handle, parseNICK, within_bind, within_map, within_ite, within_pure,
      within_get, implies_true, true_and, and_true]
    exact hempty
  | pass =>
    simp only [handle, parsePASS, within_bind, within_ite, within_pure, within_get, implies_true, true_and, and_true]
    exact fun _ => hempty
  | pong =>
    simp only [handle, parsePONG, within_bind, within_ite, within_pure, within_get, implies_true, true_and, and_true]
    exact fun hdue => hempty fun hnil => hdue (.inr hnil)
  | quit => exact within_pure
  | server => exact absurd rfl h
  | service =>
    refine within_checkRegistration.2 fun _ _ hsix => ?_
    simp only [within_bind, within_ite, within_pure, within_get, implies_true, and_true]
    exact ⟨by omega, by omega, fun _ => by omega⟩
  | user =>
    apply within_checkRegistration.2
    intro _ _ hfour
    simp only [within_bind, within_ite, within_pure, within_get, implies_true, and_true]
    exact ⟨by omega, by omega, by omega, fun _ => by omega⟩

/-- What a message makes the registrar read of its parameters is there, but for
one layout of SERVER. -/
theorem dispatch_within_iff (env : Env) (registry : Registry) (s : Session) (m : Message) :
    (dispatch env registry s m).Within m.parameters.length ↔
      ¬ (commandTable.lookup m.command = some .server ∧ OverrunsServer env m.parameters s) := by
  unfold dispatch
  cases hcommand : commandTable.lookup m.command with
  | none => exact iff_of_true within_pure fun h => nomatch h.1
  | some command =>
    by_cases hserver : command = .server
    · subst hserver
      rw [and_iff_right rfl]
      exact parseSERVER_within
    · exact iff_of_true (within_of_ne_server command hserver) fun h => hserver (Option.some_inj.1 h.1)

/-- An environment that reads `1`. -/
def oneHop : Env := { Env.sample with toInt := fun text => if text = octets "1" then 1 else 0 }

/-- `SERVER irc.far 1 2 3 IRC2` reads `parameters[5]`. -/
theorem overruns_oneHop :
    ¬ (dispatch oneHop {} ⟨{ listener := .all }, true, 0, []⟩
      ⟨[], octets "SERVER", [octets "irc.far", octets "1", octets "2", octets "3", octets "IRC2"]⟩).Within 5 := by
  intro h
  have hread := h 5 (by decide)
  omega

end KineIRCd.Irc2Registrar.Accesses

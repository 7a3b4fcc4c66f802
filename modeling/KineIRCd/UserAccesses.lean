import KineIRCd.Lib.Accesses
import KineIRCd.Irc2UserSteps
/-!
# What a user's commands read of their parameters

The handlers of the command table, with every `parameters[i]` they evaluate.
The ones that only report something are written out here; what they ask of the
core and of the library comes from `Answers`. The table of minimum counts and
the bodies then fit: nothing past the end of the parameters is read.
-/
namespace KineIRCd.Irc2User.Accesses

open Accessing LibIRC2 LibIRC2.Numerics

/-- What the handlers learn from outside. Lines are what the function sends
the user. -/
structure Answers where
  /-- `Utility::findServerTarget`: the name of the server found. -/
  findServerTarget : WString → Option WString
  /-- `requestAdminInfo` of the server with a name. -/
  requestAdminInfo : WString → World → Error × List Octets
  /-- The loop of HELP over the commands, for a mask and with the extended texts or not. -/
  help : Bool → Octets → World → List Octets
  /-- `getNickname` of the client at an address. -/
  nickname : Nat → World → WString
  /-- The loop of LANGUAGE over the languages loaded. -/
  languages : World → List Octets
  sendLanguageList : World → List Octets
  sendISUPPORT : World → List Octets
  /-- `sendNames` for the channel of a name, if there is one. -/
  names : Octets → World → List Octets
  /-- The loop of STATS over the call counters of the commands. -/
  callCounts : World → List Octets
  doINFO : World → List Octets
  doLUSERS : World → List Octets
  doMOTD : World → List Octets
  doSTATS : Octets → World → List Octets
  doSUMMON : Octets → World → List Octets
  doTIME : World → List Octets
  doUSERS : World → List Octets
  doVERSION : World → List Octets
  doWHOIS : Octets → World → List Octets
  doWHOWAS : Octets → Int → World → List Octets
  kill : Nat → WString → World → Error × World
  rehash : World → Error × World
  restart : WString → World → Error × World
  sendWallops : WString → World → Error × World
  shutdown : WString → World → Error × World

variable (site : Site) (answers : Answers) (self : Self) (parameters : List Octets) (w : World)

/-- `parameters[i]`. -/
abbrev parameter (i : Nat) : Accessing Octets := Accessing.get parameters [] i

/-- The line of `sendNumeric`. -/
def numericLine (numeric : Nat) (texts : List Octets) : Octets :=
  formatNumeric (site.delocaliseStr site.serverName) (site.delocaliseStr self.user.nickname) numeric texts

def noSuchServer (serverName : Octets) : List Octets :=
  [numericLine site self ERR_NOSUCHSERVER [serverName, getLang site self .irc2_ERR_NOSUCHSERVER]]

/-! ## Reports -/

def handleADMIN : Accessing (List Octets) := do
  -- without parameters the server is this one, so it is found
  let server ←
    (if parameters = [] then pure (some site.serverName)
    else (fun name => answers.findServerTarget (site.localiseStr name)) <$> parameter parameters 0 :
      Accessing (Option WString))
  match server with
  | some name =>
    let request := answers.requestAdminInfo name w
    if request.1 = .noError then pure request.2
    else pure (request.2 ++ [numericLine site self ERR_UNKNOWNERROR
      [site.delocaliseStr name, getLang site self .irc2_ERR_UNKNOWNERROR]])
  | none => noSuchServer site self <$> parameter parameters 0

def handleHELP : Accessing (List Octets) := do
  let request ←
    (if parameters = [] then pure (false, octets "*")
    else do
      let first ← parameter parameters 0
      if first.head? = some 0x2D then (fun text => (true, text.drop 1)) <$> parameter parameters 0
      else (fun text => (false, text)) <$> parameter parameters 0 : Accessing (Bool × Octets))
  pure (answers.help request.1 request.2 w ++ [formatMessageFrom (site.delocaliseStr site.serverName) (octets "NOTICE")
    [site.delocaliseStr self.user.nickname, getLang site self .irc2user_HELP_END [site.localiseStr request.2]]])

/-- The body of INFO, LUSERS, MOTD, TIME, USERS and VERSION. -/
def respond (reply : World → List Octets) : Accessing (List Octets) :=
  if parameters = [] then pure (reply w)
  else do
    let serverName ← parameter parameters 0
    pure (noSuchServer site self serverName)

def handleINFO : Accessing (List Octets) := respond site self parameters w answers.doINFO

def handleISON : Accessing (List Octets) :=
  let found := parameters.filterMap fun nickname => w.registry.findClient (site.localiseStr nickname)
  pure [numericLine site self RPL_ISON
    [joinDelimited SPACE (found.map fun client => site.delocaliseStr (answers.nickname client w))]]

def handleLUSERS : Accessing (List Octets) := respond site self parameters w answers.doLUSERS

def handleMOTD : Accessing (List Octets) := respond site self parameters w answers.doMOTD

def handleNAMES : Accessing (List Octets) := do
  let request ← (if parameters = [] then pure replacementParameter else parameter parameters 0 : Accessing Octets)
  pure (((⟨request⟩ : StringTokens).tokens COMMA).flatMap (fun target => answers.names target w) ++
    [numericLine site self RPL_ENDOFNAMES [request, getLang site self .irc2_RPL_ENDOFNAMES]])

def handleNETWORKS : Accessing (List Octets) :=
  if parameters = [] then
    pure [numericLine site self RPL_ENDOF_GENERIC
      [octets "NETWORKS", getLang site self .irc2_RPL_ENDOF_GENERIC_NETWORKS]]
  else pure []

/-- `strncmp(a, b, n) == 0`. -/
def strncmpEq (a b : Octets) (n : Nat) : Bool := (a.takeWhile (· ≠ 0)).take n = (b.takeWhile (· ≠ 0)).take n

def handleSTATS : Accessing (List Octets) :=
  if parameters.length < 2 then do
    let request ← parameter parameters 0
    let sameRequest ← parameter parameters 0
    if strncmpEq (toLower request) (octets "messages") (max sameRequest.length 1) then do
      let query ← parameter parameters 0
      pure (answers.callCounts w ++
        [numericLine site self RPL_ENDOFSTATS [query, getLang site self .irc2_RPL_ENDOFSTATS]])
    else do
      let query ← parameter parameters 0
      pure (answers.doSTATS query w)
  else do
    let serverName ← parameter parameters 1
    pure (noSuchServer site self serverName)

def handleSUMMON : Accessing (List Octets) :=
  if parameters.length < 2 then do
    let username ← parameter parameters 0
    pure (answers.doSUMMON username w)
  else do
    let serverName ← parameter parameters 1
    pure (noSuchServer site self serverName)

def handleTIME : Accessing (List Octets) := respond site self parameters w answers.doTIME

def handleUSERS : Accessing (List Octets) := respond site self parameters w answers.doUSERS

/-- What USERHOST says of a user. -/
def userHost (u : User) : Octets :=
  site.delocaliseStr u.nickname ++ (if u.isOperator then octets "*" else []) ++ octets "=" ++
    octets (if u.isAway then "-" else "?") ++ site.delocaliseStr u.username ++ octets "@" ++
    site.delocaliseStr u.hostname

def handleUSERHOST : Accessing (List Octets) :=
  let found := (parameters.take 5).filterMap fun nickname =>
    (w.registry.findUser (site.localiseStr nickname)).bind fun address => (w.protocol address).bind (·.user?)
  pure [numericLine site self RPL_USERHOST [joinDelimited SPACE (found.map (userHost site))]]

def handleVERSION : Accessing (List Octets) :=
  respond site self parameters w fun w => answers.doVERSION w ++ answers.sendISUPPORT w

def handleWHOIS : Accessing (List Octets) :=
  if parameters.length < 2 then do
    let targets ← parameter parameters 0
    pure (answers.doWHOIS targets w)
  else do
    let serverName ← parameter parameters 0
    pure (noSuchServer site self serverName)

def handleWHOWAS : Accessing (List Octets) :=
  if parameters.length < 3 then
    if parameters.length = 2 then do
      let targets ← parameter parameters 0
      let count ← parameter parameters 1
      pure (answers.doWHOWAS targets (site.toInt count) w)
    else do
      let targets ← parameter parameters 0
      pure (answers.doWHOWAS targets (-1) w)
  else do
    let serverName ← parameter parameters 0
    pure (noSuchServer site self serverName)

/-! ## Commands that do something -/

/-- The user's lines of a report, queued. -/
def queue (lines : Accessing (List Octets)) : Accessing World := (fun lines => outputLines self lines w) <$> lines

/-- What DIE, KILL, RESTART and WALLOPS say of the result of what they tried. -/
def complain (commandName : String) (error : Error) (w : World) : World :=
  if error = .noError then w
  else if error = .permissionDenied then
    sendNumeric site self ERR_NOPRIVILEGES [octets commandName, getLang site self .irc2_ERR_NOPRIVILEGES_SPECIFIC] w
  else if error = .textTooShort then
    sendNumeric site self ERR_TEXTTOOSHORT [octets commandName, getLang site self .irc2_ERR_TEXTTOOSHORT] w
  else sendNumeric site self ERR_UNKNOWNERROR [octets commandName, getLang site self .irc2_ERR_UNKNOWNERROR] w

def handleAWAY : Accessing World :=
  if parameters = [] then pure (Irc2User.handleAWAY site self [] w)
  else do
    let reason ← parameter parameters 0
    pure (Irc2User.handleAWAY site self [reason] w)

def handleDIE : Accessing World := do
  let reason ← parameter parameters 0
  let result := answers.shutdown (site.localiseStr reason) w
  pure (complain site self "DIE" result.1 result.2)

def handleJOIN : Accessing World := do
  let channel ← parameter parameters 0
  pure (sendNumeric site self ERR_NOSUCHCHANNEL
    [channel, getLang site self .irc2_ERR_NOSUCHCHANNEL_UNSUPPORTED_TYPE] w)

def handleKILL : Accessing World := do
  let name ← parameter parameters 0
  match w.registry.findClient (site.localiseStr name) with
  | some victim => do
    let reason ← parameter parameters 1
    let result := answers.kill victim (site.localiseStr reason) w
    pure (complain site self "KILL" result.1 result.2)
  | none => do
    let name ← parameter parameters 0
    pure (sendNumeric site self ERR_NOSUCHNICK [name, getLang site self .irc2_ERR_NOSUCHNICK] w)

def handleLANGUAGE : Accessing World :=
  if parameters = [] then pure (outputLines self (answers.languages w ++ [numericLine site self RPL_ENDOF_GENERIC
    [octets "LANGUAGE", getLang site self .irc2_RPL_ENDOF_GENERIC_LANGUAGE]]) w)
  else do
    let codes ← parameter parameters 0
    let result := languageCodes site self ⟨codes⟩ 0 [] w
    match result.1 with
    | some (l :: ls) =>
      let w := modifyUser self (fun u => { u with languageList := l :: ls }) result.2
      pure (outputLines self (answers.sendLanguageList w) w)
    | _ => pure result.2

/-- `changeNickname` always fails, with an error that has no case of its own. -/
def handleNICK : Accessing World :=
  if parameters = [] then
    pure (sendNumeric site self ERR_NONICKNAMEGIVEN [getLang site self .irc2_ERR_NONICKNAMEGIVEN] w)
  else do
    let _newNickname ← parameter parameters 0
    let name ← parameter parameters 0
    pure (sendNumeric site self ERR_ERRONEUSNICKNAME [name, getLang site self .irc2_ERR_ERRONEUSNICKNAME] w)

/-- The loops over a recipient list. -/
def forTargets (each : Octets → World → Accessing World) (tooMany : World → World) (targets : UInt32)
    (recipients : StringTokens) (w : World) : Accessing World :=
  if _h : recipients.hasMoreTokens = true then
    let target := (recipients.nextToken COMMA).1
    let targets := targets - 1
    if targets > 0 ∨ self.user.isOperator then
      each target w >>= forTargets each tooMany targets (recipients.nextToken COMMA).2
    else pure (tooMany w)
  else pure w
termination_by recipients.unread.length
decreasing_by exact StringTokens.nextToken_length recipients COMMA _h

/-- One target of `doMessage`. The text is read once the target is found. -/
def messageTarget (isNotice : Bool) (target : Octets) (w : World) : Accessing World :=
  let receiver := if target = [] then none else findMessageTarget w.registry (site.localiseStr target) true
  match receiver with
  | some _ => do
    let text ← parameter parameters 1
    pure (Irc2User.messageTarget site self isNotice target (site.localiseStr text) w)
  | none => pure (Irc2User.messageTarget site self isNotice target [] w)

def doMessage (isNotice : Bool) : Accessing World :=
  if parameters.length ≥ 2 then do
    let recipients ← parameter parameters 0
    forTargets self (messageTarget site self parameters isNotice)
      (fun w => if isNotice then w else tooManyTargets site self w) site.maxTargets.toUInt32 ⟨recipients⟩ w
  else if isNotice then pure w
  else pure (missingParameters site self "PRIVMSG" parameters w)

def handlePING : Accessing World :=
  let server := site.delocaliseStr site.serverName
  if parameters ≠ [] then do
    let origin ← parameter parameters 0
    pure (w.outputLine self.this (formatMessageFrom server (octets "PONG") [server, origin]))
  else pure (sendNumeric site self ERR_NOORIGIN [getLang site self .irc2_ERR_NOORIGIN] w)

def handleQUIT : Accessing World :=
  if parameters = [] then pure (Irc2User.handleQUIT site self [] w)
  else do
    let _reason ← parameter parameters 0
    let reason ← parameter parameters 0
    pure (Irc2User.handleQUIT site self [reason] w)

def handleREHASH : Accessing World :=
  let result := answers.rehash w
  pure (if result.1 = .noError then
      sendNumeric site self RPL_REHASHING [getLang site self .irc2_RPL_REHASHING] result.2
    else if result.1 = .permissionDenied then sendNumeric site self ERR_NOPRIVILEGES
      [octets "REHASH", getLang site self .irc2_ERR_NOPRIVILEGES_SPECIFIC] result.2
    else sendNumeric site self ERR_UNKNOWNERROR
      [octets "REHASH", getLang site self .irc2_ERR_UNKNOWNERROR] result.2)

def handleRESTART : Accessing World := do
  let reason ← parameter parameters 0
  let result := answers.restart (site.localiseStr reason) w
  pure (complain site self "RESTART" result.1 result.2)

/-- One target of SQUERY. The text is read for a service. -/
def queryTarget (target : Octets) (w : World) : Accessing World :=
  match findMessageTarget w.registry (site.localiseStr target) true with
  | some (.service _) => do
    let _query ← parameter parameters 1
    pure (Irc2User.queryTarget site self target w)
  | _ => pure (Irc2User.queryTarget site self target w)

def handleSQUERY : Accessing World :=
  if parameters.length ≥ 2 then do
    let recipients ← parameter parameters 0
    forTargets self (queryTarget site self parameters) (tooManyTargets site self) site.maxTargets.toUInt32
      ⟨recipients⟩ w
  else pure (missingParameters site self "SQUERY" parameters w)

def handleWALLOPS : Accessing World := do
  let message ← parameter parameters 0
  let result := answers.sendWallops (site.localiseStr message) w
  pure (complain site self "WALLOPS" result.1 result.2)

/-! ## The table -/

/-- The listing of LANGUAGE without parameters, and the list sent after a change. -/
def reportLANGUAGE : Accessing (List Octets) :=
  pure (if parameters = [] then answers.languages w ++ [numericLine site self RPL_ENDOF_GENERIC
      [octets "LANGUAGE", getLang site self .irc2_RPL_ENDOF_GENERIC_LANGUAGE]]
    else answers.sendLanguageList w)

/-- What the commands that report something report. -/
def reports : List (Octets × (List Octets → World → Accessing (List Octets))) :=
  [(octets "ADMIN", handleADMIN site answers self), (octets "HELP", handleHELP site answers self),
   (octets "INFO", handleINFO site answers self), (octets "ISON", handleISON site answers self),
   (octets "LANGUAGE", reportLANGUAGE site answers self), (octets "LUSERS", handleLUSERS site answers self),
   (octets "MOTD", handleMOTD site answers self), (octets "NAMES", handleNAMES site answers self),
   (octets "NETWORKS", fun parameters _ => handleNETWORKS site self parameters),
   (octets "STATS", handleSTATS site answers self), (octets "SUMMON", handleSUMMON site answers self),
   (octets "TIME", handleTIME site answers self), (octets "USERHOST", handleUSERHOST site self),
   (octets "USERS", handleUSERS site answers self), (octets "VERSION", handleVERSION site answers self),
   (octets "WHOIS", handleWHOIS site answers self), (octets "WHOWAS", handleWHOWAS site answers self)]

/-- The handlers, in the order of `commands.def`. -/
def handlers : List (Octets × (List Octets → World → Accessing World)) :=
  [(octets "ADMIN", fun parameters w => queue self w (handleADMIN site answers self parameters w)),
   (octets "AWAY", handleAWAY site self),
   (octets "DIE", handleDIE site answers self),
   (octets "HELP", fun parameters w => queue self w (handleHELP site answers self parameters w)),
   (octets "INFO", fun parameters w => queue self w (handleINFO site answers self parameters w)),
   (octets "ISON", fun parameters w => queue self w (handleISON site answers self parameters w)),
   (octets "JOIN", handleJOIN site self),
   (octets "KILL", handleKILL site answers self),
   (octets "LANGUAGE", handleLANGUAGE site answers self),
   (octets "LUSERS", fun parameters w => queue self w (handleLUSERS site answers self parameters w)),
   (octets "MOTD", fun parameters w => queue self w (handleMOTD site answers self parameters w)),
   (octets "NAMES", fun parameters w => queue self w (handleNAMES site answers self parameters w)),
   (octets "NETWORKS", fun parameters w => queue self w (handleNETWORKS site self parameters)),
   (octets "NICK", handleNICK site self),
   (octets "NOTICE", fun parameters w => doMessage site self parameters w true),
   (octets "OPER", fun _ w => pure (sendNumeric site self ERR_NOOPERHOST [getLang site self .irc2_ERR_NOOPERHOST] w)),
   (octets "PART",
    fun _ w => pure (sendNumeric site self ERR_NOTONCHANNEL [getLang site self .irc2_ERR_NOTONCHANNEL] w)),
   (octets "PING", handlePING site self),
   (octets "PRIVMSG", fun parameters w => doMessage site self parameters w false),
   (octets "QUIT", handleQUIT site self),
   (octets "REHASH", fun _ w => handleREHASH site answers self w),
   (octets "RESTART", handleRESTART site answers self),
   (octets "SQUERY", handleSQUERY site self),
   (octets "STATS", fun parameters w => queue self w (handleSTATS site answers self parameters w)),
   (octets "SUMMON", fun parameters w => queue self w (handleSUMMON site answers self parameters w)),
   (octets "TIME", fun parameters w => queue self w (handleTIME site answers self parameters w)),
   (octets "USERHOST", fun parameters w => queue self w (handleUSERHOST site self parameters w)),
   (octets "USERS", fun parameters w => queue self w (handleUSERS site answers self parameters w)),
   (octets "VERSION", fun parameters w => queue self w (handleVERSION site answers self parameters w)),
   (octets "WALLOPS", handleWALLOPS site answers self),
   (octets "WHOIS", fun parameters w => queue self w (handleWHOIS site answers self parameters w)),
   (octets "WHOWAS", fun parameters w => queue self w (handleWHOWAS site answers self parameters w))]

/-! ## Within the parameters -/

section Within
variable {site answers self parameters w}

theorem within_queue {lines : Accessing (List Octets)} {n : Nat} : (queue self w lines).Within n ↔ lines.Within n :=
  within_map

/-- A handler that only reads the first of the parameters it must have. -/
theorem within_first {f : Octets → World} {n : Nat} (h : 1 ≤ n) :
    (parameter parameters 0 >>= fun p => pure (f p)).Within n := by
  rw [within_bind, within_get]
  exact ⟨h, within_pure⟩

/-- A handler that reads the first parameter when there is one. -/
theorem within_unless_nil {α : Type} {a : α} {f : Octets → Accessing α}
    (h : ∀ first, 0 < parameters.length → (f first).Within parameters.length) :
    (if parameters = [] then pure a else parameter parameters 0 >>= f).Within parameters.length := by
  rw [within_ite]
  refine ⟨fun _ => within_pure, ?_⟩
  intro hne
  have hpos := List.length_pos_iff.2 hne
  rw [within_bind, within_get]
  exact ⟨hpos, h _ hpos⟩

theorem respond_within {reply : World → List Octets} :
    (respond site self parameters w reply).Within parameters.length :=
  within_unless_nil fun _ _ => within_pure

theorem handleADMIN_within : (handleADMIN site answers self parameters w).Within parameters.length := by
  unfold handleADMIN
  rw [within_bind]
  by_cases h : parameters = []
  · simp only [h, if_true, value_pure]
    refine ⟨within_pure, ?_⟩
    rw [within_ite]
    exact ⟨fun _ => within_pure, fun _ => within_pure⟩
  · have hpos : 0 < parameters.length := List.length_pos_iff.2 h
    rw [if_neg h, within_map, within_get]
    refine ⟨hpos, ?_⟩
    split
    · rw [within_ite]
      exact ⟨fun _ => within_pure, fun _ => within_pure⟩
    · rwa [within_map, within_get]

theorem handleHELP_within : (handleHELP site answers self parameters w).Within parameters.length := by
  unfold handleHELP
  simp only [within_bind, within_ite, within_map, within_get, within_pure, implies_true, true_and, and_true]
  intro h
  have hpos : 0 < parameters.length := List.length_pos_iff.2 h
  exact ⟨hpos, fun _ => hpos, fun _ => hpos⟩

theorem handleNAMES_within : (handleNAMES site answers self parameters w).Within parameters.length := by
  unfold handleNAMES
  simp only [within_bind, within_ite, within_get, within_pure, implies_true, true_and, and_true]
  exact List.length_pos_iff.2

theorem handleNETWORKS_within {n : Nat} : (handleNETWORKS site self parameters).Within n :=
  within_ite.2 ⟨fun _ => within_pure, fun _ => within_pure⟩

theorem handleSTATS_within (h : 1 ≤ parameters.length) :
    (handleSTATS site answers self parameters w).Within parameters.length := by
  unfold handleSTATS
  simp only [within_bind, within_ite, within_get, within_pure, and_true]
  exact ⟨fun _ => ⟨h, h, fun _ => h, fun _ => h⟩, fun hserver => by omega⟩

theorem handleSUMMON_within (h : 1 ≤ parameters.length) :
    (handleSUMMON site answers self parameters w).Within parameters.length := by
  unfold handleSUMMON
  simp only [within_bind, within_ite, within_get, within_pure, and_true]
  exact ⟨fun _ => h, fun hserver => by omega⟩

theorem handleWHOIS_within (h : 1 ≤ parameters.length) :
    (handleWHOIS site answers self parameters w).Within parameters.length := by
  unfold handleWHOIS
  simp only [within_bind, within_ite, within_get, within_pure, and_true]
  exact ⟨fun _ => h, fun _ => h⟩

theorem handleWHOWAS_within (h : 1 ≤ parameters.length) :
    (handleWHOWAS site answers self parameters w).Within parameters.length := by
  unfold handleWHOWAS
  simp only [within_bind, within_ite, within_get, within_pure, and_true]
  exact ⟨fun _ => ⟨fun htwo => ⟨h, by omega⟩, fun _ => h⟩, fun _ => h⟩

theorem handleAWAY_within : (handleAWAY site self parameters w).Within parameters.length :=
  within_unless_nil fun _ _ => within_pure

theorem handleKILL_within (h : 2 ≤ parameters.length) :
    (handleKILL site answers self parameters w).Within parameters.length := by
  unfold handleKILL
  rw [within_bind, within_get]
  refine ⟨by omega, ?_⟩
  -- the reason is there for a victim, and the name once more for none
  split
  · rw [within_bind, within_get]
    exact ⟨by omega, within_pure⟩
  · rw [within_bind, within_get]
    exact ⟨by omega, within_pure⟩

theorem handleLANGUAGE_within : (handleLANGUAGE site answers self parameters w).Within parameters.length := by
  apply within_unless_nil
  intro codes _
  dsimp only
  split
  · exact within_pure
  · exact within_pure

theorem handleNICK_within : (handleNICK site self parameters w).Within parameters.length := by
  apply within_unless_nil
  intro _ hpos
  exact within_first hpos

theorem forTargets_within {each : Octets → World → Accessing World} {tooMany : World → World} {n : Nat}
    (heach : ∀ t w, (each t w).Within n) (targets : UInt32) (recipients : StringTokens) (w : World) :
    (forTargets self each tooMany targets recipients w).Within n := by
  fun_induction forTargets self each tooMany targets recipients w with
  | case1 targets recipients w _ target targets' _ ih => exact within_bind.2 ⟨heach target w, ih _⟩
  | case2 targets recipients w _ targets' _ => exact within_pure
  | case3 targets recipients w _ => exact within_pure

theorem doMessage_within (isNotice : Bool) : (doMessage site self parameters w isNotice).Within parameters.length := by
  unfold doMessage
  simp only [within_ite, within_bind, within_get, within_pure, implies_true, and_true]
  intro htwo
  refine ⟨by omega, forTargets_within ?_ _ _ w⟩
  intro t w
  simp only [messageTarget]
  split
  · rw [within_bind, within_get]
    exact ⟨by omega, within_pure⟩
  · exact within_pure

theorem handlePING_within : (handlePING site self parameters w).Within parameters.length := by
  unfold handlePING
  simp only [within_bind, within_ite, within_get, within_pure, implies_true, and_true]
  exact List.length_pos_iff.2

theorem handleQUIT_within : (handleQUIT site self parameters w).Within parameters.length := by
  apply within_unless_nil
  intro _ hpos
  exact within_first hpos

theorem handleSQUERY_within : (handleSQUERY site self parameters w).Within parameters.length := by
  unfold handleSQUERY
  simp only [within_ite, within_bind, within_get, within_pure, implies_true, and_true]
  intro htwo
  refine ⟨by omega, forTargets_within (fun t w => ?_) _ _ w⟩
  simp only [queryTarget]
  split
  · rw [within_bind, within_get]
    exact ⟨by omega, within_pure⟩
  · exact within_pure

end Within

/-! ## The same results -/

/-- The site's reports are those written out here. -/
def Reporting : Prop :=
  ∀ command lines, (reports site answers self).lookup command = some lines →
    ∀ parameters w, site.report w self.this command parameters = (lines parameters w).value

section Value
variable {site answers self parameters w}

theorem value_queue {command : Octets} {lines : Accessing (List Octets)}
    (h : site.report w self.this command parameters = lines.value) :
    (queue self w lines).value = report site self command parameters w := by
  rw [queue, value_map, report, h]

theorem value_forTargets {each : Octets → World → Accessing World} {each' : Octets → World → World}
    {tooMany : World → World} (heach : ∀ t w, (each t w).value = each' t w) (targets : UInt32)
    (recipients : StringTokens) (w : World) :
    (forTargets self each tooMany targets recipients w).value =
      Irc2User.forTargets self each' tooMany targets recipients w := by
  fun_induction forTargets self each tooMany targets recipients w with
  | case1 targets recipients w hmore target targets' hgo ih =>
    rw [Irc2User.forTargets, dif_pos hmore, if_pos hgo, value_bind, heach]
    exact heach target w ▸ ih _
  | case2 targets recipients w hmore targets' hstop =>
    rw [Irc2User.forTargets, dif_pos hmore, if_neg hstop]
    rfl
  | case3 targets recipients w hdone =>
    rw [Irc2User.forTargets, dif_neg hdone]
    rfl

theorem value_messageTarget (isNotice : Bool) (target : Octets) :
    (messageTarget site self parameters isNotice target w).value =
      Irc2User.messageTarget site self isNotice target (site.localiseStr (parameters.getD 1 [])) w := by
  simp only [messageTarget]
  split
  · rfl
  · rename_i hnone
    simp only [value_pure, Irc2User.messageTarget, hnone]

theorem value_queryTarget (target : Octets) :
    (queryTarget site self parameters target w).value = Irc2User.queryTarget site self target w := by
  unfold queryTarget
  split <;> rfl

theorem value_doMessage (isNotice : Bool) :
    (doMessage site self parameters w isNotice).value = Irc2User.doMessage site self parameters isNotice w := by
  unfold doMessage Irc2User.doMessage
  split_ifs
  · exact value_forTargets (fun t w => value_messageTarget _ t) _ _ w
  · exact value_forTargets (fun t w => value_messageTarget _ t) _ _ w
  · rfl
  · rfl

theorem value_handleSQUERY :
    (handleSQUERY site self parameters w).value = Irc2User.handleSQUERY site self parameters w := by
  unfold handleSQUERY Irc2User.handleSQUERY
  split_ifs
  · exact value_forTargets (fun t w => value_queryTarget t) _ _ w
  · rfl

theorem value_handleAWAY : (handleAWAY site self parameters w).value = Irc2User.handleAWAY site self parameters w := by
  unfold handleAWAY
  split_ifs with h
  · rw [h]
    rfl
  · obtain ⟨reason, rest, rfl⟩ := List.exists_cons_of_ne_nil h
    rfl

theorem value_handleNICK : (handleNICK site self parameters w).value = Irc2User.handleNICK site self parameters w := by
  unfold handleNICK Irc2User.handleNICK
  split_ifs <;> rfl

theorem value_handlePING : (handlePING site self parameters w).value = Irc2User.handlePING site self parameters w := by
  unfold handlePING Irc2User.handlePING
  dsimp only
  split_ifs <;> rfl

theorem value_handleQUIT : (handleQUIT site self parameters w).value = Irc2User.handleQUIT site self parameters w := by
  unfold handleQUIT
  split_ifs with h
  · rw [h]
    rfl
  · obtain ⟨reason, rest, rfl⟩ := List.exists_cons_of_ne_nil h
    rfl

theorem value_handleLANGUAGE (h : Reporting site answers self) :
    (handleLANGUAGE site answers self parameters w).value = Irc2User.handleLANGUAGE site self parameters w := by
  have hreport : ∀ w, site.report w self.this (octets "LANGUAGE") parameters =
      (reportLANGUAGE site answers self parameters w).value :=
    h (octets "LANGUAGE") (reportLANGUAGE site answers self) rfl parameters
  unfold handleLANGUAGE Irc2User.handleLANGUAGE
  split_ifs with hnil
  · rw [report, hreport, reportLANGUAGE, if_pos hnil]
    rfl
  · dsimp only [value_bind]
    obtain ⟨_ | _ | ⟨l, ls⟩, w'⟩ := languageCodes site self ⟨parameters.getD 0 []⟩ 0 [] w
    · rfl
    · rfl
    · dsimp only
      rw [report, hreport, reportLANGUAGE, if_neg hnil]
      rfl

end Value

/-! ## The table and the bodies together -/

/-- A handler fits its entry of the table: with as many parameters as the entry
asks for it reads none that is not there, and what it does is what `handle` does. -/
structure Fits (user : Self) (entry : Octets × CommandInfo)
    (handler : Octets × (List Octets → World → Accessing World)) : Prop where
  name : handler.1 = entry.1
  within : ∀ parameters w, entry.2.minimumParams ≤ parameters.length → (handler.2 parameters w).Within parameters.length
  value : Reporting site answers user → entry.2.access = .anybody → ∀ parameters w,
    (handler.2 parameters w).value = Irc2User.handle site user entry.1 parameters w entry.2.handler

variable {site answers self}

/-- A command that reports something. -/
theorem Fits.report {command : String} {info : CommandInfo} {lines : List Octets → World → Accessing (List Octets)}
    (hhandler : info.handler = .reports)
    (hlines : (reports site answers self).lookup (octets command) = some lines)
    (hwithin : ∀ parameters w, info.minimumParams ≤ parameters.length → (lines parameters w).Within parameters.length) :
    Fits site answers self (octets command, info)
      (octets command, fun parameters w => queue self w (lines parameters w)) where
  name := rfl
  within parameters w h := within_queue.2 (hwithin parameters w h)
  value hreport _ parameters w := by
    rw [value_queue (hreport _ _ hlines parameters w), hhandler]
    rfl

/-- A command only operators may use. -/
theorem Fits.operator {entry : Octets × CommandInfo} {handler : List Octets → World → Accessing World}
    (haccess : entry.2.access ≠ .anybody)
    (hwithin : ∀ parameters w, entry.2.minimumParams ≤ parameters.length →
      (handler parameters w).Within parameters.length) :
    Fits site answers self entry (entry.1, handler) where
  name := rfl
  within := hwithin
  value _ h := absurd h haccess

theorem handlers_fit : List.Forall₂ (Fits site answers self) commandList (handlers site answers self) := by
  refine .cons (.report rfl rfl fun _ _ _ => handleADMIN_within) ?_
  refine .cons ⟨rfl, fun _ _ _ => handleAWAY_within, fun _ _ _ _ => value_handleAWAY⟩ ?_
  refine .cons (.operator (by decide) fun _ _ h => within_first h) ?_
  refine .cons (.report rfl rfl fun _ _ _ => handleHELP_within) ?_
  refine .cons (.report rfl rfl fun _ _ _ => respond_within) ?_
  refine .cons (.report rfl rfl fun _ _ _ => within_pure) ?_
  refine .cons ⟨rfl, fun _ _ h => within_first h, fun _ _ _ _ => rfl⟩ ?_
  refine .cons (.operator (by decide) fun _ _ h => handleKILL_within h) ?_
  refine .cons ⟨rfl, fun _ _ _ => handleLANGUAGE_within, fun hreport _ _ _ => value_handleLANGUAGE hreport⟩ ?_
  refine .cons (.report rfl rfl fun _ _ _ => respond_within) ?_
  refine .cons (.report rfl rfl fun _ _ _ => respond_within) ?_
  refine .cons (.report rfl rfl fun _ _ _ => handleNAMES_within) ?_
  refine .cons (.report rfl rfl fun _ _ _ => handleNETWORKS_within) ?_
  refine .cons ⟨rfl, fun _ _ _ => handleNICK_within, fun _ _ _ _ => value_handleNICK⟩ ?_
  refine .cons ⟨rfl, fun _ _ _ => doMessage_within true, fun _ _ _ _ => value_doMessage true⟩ ?_
  refine .cons ⟨rfl, fun _ _ _ => within_pure, fun _ _ _ _ => rfl⟩ ?_
  refine .cons ⟨rfl, fun _ _ _ => within_pure, fun _ _ _ _ => rfl⟩ ?_
  refine .cons ⟨rfl, fun _ _ _ => handlePING_within, fun _ _ _ _ => value_handlePING⟩ ?_
  refine .cons ⟨rfl, fun _ _ _ => doMessage_within false, fun _ _ _ _ => value_doMessage false⟩ ?_
  refine .cons ⟨rfl, fun _ _ _ => handleQUIT_within, fun _ _ _ _ => value_handleQUIT⟩ ?_
  refine .cons (.operator (by decide) fun _ _ _ => within_pure) ?_
  refine .cons (.operator (by decide) fun _ _ h => within_first h) ?_
  refine .cons ⟨rfl, fun _ _ _ => handleSQUERY_within, fun _ _ _ _ => value_handleSQUERY⟩ ?_
  refine .cons (.report rfl rfl fun _ _ h => handleSTATS_within h) ?_
  refine .cons (.report rfl rfl fun _ _ h => handleSUMMON_within h) ?_
  refine .cons (.report rfl rfl fun _ _ _ => respond_within) ?_
  refine .cons (.report rfl rfl fun _ _ _ => within_pure) ?_
  refine .cons (.report rfl rfl fun _ _ _ => respond_within) ?_
  refine .cons (.report rfl rfl fun _ _ _ => respond_within) ?_
  refine .cons (.operator (by decide) fun _ _ h => within_first h) ?_
  refine .cons (.report rfl rfl fun _ _ h => handleWHOIS_within h) ?_
  refine .cons (.report rfl rfl fun _ _ h => handleWHOWAS_within h) ?_
  exact .nil

/-- Two tables that fit have their entries under the same names. -/
theorem exists_lookup {entries : List (Octets × CommandInfo)}
    {table : List (Octets × (List Octets → World → Accessing World))}
    (hfit : List.Forall₂ (Fits site answers self) entries table) {command : Octets} {info : CommandInfo} (h : entries.lookup command = some info) :
    ∃ handler, table.lookup command = some handler ∧ Fits site answers self (command, info) (command, handler) := by
  induction hfit with
  | nil => cases h
  | @cons entry handler entries table hentry _ ih =>
    obtain ⟨name, info'⟩ := entry
    obtain ⟨name', handler⟩ := handler
    obtain rfl : name' = name := hentry.name
    rw [List.lookup_cons] at h ⊢
    split at h
    · rename_i hname
      obtain rfl := Option.some_inj.1 h
      obtain rfl : command = name' := by simpa using hname
      exact ⟨handler, rfl, hentry⟩
    · exact ih h

variable (site answers self)

/-- The handler that the table has for a command. -/
def handle (command : Octets) (parameters : List Octets) (w : World) : Accessing World :=
  match (handlers site answers self).lookup command with
  | some handler => handler parameters w
  | none => pure w

/-- A handler the table runs reads nothing past the end of its parameters. -/
theorem handle_within (site : Site) (answers : Answers) (self : Self) (w : World) (command : Octets)
    (info : CommandInfo) (parameters : List Octets) (hcommand : commandList.lookup command = some info)
    (hcount : info.minimumParams ≤ parameters.length) :
    (handle site answers self command parameters w).Within parameters.length := by
  obtain ⟨handler, hhandler, hfits⟩ := exists_lookup handlers_fit hcommand
  rw [handle, hhandler]
  exact hfits.within parameters w hcount

/-- A core that knows nobody and a library that says nothing. -/
def Answers.silent : Answers where
  findServerTarget _ := none
  requestAdminInfo _ _ := (.noError, [])
  help _ _ _ := []
  nickname _ _ := []
  languages _ := []
  sendLanguageList _ := []
  sendISUPPORT _ := []
  names _ _ := []
  callCounts _ := []
  doINFO _ := []
  doLUSERS _ := []
  doMOTD _ := []
  doSTATS _ _ := []
  doSUMMON _ _ := []
  doTIME _ := []
  doUSERS _ := []
  doVERSION _ := []
  doWHOIS _ _ := []
  doWHOWAS _ _ _ := []
  kill _ _ w := (.noError, w)
  rehash w := (.noError, w)
  restart _ w := (.noError, w)
  sendWallops _ w := (.noError, w)
  shutdown _ w := (.noError, w)

def quietSite : Site := { Env.sample with listeners := [], report := fun _ _ _ _ => [], serviceName := fun _ => [] }

theorem handle_within_kill : 2 ≤ [octets "pickle", octets "bye"].length ∧
    (handle quietSite .silent ⟨0, 0, ⟨wide "oper", wide "oper", wide "host", [], [], 0, 0, []⟩⟩ (octets "KILL")
      [octets "pickle", octets "bye"] {}).Within [octets "pickle", octets "bye"].length :=
  ⟨le_refl 2, handle_within quietSite .silent ⟨0, 0, ⟨wide "oper", wide "oper", wide "host", [], [], 0, 0, []⟩⟩ {}
    (octets "KILL") ⟨.forOperators, 2, .operator, true, true⟩ _ rfl (le_refl 2)⟩

/-- `parseMessage` with the handlers written out. -/
def parseMessage (m : Message) (w : World) : Accessing (World × Bool) :=
  match commandList.lookup m.command with
  | none =>
    pure (sendNumeric site self ERR_UNKNOWNCOMMAND [m.command, getLang site self .irc2_ERR_UNKNOWNCOMMAND] w, false)
  | some info =>
    if !info.enabled then
      pure (sendNumeric site self ERR_DISABLED [m.command, getLang site self .irc2_ERR_DISABLED] w, false)
    else if !info.hasAccess self.user then
      pure (sendNumeric site self ERR_NOPRIVILEGES [m.command, getLang site self .irc2_ERR_NOPRIVILEGES] w, false)
    else if m.parameters.length < info.minimumParams then
      pure (sendNumeric site self ERR_NEEDMOREPARAMS [m.command, getLang site self .irc2_ERR_NEEDMOREPARAMS] w, false)
    else
      let w := if info.changeIdleTime then modifyUser self (fun u => { u with lastAwake := w.time }) w else w
      (fun w => (w, true)) <$> handle site answers self m.command m.parameters w

/-- It does what `parseMessage` does, where the reports are those written out. -/
theorem value_parseMessage (hreport : Reporting site answers self) (m : Message) :
    (parseMessage site answers self m w).value = Irc2User.parseMessage site self m w := by
  unfold parseMessage Irc2User.parseMessage
  cases hcommand : commandList.lookup m.command with
  | none => rfl
  | some info =>
    dsimp only
    split_ifs with henabled haccess hcount hidle
    · rfl
    · rfl
    · rfl
    all_goals
      obtain ⟨handler, hhandler, hfits⟩ := exists_lookup (@handlers_fit site answers self) hcommand
      have hanybody : info.access = .anybody := by
        cases hacc : info.access <;> simp [CommandInfo.hasAccess, hacc, User.isOperator] at haccess ⊢
      rw [value_map, handle, hhandler, hfits.value hreport hanybody]

end KineIRCd.Irc2User.Accesses

import KineIRCd.Mail
import KineIRCd.Messages
import KineIRCd.RequestLimits
/-!
# Delivery

What a request to send a message puts into the queue of the user it names, from
the octets of the request on: the message, once for each time the user is named
among the targets the request gets through.
-/
namespace KineIRCd

open LibIRC2

/-- Lines queued one after another are all that changes. -/
theorem ProtocolBase.foldl_outputLine_eq (p : ProtocolBase) (lines : List Octets) :
    lines.foldl (fun p line => p.outputLine line) p =
      p.setOutputQueue (p.outputQueue ++ lines.flatMap (· ++ Clbp.EOL_CR_LF)) := by
  have hqueue := p.outputQueue_foldl_outputLine lines
  have hset : lines.foldl (fun p line => p.outputLine line) p =
      p.setOutputQueue (lines.foldl (fun p line => p.outputLine line) p).outputQueue := by
    refine List.foldlRecOn (motive := fun p' : ProtocolBase => p' = p.setOutputQueue p'.outputQueue) _ _ ?_ ?_
    · obtain ⟨c, r | u⟩ := p <;> rfl
    · intro p' h line _
      rw [h]
      obtain ⟨c, r | u⟩ := p <;> rfl
  rw [hqueue] at hset
  exact hset

/-- A line queued some number of times. -/
def ProtocolBase.outputCopies (p : ProtocolBase) (n : Nat) (line : Octets) : ProtocolBase :=
  p.setOutputQueue (p.outputQueue ++ (List.replicate n (line ++ Clbp.EOL_CR_LF)).flatten)

theorem ProtocolBase.foldl_replicate (p : ProtocolBase) (n : Nat) (line : Octets) :
    (List.replicate n line).foldl (fun p line => p.outputLine line) p = p.outputCopies n line := by
  rw [foldl_outputLine_eq, outputCopies, List.flatMap_def, List.map_replicate]

namespace Irc2User

variable (site : Site) (self : Self)

/-- The targets a request gets through: one fewer than the limit. -/
def targetsWithin (recipients : Octets) : List Octets :=
  ((⟨recipients⟩ : StringTokens).tokens COMMA).take (site.maxTargets.toNat - 1)

/-- Is the target the user at `a`? -/
def isTarget (registry : Registry) (a : Nat) (target : Octets) : Bool :=
  decide (target ≠ [] ∧ findMessageTarget registry (site.localiseStr target) true = some (.user a))

def messageCommand (isNotice : Bool) : Octets := if isNotice then octets "NOTICE" else octets "PRIVMSG"

/-- What the user `r` is sent for a message with this text. -/
def messageLine (isNotice : Bool) (r : User) (text : Octets) : Octets :=
  formatMessageFrom (site.delocaliseStr self.user.makeNickUserHostIdent) (messageCommand isNotice)
    [site.delocaliseStr r.nickname, site.delocaliseStr (site.localiseStr text)]

section
variable {w : World} {a : Nat} {p : ProtocolBase} {r : User}

theorem receivePrivate_protocol (hp : w.protocol a = some p) (hr : p.user? = some r) (commandName : Octets) (receiver : Nat)
    (message : WString) : (receivePrivate site self commandName receiver message w).protocol a =
      some (if receiver = a then p.outputLine (formatMessageFrom (site.delocaliseStr self.user.makeNickUserHostIdent)
        commandName [site.delocaliseStr r.nickname, site.delocaliseStr message]) else p) := by
  unfold receivePrivate
  by_cases ha : receiver = a
  · subst ha
    rw [hp, Option.bind_some, hr, if_pos rfl]
    exact (w.protocol_modifyProtocol receiver _ receiver).trans (by rw [if_pos rfl, hp]; rfl)
  · rw [if_neg ha]
    split
    · exact (w.protocol_modifyProtocol receiver _ a).trans (by rw [if_neg (Ne.symm ha), hp])
    · exact hp

theorem sendNumeric_protocol (ha : a ≠ self.this) (numeric : Nat) (parameters : List Octets) (w : World) :
    (sendNumeric site self numeric parameters w).protocol a = w.protocol a :=
  (w.protocol_modifyProtocol self.this _ a).trans (if_neg ha)

theorem sendAway_protocol (ha : a ≠ self.this) (receiver : Nat) (w : World) :
    (sendAway site self receiver w).protocol a = w.protocol a := by
  unfold sendAway
  split
  · split_ifs
    · exact sendNumeric_protocol site self ha _ _ w
    · rfl
  · rfl

theorem frame_sendAway (receiver : Nat) (w : World) : w.Frame (sendAway site self receiver w) := by
  unfold sendAway
  split
  · split_ifs
    · exact .outputLine w _ _
    · exact .refl w
  · exact .refl w

theorem frame_messageTarget (isNotice : Bool) (target : Octets) (message : WString) (w : World) :
    w.Frame (messageTarget site self isNotice target message w) := by
  simp only [messageTarget]
  split <;> split_ifs
  · exact .receivePrivate site self _ _ message w
  · exact (World.Frame.receivePrivate site self _ _ message w).trans (frame_sendAway site self _ _)
  · exact .refl w
  · exact .outputLine w _ _
  · exact .refl w
  · exact .outputLine w _ _

/-- One target: the user it stands for is sent the message, and a NOTICE is not
answered. -/
theorem messageTarget_protocol (hp : w.protocol a = some p) (hr : p.user? = some r) {isNotice : Bool}
    (hown : isNotice = true ∨ a ≠ self.this) (target text : Octets) :
    (messageTarget site self isNotice target (site.localiseStr text) w).protocol a =
      some (if isTarget site w.registry a target = true then p.outputLine (messageLine site self isNotice r text) else p) := by
  have hreceive := fun commandName receiver =>
    receivePrivate_protocol site self hp hr commandName receiver (site.localiseStr text)
  have hnumeric : isNotice ≠ true → ∀ numeric parameters,
      (sendNumeric site self numeric parameters w).protocol a = some p := fun h numeric parameters =>
    (sendNumeric_protocol site self (hown.resolve_left h) numeric parameters w).trans hp
  have hmiss : ¬ (target ≠ [] ∧ findMessageTarget w.registry (site.localiseStr target) true = some (.user a)) →
      (if target ≠ [] ∧ findMessageTarget w.registry (site.localiseStr target) true = some (.user a) then
        p.outputLine (messageLine site self isNotice r text) else p) = p := fun h => if_neg h
  simp only [messageTarget, isTarget, decide_eq_true_eq]
  by_cases hempty : target = []
  · rw [hmiss fun h => h.1 hempty, if_pos hempty]
    dsimp only
    split_ifs with hnotice
    · exact hp
    · exact hnumeric hnotice _ _
  · rw [if_neg hempty]
    cases hfind : findMessageTarget w.registry (site.localiseStr target) true with
    | none =>
      rw [hfind] at hmiss
      rw [hmiss (by simp)]
      dsimp only
      split_ifs with hnotice
      · exact hp
      · exact hnumeric hnotice _ _
    | some receiver =>
      cases receiver with
      | service b =>
        rw [hfind] at hmiss
        rw [hmiss (by simp)]
        dsimp only
        split_ifs with hnotice
        · exact hp
        · exact hnumeric hnotice _ _
      | user b =>
        have hiff : (target ≠ [] ∧ some (Receiver.user b) = some (.user a)) ↔ b = a := by simp [hempty]
        rw [if_congr hiff rfl rfl]
        dsimp only
        split_ifs with hnotice hb hb
        · rw [hreceive, if_pos hb, messageLine, messageCommand, if_pos hnotice]
        · rw [hreceive, if_neg hb]
        · rw [sendAway_protocol site self (hown.resolve_left hnotice), hreceive, if_pos hb, messageLine, messageCommand,
            if_neg hnotice]
        · rw [sendAway_protocol site self (hown.resolve_left hnotice), hreceive, if_neg hb]

/-- A list of targets. -/
theorem foldl_messageTarget_protocol {isNotice : Bool} (hown : isNotice = true ∨ a ≠ self.this) (targets : List Octets)
    (text : Octets) (hp : w.protocol a = some p) (hr : p.user? = some r) :
    (targets.foldl (fun w t => messageTarget site self isNotice t (site.localiseStr text) w) w).protocol a =
      some ((List.replicate (targets.countP (isTarget site w.registry a)) (messageLine site self isNotice r text)).foldl
        (fun p line => p.outputLine line) p) := by
  induction targets generalizing w p with
  | nil => exact hp
  | cons target targets ih =>
    have hstep := messageTarget_protocol site self hp hr hown target text
    have hregistry := (frame_messageTarget site self isNotice target (site.localiseStr text) w).registry
    rw [List.foldl_cons, List.countP_cons]
    by_cases htarget : isTarget site w.registry a target = true
    · rw [if_pos htarget] at hstep
      rw [ih hstep (by simpa using hr), hregistry, if_pos htarget, List.replicate_succ, List.foldl_cons]
    · rw [if_neg htarget] at hstep
      rw [ih hstep hr, hregistry, if_neg htarget, Nat.add_zero]

end

/-- A request to send a message sends it to a user once for each time the user
is named among the targets it gets through. -/
theorem doMessage_protocol {site : Site} {self : Self} {w : World} {a : Nat} {p : ProtocolBase} {r : User} {isNotice : Bool}
    (hown : isNotice = true ∨ a ≠ self.this) (hlimit : site.maxTargets ≠ 0) (recipients text : Octets) (rest : List Octets)
    (hp : w.protocol a = some p) (hr : p.user? = some r) :
    (doMessage site self (recipients :: text :: rest) isNotice w).protocol a =
      some (p.outputCopies ((targetsWithin site recipients).countP (isTarget site w.registry a))
        (messageLine site self isNotice r text)) := by
  rw [← ProtocolBase.foldl_replicate, ← foldl_messageTarget_protocol site self hown (targetsWithin site recipients) text hp hr]
  have htake : ∀ targets : List Octets, targets.length < site.maxTargets.toNat →
      targets.take (site.maxTargets.toNat - 1) = targets := fun targets h => List.take_of_length_le (by omega)
  cases isNotice with
  | true =>
    have hreplay := run_eq_replay site self .notice recipients text rest w
    rw [log_eq site .notice _ recipients text rest hlimit, if_neg (show ¬ TargetCommand.notice.complains = true by decide)]
      at hreplay
    refine (congrArg (·.protocol a) hreplay).trans ?_
    dsimp only
    split_ifs with hfew
    · rw [targetsWithin, htake _ (hfew.resolve_left (by simp [User.isOperator]))]
      rfl
    · rfl
  | false =>
    have hreplay := run_eq_replay site self .privmsg recipients text rest w
    rw [log_eq site .privmsg _ recipients text rest hlimit, if_pos (show TargetCommand.privmsg.complains = true by decide)]
      at hreplay
    refine (congrArg (·.protocol a) hreplay).trans ?_
    dsimp only
    split_ifs with hfew
    · rw [targetsWithin, htake _ (hfew.resolve_left (by simp [User.isOperator]))]
      rfl
    · exact sendNumeric_protocol site self (hown.resolve_left (by simp)) _ _ _

/-- The same, from the command table on. -/
theorem parseMessage_protocol {site : Site} {self : Self} {w : World} {a : Nat} {p : ProtocolBase} {r : User}
    {isNotice : Bool} (hown : isNotice = true ∨ a ≠ self.this) (hlimit : site.maxTargets ≠ 0) (origin recipients text : Octets)
    (hp : w.protocol a = some p) (hr : p.user? = some r) :
    (parseMessage site self ⟨origin, messageCommand isNotice, [recipients, text]⟩ w).1.protocol a =
      some (p.outputCopies ((targetsWithin site recipients).countP (isTarget site w.registry a))
        (messageLine site self isNotice r text)) := by
  cases isNotice with
  | true =>
    have hlookup : commandList.lookup (messageCommand true) = some { handler := .notice } := by decide
    rw [parseMessage, hlookup]
    exact doMessage_protocol hown hlimit recipients text [] hp hr
  | false =>
    have hlookup : commandList.lookup (messageCommand false) = some { handler := .privmsg, changeIdleTime := true } := by
      decide
    rw [parseMessage, hlookup]
    have hother : a ≠ self.this := hown.resolve_left (by simp)
    have hp' : (modifyUser self (fun u => { u with lastAwake := w.time }) w).protocol a = some p :=
      (w.protocol_modifyProtocol self.this _ a).trans ((if_neg hother).trans hp)
    exact doMessage_protocol hown hlimit recipients text [] hp' hr

end Irc2User

/-! ## From the octets of the request -/

/-- A whole line in one chunk, with nothing buffered, is parsed as it is. -/
theorem Clbp.Input.handleInput_single {σ : Type} (I : Clbp.Input σ) {line : Octets} {s : σ}
    (hline : ∀ x ∈ line, x ∉ Clbp.EOL_CR_LF) (hempty : I.inputQueue s = []) :
    I.handleInput (line ++ Clbp.EOL_CR_LF) s = I.parseLine line s := by
  have hfound : findFirstOf Clbp.EOL_CR_LF (line ++ Clbp.EOL_CR_LF) 0 = some line.length := by
    have hline' : findFirstOf Clbp.EOL_CR_LF ([] ++ (line ++ [Clbp.CR])) 0 = some (0 + line.length) :=
      Clbp.Input.findFirstOf_line hline (by decide)
    have h := findFirstOf_append [Clbp.LF] hline'
    simpa [Clbp.EOL_CR_LF] using h
  have hend : Clbp.Input.afterEol (line ++ Clbp.EOL_CR_LF) line.length ≥ (line ++ Clbp.EOL_CR_LF).length := by
    simp [Clbp.Input.afterEol, Clbp.EOL_CR_LF]
  rw [handleInput, handleInputFrom_some hfound, resume, if_pos hend, takeLine, hempty]
  simp [substr]

theorem LibIRC2.parseLine_formatMessage {command : Octets} {init : List Octets} {p : Octets} (hne : command ≠ [])
    (hspace : SPACE ∉ command) (hcolon : command.head? ≠ some COLON) (hmiddle : ∀ q ∈ init, Middle q) :
    parseLine (formatMessage command (init ++ [p])) = some ⟨[], toUpper command, init ++ [received p]⟩ := by
  obtain ⟨text, htext, hparse⟩ := parseParameters_format init p hmiddle
  have hline : formatMessage command (init ++ [p]) = command ++ SPACE :: text := by rw [formatMessage, htext]
  have hhead : (command ++ SPACE :: text).head? ≠ some COLON := by rwa [List.head?_append_of_ne_nil _ hne]
  have hupper : toUpper command ≠ [] := by simpa [toUpper] using hne
  rw [parseLine, hline]
  simp only [if_neg hhead, StringTokens.nextToken_append hspace, hparse]
  rw [if_neg hupper]

namespace Daemon

open Irc2User (Site Self User messageCommand messageLine targetsWithin isTarget)

/-- A whole line on a connection whose object has nothing buffered is parsed, and
the connection may be woken. -/
theorem handleInput_whole (site : Site) {w : World} {c this : Nat} {line : Octets} (hopen : w.isConnected c = true)
    (hc : w.HasProtocol c this) (hempty : w.queue this = []) (hline : ∀ x ∈ line, x ∉ Clbp.EOL_CR_LF) :
    ∃ s, (handleInput site c (some (line ++ Clbp.EOL_CR_LF)) w).2 =
      { parseLine site this (w.saidGoodbye c) line (receive c (line ++ Clbp.EOL_CR_LF) w) with outFDSET := s } := by
  obtain ⟨conn, hconn, hconnected⟩ := isConnected_iff.1 hopen
  obtain rfl : conn.protocol = this := World.hasProtocol_unique ⟨conn, hconn, rfl⟩ hc
  have hsingle := Clbp.Input.handleInput_single (input site conn.protocol (w.saidGoodbye c)) hline
    (s := receive c (line ++ Clbp.EOL_CR_LF) w) hempty
  rw [handleInput_some site hconn hconnected, if_neg (by simp [Clbp.EOL_CR_LF]), hsingle]
  exact wake_spec c _

/-- A request to send a message, as a client writes it. -/
def request (isNotice : Bool) (recipients text : Octets) : Octets := formatMessage (messageCommand isNotice) [recipients, text]

theorem parseLine_request {isNotice : Bool} {recipients text : Octets} (hrecipients : Middle recipients) :
    LibIRC2.parseLine (request isNotice recipients text) =
      some ⟨[], messageCommand isNotice, [recipients, received text]⟩ := by
  have hcommand : messageCommand isNotice ≠ [] ∧ SPACE ∉ messageCommand isNotice ∧
      (messageCommand isNotice).head? ≠ some COLON ∧ toUpper (messageCommand isNotice) = messageCommand isNotice := by
    cases isNotice <;> decide
  obtain ⟨hne, hspace, hcolon, hupper⟩ := hcommand
  have hmiddle : ∀ q ∈ [recipients], Middle q := by simpa using hrecipients
  rw [request, show [recipients, text] = [recipients] ++ [text] from rfl, parseLine_formatMessage hne hspace hcolon hmiddle, hupper]
  rfl

theorem request_clean {isNotice : Bool} {recipients text : Octets} (hclean : ∀ x ∈ recipients ++ text, x ∉ Clbp.EOL_CR_LF) :
    ∀ x ∈ request isNotice recipients text, x ∉ Clbp.EOL_CR_LF := by
  have hcommand : ∀ x ∈ messageCommand isNotice, x ∉ Clbp.EOL_CR_LF := by
    have hall : (messageCommand isNotice).all (!Clbp.EOL_CR_LF.contains ·) = true := by cases isNotice <;> rfl
    simpa using hall
  intro x hx
  simp only [request, formatMessage, formatParameters, List.mem_append, List.mem_cons] at hx
  rcases hx with hx | ((rfl | hx) | rfl | rfl | hx)
  · exact hcommand x hx
  · decide
  · exact hclean x (by simp [hx])
  · decide
  · decide
  · exact hclean x (by simp [hx])

/-- A request that arrives whole on a user's connection puts the message into the
queue of any other user once for each time that user is named among the targets
it gets through, and a NOTICE does nothing else to any user, the sender included. -/
theorem handleInput_delivers (site : Site) {w : World} {c this a : Nat} {sender : Irc2User.Protocol} {p : ProtocolBase} {r : User}
    (isNotice : Bool) (recipients text : Octets) (hopen : w.isConnected c = true) (hc : w.HasProtocol c this)
    (hthis : w.protocol this = some ⟨c, .user sender⟩) (hqueue : sender.inputQueue = []) (hp : w.protocol a = some p)
    (hr : p.user? = some r) (hown : isNotice = true ∨ a ≠ this) (hlimit : site.maxTargets ≠ 0)
    (hrecipients : Middle recipients) (hclean : ∀ x ∈ recipients ++ text, x ∉ Clbp.EOL_CR_LF) :
    (handleInput site c (some (request isNotice recipients text ++ Clbp.EOL_CR_LF)) w).2.protocol a =
      some (p.outputCopies ((targetsWithin site recipients).countP (isTarget site w.registry a))
        (messageLine site ⟨this, c, sender.user⟩ isNotice r (received text))) := by
  have hempty : w.queue this = [] := by rw [World.queue, hthis]; exact hqueue
  obtain ⟨s, e⟩ := handleInput_whole site hopen hc hempty (request_clean hclean)
  rw [e]
  generalize hw' : receive c (request isNotice recipients text ++ Clbp.EOL_CR_LF) w = w'
  have hprotocol : w'.protocol = w.protocol := by rw [← hw']; rfl
  have hregistry : w'.registry = w.registry := by rw [← hw']; rfl
  simp only [parseLine, hprotocol, hthis, parseLine_request hrecipients, protocolMessage]
  rw [← hregistry]
  exact @Irc2User.parseMessage_protocol _ ⟨this, c, sender.user⟩ _ _ _ _ _ hown hlimit [] recipients (received text)
    ((congrFun hprotocol a).trans hp) hr

theorem handleInput_delivers_hello : ∃ p line,
    (handleInput sampleSite 3 (some (request false (octets "pickle,nobody,PICKLE") (octets "hello there") ++ Clbp.EOL_CR_LF))
      (reach sampleSite bothRegister)).2.protocol 2 = some (ProtocolBase.outputCopies p 2 line) := by
  have hwho : ((reach sampleSite bothRegister).protocol 5).map (fun p => (p.connection, p.user?.isSome, p.inputQueue)) =
      some (3, true, []) := by decide +kernel
  have hreceiver : ((reach sampleSite bothRegister).protocol 2).map (·.user?.isSome) = some true := by decide +kernel
  obtain ⟨⟨c, body⟩, hthis, hfields⟩ := Option.map_eq_some_iff.1 hwho
  obtain ⟨p, hp, hr⟩ := Option.map_eq_some_iff.1 hreceiver
  obtain ⟨r, hr⟩ := Option.isSome_iff_exists.1 hr
  cases body with
  | registrar r => simp [ProtocolBase.user?] at hfields
  | user sender =>
    obtain ⟨rfl, hqueue⟩ : c = 3 ∧ sender.inputQueue = [] := by
      simpa [ProtocolBase.user?, ProtocolBase.inputQueue] using hfields
    have hcount : (targetsWithin sampleSite (octets "pickle,nobody,PICKLE")).countP
        (isTarget sampleSite (reach sampleSite bothRegister).registry 2) = 2 := by decide +kernel
    have hdelivers := handleInput_delivers sampleSite (w := reach sampleSite bothRegister) (a := 2) false
      (octets "pickle,nobody,PICKLE") (octets "hello there") (by decide +kernel) (World.hasProtocol_iff.2 (by decide +kernel))
      hthis hqueue hp hr (.inr (by decide)) (by decide) ⟨by decide, by decide, by decide⟩ (by decide +kernel)
    rw [hcount] at hdelivers
    exact ⟨p, _, hdelivers⟩

end Daemon

end KineIRCd

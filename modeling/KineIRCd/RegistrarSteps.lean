import KineIRCd.Registrar
/-!
# What the registrar's commands do

`Frame` is what every command keeps. For the anti-spoof exchange, a command
either leaves it alone, or sends the first ping, or accepts a pong.
-/
namespace KineIRCd.Irc2Registrar.Session

open LibIRC2

/-! ## What every command keeps -/

/-- From `s` to `s'` the input queue and the listener stay, output is only
added, and a connection that said goodbye does not come back. -/
structure Frame (s s' : Session) : Prop where
  inputQueue : s'.this.inputQueue = s.this.inputQueue
  listener : s'.this.listener = s.this.listener
  outputQueue : s.this.outputQueue <+: s'.this.outputQueue
  connected : s'.connected = true → s.connected = true
  trace : s.trace <+: s'.trace

namespace Frame
variable {s s' : Session} {env : Env}

theorem refl (s : Session) : Frame s s :=
  ⟨rfl, rfl, List.prefix_refl _, id, List.prefix_refl _⟩

theorem outputLine (h : Frame s s') (line : Octets) : Frame s (s'.outputLine line) :=
  { h with outputQueue := h.outputQueue.trans (by simp [Session.outputLine, Clbp.outputLine, Clbp.outputRaw]) }

theorem goodbye (h : Frame s s') : Frame s s'.goodbye :=
  { h with connected := by simp [Session.goodbye] }

theorem sendMessage (h : Frame s s') (command : Octets) (parameters : List Octets) :
    Frame s (s'.sendMessage command parameters) := h.outputLine _

theorem sendError (h : Frame s s') (error : Octets) : Frame s (s'.sendError error) := (h.outputLine _).goodbye

theorem record (h : Frame s s') (e : Event) : Frame s (s'.record e) :=
  { h with trace := h.trace.trans (List.prefix_append _ _) }

theorem sendNumeric (h : Frame s s') (numeric : Nat) (parameters : List Octets) :
    Frame s (s'.sendNumeric env numeric parameters) := h.outputLine _

theorem sendPing (h : Frame s s') : Frame s (s'.sendPing env) := by
  have htoken : Frame s
      { s' with this := { s'.this with pongMatch := env.token s'.rand }, rand := s'.rand + 1 } := { h with }
  exact (htoken.sendMessage _ _).record _

theorem setRegistrant (h : Frame s s') (f : Registrant → Registrant) : Frame s (s'.setRegistrant f) := { h with }

theorem setRegistrationType (h : Frame s s') (type : RegistrationType) : Frame s (s'.setRegistrationType type) :=
  { h with }

theorem brokenRegistrationData (h : Frame s s') : Frame s (s'.brokenRegistrationData env) := (h.sendError _).goodbye

theorem checkRegistration {allowed : Bool} {disallowed : LangTag} {command : String} {required : Nat}
    {parameters : List Octets} {accept : Session → Session} (h : Frame s s') (haccept : Frame s (accept s')) :
    Frame s (s'.checkRegistration env allowed disallowed command required parameters accept) := by
  unfold Session.checkRegistration
  split_ifs
  · exact (h.sendError _).goodbye
  · exact (h.sendNumeric _ _).goodbye
  · exact h.sendNumeric _ _
  · exact haccept

theorem protocolUnavailable (h : Frame s s') (tag : LangTag) : Frame s (s'.protocolUnavailable env tag) := by
  unfold Session.protocolUnavailable
  split_ifs
  · exact h.sendError _
  · exact h.sendError _

theorem foundOr (h : Frame s s') (found : Option ProtocolInfo) (tag : LangTag) :
    Frame s (s'.foundOr env found tag).1 := by
  cases found with
  | none => exact h.protocolUnavailable tag
  | some info => exact h

end Frame

variable (env : Env) (registry : Registry) (parameters : List Octets) (s : Session)

/-- The checks pass and the command goes on, or they only send something. -/
theorem checkRegistration_accepts_or (allowed : Bool) (disallowed : LangTag) (command : String) (required : Nat)
    (accept : Session → Session) :
    (allowed = true ∧ s.this.registrationType = .none ∧ required ≤ parameters.length ∧
      s.checkRegistration env allowed disallowed command required parameters accept = accept s) ∨
    (¬ (allowed = true ∧ s.this.registrationType = .none ∧ required ≤ parameters.length) ∧
      ∃ q, (s.checkRegistration env allowed disallowed command required parameters accept).this =
        { s.this with outputQueue := q }) := by
  unfold checkRegistration
  split_ifs with hallowed htype hlength
  · refine .inr ⟨?_, _, rfl⟩
    rintro ⟨h, -⟩
    simp [h] at hallowed
  · exact .inr ⟨fun h => htype h.2.1, _, rfl⟩
  · exact .inr ⟨fun h => absurd h.2.2 (by omega), _, rfl⟩
  · exact .inl ⟨by simpa using hallowed, not_not.1 htype, by omega, rfl⟩

theorem frame_handle (c : Command) : Frame s (s.handle env registry parameters c) := by
  cases c with
  | capab =>
    simp only [handle, parseCAPAB]
    split_ifs
    · exact (Frame.refl s).sendNumeric _ _
    · exact Frame.refl s
  | iircn =>
    simp only [handle, parseIIRCN]
    apply (Frame.refl s).checkRegistration
    split_ifs
    · exact (Frame.refl s).brokenRegistrationData
    · exact ((Frame.refl s).setRegistrant _).brokenRegistrationData
    · exact (((Frame.refl s).setRegistrant _).setRegistrant _).setRegistrationType _
    · exact ((Frame.refl s).setRegistrant _).setRegistrationType _
  | nick =>
    simp only [handle, parseNICK]
    split_ifs
    · exact (Frame.refl s).sendNumeric _ _
    · exact (Frame.refl s).sendNumeric _ _
    · exact (Frame.refl s).sendNumeric _ _
    · exact (((Frame.refl s).setRegistrant _).sendPing).sendMessage _ _
    · exact (Frame.refl s).setRegistrant _
  | pass =>
    simp only [handle, parsePASS]
    split_ifs
    · exact (Frame.refl s).brokenRegistrationData
    · exact (Frame.refl s).sendNumeric _ _
    · exact (Frame.refl s).setRegistrant _
  | pong =>
    have haccept : Frame s (s.acceptPong (parameters.getD 0 [])) := { Frame.refl s with trace := List.prefix_append _ _ }
    simp only [handle, parsePONG]
    split_ifs
    · exact ((Frame.refl s).sendError _).goodbye
    · exact ((Frame.refl s).sendError _).goodbye
    · exact haccept.sendPing
    · exact haccept
  | quit => exact (Frame.refl s).goodbye
  | server =>
    simp only [handle, parseSERVER]
    apply (Frame.refl s).checkRegistration
    split_ifs
    · exact ((Frame.refl s).setRegistrant _).brokenRegistrationData
    · exact (((Frame.refl s).setRegistrant _).setRegistrant _).setRegistrationType _
    · exact (((Frame.refl s).setRegistrant _).setRegistrant _).setRegistrationType _
  | service =>
    simp only [handle, parseSERVICE]
    apply (Frame.refl s).checkRegistration
    exact ((Frame.refl s).setRegistrant _).setRegistrationType _
  | user =>
    simp only [handle, parseUSER]
    apply (Frame.refl s).checkRegistration
    exact ((Frame.refl s).setRegistrant _).setRegistrationType _

theorem frame_dispatch (m : Message) : Frame s (s.dispatch env registry m) := by
  unfold dispatch
  split
  · exact frame_handle env registry m.parameters s _
  · exact Frame.refl s

theorem frame_findCompletion {s' : Session} (h : Frame s s') : Frame s (s'.findCompletion env).1 := by
  simp only [findCompletion]
  split
  · exact h
  all_goals split_ifs
  all_goals first | exact h | exact h.foundOr _ _ | exact h.protocolUnavailable _

theorem frame_parseMessage (m : Message) : Frame s (s.parseMessage env registry m).1 := by
  have hstage : Frame s ((s.dispatch env registry m).findCompletion env).1 :=
    frame_findCompletion env s (frame_dispatch env registry s m)
  simp only [parseMessage]
  split
  · exact hstage
  · split
    · exact hstage.record _
    · exact (hstage.record _).sendError _

/-! ## The anti-spoof exchange -/

/-- The state of the exchange of pings and pongs. -/
def exchange (s : Session) : Nat × Octets × List Event := (s.this.pongsLeft, s.this.pongMatch, s.trace)

section
variable {s}

@[simp] theorem exchange_outputLine (line : Octets) : (s.outputLine line).exchange = s.exchange := rfl
@[simp] theorem exchange_sendMessage (c : Octets) (ps : List Octets) : (s.sendMessage c ps).exchange = s.exchange := rfl
@[simp] theorem exchange_goodbye : s.goodbye.exchange = s.exchange := rfl
@[simp] theorem exchange_sendError (error : Octets) : (s.sendError error).exchange = s.exchange := rfl
@[simp] theorem exchange_setRegistrant (f : Registrant → Registrant) : (s.setRegistrant f).exchange = s.exchange := rfl

@[simp] theorem exchange_sendNumeric (n : Nat) (ps : List Octets) :
    (s.sendNumeric env n ps).exchange = s.exchange := rfl

@[simp] theorem exchange_setRegistrationType (type : RegistrationType) :
    (s.setRegistrationType type).exchange = s.exchange := rfl

@[simp] theorem exchange_needMoreParams (c : String) : (s.needMoreParams env c).exchange = s.exchange := rfl

@[simp] theorem exchange_brokenRegistrationData : (s.brokenRegistrationData env).exchange = s.exchange := rfl

theorem exchange_checkRegistration {allowed : Bool} {disallowed : LangTag} {command : String} {required : Nat}
    {accept : Session → Session} (h : (accept s).exchange = s.exchange) :
    (s.checkRegistration env allowed disallowed command required parameters accept).exchange = s.exchange := by
  unfold checkRegistration
  split_ifs <;> simp [h]

@[simp] theorem exchange_protocolUnavailable (tag : LangTag) :
    (s.protocolUnavailable env tag).exchange = s.exchange := by
  unfold protocolUnavailable
  split_ifs <;> simp

theorem exchange_foundOr (found : Option ProtocolInfo) (tag : LangTag) :
    (s.foundOr env found tag).1.exchange = s.exchange := by
  cases found <;> simp [foundOr]

end

/-- Only NICK and PONG take part in the exchange. -/
theorem exchange_handle (c : Command) (hnick : c ≠ .nick) (hpong : c ≠ .pong) :
    (s.handle env registry parameters c).exchange = s.exchange := by
  cases c with
  | capab => simp only [handle, parseCAPAB]; split_ifs <;> simp
  | iircn => exact exchange_checkRegistration env parameters (by simp only; split_ifs <;> simp)
  | nick => exact absurd rfl hnick
  | pass => simp only [handle, parsePASS]; split_ifs <;> simp
  | pong => exact absurd rfl hpong
  | quit => rfl
  | server => exact exchange_checkRegistration env parameters (by simp only; split_ifs <;> simp)
  | service => exact exchange_checkRegistration env parameters (by simp)
  | user => exact exchange_checkRegistration env parameters (by simp)

/-- NICK sends the first ping, when pongs are left and none was sent yet. -/
theorem exchange_parseNICK : (s.parseNICK env registry parameters).exchange = s.exchange ∨
    (0 < s.this.pongsLeft ∧ s.this.pongMatch = [] ∧ (s.parseNICK env registry parameters).exchange =
      (s.this.pongsLeft, env.token s.rand, s.trace ++ [.ping (env.token s.rand)])) := by
  simp only [parseNICK]
  split_ifs with _ _ _ hping
  · exact .inl rfl
  · exact .inl rfl
  · exact .inl rfl
  · exact .inr ⟨hping.1, hping.2, rfl⟩
  · exact .inl rfl

/-- PONG accepts the token of the last ping, and sends the next ping if more
pongs are left. -/
theorem exchange_parsePONG :
    (¬ (0 < s.this.pongsLeft ∧ parameters.head? = some s.this.pongMatch) ∧
      (s.parsePONG env parameters).exchange = s.exchange) ∨
    (parameters.head? = some s.this.pongMatch ∧
      ((1 < s.this.pongsLeft ∧ (s.parsePONG env parameters).exchange =
          (s.this.pongsLeft - 1, env.token s.rand,
            s.trace ++ [.pong s.this.pongMatch] ++ [.ping (env.token s.rand)])) ∨
        (s.this.pongsLeft = 1 ∧ (s.parsePONG env parameters).exchange =
          (0, s.this.pongMatch, s.trace ++ [.pong s.this.pongMatch])))) := by
  simp only [parsePONG]
  by_cases hbad : s.this.pongsLeft = 0 ∨ parameters = []
  · rw [if_pos hbad]
    refine .inl ⟨?_, rfl⟩
    rintro ⟨hleft, hhead⟩
    rcases hbad with h | rfl
    · omega
    · simp at hhead
  · obtain ⟨hleft, hne⟩ := not_or.1 hbad
    obtain ⟨p, ps, rfl⟩ := List.exists_cons_of_ne_nil hne
    rw [if_neg hbad]
    by_cases hmatch : p = s.this.pongMatch
    · have hp : (p :: ps).getD 0 [] = s.this.pongMatch := hmatch
      rw [if_neg (not_not.2 hp), hp]
      refine .inr ⟨congrArg some hmatch, ?_⟩
      by_cases hmore : 1 < s.this.pongsLeft
      · have hafter : (s.acceptPong s.this.pongMatch).this.pongsLeft > 0 := Nat.sub_pos_of_lt hmore
        rw [if_pos hafter]
        exact .inl ⟨hmore, rfl⟩
      · have hone : s.this.pongsLeft = 1 := by omega
        have hafter : (s.acceptPong s.this.pongMatch).this.pongsLeft = 0 := by simp [acceptPong, record, hone]
        rw [if_neg (by omega)]
        exact .inr ⟨hone, by rw [exchange, hafter]; rfl⟩
    · have hp : (p :: ps).getD 0 [] ≠ s.this.pongMatch := hmatch
      rw [if_pos hp]
      exact .inl ⟨fun h => hmatch (Option.some_inj.1 h.2), rfl⟩

theorem mem_of_lookup {c : Octets} {command : Command} (h : commandTable.lookup c = some command) :
    (c, command) ∈ commandTable := by
  obtain ⟨l₁, l₂, e, -⟩ := List.lookup_eq_some_iff.1 h
  rw [e]
  simp

/-- What a command does to the exchange, in four cases. -/
theorem exchange_dispatch (m : Message) :
    let s' := s.dispatch env registry m
    -- Nothing.
    (¬ (m.command = octets "PONG" ∧ 0 < s.this.pongsLeft ∧ m.parameters.head? = some s.this.pongMatch) ∧
      s'.exchange = s.exchange) ∨
    -- NICK sends the first ping.
    (m.command = octets "NICK" ∧ 0 < s.this.pongsLeft ∧ s.this.pongMatch = [] ∧
      s'.exchange = (s.this.pongsLeft, env.token s.rand, s.trace ++ [.ping (env.token s.rand)])) ∨
    -- PONG accepts a token and sends the next ping.
    (m.command = octets "PONG" ∧ m.parameters.head? = some s.this.pongMatch ∧ 1 < s.this.pongsLeft ∧
      s'.exchange = (s.this.pongsLeft - 1, env.token s.rand,
        s.trace ++ [.pong s.this.pongMatch] ++ [.ping (env.token s.rand)])) ∨
    -- PONG accepts the last token.
    (m.command = octets "PONG" ∧ m.parameters.head? = some s.this.pongMatch ∧ s.this.pongsLeft = 1 ∧
      s'.exchange = (0, s.this.pongMatch, s.trace ++ [.pong s.this.pongMatch])) := by
  simp only [dispatch]
  cases hc : commandTable.lookup m.command with
  | none =>
    refine .inl ⟨?_, rfl⟩
    intro h
    rw [h.1] at hc
    exact absurd hc (by decide)
  | some c =>
    have hmem := mem_of_lookup hc
    by_cases hnick : c = .nick
    · subst hnick
      have hcommand : m.command = octets "NICK" := by simpa [commandTable] using hmem
      rcases exchange_parseNICK env registry m.parameters s with h | ⟨hleft, hmatch, h⟩
      · exact .inl ⟨fun h' => absurd (hcommand.symm.trans h'.1) (by decide), h⟩
      · exact .inr (.inl ⟨hcommand, hleft, hmatch, h⟩)
    by_cases hpong : c = .pong
    · subst hpong
      have hcommand : m.command = octets "PONG" := by simpa [commandTable] using hmem
      rcases exchange_parsePONG env m.parameters s with ⟨hno, h⟩ | ⟨hhead, ⟨hmore, h⟩ | ⟨hone, h⟩⟩
      · exact .inl ⟨fun h' => hno h'.2, h⟩
      · exact .inr (.inr (.inl ⟨hcommand, hhead, hmore, h⟩))
      · exact .inr (.inr (.inr ⟨hcommand, hhead, hone, h⟩))
    · refine .inl ⟨?_, exchange_handle env registry m.parameters s c hnick hpong⟩
      intro h'
      rw [h'.1, show commandTable.lookup (octets "PONG") = some .pong by decide, Option.some_inj] at hc
      exact hpong hc.symm

theorem exchange_findCompletion : (s.findCompletion env).1.exchange = s.exchange := by
  simp only [findCompletion]
  split
  · rfl
  all_goals split_ifs
  all_goals first | rfl | exact exchange_foundOr env _ _ | exact exchange_protocolUnavailable env _

/-! ## Completion -/

/-- The fields a registration of the type needs. -/
def Complete (p : Protocol) : Prop :=
  let r := p.registrantData
  match p.registrationType with
  | .user => r.name ≠ [] ∧ r.username ≠ [] ∧ r.hostname ≠ [] ∧ p.pongsLeft = 0
  | .iircn => r.password ≠ [] ∧ r.name ≠ [] ∧ r.hostname ≠ [] ∧ r.protocol ≠ [] ∧ 0 < r.linkStamp
  | .server => r.password ≠ [] ∧ r.hostname ≠ [] ∧ r.protocol ≠ []
  | _ => False

theorem foundOr_some {found : Option ProtocolInfo} {tag : LangTag} {info : ProtocolInfo}
    (h : (s.foundOr env found tag).2 = some info) : (s.foundOr env found tag).1 = s ∧ found = some info := by
  cases found with
  | none => simp [foundOr] at h
  | some i => exact ⟨rfl, h⟩

/-- A protocol is found only for a complete registration, which stays as it is. -/
theorem findCompletion_some {info : ProtocolInfo} (h : (s.findCompletion env).2 = some info) :
    (s.findCompletion env).1 = s ∧ Complete s.this := by
  unfold Complete
  cases htype : s.this.registrationType with
  | none => simp [findCompletion, htype] at h
  | user =>
    simp only [findCompletion, htype] at h ⊢
    split_ifs at h ⊢ with hmissing
    all_goals
      obtain ⟨e, -⟩ := foundOr_some env s h
      simp only [not_or, Nat.not_lt] at hmissing
      exact ⟨e, hmissing.1, hmissing.2.1, hmissing.2.2.1, by omega⟩
  | iircn =>
    simp only [findCompletion, htype] at h ⊢
    split_ifs at h ⊢ with hmissing
    obtain ⟨e, -⟩ := foundOr_some env s h
    simp only [not_or] at hmissing
    exact ⟨e, hmissing.1, hmissing.2.1, hmissing.2.2.1, hmissing.2.2.2.1, by omega⟩
  | server =>
    simp only [findCompletion, htype] at h ⊢
    split_ifs at h ⊢ with hmissing hprotocol
    · simp [foundOr] at h
    · obtain ⟨e, -⟩ := foundOr_some env s h
      simp only [not_or] at hmissing
      exact ⟨e, hmissing.1, hmissing.2, hprotocol⟩
  | service =>
    simp only [findCompletion, htype] at h
    split_ifs at h

/-- A message that creates a protocol does so for a complete registration, and
a message that creates none leaves the exchange as its command left it. -/
theorem exchange_parseMessage (m : Message) :
    let s' := (s.parseMessage env registry m).1
    let d := s.dispatch env registry m
    (s'.exchange = d.exchange ∧ (s.parseMessage env registry m).2 = false) ∨
    (Complete d.this ∧ s'.exchange = (d.this.pongsLeft, d.this.pongMatch, d.trace ++ [.create d.this.registrationType])) := by
  simp only [parseMessage]
  have hkeep := exchange_findCompletion env (s.dispatch env registry m)
  cases hfound : ((s.dispatch env registry m).findCompletion env).2 with
  | none => exact .inl ⟨hkeep, rfl⟩
  | some info =>
    obtain ⟨e, hcomplete⟩ := findCompletion_some env _ hfound
    refine .inr ⟨hcomplete, ?_⟩
    rw [e]
    cases info <;> rfl

/-! ## Messages of no use -/

theorem foundOr_snd (found : Option ProtocolInfo) (tag : LangTag) : (s.foundOr env found tag).2 = found := by
  cases found <;> rfl

/-- Which protocol is found depends on the registrar alone. -/
theorem findCompletion_snd {s' : Session} (h : s'.this = s.this) : (s'.findCompletion env).2 = (s.findCompletion env).2 := by
  simp only [findCompletion, h]
  split
  · rfl
  all_goals split_ifs
  all_goals simp only [foundOr_snd]

/-- The search for a protocol may complain, but leaves the registration as it is. -/
theorem findCompletion_this : (s.findCompletion env).1.this.registrantData = s.this.registrantData ∧
    (s.findCompletion env).1.this.registrationType = s.this.registrationType := by
  have hunavailable : ∀ tag, (s.protocolUnavailable env tag).this.registrantData = s.this.registrantData ∧
      (s.protocolUnavailable env tag).this.registrationType = s.this.registrationType := by
    intro tag
    unfold protocolUnavailable
    split_ifs <;> exact ⟨rfl, rfl⟩
  have hfound : ∀ found tag, (s.foundOr env found tag).1.this.registrantData = s.this.registrantData ∧
      (s.foundOr env found tag).1.this.registrationType = s.this.registrationType := by
    intro found tag
    cases found with
    | none => exact hunavailable tag
    | some info => exact ⟨rfl, rfl⟩
  simp only [findCompletion]
  split
  · exact ⟨rfl, rfl⟩
  all_goals split_ifs
  all_goals first | exact ⟨rfl, rfl⟩ | exact hfound _ _ | exact hunavailable _

/-- A command that is not in the table does nothing to a registration that is
not complete, beyond a complaint. -/
theorem parseMessage_of_no_use {m : Message} (hcommand : commandTable.lookup m.command = none)
    (hnone : (s.findCompletion env).2 = none) :
    (s.parseMessage env registry m).1.this.registrantData = s.this.registrantData ∧
      (s.parseMessage env registry m).1.this.registrationType = s.this.registrationType ∧
      (s.parseMessage env registry m).1.trace = s.trace := by
  have hdispatch : s.dispatch env registry m = s := by simp [dispatch, hcommand]
  simp only [parseMessage, hdispatch, hnone]
  obtain ⟨hdata, htype⟩ := findCompletion_this env s
  exact ⟨hdata, htype, congrArg (·.2.2) (exchange_findCompletion env s)⟩

end KineIRCd.Irc2Registrar.Session

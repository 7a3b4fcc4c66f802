import KineIRCd.RegistrarSteps
/-!
# Refused commands

What a registrar's command leaves behind when it is refused. Most handlers
check everything first and then copy what they were given. IIRCN copies four
fields before it looks at the stamp among them, and SERVER the hostname before
it looks at the hop count.
-/
namespace KineIRCd.Irc2Registrar.Refusals

open LibIRC2 Session

/-- What the registrar keeps of the registration. -/
def details (p : Protocol) : Registrant × RegistrationType × Nat × Octets :=
  (p.registrantData, p.registrationType, p.pongsLeft, p.pongMatch)

variable (env : Env) (registry : Registry) (parameters : List Octets)

def IsError (line : Octets) : Prop := ∃ error, line = formatMessage errorCommandName [error]

def IsNumeric (line : Octets) : Prop :=
  ∃ numeric ps, line = formatMessageFrom (env.delocaliseStr env.serverName) (decimal numeric) ps

/-- The handler says goodbye, which shows on a connection that nobody said goodbye on
before, or what it sends is an error or a numeric. -/
def Refuses (c : Command) (s : Session) : Prop :=
  (({ s with connected := true } : Session).handle env registry parameters c).connected = false ∨
    ∃ line, (IsError line ∨ IsNumeric env line) ∧
      s.this.outputQueue ++ line <+: (s.handle env registry parameters c).this.outputQueue

/-- The command passes the checks before the fields are written, and not the one after. -/
def ChecksLate (s : Session) : Command → Prop
  | .iircn => s.this.listener.allowNetworks = true ∧ s.this.registrationType = .none ∧ 6 ≤ parameters.length ∧
      parameters.getD 1 [] = replacementParameter ∧ env.toLong (parameters.getD 4 []) ≤ 0
  | .server => s.this.listener.allowServers = true ∧ s.this.registrationType = .none ∧ 3 ≤ parameters.length ∧
      env.toInt (parameters.getD 1 []) ≠ 1
  | _ => False

/-- The registrant with the fields that are written before the last check. -/
def written (r : Registrant) : Command → Registrant
  | .iircn => { r with
      name := env.localiseStr (parameters.getD 0 [])
      hostname := env.localiseStr (parameters.getD 2 [])
      protocol := toUpper (parameters.getD 3 [])
      linkStamp := env.toLong (parameters.getD 4 []) }
  | .server => { r with hostname := env.localiseStr (parameters.getD 0 []) }
  | _ => r

/-- Nothing is sent but a ping and what comes with it, and nobody says goodbye. -/
structure Quiet (s s' : Session) : Prop where
  connected : s'.connected = s.connected
  output : ∃ out, s'.this.outputQueue = s.this.outputQueue ++ out ∧ ∀ c ∈ out.head?, c = 0x50

/-! ## One command -/

section
variable {env registry parameters} {s s' : Session} {c : Command}

theorem Quiet.refl (s : Session) : Quiet s s := ⟨rfl, [], by simp, by simp⟩

/-- A handler that writes fields and sends nothing. -/
theorem Quiet.of_eq (hconnected : s'.connected = s.connected) (houtput : s'.this.outputQueue = s.this.outputQueue) :
    Quiet s s' := ⟨hconnected, [], by simp [houtput], by simp⟩

theorem Quiet.sendPing (hconnected : s'.connected = s.connected) (houtput : s'.this.outputQueue = s.this.outputQueue) :
    Quiet s (s'.sendPing env) := by
  refine ⟨hconnected, formatMessage (octets "PING") [env.token s'.rand] ++ Clbp.EOL_CR_LF, ?_, ?_⟩
  · rw [← houtput, ← List.append_assoc]
    rfl
  · intro c hc
    exact (Option.some_inj.1 hc).symm

/-- What follows a ping does not change how the output starts. -/
theorem Quiet.sendMessage (h : Quiet s s') (hne : s'.this.outputQueue ≠ s.this.outputQueue) (command : Octets)
    (ps : List Octets) : Quiet s (s'.sendMessage command ps) := by
  obtain ⟨out, hout, hping⟩ := h.output
  have hout' : out ≠ [] := by
    rintro rfl
    exact hne (by rw [hout, List.append_nil])
  refine ⟨h.connected, out ++ (formatMessage command ps ++ Clbp.EOL_CR_LF), ?_, ?_⟩
  · simp [Session.sendMessage, outputLine, Clbp.outputLine, Clbp.outputRaw, hout]
  · rwa [List.head?_append_of_ne_nil _ hout']

/-- An error or a numeric does not look like a ping. -/
theorem head_refusal {line : Octets} (h : IsError line ∨ IsNumeric env line) :
    ∃ first, line.head? = some first ∧ first ≠ 0x50 := by
  rcases h with ⟨error, rfl⟩ | ⟨numeric, ps, rfl⟩
  · exact ⟨0x45, rfl, by decide⟩
  · exact ⟨COLON, rfl, by decide⟩

theorem Quiet.not_prefix (h : Quiet s s') {line : Octets} (hline : IsError line ∨ IsNumeric env line) :
    ¬ s.this.outputQueue ++ line <+: s'.this.outputQueue := by
  obtain ⟨first, hfirst, hne⟩ := head_refusal hline
  obtain ⟨out, hout, hping⟩ := h.output
  rw [hout, List.prefix_append_right_inj]
  intro hprefix
  obtain ⟨rest, rfl⟩ := hprefix
  apply hne
  apply hping
  rw [List.head?_append, hfirst]
  rfl

theorem this_ite {p q : Prop} [Decidable p] [Decidable q] (hpq : p ↔ q) {a a' b b' : Session} (h : a.this = a'.this)
    (h' : b.this = b'.this) : (if p then a else b).this = (if q then a' else b').this := by
  by_cases hp : p
  · rw [if_pos hp, if_pos (hpq.1 hp), h]
  · rw [if_neg hp, if_neg fun hq => hp (hpq.2 hq), h']

/-- Handlers do not look at the connection. -/
theorem handle_connected (b : Bool) : (({ s with connected := b } : Session).handle env registry parameters c).this =
    (s.handle env registry parameters c).this := by
  cases c with
  | capab => simp only [handle, parseCAPAB]; split_ifs <;> rfl
  | iircn => simp only [handle, parseIIRCN, checkRegistration]; split_ifs <;> rfl
  | nick => exact this_ite .rfl rfl (this_ite .rfl rfl (this_ite .rfl rfl (this_ite .rfl rfl rfl)))
  | pass => simp only [handle, parsePASS]; split_ifs <;> rfl
  | pong => exact this_ite .rfl rfl (this_ite .rfl rfl (this_ite .rfl rfl rfl))
  | quit => rfl
  | server => simp only [handle, parseSERVER, checkRegistration]; split_ifs <;> rfl
  | service => simp only [handle, parseSERVICE, checkRegistration]; split_ifs <;> rfl
  | user => simp only [handle, parseUSER, checkRegistration]; split_ifs <;> rfl

/-- A command changes nothing, or is accepted, or writes fields and is refused for a check
that comes after. -/
theorem handle_cases (c : Command) :
    details (s.handle env registry parameters c).this = details s.this ∨
    Quiet s (s.handle env registry parameters c) ∨ ChecksLate env parameters s c := by
  cases c with
  | capab =>
    simp only [handle, parseCAPAB]
    split_ifs
    · exact .inl rfl
    · exact .inl rfl
  | iircn =>
    simp only [handle, parseIIRCN]
    rcases checkRegistration_accepts_or env parameters s s.this.listener.allowNetworks
      .irc2registrar_ERROR_CONN_DISALLOWED_IIRC "IIRCN" 6 _ with ⟨hallowed, htype, hlength, e⟩ | ⟨-, q, e⟩
    · rw [e]
      split_ifs with hfrom hstamp
      · exact .inl rfl
      · exact .inr (.inr ⟨hallowed, htype, hlength, not_not.1 hfrom, hstamp⟩)
      · exact .inr (.inl (.of_eq rfl rfl))
      · exact .inr (.inl (.of_eq rfl rfl))
    · exact .inl (by rw [e]; rfl)
  | nick =>
    simp only [handle, parseNICK]
    split_ifs with hnone hvalid hfree hping
    · exact .inl rfl
    · exact .inl rfl
    · exact .inl rfl
    · refine .inr (.inl (.sendMessage (.sendPing ?_ ?_) ?_ _ _))
      · rfl
      · rfl
      · simp [Session.sendPing, Session.sendMessage, outputLine, Clbp.outputLine, Clbp.outputRaw, record, setRegistrant,
          formatMessage, octets]
    · exact .inr (.inl (.of_eq rfl rfl))
  | pass =>
    simp only [handle, parsePASS]
    split_ifs
    · exact .inl rfl
    · exact .inl rfl
    · exact .inr (.inl (.of_eq rfl rfl))
  | pong =>
    simp only [handle, parsePONG]
    split_ifs
    · exact .inl rfl
    · exact .inl rfl
    · exact .inr (.inl (.sendPing rfl rfl))
    · exact .inr (.inl (.of_eq rfl rfl))
  | quit => exact .inl rfl
  | server =>
    simp only [handle, parseSERVER]
    rcases checkRegistration_accepts_or env parameters s s.this.listener.allowServers
      .irc2registrar_ERROR_CONN_DISALLOWED_SERVER "SERVER" 3 _ with ⟨hallowed, htype, hlength, e⟩ | ⟨-, q, e⟩
    · rw [e]
      by_cases hhops : env.toInt (parameters.getD 1 []) = 1
      · rw [if_neg (not_not.2 hhops)]
        exact .inr (.inl (.of_eq rfl rfl))
      · rw [if_pos hhops]
        exact .inr (.inr ⟨hallowed, htype, hlength, hhops⟩)
    · exact .inl (by rw [e]; rfl)
  | service =>
    simp only [handle, parseSERVICE]
    rcases checkRegistration_accepts_or env parameters s s.this.listener.allowServices
      .irc2registrar_ERROR_CONN_DISALLOWED_SERVICE "SERVICE" 6 _ with ⟨-, -, -, e⟩ | ⟨-, q, e⟩
    · rw [e]
      exact .inr (.inl (.of_eq rfl rfl))
    · exact .inl (by rw [e]; rfl)
  | user =>
    simp only [handle, parseUSER]
    rcases checkRegistration_accepts_or env parameters s s.this.listener.allowUsers
      .irc2registrar_ERROR_CONN_DISALLOWED_USER "USER" 4 _ with ⟨-, -, -, e⟩ | ⟨-, q, e⟩
    · rw [e]
      exact .inr (.inl (.of_eq rfl rfl))
    · exact .inl (by rw [e]; rfl)

theorem checkRegistration_eq {allowed : Bool} {disallowed : LangTag} {command : String} {required : Nat}
    {accept : Session → Session} (hallowed : allowed = true) (htype : s.this.registrationType = .none)
    (hlength : required ≤ parameters.length) :
    s.checkRegistration env allowed disallowed command required parameters accept = accept s := by
  rw [checkRegistration, hallowed, htype, if_neg (by simp), if_neg (by simp), if_neg (by omega)]

/-- What a late check leaves: the fields are written, and the connection is told off. -/
theorem handle_of_checksLate (h : ChecksLate env parameters s c) : s.handle env registry parameters c =
    (s.setRegistrant fun r => written env parameters r c).brokenRegistrationData env := by
  cases c with
  | iircn =>
    obtain ⟨hallowed, htype, hlength, hfrom, hstamp⟩ := h
    simp only [handle, parseIIRCN]
    rw [checkRegistration_eq hallowed htype hlength, if_neg (not_not.2 hfrom), if_pos hstamp]
    rfl
  | server =>
    obtain ⟨hallowed, htype, hlength, hhops⟩ := h
    simp only [handle, parseSERVER]
    rw [checkRegistration_eq hallowed htype hlength, if_pos hhops]
    rfl
  | capab | nick | pass | pong | quit | service | user => exact absurd h id

/-- A refused command leaves the registration alone, unless the check that refuses it
comes after fields are written, and one of these had another value. -/
theorem refused_unchanged_iff (env : Env) (registry : Registry) (parameters : List Octets) (c : Command) (s : Session) :
    (Refuses env registry parameters c s → details (s.handle env registry parameters c).this = details s.this) ↔
      ¬ (ChecksLate env parameters s c ∧ written env parameters s.this.registrantData c ≠ s.this.registrantData) := by
  by_cases hlate : ChecksLate env parameters s c
  · have hdetails : details (s.handle env registry parameters c).this = details s.this ↔
        written env parameters s.this.registrantData c = s.this.registrantData := by
      rw [handle_of_checksLate hlate]
      simp [details, brokenRegistrationData, sendError, sendMessage, outputLine, goodbye, setRegistrant]
    have hrefuses : Refuses env registry parameters c s := by
      have hlate' : ChecksLate env parameters { s with connected := true } c := hlate
      rw [Refuses, handle_of_checksLate hlate']
      exact .inl rfl
    rw [hdetails]
    simp [hlate, hrefuses]
  · refine iff_of_true ?_ fun h => hlate h.1
    intro hrefuses
    rcases handle_cases c with hsame | hquiet | h
    · exact hsame
    · rcases hrefuses with hgoodbye | ⟨line, hline, hprefix⟩
      · rw [← handle_connected true]
        rcases handle_cases (s := { s with connected := true }) c with hsame' | hquiet' | h
        · exact hsame'
        · rw [hquiet'.connected] at hgoodbye
          simp at hgoodbye
        · exact absurd h hlate
      · exact absurd hprefix (hquiet.not_prefix hline)
    · exact absurd h hlate

/-- A registrar on a port that accepts everything, asked by a server that is no hops away. -/
theorem not_unchanged_farServer :
    Refuses .sample {} [octets "irc.far", octets "0", octets "text"] .server ⟨{ listener := .all }, true, 0, []⟩ ∧
      details ((⟨{ listener := .all }, true, 0, []⟩ : Session).handle .sample {}
        [octets "irc.far", octets "0", octets "text"] .server).this ≠ details { listener := .all } := by
  refine ⟨.inl ?_, ?_⟩
  · decide +kernel
  · decide +kernel

end

end KineIRCd.Irc2Registrar.Refusals

import KineIRCd.Admission
/-!
# What a registrant said

The fields a registration completes with come from commands that may be far
apart, and are shared by the types. For a user, all but the name are what the
one USER said that was accepted, and the name is the last that was given.
-/
namespace KineIRCd.Irc2Registrar.Registrants

open LibIRC2 Session AntiSpoof Admission

variable (env : Env)

/-- NICK names something valid, that nobody on the network is called by. -/
def GivesNick (registry : Registry) (parameters : List Octets) : Prop :=
  parameters ≠ [] ∧ Client.Name.checkValidity env.maxNickNameLength (env.localiseStr (parameters.getD 0 [])) = .noError ∧
    registry.findClient (env.localiseStr (parameters.getD 0 [])) = none

/-- IIRCN gets as far as its fields. -/
def GivesNetwork (s : Session) (parameters : List Octets) : Prop :=
  s.this.listener.allowNetworks = true ∧ s.this.registrationType = .none ∧ 6 ≤ parameters.length ∧
    parameters.getD 1 [] = replacementParameter

instance (registry : Registry) (parameters : List Octets) : Decidable (GivesNick env registry parameters) :=
  inferInstanceAs (Decidable (_ ∧ _ ∧ _))

instance (s : Session) (parameters : List Octets) : Decidable (GivesNetwork s parameters) :=
  inferInstanceAs (Decidable (_ ∧ _ ∧ _ ∧ _))

/-- The name a message gives the registration. An IIRCN that is refused for its
stamp has given it one. -/
def given (s : Session) (input : Registry × Message) : Option WString :=
  let parameters := input.2.parameters
  let name := env.localiseStr (parameters.getD 0 [])
  match commandTable.lookup input.2.command with
  | some .nick => if GivesNick env input.1 parameters then some name else none
  | some .iircn => if GivesNetwork s parameters then some name else none
  | _ => none

/-- What USER says about a user, and it alone. -/
structure Told (parameters : List Octets) (r : Registrant) : Prop where
  username : r.username = env.localiseStr (parameters.getD 0 [])
  modes : r.modes = parameters.getD 1 []
  hostname : r.hostname = env.localiseStr (parameters.getD 2 [])
  description : r.description = env.localiseStr (substr (parameters.getD 3 []) 0 env.maxRealNameLength)

/-- The fields of `Told`. -/
def about (r : Registrant) : WString × Octets × WString × WString := (r.username, r.modes, r.hostname, r.description)

theorem Told.congr {env : Env} {parameters : List Octets} {r r' : Registrant} (h : Told env parameters r)
    (e : about r' = about r) : Told env parameters r' := by
  obtain ⟨husername, hmodes, hhostname, hdescription⟩ : r'.username = r.username ∧ r'.modes = r.modes ∧
      r'.hostname = r.hostname ∧ r'.description = r.description := by simpa [about] using e
  exact ⟨husername.trans h.username, hmodes.trans h.modes, hhostname.trans h.hostname, hdescription.trans h.description⟩

/-! ## One message -/

variable (registry : Registry) (parameters : List Octets) (s : Session)

theorem name_parseNICK : (s.parseNICK env registry parameters).this.registrantData.name =
    (if GivesNick env registry parameters then some (env.localiseStr (parameters.getD 0 [])) else none).getD
      s.this.registrantData.name := by
  unfold parseNICK
  by_cases h : GivesNick env registry parameters
  · obtain ⟨hne, hvalid, hfree⟩ := id h
    rw [if_pos h, if_neg hne]
    simp only [hvalid, hfree, ne_eq, not_true_eq_false, if_false]
    split_ifs <;> rfl
  · rw [if_neg h]
    simp only [GivesNick, not_and] at h
    dsimp only
    split_ifs with hnone hvalid hfree
    · rfl
    · rfl
    · rfl
    all_goals exact absurd (not_not.1 hfree) (h hnone (not_not.1 hvalid))

theorem name_parseIIRCN : (s.parseIIRCN env parameters).this.registrantData.name =
    (if GivesNetwork s parameters then some (env.localiseStr (parameters.getD 0 [])) else none).getD
      s.this.registrantData.name := by
  unfold parseIIRCN
  rcases checkRegistration_accepts_or env parameters s s.this.listener.allowNetworks
    .irc2registrar_ERROR_CONN_DISALLOWED_IIRC "IIRCN" 6 _ with ⟨hallowed, htype, hlength, e⟩ | ⟨hno, q, e⟩
  · rw [e]
    by_cases hfrom : parameters.getD 1 [] = replacementParameter
    · rw [if_neg (not_not.2 hfrom), if_pos (show GivesNetwork s parameters from ⟨hallowed, htype, hlength, hfrom⟩)]
      dsimp only
      split_ifs <;> rfl
    · rw [if_pos hfrom, if_neg fun h : GivesNetwork s parameters => hfrom h.2.2.2]
      rfl
  · rw [e, if_neg fun h : GivesNetwork s parameters => hno ⟨h.1, h.2.1, h.2.2.1⟩]
    rfl

/-- Only NICK and IIRCN have anything to do with the name. -/
theorem name_dispatch (input : Registry × Message) : (s.dispatch env input.1 input.2).this.registrantData.name =
    (given env s input).getD s.this.registrantData.name := by
  unfold dispatch given
  have hkeep : ∀ {s' : Session}, identity s' = identity s → s'.this.registrantData.name = s.this.registrantData.name :=
    fun e => congrArg Prod.snd e
  cases commandTable.lookup input.2.command with
  | none => rfl
  | some c =>
    cases c with
    | nick => exact name_parseNICK env input.1 input.2.parameters s
    | iircn => exact name_parseIIRCN env input.2.parameters s
    | capab =>
      simp only [handle, parseCAPAB]
      split_ifs <;> rfl
    | pass =>
      simp only [handle, parsePASS]
      split_ifs <;> rfl
    | pong =>
      simp only [handle, parsePONG]
      split_ifs <;> rfl
    | quit => rfl
    | server =>
      simp only [handle, parseSERVER]
      rcases checkRegistration_cases env with ⟨-, -, -, e⟩ | ⟨-, e⟩
      · rw [e]
        simp only [setRegistrant]
        split_ifs <;> rfl
      · exact hkeep e
    | service =>
      simp only [handle, parseSERVICE]
      rcases checkRegistration_cases env with ⟨-, -, -, e⟩ | ⟨-, e⟩
      · rw [e]
        rfl
      · exact hkeep e
    | user =>
      simp only [handle, parseUSER]
      rcases checkRegistration_cases env with ⟨-, -, -, e⟩ | ⟨-, e⟩
      · rw [e]
        rfl
      · exact hkeep e

/-- Only USER is accepted for a user's registration. -/
theorem told_of_accepted {input : Registry × Message} (h : accepted env s input.2 = some .user) :
    input.2.command = octets "USER" ∧ Told env input.2.parameters (s.dispatch env input.1 input.2).this.registrantData := by
  unfold accepted at h
  obtain ⟨c, hc, haccepts⟩ := Option.bind_eq_some_iff.1 h
  have hlookup : commandTable.lookup input.2.command = some c := hc
  cases c with
  | user =>
    simp only [accepts] at haccepts
    split_ifs at haccepts with hchecks
    obtain ⟨hallowed, htype, hlength⟩ := hchecks
    refine ⟨by simpa [commandTable] using mem_of_lookup hlookup, ?_⟩
    unfold dispatch
    rw [hlookup]
    simp only [handle, parseUSER, checkRegistration, hallowed, htype, Bool.not_true, Bool.false_eq_true, if_false,
      ne_eq, not_true_eq_false, if_neg (show ¬ input.2.parameters.length < 4 by omega)]
    refine ⟨rfl, rfl, rfl, ?_⟩
    simp only [setRegistrationType, setRegistrant]
    exact if_pos (by omega)
  | iircn | server | service =>
    simp only [accepts] at haccepts
    split_ifs at haccepts
    cases haccepts
  | capab | nick | pass | pong | quit => cases haccepts

/-- Once there is a type, nothing more is said about the registrant. -/
theorem about_dispatch (input : Registry × Message) (htype : s.this.registrationType ≠ .none) :
    about (s.dispatch env input.1 input.2).this.registrantData = about s.this.registrantData := by
  have hrefused : ∀ (allowed : Bool) (disallowed : LangTag) (command : String) (required : Nat) (accept : Session → Session),
      about (s.checkRegistration env allowed disallowed command required input.2.parameters accept).this.registrantData =
        about s.this.registrantData := by
    intro allowed disallowed command required accept
    rcases checkRegistration_accepts_or env input.2.parameters s allowed disallowed command required accept with
      ⟨-, hnone, -⟩ | ⟨-, q, e⟩
    · exact absurd hnone htype
    · rw [e]
  unfold dispatch
  cases commandTable.lookup input.2.command with
  | none => rfl
  | some c =>
    cases c with
    | iircn | server | service | user => exact hrefused _ _ _ _ _
    | quit => rfl
    | capab =>
      simp only [handle, parseCAPAB]
      split_ifs <;> rfl
    | nick =>
      simp only [handle, parseNICK]
      split_ifs <;> rfl
    | pass =>
      simp only [handle, parsePASS]
      split_ifs <;> rfl
    | pong =>
      simp only [handle, parsePONG]
      split_ifs <;> rfl

/-! ## Runs -/

theorem step_registrantData (input : Registry × Message) :
    (step env s input).this.registrantData = (s.dispatch env input.1 input.2).this.registrantData := by
  have hkeep := (findCompletion_this env (s.dispatch env input.1 input.2)).1
  simp only [step, parseMessage]
  split
  · exact hkeep
  · split
    · exact hkeep
    · exact hkeep

/-- The name is the last that was given. -/
theorem name_run (inputs : List (Registry × Message)) : (inputs.foldl (step env) s).this.registrantData.name =
    (Runs.collect (step env) (given env) s inputs).getLast?.getD s.this.registrantData.name := by
  let name (s : Session) := s.this.registrantData.name
  have hstep (s : Session) (input : Registry × Message) : name (step env s input) = (given env s input).getD (name s) := by
    simp only [name]
    rw [step_registrantData, name_dispatch]
  exact Runs.observe_eq_last hstep s inputs

/-- One of the messages was accepted for a user, and what it said holds of `r`. -/
def ToldBy (s : Session) (inputs : List (Registry × Message)) (r : Registrant) : Prop :=
  ∃ front m after, inputs = front ++ m :: after ∧ m.2.command = octets "USER" ∧
    accepted env (front.foldl (step env) s) m.2 = some .user ∧ Told env m.2.parameters r

/-- As soon as the registration is a user's, it is what the accepted USER said. -/
theorem toldBy_dispatch {inputs : List (Registry × Message)} {input : Registry × Message}
    (h : (inputs.foldl (step env) s).this.registrationType = .user → ToldBy env s inputs (inputs.foldl (step env) s).this.registrantData)
    (huser : ((inputs.foldl (step env) s).dispatch env input.1 input.2).this.registrationType = .user) :
    ToldBy env s (inputs ++ [input]) ((inputs.foldl (step env) s).dispatch env input.1 input.2).this.registrantData := by
  rcases answers_dispatch env (inputs.foldl (step env) s) input with ⟨type, hacc, hnone, -, htype, -⟩ | ⟨-, htype, -⟩
  · obtain rfl : type = .user := htype.symm.trans huser
    obtain ⟨hcommand, htold⟩ := told_of_accepted env _ hacc
    exact ⟨inputs, input, [], rfl, hcommand, hacc, htold⟩
  · have huser' := htype.symm.trans huser
    obtain ⟨front, m, after, rfl, hcommand, hacc, htold⟩ := h huser'
    refine ⟨front, m, after ++ [input], by simp, hcommand, hacc, htold.congr ?_⟩
    exact about_dispatch env _ input (by rw [huser']; simp)

theorem toldBy_run (inputs : List (Registry × Message)) (hnone : s.this.registrationType = .none)
    (huser : (inputs.foldl (step env) s).this.registrationType = .user) :
    ToldBy env s inputs (inputs.foldl (step env) s).this.registrantData := by
  induction inputs using List.reverseRecOn with
  | nil =>
    rw [List.foldl_nil, hnone] at huser
    cases huser
  | append_singleton inputs input ih =>
    rw [List.foldl_append, List.foldl_cons, List.foldl_nil] at huser ⊢
    rw [step_registrantData]
    rw [(step_this env input _).2.1] at huser
    exact toldBy_dispatch env s ih huser

/-- Whatever was tried before, a user is created under the name given last, and with
what the USER said that was accepted. -/
theorem creation_told (env : Env) (listener : ListenerFlags) (n rand : Nat) (before : List (Registry × Message))
    (input : Registry × Message) (p : Protocol)
    (hcreate : creation env (before.foldl (step env) (start listener n rand)) input = some p)
    (huser : p.registrationType = .user) :
    ToldBy env (start listener n rand) (before ++ [input]) p.registrantData ∧
      (Runs.collect (step env) (given env) (start listener n rand) (before ++ [input])).getLast? =
        some p.registrantData.name := by
  obtain ⟨rfl, hcomplete⟩ := creation_some env input hcreate
  refine ⟨toldBy_dispatch env _ (fun h => toldBy_run env _ before rfl h) huser, ?_⟩
  have hname := name_run env (start listener n rand) (before ++ [input])
  rw [List.foldl_append, List.foldl_cons, List.foldl_nil, step_registrantData] at hname
  rw [Complete, huser] at hcomplete
  rw [hname] at hcomplete ⊢
  cases hlast : (Runs.collect (step env) (given env) (start listener n rand) (before ++ [input])).getLast? with
  | none =>
    rw [hlast] at hcomplete
    exact absurd rfl hcomplete.1
  | some name => rfl

/-- A network that is refused leaves a name and a host, and a user gives others. -/
def second : List (Registry × Message) :=
  [({}, ⟨[], octets "IIRCN", [octets "net", octets "*", octets "host", octets "irc-2", octets "0", octets "text"]⟩),
    ({}, ⟨[], octets "NICK", [octets "pickle"]⟩), ({}, ⟨[], octets "NICK", [octets "1st"]⟩),
    ({}, ⟨[], octets "USER", [octets "simon", octets "0", octets "here", octets "Simon"]⟩)]

def pong : Registry × Message := ({}, ⟨[], octets "PONG", [octets "Z0"]⟩)

theorem creation_told_second : ∃ p, creation .sample (second.foldl (step .sample) (start .all 1 0)) pong = some p ∧
    p.registrantData.name = wide "pickle" ∧ ToldBy .sample (start .all 1 0) (second ++ [pong]) p.registrantData := by
  have hwho : (creation .sample (second.foldl (step .sample) (start .all 1 0)) pong).map
      (fun p => (p.registrationType, p.registrantData.name)) = some (.user, wide "pickle") := by decide +kernel
  obtain ⟨p, hp, e⟩ := Option.map_eq_some_iff.1 hwho
  obtain ⟨huser, hname⟩ := Prod.mk.inj e
  exact ⟨p, hp, hname, (creation_told .sample .all 1 0 second pong p hp huser).1⟩

end KineIRCd.Irc2Registrar.Registrants

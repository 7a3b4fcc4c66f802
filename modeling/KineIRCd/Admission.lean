import KineIRCd.AntiSpoof
/-!
# Who is handed over

The registrar creates a protocol of the type that one accepted command gave,
with the fields of that type. The fields are shared by all types, and an IIRCN
that is refused for its stamp has already left its name there.
-/
namespace KineIRCd.Irc2Registrar.Admission

open LibIRC2 Session AntiSpoof

/-- Does the listener accept connections of the type? -/
def allows (flags : ListenerFlags) : RegistrationType → Bool
  | .none => false
  | .iircn => flags.allowNetworks
  | .server => flags.allowServers
  | .service => flags.allowServices
  | .user => flags.allowUsers

variable (env : Env)

/-- The type a command gives the registration, when its handler accepts it. -/
def accepts (s : Session) (parameters : List Octets) : Command → Option RegistrationType
  | .iircn =>
    if s.this.listener.allowNetworks = true ∧ s.this.registrationType = .none ∧ 6 ≤ parameters.length ∧
        parameters.getD 1 [] = replacementParameter ∧ 0 < env.toLong (parameters.getD 4 []) then some .iircn
    else none
  | .server =>
    if s.this.listener.allowServers = true ∧ s.this.registrationType = .none ∧ 3 ≤ parameters.length ∧
        env.toInt (parameters.getD 1 []) = 1 then some .server
    else none
  | .service =>
    if s.this.listener.allowServices = true ∧ s.this.registrationType = .none ∧ 6 ≤ parameters.length then some .service
    else none
  | .user =>
    if s.this.listener.allowUsers = true ∧ s.this.registrationType = .none ∧ 4 ≤ parameters.length then some .user
    else none
  | _ => none

def accepted (s : Session) (m : Message) : Option RegistrationType :=
  (commandTable.lookup m.command).bind (accepts env s m.parameters)

/-- The types given by the accepted commands of a run, in order. -/
def acceptedTypes : Session → List (Registry × Message) → List RegistrationType
  | _, [] => []
  | s, input :: inputs => (accepted env s input.2).toList ++ acceptedTypes (step env s input) inputs

/-- The registrar at the moment it calls `createProtocol` for a message, if it does. -/
def creation (s : Session) (input : Registry × Message) : Option Protocol :=
  let completion := (s.dispatch env input.1 input.2).findCompletion env
  completion.2.map fun _ => completion.1.this

/-- What is promised of a registrar that calls `createProtocol`. -/
structure Admitted (listener : ListenerFlags) (types : List RegistrationType) (p : Protocol) : Prop where
  allowed : allows listener p.registrationType = true
  once : types = [p.registrationType]
  complete : Complete p
  nickname : p.registrationType = .user →
    Client.Name.checkValidity env.maxNickNameLength p.registrantData.name = .noError

/-- The message is no IIRCN that is refused for its stamp alone and names its
network by what is no valid nickname. -/
def NoStrayName (s : Session) (input : Registry × Message) : Prop :=
  ¬ (input.2.command = octets "IIRCN" ∧ s.this.listener.allowNetworks = true ∧ s.this.registrationType = .none ∧
    6 ≤ input.2.parameters.length ∧ input.2.parameters.getD 1 [] = replacementParameter ∧
    env.toLong (input.2.parameters.getD 4 []) ≤ 0 ∧
    Client.Name.checkValidity env.maxNickNameLength (env.localiseStr (input.2.parameters.getD 0 [])) ≠ .noError)

/-! ## Type and name -/

/-- What the registration is, and by what name. -/
def identity (s : Session) : RegistrationType × WString := (s.this.registrationType, s.this.registrantData.name)

section
variable {s : Session}

@[simp] theorem identity_outputLine (line : Octets) : identity (s.outputLine line) = identity s := rfl
@[simp] theorem identity_sendMessage (c : Octets) (ps : List Octets) : identity (s.sendMessage c ps) = identity s := rfl
@[simp] theorem identity_goodbye : identity s.goodbye = identity s := rfl
@[simp] theorem identity_sendError (error : Octets) : identity (s.sendError error) = identity s := rfl
@[simp] theorem identity_record (e : Event) : identity (s.record e) = identity s := rfl
@[simp] theorem identity_sendPing : identity (s.sendPing env) = identity s := rfl
@[simp] theorem identity_sendNumeric (n : Nat) (ps : List Octets) : identity (s.sendNumeric env n ps) = identity s := rfl
@[simp] theorem identity_needMoreParams (c : String) : identity (s.needMoreParams env c) = identity s := rfl
@[simp] theorem identity_brokenRegistrationData : identity (s.brokenRegistrationData env) = identity s := rfl

/-- The checks pass and the command goes on, or they leave type and name alone. -/
theorem checkRegistration_cases {allowed : Bool} {disallowed : LangTag} {command : String} {required : Nat}
    {parameters : List Octets} {accept : Session → Session} :
    (allowed = true ∧ s.this.registrationType = .none ∧ required ≤ parameters.length ∧
      s.checkRegistration env allowed disallowed command required parameters accept = accept s) ∨
    (¬ (allowed = true ∧ s.this.registrationType = .none ∧ required ≤ parameters.length) ∧
      identity (s.checkRegistration env allowed disallowed command required parameters accept) = identity s) := by
  rcases checkRegistration_accepts_or env parameters s allowed disallowed command required accept with
    haccept | ⟨hno, q, e⟩
  · exact .inl haccept
  · exact .inr ⟨hno, by rw [identity, e]; rfl⟩

end

/-- What a message does to the name when no command is accepted. -/
def Renames (s : Session) (input : Registry × Message) (name : WString) : Prop :=
  name = s.this.registrantData.name ∨ Client.Name.checkValidity env.maxNickNameLength name = .noError ∨
    ¬ NoStrayName env s input

/-- What a message does to type and name, when it answers with the type accepted or
none: a command is accepted and gives the type, or leaves it alone. Only IIRCN,
accepted or refused, sets a name that is not checked. -/
def Answers (s : Session) (input : Registry × Message) (answer : Option RegistrationType) (s' : Session) : Prop :=
  (∃ type, answer = some type ∧ s.this.registrationType = .none ∧ allows s.this.listener type = true ∧
    s'.this.registrationType = type ∧
    (type = .iircn ∨ s'.this.registrantData.name = s.this.registrantData.name)) ∨
  (answer = none ∧ s'.this.registrationType = s.this.registrationType ∧
    Renames env s input s'.this.registrantData.name)

variable (registry : Registry) (s : Session)

theorem Answers.same {env : Env} {s s' : Session} {input : Registry × Message} {answer : Option RegistrationType}
    (hno : answer = none) (e : identity s' = identity s) : Answers env s input answer s' := by
  obtain ⟨htype, hname⟩ := Prod.mk.inj e
  exact .inr ⟨hno, htype, .inl hname⟩

theorem answers_parseIIRCN (m : Message) (hcommand : m.command = octets "IIRCN") :
    Answers env s (registry, m) (accepts env s m.parameters .iircn) (s.parseIIRCN env m.parameters) := by
  unfold parseIIRCN
  rcases checkRegistration_cases env with ⟨hallowed, htype, hlength, e⟩ | ⟨hno, e⟩
  · rw [e]
    by_cases hfrom : m.parameters.getD 1 [] = replacementParameter
    · rw [if_neg (not_not.2 hfrom)]
      by_cases hstamp : env.toLong (m.parameters.getD 4 []) ≤ 0
      · rw [if_pos hstamp]
        refine .inr ⟨?_, rfl, ?_⟩
        · rw [accepts, if_neg]
          rintro ⟨-, -, -, -, h⟩
          omega
        · -- refused, with the name set already
          by_cases hvalid : Client.Name.checkValidity env.maxNickNameLength (env.localiseStr (m.parameters.getD 0 [])) = .noError
          · exact .inr (.inl hvalid)
          · refine .inr (.inr (not_not.2 ?_))
            exact ⟨hcommand, hallowed, htype, hlength, hfrom, hstamp, hvalid⟩
      · rw [if_neg hstamp]
        refine .inl ⟨.iircn, ?_, htype, hallowed, rfl, .inl rfl⟩
        rw [accepts, if_pos ⟨hallowed, htype, hlength, hfrom, by omega⟩]
    · rw [if_pos hfrom]
      refine .same ?_ rfl
      rw [accepts, if_neg]
      rintro ⟨-, -, -, h, -⟩
      exact hfrom h
  · refine .same ?_ e
    rw [accepts, if_neg]
    rintro ⟨h1, h2, h3, -⟩
    exact hno ⟨h1, h2, h3⟩

theorem answers_parseSERVER (m : Message) :
    Answers env s (registry, m) (accepts env s m.parameters .server) (s.parseSERVER env m.parameters) := by
  unfold parseSERVER
  rcases checkRegistration_cases env with ⟨hallowed, htype, hlength, e⟩ | ⟨hno, e⟩
  · rw [e]
    by_cases hhops : env.toInt (m.parameters.getD 1 []) = 1
    · rw [if_neg (not_not.2 hhops)]
      refine .inl ⟨.server, ?_, htype, hallowed, rfl, .inr ?_⟩
      · rw [accepts, if_pos ⟨hallowed, htype, hlength, hhops⟩]
      · simp only [setRegistrationType, setRegistrant]
        split_ifs <;> rfl
    · rw [if_pos hhops]
      refine .same ?_ rfl
      rw [accepts, if_neg]
      rintro ⟨-, -, -, h⟩
      exact hhops h
  · refine .same ?_ e
    rw [accepts, if_neg]
    rintro ⟨h1, h2, h3, -⟩
    exact hno ⟨h1, h2, h3⟩

theorem answers_handle (m : Message) {c : Command} (hc : commandTable.lookup m.command = some c) :
    Answers env s (registry, m) (accepts env s m.parameters c) (s.handle env registry m.parameters c) := by
  cases c with
  | capab =>
    apply Answers.same rfl
    simp only [handle, parseCAPAB]
    split_ifs <;> simp
  | pass =>
    apply Answers.same rfl
    simp only [handle, parsePASS]
    split_ifs <;> rfl
  | pong =>
    apply Answers.same rfl
    simp only [handle, parsePONG]
    split_ifs <;> rfl
  | quit => exact .same rfl rfl
  | nick =>
    simp only [handle, parseNICK]
    split_ifs with hnone hvalid hfree hping
    · exact .same rfl rfl
    · exact .same rfl rfl
    · exact .same rfl rfl
    · exact .inr ⟨rfl, rfl, .inr (.inl (not_not.1 hvalid))⟩
    · exact .inr ⟨rfl, rfl, .inr (.inl (not_not.1 hvalid))⟩
  | iircn => exact answers_parseIIRCN env registry s m (by simpa [commandTable] using mem_of_lookup hc)
  | server => exact answers_parseSERVER env registry s m
  | service =>
    simp only [handle, parseSERVICE]
    rcases checkRegistration_cases env with ⟨hallowed, htype, hlength, e⟩ | ⟨hno, e⟩
    · rw [e]
      exact .inl ⟨.service, if_pos ⟨hallowed, htype, hlength⟩, htype, hallowed, rfl, .inr rfl⟩
    · exact .same (if_neg hno) e
  | user =>
    simp only [handle, parseUSER]
    rcases checkRegistration_cases env with ⟨hallowed, htype, hlength, e⟩ | ⟨hno, e⟩
    · rw [e]
      exact .inl ⟨.user, if_pos ⟨hallowed, htype, hlength⟩, htype, hallowed, rfl, .inr rfl⟩
    · exact .same (if_neg hno) e

theorem identity_findCompletion : identity (s.findCompletion env).1 = identity s := by
  obtain ⟨hdata, htype⟩ := findCompletion_this env s
  rw [identity, identity, hdata, htype]

theorem identity_parseMessage (m : Message) :
    identity (s.parseMessage env registry m).1 = identity (s.dispatch env registry m) := by
  have hkeep := identity_findCompletion env (s.dispatch env registry m)
  simp only [parseMessage]
  split
  · exact hkeep
  · split
    · exact hkeep
    · exact hkeep

theorem answers_dispatch (input : Registry × Message) :
    Answers env s input (accepted env s input.2) (s.dispatch env input.1 input.2) := by
  unfold dispatch accepted
  cases hc : commandTable.lookup input.2.command with
  | none => exact .same rfl rfl
  | some c => exact answers_handle env input.1 s input.2 hc

/-! ## Runs -/

/-- The type is what the accepted commands gave, once, and the listener allows it. -/
structure Typed (flags : ListenerFlags) (types : List RegistrationType) (p : Protocol) : Prop where
  listener : p.listener = flags
  given : (p.registrationType = .none ∧ types = []) ∨
    (allows flags p.registrationType = true ∧ types = [p.registrationType])

/-- As long as the registration may become a user's, its name is a nickname. -/
def Named (p : Protocol) : Prop :=
  p.registrationType = .none ∨ p.registrationType = .user →
    Client.Name.checkValidity env.maxNickNameLength p.registrantData.name = .noError

variable {s : Session} {listener : ListenerFlags} {types : List RegistrationType} (input : Registry × Message)

theorem typed_dispatch (h : Typed listener types s.this) :
    Typed listener (types ++ (accepted env s input.2).toList) (s.dispatch env input.1 input.2).this := by
  refine ⟨(frame_dispatch env input.1 s input.2).listener.trans h.listener, ?_⟩
  rcases answers_dispatch env s input with ⟨type, hacc, hnone, hallowed, htype, -⟩ | ⟨hacc, htype, -⟩
  · obtain ⟨-, rfl⟩ := h.given.resolve_right (by rw [hnone]; simp [allows])
    rw [hacc, htype, ← h.listener]
    exact .inr ⟨hallowed, rfl⟩
  · rw [hacc, htype, Option.toList_none, List.append_nil]
    exact h.given

theorem named_dispatch (h : Named env s.this) (hm : NoStrayName env s input) :
    Named env (s.dispatch env input.1 input.2).this := by
  intro htype'
  rcases answers_dispatch env s input with ⟨type, -, hnone, -, htype, hname⟩ | ⟨-, htype, hname⟩
  · rw [htype] at htype'
    rcases hname with rfl | hname
    · simp at htype'
    · rw [hname]
      exact h (.inl hnone)
  · rw [htype] at htype'
    rcases hname with hname | hname | hname
    · rw [hname]
      exact h htype'
    · exact hname
    · exact absurd hm hname

/-- The rest of a message leaves type, name and listener as its command left them. -/
theorem step_this (s : Session) :
    (step env s input).this.listener = (s.dispatch env input.1 input.2).this.listener ∧
      (step env s input).this.registrationType = (s.dispatch env input.1 input.2).this.registrationType ∧
      (step env s input).this.registrantData.name = (s.dispatch env input.1 input.2).this.registrantData.name := by
  obtain ⟨htype, hname⟩ := Prod.mk.inj (identity_parseMessage env input.1 s input.2)
  have hlistener := (frame_parseMessage env input.1 s input.2).listener
  exact ⟨hlistener.trans (frame_dispatch env input.1 s input.2).listener.symm, htype, hname⟩

theorem typed_step (h : Typed listener types s.this) :
    Typed listener (types ++ (accepted env s input.2).toList) (step env s input).this := by
  obtain ⟨hlistener, htype, -⟩ := step_this env input s
  obtain ⟨hlistener', hgiven⟩ := typed_dispatch env input h
  refine ⟨hlistener.trans hlistener', ?_⟩
  rw [htype]
  exact hgiven

theorem named_step (h : Named env s.this) (hm : NoStrayName env s input) : Named env (step env s input).this := by
  obtain ⟨-, htype, hname⟩ := step_this env input s
  rw [Named, htype, hname]
  exact named_dispatch env input h hm

theorem acceptedTypes_concat (inputs : List (Registry × Message)) (input : Registry × Message) :
    acceptedTypes env s (inputs ++ [input]) =
      acceptedTypes env s inputs ++ (accepted env (inputs.foldl (step env) s) input.2).toList := by
  induction inputs generalizing s with
  | nil => simp [acceptedTypes]
  | cons first inputs ih => rw [List.cons_append, acceptedTypes, ih, acceptedTypes, List.append_assoc, List.foldl_cons]

theorem typed_run (listener : ListenerFlags) (n rand : Nat) (inputs : List (Registry × Message)) :
    Typed listener (acceptedTypes env (start listener n rand) inputs)
      (inputs.foldl (step env) (start listener n rand)).this := by
  induction inputs using List.reverseRecOn with
  | nil => exact ⟨rfl, .inl ⟨rfl, rfl⟩⟩
  | append_singleton inputs input ih =>
    rw [acceptedTypes_concat, List.foldl_append]
    exact typed_step env input ih

/-- The protocol is created for the registration as the command left it. -/
theorem creation_some {p : Protocol} (h : creation env s input = some p) :
    p = (s.dispatch env input.1 input.2).this ∧ Complete p := by
  obtain ⟨info, hinfo, rfl⟩ := Option.map_eq_some_iff.1 h
  obtain ⟨e, hcomplete⟩ := findCompletion_some env _ hinfo
  exact ⟨by rw [e], by rw [e]; exact hcomplete⟩

/-- In every run without a stray name, whoever is handed over was admitted. -/
theorem creation_admitted (env : Env) (listener : ListenerFlags) (n rand : Nat) (before : List (Registry × Message))
    (input : Registry × Message) (p : Protocol)
    (hrun : Runs.Along (step env) (NoStrayName env) (start listener n rand) (before ++ [input]))
    (hcreate : creation env (before.foldl (step env) (start listener n rand)) input = some p) :
    Admitted env listener (acceptedTypes env (start listener n rand) (before ++ [input])) p := by
  obtain ⟨rfl, hcomplete⟩ := creation_some env input hcreate
  obtain ⟨hbefore, hinput⟩ := Runs.along_concat.1 hrun
  have htyped := typed_dispatch env input (typed_run env listener n rand before)
  have hnamed : Named env (before.foldl (step env) (start listener n rand)).this := by
    apply Runs.run_inv (I := fun s => Named env s.this) (fun s input h hm => named_step env input h hm) ?_ hbefore
    intro _
    exact Client.Name.checkValidity_nil env.maxNickNameLength
  rw [acceptedTypes_concat]
  obtain ⟨hnone, -⟩ | ⟨hallowed, honce⟩ := htyped.given
  · rw [Complete, hnone] at hcomplete
    exact absurd hcomplete id
  · refine ⟨hallowed, honce, hcomplete, ?_⟩
    intro huser
    exact named_dispatch env input hnamed hinput (.inr huser)

/-- A network that is refused for its stamp, and a user who goes on under its name. -/
def strayName : List (Registry × Message) :=
  [({}, ⟨[], octets "NICK", [octets "pickle"]⟩), ({}, ⟨[], octets "PONG", [octets "Z0"]⟩),
   ({}, ⟨[], octets "IIRCN", [octets "1net", octets "*", octets "host", octets "irc-2", octets "0", octets "text"]⟩)]

def simon : Registry × Message :=
  ({}, ⟨[], octets "USER", [octets "pickle", octets "0", octets "host", octets "Simon"]⟩)

/-- Without the network, the user goes by the nickname asked for. -/
theorem creation_admitted_simon :
    ∃ p, creation .sample ((strayName.take 2).foldl (step .sample) (start .all 1 0)) simon = some p ∧
      Admitted .sample .all (acceptedTypes .sample (start .all 1 0) (strayName.take 2 ++ [simon])) p := by
  obtain ⟨p, hp⟩ : ∃ p, creation .sample ((strayName.take 2).foldl (step .sample) (start .all 1 0)) simon = some p :=
    Option.isSome_iff_exists.1 (by decide +kernel)
  refine ⟨p, hp, creation_admitted .sample .all 1 0 (strayName.take 2) simon p ?_ hp⟩
  refine ⟨?_, ?_, ?_, trivial⟩ <;> exact fun h => absurd h.1 (by decide)

/-- The user's protocol is created, though its name is no nickname. -/
theorem not_admitted_strayName :
    ∃ p, creation .sample (strayName.foldl (step .sample) (start .all 1 0)) simon = some p ∧
      p.registrantData.name = wide "1net" ∧
      ¬ Admitted .sample .all (acceptedTypes .sample (start .all 1 0) (strayName ++ [simon])) p := by
  have hname : (creation .sample (strayName.foldl (step .sample) (start .all 1 0)) simon).map
      (fun p => (p.registrationType, p.registrantData.name)) = some (.user, wide "1net") := by decide +kernel
  obtain ⟨p, hp, e⟩ := Option.map_eq_some_iff.1 hname
  obtain ⟨htype, hname⟩ := Prod.mk.inj e
  refine ⟨p, hp, hname, ?_⟩
  intro h
  have hvalid := h.nickname htype
  rw [hname] at hvalid
  exact absurd hvalid (by decide)

end KineIRCd.Irc2Registrar.Admission

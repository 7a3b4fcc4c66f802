import KineIRCd.Irc2UserSteps
/-!
# Frames of the world

Most of what the daemon does leaves its structure alone: who is connected to
what, and who is registered. `Frame` says so, and `WellFormed` is the invariant
of that structure.
-/
namespace KineIRCd

/-- The protocol whose user quit, if the event says so. -/
def Event.quitter : Event → Option Nat
  | .quit a _ _ _ => some a
  | _ => none

namespace World

section
variable (w : World)

theorem connection_modifyConnection (c : Nat) (f : Connection → Connection) (c' : Nat) :
    (w.modifyConnection c f).connection c' = if c' = c then (w.connection c).map f else w.connection c' := by
  simp [modifyConnection, Function.update_apply]

theorem protocol_modifyProtocol (a : Nat) (f : ProtocolBase → ProtocolBase) (a' : Nat) :
    (w.modifyProtocol a f).protocol a' = if a' = a then (w.protocol a).map f else w.protocol a' := by
  simp [modifyProtocol, Function.update_apply]

/-- What is read of every object stays when it stays of the one that changes. -/
theorem modifyProtocol_congr {β : Type} {a : Nat} {g : ProtocolBase → ProtocolBase} (read : Option ProtocolBase → β)
    (h : ∀ p, w.protocol a = some p → read (some (g p)) = read (some p)) (a' : Nat) :
    read ((w.modifyProtocol a g).protocol a') = read (w.protocol a') := by
  rw [protocol_modifyProtocol]
  split_ifs with ha
  · subst ha
    cases hp : w.protocol a' with
    | none => rfl
    | some p => exact h p hp
  · rfl

theorem isConnected_goodbye (c : Nat) : (w.goodbye c).isConnected c = false := by
  rw [goodbye, record, isConnected, connection_modifyConnection, if_pos rfl, Option.any_map]
  cases w.connection c <;> rfl

theorem addUser_snd (maxNickNameLength : Nat) (user : Entity) :
    (w.addUser maxNickNameLength user).2 = { w with
      registry := (w.registry.addUser maxNickNameLength user).2
      serverUserCount := if (w.registry.addUser maxNickNameLength user).1 = .noError then w.serverUserCount.increment
        else w.serverUserCount
      networkUserCount := if (w.registry.addUser maxNickNameLength user).1 = .noError then w.networkUserCount.increment
        else w.networkUserCount } := by
  unfold addUser
  split_ifs with h <;> simp [h]

/-- The nickname of the user at an address. -/
def nickname (a : Nat) : Option WString := ((w.protocol a).bind (·.user?)).map (·.nickname)

/-- Who the user at an address is. -/
def identity (a : Nat) : Option Irc2User.Identity := ((w.protocol a).bind (·.user?)).map Irc2User.User.identity

theorem nickname_of_identity {w : World} {a : Nat} {u : Irc2User.User} (h : w.identity a = some u.identity) :
    w.nickname a = some u.nickname := by
  obtain ⟨u', hu', e⟩ := Option.map_eq_some_iff.1 h
  rw [nickname, hu']
  exact congrArg (fun i => some i.1) e

theorem isSome_protocol_of_nickname {w : World} {a : Nat} {n : WString} (h : w.nickname a = some n) :
    (w.protocol a).isSome = true := by
  rw [nickname] at h
  cases hp : w.protocol a with
  | none => simp [hp] at h
  | some p => rfl

/-- The connection at `c` refers to the protocol at `a`. -/
def HasProtocol (c a : Nat) : Prop := ∃ conn, w.connection c = some conn ∧ conn.protocol = a

/-- Has the user of the protocol at `a` quit? -/
def HasQuit (a : Nat) : Prop := ∃ held n s, .quit a held n s ∈ w.log

theorem hasQuit_iff (a : Nat) : w.HasQuit a ↔ ∃ e ∈ w.log, e.quitter = some a := by
  constructor
  · rintro ⟨held, n, s, h⟩
    exact ⟨_, h, rfl⟩
  · rintro ⟨e, he, hq⟩
    cases e with
    | quit b held n s =>
      obtain rfl : b = a := Option.some_inj.1 hq
      exact ⟨held, n, s, he⟩
    | _ => simp [Event.quitter] at hq

instance (a : Nat) : Decidable (w.HasQuit a) := decidable_of_iff _ (w.hasQuit_iff a).symm

end

/-! ## Frames -/

/-- From `w` to `w'` queues, users' data and counters of octets may change, and
connections may be closed, but the structure stays. -/
structure Frame (w w' : World) : Prop where
  connections : w'.connections = w.connections
  allocated : w'.allocated = w.allocated
  registry : w'.registry = w.registry
  networkUserCount : w'.networkUserCount = w.networkUserCount
  serverUserCount : w'.serverUserCount = w.serverUserCount
  attached : ∀ c, (w'.connection c).map (·.protocol) = (w.connection c).map (·.protocol)
  closed : ∀ c, w.isConnected c = false → w'.isConnected c = false
  owner : ∀ a, (w'.protocol a).map (·.connection) = (w.protocol a).map (·.connection)
  nickname : ∀ a, w'.nickname a = w.nickname a
  quits : ∀ a held n s, .quit a held n s ∈ w'.log ↔ .quit a held n s ∈ w.log

namespace Frame
variable {w w' w'' : World}

theorem refl (w : World) : Frame w w :=
  ⟨rfl, rfl, rfl, rfl, rfl, fun _ => rfl, fun _ h => h, fun _ => rfl, fun _ => rfl, fun _ _ _ _ => .rfl⟩

theorem trans (h : Frame w w') (h' : Frame w' w'') : Frame w w'' where
  connections := h'.connections.trans h.connections
  allocated := h'.allocated.trans h.allocated
  registry := h'.registry.trans h.registry
  networkUserCount := h'.networkUserCount.trans h.networkUserCount
  serverUserCount := h'.serverUserCount.trans h.serverUserCount
  attached c := (h'.attached c).trans (h.attached c)
  closed c hc := h'.closed c (h.closed c hc)
  owner a := (h'.owner a).trans (h.owner a)
  nickname a := (h'.nickname a).trans (h.nickname a)
  quits a held n s := (h'.quits a held n s).trans (h.quits a held n s)

/-- What only touches fields that the structure does not mention. -/
theorem of_eq (hconnections : w'.connections = w.connections) (hconnection : w'.connection = w.connection)
    (hprotocol : w'.protocol = w.protocol) (hallocated : w'.allocated = w.allocated) (hregistry : w'.registry = w.registry)
    (hnetwork : w'.networkUserCount = w.networkUserCount) (hserver : w'.serverUserCount = w.serverUserCount)
    (hquits : ∀ a held n s, Event.quit a held n s ∈ w'.log ↔ .quit a held n s ∈ w.log) : Frame w w' where
  connections := hconnections
  allocated := hallocated
  registry := hregistry
  networkUserCount := hnetwork
  serverUserCount := hserver
  attached c := by rw [hconnection]
  closed c := by rw [isConnected, isConnected, hconnection]; exact id
  owner a := by rw [hprotocol]
  nickname a := by rw [World.nickname, World.nickname, hprotocol]
  quits := hquits

theorem setTime (w : World) (time : Nat) : Frame w { w with time } :=
  of_eq rfl rfl rfl rfl rfl rfl rfl fun _ _ _ _ => .rfl

theorem setRand (w : World) (rand : Nat) : Frame w { w with rand } :=
  of_eq rfl rfl rfl rfl rfl rfl rfl fun _ _ _ _ => .rfl

theorem setOutFDSET (w : World) (outFDSET : Finset Nat) : Frame w { w with outFDSET } :=
  of_eq rfl rfl rfl rfl rfl rfl rfl fun _ _ _ _ => .rfl

theorem record (w : World) {e : Event} (he : ∀ a held n s, e ≠ .quit a held n s) : Frame w (w.record e) := by
  refine of_eq rfl rfl rfl rfl rfl rfl rfl ?_
  intro a held n s
  refine ⟨?_, List.mem_append_left _⟩
  intro h
  rcases List.mem_append.1 h with h | h
  · exact h
  · exact absurd (List.mem_singleton.1 h).symm (he a held n s)

/-- A change of a connection that keeps its protocol and does not reconnect it. -/
theorem modifyConnection (w : World) (c : Nat) {f : Connection → Connection} (hprotocol : ∀ x, (f x).protocol = x.protocol)
    (hclosed : ∀ x, x.connected = false → (f x).connected = false) : Frame w (w.modifyConnection c f) := by
  refine ⟨rfl, rfl, rfl, rfl, rfl, ?_, ?_, fun _ => rfl, fun _ => rfl, fun _ _ _ _ => .rfl⟩
  · intro c'
    rw [connection_modifyConnection]
    split_ifs with hc
    · subst hc
      rw [Option.map_map]
      exact congrArg (Option.map · _) (funext hprotocol)
    · rfl
  · intro c' h
    rw [isConnected, connection_modifyConnection]
    split_ifs with hc
    · subst hc
      rw [isConnected] at h
      cases hx : w.connection c' with
      | none => rfl
      | some x =>
        rw [hx] at h
        exact hclosed x h
    · exact h

/-- A change of a protocol object that keeps its connection and its user's name. -/
theorem modifyProtocol {a : Nat} {g : ProtocolBase → ProtocolBase}
    (h : ∀ p, w.protocol a = some p → (g p).connection = p.connection ∧
      (g p).user?.map (·.nickname) = p.user?.map (·.nickname)) : Frame w (w.modifyProtocol a g) := by
  refine ⟨rfl, rfl, rfl, rfl, rfl, fun _ => rfl, fun _ h => h, ?_, ?_, fun _ _ _ _ => .rfl⟩
  · exact w.modifyProtocol_congr (·.map (·.connection)) fun p hp => congrArg some (h p hp).1
  · exact w.modifyProtocol_congr (fun o => (o.bind (·.user?)).map (·.nickname)) fun p hp => (h p hp).2

theorem goodbye (w : World) (c : Nat) : Frame w (w.goodbye c) :=
  (modifyConnection w c (f := fun conn => { conn with connected := false }) (fun _ => rfl) (fun _ _ => rfl)).trans
    (record _ (by simp))

theorem setInputQueue (w : World) (a : Nat) (q : Octets) : Frame w (w.modifyProtocol a (·.setInputQueue q)) := by
  apply modifyProtocol
  intro p _
  obtain ⟨c, r | u⟩ := p <;> exact ⟨rfl, rfl⟩

theorem setOutputQueue (w : World) (a : Nat) (q : Octets) : Frame w (w.modifyProtocol a (·.setOutputQueue q)) := by
  refine modifyProtocol fun p _ => ?_
  obtain ⟨c, r | u⟩ := p <;> exact ⟨rfl, rfl⟩

theorem evolve {a : Nat} {g : ProtocolBase → ProtocolBase} (h : ∀ p, w.protocol a = some p → p.Evolves (g p)) :
    Frame w (w.modifyProtocol a g) :=
  modifyProtocol fun p hp => ⟨(h p hp).connection, (h p hp).nickname⟩

theorem outputLine (w : World) (a : Nat) (line : Octets) : Frame w (w.outputLine a line) :=
  evolve fun p _ => .outputLine p line

theorem deliver (w : World) (c receiver : Nat) (line : Octets) : Frame w (w.deliver c receiver line) :=
  (outputLine w receiver line).trans (record _ (by simp))

theorem receivePrivate (site : Irc2User.Site) (self : Irc2User.Self) (commandName : Octets) (receiver : Nat)
    (message : WString) (w : World) : Frame w (Irc2User.receivePrivate site self commandName receiver message w) := by
  unfold Irc2User.receivePrivate
  split
  · exact deliver w _ receiver _
  · exact refl w

/-- Once the user has quit, a farewell is framed. -/
theorem leave (self : Irc2User.Self) (error : Octets) (w : World) :
    Frame (w.quit ⟨self.this, self.user.nickname⟩) (Irc2User.leave self error w) :=
  ((outputLine _ _ _).trans (goodbye _ _)).trans (goodbye _ _)

end Frame

section
variable (w : World)

theorem identity_modifyProtocol {a : Nat} {g : ProtocolBase → ProtocolBase}
    (h : ∀ p, (g p).user?.map Irc2User.User.identity = p.user?.map Irc2User.User.identity) (a' : Nat) :
    (w.modifyProtocol a g).identity a' = w.identity a' :=
  w.modifyProtocol_congr (fun o => (o.bind (·.user?)).map Irc2User.User.identity) (fun p _ => h p) a'

theorem identity_outputLine (a : Nat) (line : Octets) (a' : Nat) : (w.outputLine a line).identity a' = w.identity a' := by
  refine w.identity_modifyProtocol (fun p => ?_) a'
  obtain ⟨c, r | u⟩ := p <;> rfl

theorem identity_modifyUser (a : Nat) {f : Irc2User.User → Irc2User.User} (hf : ∀ u, (f u).identity = u.identity) (a' : Nat) :
    (w.modifyProtocol a (·.modifyUser f)).identity a' = w.identity a' := by
  refine w.identity_modifyProtocol (fun p => ?_) a'
  obtain ⟨c, r | u⟩ := p
  · rfl
  · exact congrArg some (hf u.user)

theorem identity_receivePrivate {site : Irc2User.Site} {self : Irc2User.Self} (commandName : Octets) (receiver : Nat)
    (message : WString) (a : Nat) :
    (Irc2User.receivePrivate site self commandName receiver message w).identity a = w.identity a := by
  unfold Irc2User.receivePrivate
  split
  · exact w.identity_outputLine receiver _ a
  · rfl

end

/-! ## The structure -/

/-- Connections and protocol objects are where their addresses say, and were
allocated; each connection's protocol was made for it. -/
structure WellFormed (w : World) : Prop where
  nodup : w.connections.Nodup
  live : ∀ c, c ∈ w.connections ↔ (w.connection c).isSome = true
  owner : ∀ c a, w.HasProtocol c a → (w.protocol a).map (·.connection) = some c
  connection_lt : ∀ c, (w.connection c).isSome = true → c < w.allocated
  protocol_lt : ∀ a, (w.protocol a).isSome = true → a < w.allocated

theorem hasProtocol_iff {w : World} {c a : Nat} : w.HasProtocol c a ↔ (w.connection c).map (·.protocol) = some a := by
  simp [HasProtocol]

theorem hasProtocol_unique {w : World} {c a b : Nat} (ha : w.HasProtocol c a) (hb : w.HasProtocol c b) : a = b :=
  Option.some_inj.1 ((hasProtocol_iff.1 ha).symm.trans (hasProtocol_iff.1 hb))

theorem WellFormed.hasProtocol_lt {w : World} (hw : w.WellFormed) {c a : Nat} (h : w.HasProtocol c a) : a < w.allocated :=
  hw.protocol_lt a (by simpa using congrArg Option.isSome (hw.owner c a h))

/-- An object is the protocol of one connection at most. -/
theorem WellFormed.connection_unique {w : World} (hw : w.WellFormed) {c c' a : Nat} (h : w.HasProtocol c a)
    (h' : w.HasProtocol c' a) : c' = c :=
  Option.some_inj.1 ((hw.owner c' a h').symm.trans (hw.owner c a h))

theorem Frame.hasProtocol_iff {w w' : World} (h : Frame w w') {c a : Nat} : w'.HasProtocol c a ↔ w.HasProtocol c a := by
  rw [World.hasProtocol_iff, World.hasProtocol_iff, h.attached c]

theorem Frame.hasQuit_iff {w w' : World} (h : Frame w w') {a : Nat} : w'.HasQuit a ↔ w.HasQuit a := by
  simp [HasQuit, h.quits]

theorem Frame.isSome_connection {w w' : World} (h : Frame w w') (c : Nat) :
    (w'.connection c).isSome = (w.connection c).isSome := by
  simpa using congrArg Option.isSome (h.attached c)

theorem Frame.isSome_protocol {w w' : World} (h : Frame w w') (a : Nat) :
    (w'.protocol a).isSome = (w.protocol a).isSome := by
  simpa using congrArg Option.isSome (h.owner a)

theorem WellFormed.frame {w w' : World} (hw : w.WellFormed) (h : Frame w w') : w'.WellFormed where
  nodup := h.connections ▸ hw.nodup
  live c := by rw [h.connections, h.isSome_connection]; exact hw.live c
  owner c a ha := by rw [h.owner]; exact hw.owner c a (h.hasProtocol_iff.1 ha)
  connection_lt c hc := by rw [h.allocated]; exact hw.connection_lt c (h.isSome_connection c ▸ hc)
  protocol_lt a ha := by rw [h.allocated]; exact hw.protocol_lt a (h.isSome_protocol a ▸ ha)

end World

end KineIRCd

import KineIRCd.DaemonSteps
/-!
# Times

A connection remembers when it last spoke, and a user since when they are away
and when they were last active. The daemon reports such a time as the seconds
passed since, so none of them may lie ahead of its clock.
-/
namespace KineIRCd

open LibIRC2
open Irc2User (Site Self User)

/-- The user's times are not ahead of `time`. -/
def Irc2User.User.InPast (time : Nat) (u : User) : Prop := u.awaySince ≤ time ∧ u.lastAwake ≤ time

theorem Irc2User.Amends.inPast {time : Nat} {f : User → User} (hf : Irc2User.Amends time f) {u : User} (h : u.InPast time) :
    (f u).InPast time := by
  obtain ⟨haway, hawake⟩ := h
  refine ⟨?_, ?_⟩
  · rcases hf.awaySince u with e | e <;> omega
  · rcases hf.lastAwake u with e | e <;> omega

/-- The times of the object's user, if it is a user's, are not ahead of `time`. -/
def ProtocolBase.InPast (time : Nat) (p : ProtocolBase) : Prop := ∀ u, p.user? = some u → u.InPast time

namespace World

/-- No time that the daemon remembers is ahead of its clock. -/
structure InPast (w : World) : Prop where
  lastSpoke : ∀ c conn, w.connection c = some conn → conn.lastSpoke ≤ w.time
  user : ∀ a p, w.protocol a = some p → p.InPast w.time

namespace InPast
variable {w w' : World}

theorem of_eq (h : w.InPast) (hconnection : w'.connection = w.connection) (hprotocol : w'.protocol = w.protocol)
    (htime : w.time ≤ w'.time) : w'.InPast where
  lastSpoke c conn hconn := (h.lastSpoke c conn (hconnection ▸ hconn)).trans htime
  user a p hp u hu := by
    obtain ⟨haway, hawake⟩ := h.user a p (hprotocol ▸ hp) u hu
    exact ⟨haway.trans htime, hawake.trans htime⟩

theorem modifyProtocol (h : w.InPast) (a : Nat) {g : ProtocolBase → ProtocolBase}
    (hg : ∀ p, w.protocol a = some p → p.InPast w.time → (g p).InPast w.time) : (w.modifyProtocol a g).InPast where
  lastSpoke := h.lastSpoke
  user b p hp := by
    rw [World.protocol_modifyProtocol] at hp
    split_ifs at hp with hb
    · subst hb
      obtain ⟨q, hq, rfl⟩ := Option.map_eq_some_iff.1 hp
      exact hg q hq (h.user b q hq)
    · exact h.user b p hp

/-- What the object becomes has the user it had. -/
theorem keepUser (h : w.InPast) (a : Nat) {g : ProtocolBase → ProtocolBase} (hg : ∀ p, (g p).user? = p.user?) :
    (w.modifyProtocol a g).InPast :=
  h.modifyProtocol a fun p _ hp u hu => hp u (hg p ▸ hu)

theorem outputLine (h : w.InPast) (a : Nat) (line : Octets) : (w.outputLine a line).InPast := by
  refine h.keepUser a fun p => ?_
  obtain ⟨c, r | u⟩ := p <;> rfl

theorem modifyUser (h : w.InPast) (a : Nat) {f : User → User} (hf : ∀ u, u.InPast w.time → (f u).InPast w.time) :
    (w.modifyProtocol a (·.modifyUser f)).InPast := by
  refine h.modifyProtocol a fun p _ hp u hu => ?_
  obtain ⟨c, r | v⟩ := p
  · simp [ProtocolBase.modifyUser, ProtocolBase.user?] at hu
  · obtain rfl := Option.some_inj.1 hu
    exact hf v.user (hp v.user rfl)

theorem modifyConnection (h : w.InPast) (c : Nat) {f : Connection → Connection}
    (hf : ∀ conn, conn.lastSpoke ≤ w.time → (f conn).lastSpoke ≤ w.time) : (w.modifyConnection c f).InPast where
  lastSpoke c' conn hconn := by
    rw [World.connection_modifyConnection] at hconn
    split_ifs at hconn with hc
    · obtain ⟨conn', hconn', rfl⟩ := Option.map_eq_some_iff.1 hconn
      exact hf conn' (h.lastSpoke c conn' hconn')
    · exact h.lastSpoke c' conn hconn
  user := h.user

theorem goodbye (h : w.InPast) (c : Nat) : (w.goodbye c).InPast :=
  (h.modifyConnection c (f := fun conn => { conn with connected := false }) fun _ hconn => hconn).of_eq rfl rfl le_rfl

theorem deliver (h : w.InPast) (c receiver : Nat) (line : Octets) : (w.deliver c receiver line).InPast :=
  (h.outputLine receiver line).of_eq rfl rfl le_rfl

theorem allocate (h : w.InPast) {p : ProtocolBase} (hp : p.InPast w.time) : (w.allocate p).InPast where
  lastSpoke := h.lastSpoke
  user a q hq := by
    simp only [World.allocate, Function.update_apply] at hq
    split_ifs at hq
    · obtain rfl := Option.some_inj.1 hq
      exact hp
    · exact h.user a q hq

end InPast

end World

namespace Daemon

variable (site : Site)

theorem inPast_welcome (self : Self) {w : World} (h : w.InPast) : (welcome site self w).InPast := by
  have hreport : ∀ (commands : List Octets) (w : World), w.InPast →
      (commands.foldl (fun w command => Irc2User.report site self command [] w) w).InPast := by
    intro commands w hw
    refine List.foldlRecOn (motive := World.InPast) _ _ hw fun w hw command _ => ?_
    exact List.foldlRecOn (motive := World.InPast) _ _ hw fun w hw line _ => hw.outputLine _ line
  exact hreport _ _ ((((h.outputLine _ _).outputLine _ _).outputLine _ _).outputLine _ _)

theorem inPast_construct (self : Self) {w : World} (h : w.InPast) (hself : self.user.InPast w.time) :
    (construct site self w).InPast := by
  have hadded : (w.addUser site.maxNickNameLength ⟨self.this, self.user.nickname⟩).2.InPast := by
    rw [World.addUser_snd]
    exact h.of_eq rfl rfl le_rfl
  have htime : (w.addUser site.maxNickNameLength ⟨self.this, self.user.nickname⟩).2.time = w.time := by
    rw [World.addUser_snd]
  simp only [construct]
  split_ifs
  · exact inPast_welcome site _ (hadded.modifyUser self.this fun _ _ => htime ▸ hself)
  · exact hadded

/-- A new user is active now, and has never been away. -/
theorem inPast_createProtocol (registrar connection : Nat) (registrant : Irc2Registrar.Registrant)
    (inputQueue outputQueue : Octets) {w : World} (h : w.InPast) :
    (createProtocol site registrar connection registrant inputQueue outputQueue w).InPast := by
  simp only [createProtocol]
  generalize hu : Irc2User.User.mk _ _ _ _ _ _ _ _ = user
  have huser : user.InPast w.time := by
    rw [← hu]
    exact ⟨Nat.zero_le _, Nat.le_refl _⟩
  have hrecord : (w.record (createEvent site registrar connection registrant.name inputQueue w)).InPast :=
    h.of_eq rfl rfl le_rfl
  have hallocate := hrecord.allocate (p := ⟨connection, .user { inputQueue, outputQueue, user }⟩)
    fun u hu => Option.some_inj.1 hu ▸ huser
  exact (inPast_construct site ⟨w.allocated, connection, user⟩ hallocate huser).modifyConnection _ fun _ hconn => hconn

theorem keepsEach_inPast (c this : Nat) (goodbyeBeforeChunk : Bool) :
    KeepsEach site c this goodbyeBeforeChunk (fun _ => true) World.InPast where
  outputLine line _ _ hP := hP.outputLine this line
  modifyUser _ _ hf _ hP := hP.modifyUser this fun _ hu => hf.inPast hu
  registrar r r' w _ _ hP _ _ := hP.modifyProtocol this fun p _ _ u hu => by simp [ProtocolBase.user?] at hu
  rand _ _ _ hP := hP.of_eq rfl rfl le_rfl
  goodbye _ _ hP _ := hP.goodbye c
  receivePrivate self commandName receiver message w _ _ _ _ _ hP _ := by
    unfold Irc2User.receivePrivate
    split
    · exact hP.deliver _ _ _
    · exact hP
  leave self error w _ _ _ _ hP _ := by
    have hquit : (w.quit ⟨self.this, self.user.nickname⟩).InPast := hP.of_eq rfl rfl le_rfl
    exact ((hquit.outputLine _ _).goodbye _).goodbye _
  create r w _ _ hP _ := inPast_createProtocol site this c _ _ _ hP
  setInputQueue q w _ hP := by
    refine hP.keepUser this fun p => ?_
    obtain ⟨c, r | u⟩ := p <;> rfl
  line _ _ _ _ _ _ _ hP _ := hP.of_eq rfl rfl le_rfl

theorem inPast_handleInput (c : Nat) (read : Option Octets) {w : World} (hw : w.WellFormed) (h : w.InPast) :
    (handleInput site c read w).2.InPast := by
  refine handleInput_keepsEach site (G := fun _ => true) (M := fun _ => World.InPast) hw h (fun _ _ => rfl) ?_ ?_ ?_
  · intro conn _ _
    exact ⟨h, keepsEach_inPast site c conn.protocol _⟩
  · intro _ line hw
    exact (hw.modifyConnection c (f := fun conn => { conn with
      receivedBytes := conn.receivedBytes + UInt64.ofNat line.length, lastSpoke := w.time }) fun _ _ => le_rfl).of_eq
      rfl rfl le_rfl
  · intro _ w' _ hw'
    obtain ⟨s, e⟩ := wake_spec c w'
    rw [e]
    exact hw'.of_eq rfl rfl le_rfl

theorem inPast_newConnection (flags : ListenerFlags) (accepted : Option Accepted) {w : World} (h : w.InPast) :
    (newConnection flags accepted w).InPast := by
  cases accepted with
  | none => exact h
  | some socket =>
    refine ⟨fun c conn hconn => ?_, fun a p hp => ?_⟩
    · simp only [newConnection, Function.update_apply] at hconn
      split_ifs at hconn
      · obtain rfl := Option.some_inj.1 hconn
        exact le_rfl
      · exact h.lastSpoke c conn hconn
    · simp only [newConnection, Function.update_apply] at hp
      split_ifs at hp
      · obtain rfl := Option.some_inj.1 hp
        intro u hu
        simp [ProtocolBase.user?] at hu
      · exact h.user a p hp

theorem inPast_sendOutput (c written : Nat) {w : World} (h : w.InPast) : (sendOutput site c written w).InPast := by
  rcases sendOutput_spec site c written w with e | ⟨a, q, n, s, e⟩
  · rw [e]
    exact h
  · have hqueue : (w.modifyProtocol a (·.setOutputQueue q)).InPast := by
      refine h.keepUser a fun p => ?_
      obtain ⟨c, r | u⟩ := p <;> rfl
    rw [e]
    exact (hqueue.modifyConnection c (f := fun conn => { conn with sentBytes := n }) fun _ hconn => hconn).of_eq
      rfl rfl le_rfl

theorem inPast_destroy (c : Nat) {w : World} (h : w.InPast) : (destroy c w).InPast := by
  unfold destroy
  cases w.connection c with
  | none => exact h
  | some conn =>
    refine ⟨fun c' conn' hconn' => ?_, fun a p hp => ?_⟩
    · simp only [Function.update_apply] at hconn'
      split_ifs at hconn'
      exact h.lastSpoke c' conn' hconn'
    · simp only [Function.update_apply] at hp
      split_ifs at hp
      exact h.user a p hp

/-- The step does not set the clock back. -/
def Action.Forward (w : World) : Action → Prop
  | .setTime t => w.time ≤ t
  | _ => True

theorem inPast_act (x : Action) {w : World} (hw : w.WellFormed) (h : w.InPast) (hx : x.Forward w) : (act site w x).InPast := by
  cases x with
  | setTime t => exact h.of_eq rfl rfl hx
  | newConnection flags accepted => exact inPast_newConnection flags accepted h
  | handleInput c read => exact inPast_handleInput site c read hw h
  | sendOutput c written => exact inPast_sendOutput site c written h
  | destroy c => exact inPast_destroy c h

theorem wellFormed_inPast {actions : List Action} (hclock : Runs.Along (act site) Action.Forward (start site) actions) :
    (reach site actions).WellFormed ∧ (reach site actions).InPast := by
  refine Runs.run_inv (I := fun w : World => w.WellFormed ∧ w.InPast) ?_ ⟨wellFormed_start site, ?_⟩ hclock
  · rintro w x ⟨hw, h⟩ hx
    exact ⟨wellFormed_act site hw x, inPast_act site x hw h hx⟩
  · obtain ⟨s, n, e⟩ := start_spec site
    rw [e]
    exact ⟨by simp, by simp⟩

/-- With a clock that is never set back, no time that the daemon remembers lies
ahead of it, in any state of a run. -/
theorem times_inPast (site : Site) (actions : List Action)
    (hclock : Runs.Along (act site) Action.Forward (start site) actions) : (reach site actions).InPast :=
  (wellFormed_inPast site hclock).2

theorem times_inPast_away : (reach sampleSite ([.setTime 5] ++ [accepts 5,
    types 0 "NICK pickle\r\nPONG Z0\r\nUSER user 0 host :name\r\n", .setTime 9, types 0 "AWAY :gone\r\n"])).InPast := by
  refine times_inPast sampleSite _ ?_
  simp only [Runs.along_cons, List.cons_append, List.nil_append, Action.Forward, accepts, types, true_and]
  exact ⟨by decide +kernel, by decide +kernel, trivial⟩

end Daemon

end KineIRCd

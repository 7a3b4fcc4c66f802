import KineIRCd.DaemonSteps
import KineIRCd.Framing
/-!
# Who reads what

Each protocol object has its own input queue, and reads only while it handles a
chunk of its connection. `Quiet` is what leaves everybody's input alone, and
`Reads` compares the object that handles a chunk with a recorder.
-/
namespace KineIRCd

/-- The line the object at `a` parsed, if the event says so. -/
def Event.parsedBy (a : Nat) : Event → Option Octets
  | .line b text _ _ _ _ => if b = a then some text else none
  | _ => none

namespace World

/-- What the object at an address has buffered. -/
def queue (w : World) (a : Nat) : Octets := ((w.protocol a).map (·.inputQueue)).getD []

/-- The lines the object at an address has parsed. -/
def parsedBy (w : World) (a : Nat) : List Octets := w.log.filterMap (·.parsedBy a)

instance (w : World) (c a : Nat) : Decidable (w.HasProtocol c a) := decidable_of_iff _ hasProtocol_iff.symm

theorem parsedBy_record (w : World) (e : Event) (a : Nat) :
    (w.record e).parsedBy a = w.parsedBy a ++ (e.parsedBy a).toList := by
  simp only [parsedBy, record, List.filterMap_append, List.filterMap_cons, List.filterMap_nil]
  cases e.parsedBy a <;> rfl

/-- From `w` to `w'` nobody reads, and every object stays where it is. -/
structure Quiet (w w' : World) : Prop where
  allocated : w'.allocated = w.allocated
  attached : ∀ c, (w'.connection c).map (·.protocol) = (w.connection c).map (·.protocol)
  nickname : ∀ a, w'.nickname a = w.nickname a
  queue : ∀ a, w'.queue a = w.queue a
  parsedBy : ∀ a, w'.parsedBy a = w.parsedBy a

namespace Quiet
variable {w w' w'' : World}

theorem trans (h : Quiet w w') (h' : Quiet w' w'') : Quiet w w'' where
  allocated := h'.allocated.trans h.allocated
  attached c := (h'.attached c).trans (h.attached c)
  nickname a := (h'.nickname a).trans (h.nickname a)
  queue a := (h'.queue a).trans (h.queue a)
  parsedBy a := (h'.parsedBy a).trans (h.parsedBy a)

theorem of_eq (hallocated : w'.allocated = w.allocated) (hconnection : w'.connection = w.connection)
    (hprotocol : w'.protocol = w.protocol) (hparsed : ∀ a, w'.parsedBy a = w.parsedBy a) : Quiet w w' where
  allocated := hallocated
  attached c := by rw [hconnection]
  nickname a := by rw [World.nickname, World.nickname, hprotocol]
  queue a := by rw [World.queue, World.queue, hprotocol]
  parsedBy := hparsed

theorem refl (w : World) : Quiet w w := of_eq rfl rfl rfl fun _ => rfl

theorem record (w : World) {e : Event} (he : ∀ a, e.parsedBy a = none) : Quiet w (w.record e) :=
  of_eq rfl rfl rfl fun a => by rw [parsedBy_record, he, Option.toList_none, List.append_nil]

theorem modifyConnection (w : World) (c : Nat) {f : Connection → Connection} (hprotocol : ∀ x, (f x).protocol = x.protocol)
    (hclosed : ∀ x, x.connected = false → (f x).connected = false) : Quiet w (w.modifyConnection c f) where
  allocated := rfl
  attached := (Frame.modifyConnection w c hprotocol hclosed).attached
  nickname _ := rfl
  queue _ := rfl
  parsedBy _ := rfl

/-- A change of an object that keeps its input queue. -/
theorem modifyProtocol {a : Nat} {g : ProtocolBase → ProtocolBase}
    (h : ∀ p, w.protocol a = some p → (g p).inputQueue = p.inputQueue ∧
      (g p).user?.map (·.nickname) = p.user?.map (·.nickname)) : Quiet w (w.modifyProtocol a g) := by
  refine ⟨rfl, fun _ => rfl, ?_, ?_, fun _ => rfl⟩
  · exact w.modifyProtocol_congr (fun o => (o.bind (·.user?)).map (·.nickname)) fun p hp => (h p hp).2
  · exact w.modifyProtocol_congr (fun o => (o.map ProtocolBase.inputQueue).getD []) fun p hp => (h p hp).1

theorem evolve {a : Nat} {g : ProtocolBase → ProtocolBase} (h : ∀ p, w.protocol a = some p → p.Evolves (g p)) :
    Quiet w (w.modifyProtocol a g) :=
  modifyProtocol fun p hp => ⟨(h p hp).inputQueue, (h p hp).nickname⟩

theorem setOutputQueue (w : World) (a : Nat) (q : Octets) : Quiet w (w.modifyProtocol a (·.setOutputQueue q)) := by
  apply modifyProtocol
  intro p _
  obtain ⟨c, r | u⟩ := p <;> exact ⟨rfl, rfl⟩

theorem goodbye (w : World) (c : Nat) : Quiet w (w.goodbye c) :=
  (modifyConnection w c (f := fun conn => { conn with connected := false }) (fun _ => rfl) (fun _ _ => rfl)).trans
    (record _ fun _ => rfl)

theorem outputLine (w : World) (a : Nat) (line : Octets) : Quiet w (w.outputLine a line) :=
  evolve fun p _ => .outputLine p line

theorem deliver (w : World) (c receiver : Nat) (line : Octets) : Quiet w (w.deliver c receiver line) :=
  (outputLine w receiver line).trans (record _ fun _ => rfl)

theorem quit (w : World) (user : Entity) : Quiet w (w.quit user) := by
  refine of_eq rfl rfl rfl ?_
  intro a
  rw [World.quit, parsedBy_record]
  exact List.append_nil _

theorem leave (self : Irc2User.Self) (error : Octets) (w : World) : Quiet w (Irc2User.leave self error w) :=
  (((quit w _).trans (outputLine _ _ _)).trans (goodbye _ _)).trans (goodbye _ _)

theorem hasProtocol_iff (h : Quiet w w') {c a : Nat} : w'.HasProtocol c a ↔ w.HasProtocol c a := by
  rw [World.hasProtocol_iff, World.hasProtocol_iff, h.attached c]

theorem isSome_connection (h : Quiet w w') (c : Nat) : (w'.connection c).isSome = (w.connection c).isSome := by
  simpa using congrArg Option.isSome (h.attached c)

end Quiet

/-- The object at `a` reads nothing from `w` to `w'`, and stays where it is. -/
structure Untouched (a : Nat) (w w' : World) : Prop where
  allocated : w.allocated ≤ w'.allocated
  attached : ∀ c, w'.HasProtocol c a ↔ w.HasProtocol c a
  nickname : w'.nickname a = w.nickname a
  queue : w'.queue a = w.queue a
  parsedBy : w'.parsedBy a = w.parsedBy a

namespace Untouched
variable {a : Nat} {w w' w'' : World}

theorem refl (a : Nat) (w : World) : Untouched a w w := ⟨Nat.le_refl _, fun _ => .rfl, rfl, rfl, rfl⟩

theorem trans (h : Untouched a w w') (h' : Untouched a w' w'') : Untouched a w w'' where
  allocated := h.allocated.trans h'.allocated
  attached c := (h'.attached c).trans (h.attached c)
  nickname := h'.nickname.trans h.nickname
  queue := h'.queue.trans h.queue
  parsedBy := h'.parsedBy.trans h.parsedBy

theorem record (w : World) {e : Event} (he : e.parsedBy a = none) : Untouched a w (w.record e) where
  allocated := Nat.le_refl _
  attached _ := .rfl
  nickname := rfl
  queue := rfl
  parsedBy := by rw [parsedBy_record, he, Option.toList_none, List.append_nil]

theorem of_quiet (h : Quiet w w') : Untouched a w w' :=
  ⟨Nat.le_of_eq h.allocated.symm, fun _ => h.hasProtocol_iff, h.nickname a, h.queue a, h.parsedBy a⟩

end Untouched

theorem queue_setInputQueue (w : World) (a : Nat) (q : Octets) (a' : Nat) :
    (w.modifyProtocol a (·.setInputQueue q)).queue a' = if a' = a ∧ (w.protocol a).isSome then q else w.queue a' := by
  rw [queue, protocol_modifyProtocol, queue]
  by_cases ha : a' = a
  · subst ha
    cases hp : w.protocol a' with
    | none => simp
    | some p => obtain ⟨c, r | u⟩ := p <;> simp [ProtocolBase.setInputQueue, ProtocolBase.inputQueue]
  · simp [ha]

/-- Another object's input queue is nobody else's. -/
theorem Untouched.setInputQueue {a a' : Nat} (w : World) (h : a' ≠ a) (q : Octets) :
    Untouched a' w (w.modifyProtocol a (·.setInputQueue q)) where
  allocated := Nat.le_refl _
  attached _ := .rfl
  nickname := (Frame.setInputQueue w a q).nickname a'
  queue := by rw [queue_setInputQueue, if_neg (fun h' => h h'.1)]
  parsedBy := rfl

end World

namespace Daemon

open Framing
open Irc2User (Site Self)

variable (site : Site)

/-! ## A message -/

section
variable {c this a : Nat} {w w' : World}

theorem createProtocol_parsedBy (registrar : Nat) (registrant : Irc2Registrar.Registrant) (inputQueue outputQueue : Octets)
    (a : Nat) : (createProtocol site registrar c registrant inputQueue outputQueue w).parsedBy a = w.parsedBy a := by
  rw [World.parsedBy, createProtocol_log, List.filterMap_append, World.parsedBy]
  exact List.append_nil _

theorem createProtocol_queue (registrar : Nat) (registrant : Irc2Registrar.Registrant) (inputQueue outputQueue : Octets)
    (a : Nat) : (createProtocol site registrar c registrant inputQueue outputQueue w).queue a =
      if a = w.allocated then inputQueue else w.queue a := by
  obtain ⟨p, hp, e⟩ := createProtocol_spec site registrar c registrant inputQueue outputQueue w
  rw [e, World.addUser_snd, World.queue]
  simp only [Function.update_apply]
  split_ifs
  · exact hp.inputQueue
  · rfl

/-- A hand-over is nothing to an object that is there already, unless it is the one replaced. -/
theorem untouched_createProtocol (registrar : Nat) (registrant : Irc2Registrar.Registrant)
    (inputQueue outputQueue : Octets) (hlive : (w.connection c).isSome = true) (ha : a < w.allocated)
    (hc : ¬ w.HasProtocol c a) :
    World.Untouched a w (createProtocol site registrar c registrant inputQueue outputQueue w) where
  allocated := by rw [createProtocol_allocated]; omega
  attached c' := by
    rw [createProtocol_hasProtocol site _ _ _ _ hlive]
    split_ifs with h
    · subst h
      exact iff_of_false (by omega) hc
    · rfl
  nickname := by rw [createProtocol_nickname, if_neg (by omega)]
  queue := by rw [createProtocol_queue, if_neg (by omega)]
  parsedBy := createProtocol_parsedBy site _ _ _ _ a

/-- Of the steps of a message, only a hand-over changes who reads what. -/
theorem KeepsMessage.of_quiet {P : World → Prop} (hquiet : ∀ w w', Handling c this w → P w → w.Quiet w' → P w')
    (hcreate : ∀ (r : Irc2Registrar.Protocol) w, w.protocol this = some ⟨c, .registrar r⟩ → Handling c this w → P w →
      P (createProtocol site this c r.registrantData r.inputQueue r.outputQueue w)) :
    KeepsMessage site c this (fun _ => true) P where
  own _ w hw hP hg := hquiet w _ hw hP (.evolve hg)
  rand _ w hw hP := hquiet w _ hw hP (.of_eq rfl rfl rfl fun _ => rfl)
  goodbye w hw hP _ := hquiet w _ hw hP (.goodbye w c)
  deliver receiver line w hw hP _ := hquiet w _ hw hP (.deliver w c receiver line)
  leave self error w _ _ _ hw hP _ := hquiet w _ hw hP (.leave self error w)
  create r w hr hw hP _ := hcreate r w hr hw hP

variable {site}

/-- A line is a message, if it can be parsed, and the record of it. -/
theorem KeepsMessage.parseLine {P : World → Prop} (h : KeepsMessage site c this (fun _ => true) P)
    (hw : Handling c this w) (hP : P w) (goodbyeBeforeChunk : Bool) (line : Octets) :
    ∃ w', Handling c this w' ∧ P w' ∧ ∃ goodbyeBefore hasUse acted,
      parseLine site this goodbyeBeforeChunk line w =
        w'.record (.line this line goodbyeBeforeChunk goodbyeBefore hasUse acted) := by
  obtain ⟨p, hp, -⟩ := Option.map_eq_some_iff.1 hw.owner
  simp only [Daemon.parseLine, hp]
  cases LibIRC2.parseLine line with
  | none => exact ⟨w, hw, hP, _, _, _, rfl⟩
  | some m =>
    obtain ⟨hhandling, hkept⟩ := h.protocolMessage hp m ⟨hw, fun _ => hP⟩
    exact ⟨_, hhandling, hkept fun _ _ => rfl, _, _, _, rfl⟩

/-! ## The object that handles the chunk -/

/-- The object that handles the chunk is where the recorder is, with the lines
`before` parsed ahead of it. -/
structure Reads (c this : Nat) (before : List Octets) (w : World) (r : Recorder) : Prop where
  handling : Handling c this w
  queue : w.queue this = r.inputQueue
  parsedBy : w.parsedBy this = before ++ r.parsed

variable (site)

theorem keepsMessage_reads (q : Octets) (parsed : List Octets) : KeepsMessage site c this (fun _ => true)
    (fun w => w.queue this = q ∧ w.parsedBy this = parsed) := by
  refine .of_quiet site ?_ ?_
  · intro w w' _ hP hq
    rw [hq.queue, hq.parsedBy]
    exact hP
  · intro r w _ hw hP
    have hlt := hw.lt_allocated
    rw [createProtocol_queue, if_neg (by omega), createProtocol_parsedBy]
    exact hP

theorem Reads.parseLine {before : List Octets} {r : Recorder} (h : Reads c this before w r) (goodbyeBeforeChunk : Bool)
    (line : Octets) : Reads c this before (parseLine site this goodbyeBeforeChunk line w) (recorder.parseLine line r) := by
  obtain ⟨w', hw', ⟨hqueue, hparsed⟩, gb, use, acted, e⟩ :=
    (keepsMessage_reads site (w.queue this) (w.parsedBy this)).parseLine h.handling ⟨rfl, rfl⟩ goodbyeBeforeChunk line
  rw [e]
  refine ⟨hw'.frame (.record w' (by simp)), hqueue.trans h.queue, ?_⟩
  rw [World.parsedBy_record, hparsed, h.parsedBy]
  simp [Event.parsedBy, recorder]

/-- It reads as the recorder does, whatever the lines do to it. -/
theorem Reads.handleInputFrom {before : List Octets} {r : Recorder} (h : Reads c this before w r)
    (goodbyeBeforeChunk : Bool) (data : Octets) (pos : Nat) :
    Reads c this before ((input site this goodbyeBeforeChunk).handleInputFrom data pos w)
      (recorder.handleInputFrom data pos r) := by
  refine Clbp.Input.handleInputFrom_sim (R := Reads c this before) (fun w r h => h.queue) ?_
    (fun line w r h => h.parseLine site goodbyeBeforeChunk line) data pos h
  intro q w r h
  refine ⟨h.handling.frame (.setInputQueue w this q), ?_, h.parsedBy⟩
  have hqueue := World.queue_setInputQueue w this q this
  rwa [if_pos ⟨rfl, h.handling.isSome⟩] at hqueue

/-! ## The others -/

/-- A chunk is nothing to an object that neither handles it nor belongs to its connection. -/
theorem keeps_untouched {w₀ : World} (goodbyeBeforeChunk : Bool) (hlt : a < w₀.allocated) (ha : a ≠ this)
    (hc : ¬ w₀.HasProtocol c a) :
    Keeps site c this goodbyeBeforeChunk (fun _ => true) (w₀.Untouched a) where
  toKeepsMessage := by
    refine .of_quiet site (fun w w' _ hP hq => hP.trans (.of_quiet hq)) (fun r w _ hw hP => hP.trans ?_)
    apply untouched_createProtocol site _ _ _ _ hw.live (hlt.trans_le hP.allocated)
    rw [hP.attached]
    exact hc
  setInputQueue q w _ hP := hP.trans (.setInputQueue w ha q)
  line text gb use acted w _ _ hP _ := hP.trans (.record w (if_neg ha.symm))

end

section
variable {c a : Nat} {w : World}

theorem quiet_receive (c : Nat) (line : Octets) (w : World) : w.Quiet (receive c line w) :=
  (World.Quiet.modifyConnection w c (f := fun conn => { conn with
      receivedBytes := conn.receivedBytes + UInt64.ofNat line.length, lastSpoke := w.time }) (fun _ => rfl) (fun _ h => h)).trans
    (.of_eq rfl rfl rfl fun _ => rfl)

theorem quiet_wake (c : Nat) (w : World) : w.Quiet (wake c w) := by
  obtain ⟨s, e⟩ := wake_spec c w
  rw [e]
  exact .of_eq rfl rfl rfl fun _ => rfl

theorem quiet_sendOutput (c written : Nat) (w : World) : w.Quiet (sendOutput site c written w) := by
  rcases sendOutput_spec site c written w with e | ⟨a, q, n, s, e⟩
  · rw [e]
    exact .refl w
  · rw [e]
    have hsent := (World.Quiet.setOutputQueue w a q).trans
      (.modifyConnection _ c (f := fun conn => { conn with sentBytes := n }) (fun _ => rfl) (fun _ h => h))
    exact hsent.trans (.of_eq rfl rfl rfl fun _ => rfl)

theorem untouched_newConnection (flags : ListenerFlags) (accepted : Option Accepted) (hw : w.WellFormed)
    (ha : a < w.allocated) : w.Untouched a (newConnection flags accepted w) := by
  cases accepted with
  | none => exact .refl a w
  | some socket =>
    refine ⟨Nat.le_add_right _ 2, ?_, newConnection_nickname flags socket hw a, ?_, ?_⟩
    · intro c
      rw [newConnection_hasProtocol]
      split_ifs with h
      · apply iff_of_false (by omega)
        intro hc
        obtain ⟨conn, hconn, -⟩ := hc
        have := hw.connection_lt c (by simp [hconn])
        omega
      · rfl
    · rw [World.queue, World.queue, newConnection]
      dsimp only
      rw [Function.update_of_ne (by omega)]
    · have hrecord := World.parsedBy_record w (.accept socket.fd (w.inUse socket.fd)) a
      exact hrecord.trans (List.append_nil _)

theorem untouched_handleInput (c : Nat) (read : Option Octets) (hw : w.WellFormed) (ha : a < w.allocated)
    (hc : ¬ w.HasProtocol c a) : w.Untouched a (handleInput site c read w).2 := by
  refine handleInput_keeps site (G := fun _ => true) (P := w.Untouched a) (M := fun _ => w.Untouched a) hw (.refl a w)
    (fun _ _ => rfl) (fun conn hconn _ => ⟨.refl a w, keeps_untouched site _ ha ?_ hc⟩) (fun _ line h => h.trans (.of_quiet (quiet_receive c line w)))
    (fun _ w' _ h => h.trans (.of_quiet (quiet_wake c w')))
  rintro rfl
  exact hc ⟨conn, hconn, rfl⟩

theorem destroy_parsedBy (c : Nat) (w : World) (a : Nat) : (destroy c w).parsedBy a = w.parsedBy a := by
  unfold destroy
  cases w.connection c with
  | none => rfl
  | some conn =>
    have hrecord := World.parsedBy_record w (.destroy c (w.held conn.protocol)) a
    exact hrecord.trans (List.append_nil _)

theorem untouched_destroy (c : Nat) (hc : ¬ w.HasProtocol c a) : w.Untouched a (destroy c w) := by
  cases hconn : w.connection c with
  | none =>
    rw [destroy, hconn]
    exact .refl a w
  | some conn =>
    have hne : a ≠ conn.protocol := by
      rintro rfl
      exact hc ⟨conn, hconn, rfl⟩
    refine ⟨Nat.le_of_eq ?_, ?_, ?_, ?_, destroy_parsedBy c w a⟩
    · simp [destroy, hconn, World.record]
    · intro c'
      rw [destroy_hasProtocol hconn]
      refine ⟨fun h => h.2, fun h => ⟨?_, h⟩⟩
      rintro rfl
      exact hc h
    · rw [destroy_nickname hconn, if_neg hne]
    · simp only [World.queue, destroy, hconn]
      rw [Function.update_of_ne hne]

/-- Does the step serve or delete the connection at `c`? -/
def Action.On (c : Nat) : Action → Prop
  | .handleInput c' _ => c' = c
  | .destroy c' => c' = c
  | _ => False

/-- A step leaves an object alone unless it is on its connection. -/
theorem untouched_act (x : Action) (hw : w.WellFormed) (ha : a < w.allocated) (hx : ∀ c, x.On c → ¬ w.HasProtocol c a) :
    w.Untouched a (act site w x) := by
  cases x with
  | setTime t => exact .of_quiet (.of_eq rfl rfl rfl fun _ => rfl)
  | newConnection flags accepted => exact untouched_newConnection flags accepted hw ha
  | handleInput c read => exact untouched_handleInput site c read hw ha (hx c rfl)
  | sendOutput c written => exact .of_quiet (quiet_sendOutput site c written w)
  | destroy c => exact untouched_destroy c (hx c rfl)

/-- An object that no connection refers to never reads again. -/
theorem untouched_of_detached (actions : List Action) (hw : w.WellFormed) (ha : a < w.allocated)
    (hdetached : ∀ c, ¬ w.HasProtocol c a) : w.Untouched a (actions.foldl (act site) w) := by
  induction actions generalizing w with
  | nil => exact .refl a w
  | cons x xs ih =>
    have hstep := untouched_act site x hw ha fun c _ => hdetached c
    refine hstep.trans (ih (wellFormed_act site hw x) (ha.trans_le hstep.allocated) ?_)
    intro c
    rw [hstep.attached]
    exact hdetached c

end

end Daemon

end KineIRCd

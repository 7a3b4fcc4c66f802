import KineIRCd.Readers
/-!
# The registrar's successor

A registrar that hands over gives its input queue, as it is then, to the user's
object it makes. From then on the object reads what is received on its
connection, until that is deleted.
-/
namespace KineIRCd.Daemon

open Clbp Framing

variable (site : Irc2User.Site)

/-! ## The line that makes it -/

/-- No object has parsed a line before it was made. -/
def Unheard (w : World) : Prop := ∀ a, w.allocated ≤ a → w.parsedBy a = []

theorem Unheard.quiet {w w' : World} (h : Unheard w) (hq : w.Quiet w') : Unheard w' := by
  intro a ha
  rw [hq.parsedBy]
  exact h a (hq.allocated ▸ ha)

/-- The object at `b` is new in the place of the one at `a`, with the input queue `q`. -/
structure Succeeds (c a b : Nat) (q : Octets) (w : World) : Prop where
  ne : b ≠ a
  hasProtocol : w.HasProtocol c b
  nickname : (w.nickname b).isSome = true
  queue : w.queue b = q
  parsedBy : w.parsedBy b = []

theorem Succeeds.untouched {c a b : Nat} {q : Octets} {w w' : World} (h : Succeeds c a b q w) (hw : w.Untouched b w') :
    Succeeds c a b q w' where
  ne := h.ne
  hasProtocol := (hw.attached c).2 h.hasProtocol
  nickname := by rw [hw.nickname]; exact h.nickname
  queue := hw.queue.trans h.queue
  parsedBy := hw.parsedBy.trans h.parsedBy

/-- The registrar at `a` is still there, or has a successor with its own queue. -/
structure Registering (c a : Nat) (q : Octets) (w : World) : Prop where
  queue : w.queue a = q
  unheard : Unheard w
  place : w.HasProtocol c a ∨ ∃ b, Succeeds c a b q w

section
variable {c a b : Nat} {w : World} {q : Octets}

theorem keeps_unheard (c this : Nat) (goodbyeBeforeChunk : Bool) :
    Keeps site c this goodbyeBeforeChunk (fun _ => true) Unheard where
  toKeepsMessage := by
    refine .of_quiet site (fun w w' _ h hq => h.quiet hq) ?_
    intro r w _ _ h x hx
    rw [createProtocol_allocated] at hx
    rw [createProtocol_parsedBy]
    exact h x (by omega)
  setInputQueue _ _ _ h := h
  line text gb use acted w _ hw h _ := by
    intro x hx
    have hlt := hw.lt_allocated
    rw [World.parsedBy_record, h x hx, Event.parsedBy, if_neg (show this ≠ x from fun e => absurd hx (by
      simp only [World.record]; omega))]
    rfl

theorem keepsMessage_registering (c a : Nat) (q : Octets) :
    KeepsMessage site c a (fun _ => true) (Registering c a q) := by
  refine .of_quiet site ?_ ?_
  · intro w w' _ h hq
    refine ⟨(hq.queue a).trans h.queue, h.unheard.quiet hq, ?_⟩
    rcases h.place with h | ⟨b, hb⟩
    · exact .inl (hq.hasProtocol_iff.2 h)
    · exact .inr ⟨b, hb.untouched (.of_quiet hq)⟩
  · intro r w hr hw h
    have hlt := hw.lt_allocated
    refine ⟨?_, (keeps_unheard site c a false).create r w hr hw h.unheard fun _ _ => rfl, .inr ⟨w.allocated, ?_⟩⟩
    · rw [createProtocol_queue, if_neg (by omega)]
      exact h.queue
    · -- the registrar's queue is copied as it is
      have hqueue : r.inputQueue = q := by
        rw [← h.queue, World.queue, hr]
        rfl
      refine ⟨by omega, ?_, ?_, ?_, ?_⟩
      · rw [createProtocol_hasProtocol site _ _ _ _ hw.live, if_pos rfl]
      · rw [createProtocol_nickname, if_pos rfl]
        rfl
      · rw [createProtocol_queue, if_pos rfl, hqueue]
      · rw [createProtocol_parsedBy]
        exact h.unheard _ (Nat.le_refl _)

/-- A line leaves the registrar in its place, or makes a successor that has
what the registrar had buffered when the line was parsed. -/
theorem takeLine_place (hw : Handling c a w) (hunheard : Unheard w) (ha : w.HasProtocol c a) (goodbyeBeforeChunk : Bool)
    (line : Octets) : ((input site a goodbyeBeforeChunk).takeLine line w).HasProtocol c a ∨
      ∃ b, Succeeds c a b (w.queue a) ((input site a goodbyeBeforeChunk).takeLine line w) := by
  have hparse : ∀ line, (parseLine site a goodbyeBeforeChunk line w).HasProtocol c a ∨
      ∃ b, Succeeds c a b (w.queue a) (parseLine site a goodbyeBeforeChunk line w) := by
    intro line
    obtain ⟨w', -, hplace, gb, use, acted, e⟩ :=
      (keepsMessage_registering site c a (w.queue a)).parseLine hw ⟨rfl, hunheard, .inl ha⟩ goodbyeBeforeChunk line
    rw [e]
    rcases hplace.place with h | ⟨b, hb⟩
    · exact .inl h
    · exact .inr ⟨b, hb.untouched (.record w' (if_neg hb.ne.symm))⟩
  unfold Input.takeLine
  split_ifs
  · exact hparse line
  · rcases hparse ((input site a goodbyeBeforeChunk).inputQueue w ++ line) with h | ⟨b, hb⟩
    · exact .inl h
    · exact .inr ⟨b, hb.untouched (.setInputQueue _ hb.ne [])⟩

/-- A registrar that has been replaced stays so. -/
theorem keeps_replaced (c this : Nat) (goodbyeBeforeChunk : Bool) :
    Keeps site c this goodbyeBeforeChunk (fun _ => true) (fun w => ¬ w.HasProtocol c this) := by
  refine .of_frame site ?_ ?_ ?_
  · intro w w' _ h hf
    rwa [hf.hasProtocol_iff]
  · intro self w _ _ _ _ h error _
    rwa [(World.Quiet.leave self error w).hasProtocol_iff]
  · intro r w _ hw _ _
    have hlt := hw.lt_allocated
    rw [createProtocol_hasProtocol site _ _ _ _ hw.live, if_pos rfl]
    omega

end

theorem steps_unheard : Steps site (fun _ => true) Unheard where
  time _ _ _ h := h.quiet (.of_eq rfl rfl rfl fun _ => rfl)
  newConnection flags accepted w hw h _ := by
    cases accepted with
    | none => exact h
    | some socket =>
      intro a ha
      have hparsed : (newConnection flags (some socket) w).parsedBy a = w.parsedBy a ++ [] :=
        World.parsedBy_record w (.accept socket.fd (w.inUse socket.fd)) a
      rw [hparsed, List.append_nil]
      exact h a ((Nat.le_add_right _ 2).trans ha)
  handleInput c read w hw h hG := handleInput_keeps site (G := fun _ => true) (P := Unheard) (M := fun _ => Unheard) hw h hG
    (fun conn _ _ => ⟨h, keeps_unheard site c conn.protocol _⟩) (fun _ line h => h.quiet (quiet_receive c line w))
    (fun _ w' _ h => h.quiet (quiet_wake c w'))
  sendOutput c written w _ h := h.quiet (quiet_sendOutput site c written w)
  destroy c w _ h _ := by
    intro a ha
    rw [destroy_parsedBy]
    apply h a
    cases hc : w.connection c with
    | none => simpa [destroy, hc] using ha
    | some conn => simpa [destroy, hc, World.record] using ha

theorem unheard_reach (actions : List Action) : Unheard (reach site actions) := by
  refine (steps_unheard site).reach ?_ actions fun _ _ => rfl
  obtain ⟨s, n, e⟩ := start_spec site
  rw [e]
  exact fun _ _ => rfl

/-! ## What it reads -/

/-- What a step reads on the connection at `c`. -/
def taken (c : Nat) (w : World) : Action → List Octets
  | .handleInput c' (some line) => if c' = c ∧ w.isConnected c = true then [line] else []
  | _ => []

/-- What is read on it from `w` on. -/
def received (c : Nat) : World → List Action → List Octets
  | _, [] => []
  | w, x :: xs => taken c w x ++ received c (act site w x) xs

section
variable {c b : Nat} {w : World}

theorem keeps_closed (c this c' : Nat) (goodbyeBeforeChunk : Bool) :
    Keeps site c this goodbyeBeforeChunk (fun _ => true) (fun w => c' < w.allocated ∧ w.isConnected c' = false) := by
  refine .of_frame site ?_ ?_ ?_
  · intro w w' _ h hf
    exact ⟨hf.allocated ▸ h.1, hf.closed c' h.2⟩
  · intro self w _ _ _ _ h error _
    have hf := World.Frame.leave self error w
    exact ⟨hf.allocated ▸ h.1, hf.closed c' h.2⟩
  · intro r w _ _ h _
    rw [createProtocol_allocated, createProtocol_isConnected]
    exact ⟨by omega, h.2⟩

/-- A connection that is closed, or gone, is never read again. -/
theorem steps_closed (c' : Nat) :
    Steps site (fun _ => true) (fun w => c' < w.allocated ∧ w.isConnected c' = false) where
  time _ _ _ h := h
  newConnection flags accepted w _ h _ := by
    cases accepted with
    | none => exact h
    | some socket =>
      refine ⟨Nat.lt_add_right 2 h.1, ?_⟩
      rw [newConnection_isConnected flags socket (by omega)]
      exact h.2
  handleInput c read w hw h hG := by
    refine handleInput_keeps site (G := fun _ => true) (P := fun w => c' < w.allocated ∧ w.isConnected c' = false)
      (M := fun _ w => c' < w.allocated ∧ w.isConnected c' = false) hw h hG (fun conn _ _ => ⟨h, keeps_closed site c conn.protocol c' _⟩)
      ?_ ?_
    · intro _ line h
      have hf := frame_receive c line w
      exact ⟨hf.allocated ▸ h.1, hf.closed c' h.2⟩
    · intro _ w' _ h
      have hf := frame_wake c w'
      exact ⟨hf.allocated ▸ h.1, hf.closed c' h.2⟩
  sendOutput c written w _ h := by
    have hf := frame_sendOutput site c written w
    exact ⟨hf.allocated ▸ h.1, hf.closed c' h.2⟩
  destroy c w _ h _ := by
    cases hc : w.connection c with
    | none => simpa [destroy, hc] using h
    | some conn =>
      rw [destroy_isConnected hc]
      refine ⟨by simpa [destroy, hc, World.record] using h.1, ?_⟩
      split_ifs
      · rfl
      · exact h.2

theorem keeps_nickname (c this : Nat) (goodbyeBeforeChunk : Bool) (n : Option WString) :
    Keeps site c this goodbyeBeforeChunk (fun _ => true) (fun w => w.nickname this = n) := by
  refine .of_frame site ?_ ?_ ?_
  · intro w w' _ h hf
    rwa [hf.nickname]
  · intro self w _ _ _ _ h error _
    rwa [(World.Quiet.leave self error w).nickname]
  · intro r w _ hw h _
    have hlt := hw.lt_allocated
    rwa [createProtocol_nickname, if_neg (by omega)]

/-- The user's object at `b` has read what the recorder has. It reads on as the
connection's protocol, or is gone with the connection. -/
structure Serves (c b : Nat) (w : World) (r : Recorder) : Prop where
  wellFormed : w.WellFormed
  connection_lt : c < w.allocated
  protocol_lt : b < w.allocated
  parsedBy : w.parsedBy b = r.parsed
  place : (w.HasProtocol c b ∧ (w.nickname b).isSome = true ∧ w.queue b = r.inputQueue) ∨
    (w.isConnected c = false ∧ ∀ c', ¬ w.HasProtocol c' b)

namespace Serves
variable {r : Recorder} (h : Serves c b w r)
include h

theorem not_on {c' : Nat} (hc : c' ≠ c) : ¬ w.HasProtocol c' b := by
  rcases h.place with ⟨hhere, -⟩ | ⟨-, hgone⟩
  · exact fun h' => hc (h.wellFormed.connection_unique hhere h')
  · exact hgone c'

/-- What others do is nothing to it. -/
theorem untouched {w' : World} (hw' : w'.WellFormed) (hclosed : w.isConnected c = false → w'.isConnected c = false)
    (hb : w.Untouched b w') : Serves c b w' r where
  wellFormed := hw'
  connection_lt := h.connection_lt.trans_le hb.allocated
  protocol_lt := h.protocol_lt.trans_le hb.allocated
  parsedBy := hb.parsedBy.trans h.parsedBy
  place := by
    rcases h.place with ⟨hhere, hname, hqueue⟩ | ⟨hdown, hgone⟩
    · refine .inl ⟨(hb.attached c).2 hhere, ?_, hb.queue.trans hqueue⟩
      rw [hb.nickname]
      exact hname
    · refine .inr ⟨hclosed hdown, ?_⟩
      intro c'
      rw [hb.attached]
      exact hgone c'

/-- It goes with its connection. -/
theorem destroy : Serves c b (Daemon.destroy c w) r := by
  have hw' := wellFormed_destroy c h.wellFormed
  cases hc : w.connection c with
  | none =>
    have hsame : Daemon.destroy c w = w := by rw [Daemon.destroy, hc]
    rwa [hsame]
  | some conn =>
    have hlt : ∀ x, x < w.allocated → x < (Daemon.destroy c w).allocated := fun x hx => by
      simpa [Daemon.destroy, hc, World.record] using hx
    refine ⟨hw', hlt c h.connection_lt, hlt b h.protocol_lt, ?_, .inr ⟨?_, ?_⟩⟩
    · rw [destroy_parsedBy]
      exact h.parsedBy
    · rw [destroy_isConnected hc, if_pos rfl]
    · intro c' h'
      obtain ⟨hne, h'⟩ := (destroy_hasProtocol hc c' b).1 h'
      exact h.not_on hne h'

theorem wake : Serves c b (Daemon.wake c w) r :=
  h.untouched (h.wellFormed.frame (frame_wake c w)) ((frame_wake c w).closed c) (.of_quiet (quiet_wake c w))

/-- It reads a chunk as the recorder does. -/
theorem chunk (hhere : w.HasProtocol c b) (line : Octets) :
    Serves c b ((input site b (w.saidGoodbye c)).handleInput line (receive c line w)) (recorder.handleInput line r) := by
  rcases h.place with ⟨-, hname, hqueue⟩ | ⟨-, hgone⟩
  · have hreceive := quiet_receive c line w
    have hhandling := (handling_of_hasProtocol h.wellFormed hhere).frame (frame_receive c line w)
    have hstart : Reads c b [] (receive c line w) r :=
      ⟨hhandling, (hreceive.queue b).trans hqueue, (hreceive.parsedBy b).trans h.parsedBy⟩
    have hreads := hstart.handleInputFrom site (w.saidGoodbye c) line 0
    have hkept := ((keeps_nickname site c b (w.saidGoodbye c) _).chunk line
      ⟨hhandling, fun _ => hreceive.nickname b⟩).2 fun _ _ => rfl
    have hsome := hname
    rw [← hkept] at hsome
    have hw' := hreads.handling.wellFormed
    -- a user's object stays in its place
    exact ⟨hw', hw'.connection_lt c hreads.handling.live, hreads.handling.lt_allocated, hreads.parsedBy,
      .inl ⟨hreads.handling.attached hsome, hsome, hreads.queue⟩⟩
  · exact absurd hhere (hgone c)

theorem handleInput (read : Option Octets) : Serves c b (Daemon.handleInput site c read w).2
    (feedFrom r (taken c w (.handleInput c read))) := by
  cases hconnected : w.isConnected c with
  | false =>
    have htaken : taken c w (.handleInput c read) = [] := by cases read <;> simp [taken, hconnected]
    rw [handleInput_of_closed site hconnected, htaken]
    exact h
  | true =>
    obtain ⟨conn, hconn, hopen⟩ := isConnected_iff.1 hconnected
    have hhere : w.HasProtocol c b := by
      rcases h.place with ⟨hhere, -⟩ | ⟨hdown, -⟩
      · exact hhere
      · simp [hdown] at hconnected
    obtain rfl : conn.protocol = b := World.hasProtocol_unique ⟨conn, hconn, rfl⟩ hhere
    cases read with
    | none =>
      rw [handleInput_none]
      exact h
    | some line =>
      have htaken : feedFrom r (taken c w (.handleInput c (some line))) = recorder.handleInput line r := by
        simp [taken, hconnected, feedFrom]
      rw [handleInput_some site hconn hopen, htaken]
      split_ifs with hline
      · have hnothing : recorder.handleInput [] r = r := by
          rw [Input.handleInput, Input.handleInputFrom_none rfl]
          simp [recorder]
        rw [hline, hnothing]
        exact h.wake
      · exact (h.chunk site hhere line).wake

theorem act (x : Action) : Serves c b (Daemon.act site w x) (feedFrom r (taken c w x)) := by
  by_cases hon : x.On c
  · cases x with
    | handleInput c' read =>
      obtain rfl : c' = c := hon
      exact h.handleInput site read
    | destroy c' =>
      obtain rfl : c' = c := hon
      exact h.destroy
    | _ => exact hon.elim
  · have htaken : taken c w x = [] := by
      cases x with
      | handleInput c' read =>
        cases read with
        | none => rfl
        | some line => exact if_neg fun e => hon e.1
      | _ => rfl
    rw [htaken]
    refine h.untouched (wellFormed_act site h.wellFormed x) ?_
      (untouched_act site x h.wellFormed h.protocol_lt fun c' hx => h.not_on fun e => hon (e ▸ hx))
    intro hdown
    exact (((steps_closed site c).holds_act x ⟨h.wellFormed, fun _ => ⟨h.connection_lt, hdown⟩⟩).2 fun _ _ => rfl).2

/-- It reads what is received, whatever else happens. -/
theorem run (later : List Action) :
    Serves c b (later.foldl (Daemon.act site) w) (feedFrom r (received site c w later)) := by
  induction later generalizing w r with
  | nil => exact h
  | cons x xs ih =>
    have hstep := ih (h.act site x)
    rwa [feedFrom, feedFrom, ← List.foldl_append] at hstep

end Serves

end

end KineIRCd.Daemon

import KineIRCd.Chunks
import KineIRCd.Lib.Runs
/-!
# What the daemon's loop does

Every pass is a sequence of steps, one on a connection or a listener at a time.
`Steps` takes a property through any such sequence.
-/
namespace KineIRCd.Daemon

open Irc2User (Site Self)

variable (site : Site)

/-! ## What a pass keeps -/

/-- The rule for runs: a property that each step of the loop keeps. -/
structure Steps (G : Event → Bool) (P : World → Prop) : Prop where
  time : ∀ t w, w.WellFormed → P w → P { w with time := t }
  newConnection : ∀ flags accepted w, w.WellFormed → P w → Good G (newConnection flags accepted w) →
    P (newConnection flags accepted w)
  handleInput : ∀ c read w, w.WellFormed → P w → Good G (handleInput site c read w).2 → P (handleInput site c read w).2
  sendOutput : ∀ c written w, w.WellFormed → P w → P (sendOutput site c written w)
  destroy : ∀ c w, w.WellFormed → P w → Good G (destroy c w) → P (destroy c w)

section
variable {c : Nat} {w : World}

theorem frame_receive (c : Nat) (line : Octets) (w : World) : w.Frame (receive c line w) :=
  (World.Frame.modifyConnection w c (f := fun conn => { conn with
      receivedBytes := conn.receivedBytes + UInt64.ofNat line.length, lastSpoke := w.time }) (fun _ => rfl) (fun _ h => h)).trans
    (.of_eq rfl rfl rfl rfl rfl rfl rfl fun _ _ _ _ => .rfl)

theorem wake_spec (c : Nat) (w : World) : ∃ s, wake c w = { w with outFDSET := s } := by
  unfold wake
  split
  · exact ⟨w.outFDSET, rfl⟩
  · split_ifs
    · exact ⟨_, rfl⟩
    · exact ⟨w.outFDSET, rfl⟩

/-- A connection sends from its protocol's output queue, and may be done with it. -/
theorem sendOutput_spec (c written : Nat) (w : World) : sendOutput site c written w = w ∨
    ∃ a q n s, sendOutput site c written w =
      { (w.modifyProtocol a (·.setOutputQueue q)).modifyConnection c fun conn => { conn with sentBytes := n } with
        outFDSET := s } := by
  unfold sendOutput
  cases w.connection c with
  | none => exact .inl rfl
  | some conn =>
    dsimp only
    cases w.protocol conn.protocol with
    | none => exact .inl rfl
    | some p =>
      right
      dsimp only
      split_ifs
      · exact ⟨_, _, _, w.outFDSET, rfl⟩
      · exact ⟨_, _, _, _, rfl⟩

theorem frame_wake (c : Nat) (w : World) : w.Frame (wake c w) := by
  obtain ⟨s, e⟩ := wake_spec c w
  rw [e]
  exact .setOutFDSET w s

/-- Sending takes from the queue and counts. -/
theorem frame_sent (w : World) (a c : Nat) (queue : Octets) (bytes : UInt64) :
    w.Frame ((w.modifyProtocol a (·.setOutputQueue queue)).modifyConnection c
      fun conn => { conn with sentBytes := bytes }) :=
  (World.Frame.setOutputQueue w a queue).trans
    (.modifyConnection _ c (f := fun conn => { conn with sentBytes := bytes }) (fun _ => rfl) (fun _ h => h))

theorem frame_sendOutput (c written : Nat) (w : World) : w.Frame (sendOutput site c written w) := by
  rcases sendOutput_spec site c written w with e | ⟨a, q, n, s, e⟩
  · rw [e]
    exact .refl w
  · rw [e]
    exact (frame_sent w a c q n).trans (.setOutFDSET _ s)

theorem wake_log (c : Nat) (w : World) : (wake c w).log = w.log := by
  obtain ⟨s, e⟩ := wake_spec c w
  rw [e]

theorem sendOutput_log (c written : Nat) (w : World) : (sendOutput site c written w).log = w.log := by
  rcases sendOutput_spec site c written w with e | ⟨a, q, n, s, e⟩
  · rw [e]
  · rw [e]
    rfl

/-- The state in which a connection's object starts on a chunk. -/
theorem handling_of_hasProtocol {a : Nat} (hw : w.WellFormed) (h : w.HasProtocol c a) : Handling c a w :=
  ⟨hw, hw.owner c a h, by obtain ⟨conn, hconn, -⟩ := h; simp [hconn], fun _ => h⟩

/-! ### Input -/

theorem isConnected_iff : w.isConnected c = true ↔ ∃ conn, w.connection c = some conn ∧ conn.connected = true := by
  simp [World.isConnected, Option.any_eq_true]

theorem handleInput_of_closed (h : w.isConnected c = false) (read : Option Octets) : (handleInput site c read w).2 = w := by
  unfold handleInput
  cases hc : w.connection c with
  | none => rfl
  | some conn =>
    have hclosed : conn.connected = false := by simpa [World.isConnected, hc] using h
    simp [hclosed]

theorem handleInput_none (c : Nat) (w : World) : (handleInput site c none w).2 = w := by
  unfold handleInput
  split
  · rfl
  · simp

theorem handleInput_some {conn : Connection} (hc : w.connection c = some conn) (hconnected : conn.connected = true)
    (line : Octets) : (handleInput site c (some line) w).2 = wake c (if line = [] then w
      else (input site conn.protocol (w.saidGoodbye c)).handleInput line (receive c line w)) := by
  simp [handleInput, hc, hconnected]

/-- Input is read by a live connection that has not said goodbye, or nothing happens. -/
theorem handleInput_cases (c : Nat) (read : Option Octets) (w : World) :
    (handleInput site c read w).2 = w ∨ ∃ conn line, w.connection c = some conn ∧ conn.connected = true ∧
      (handleInput site c read w).2 = wake c (if line = [] then w
        else (input site conn.protocol (w.saidGoodbye c)).handleInput line (receive c line w)) := by
  cases hconnected : w.isConnected c with
  | false => exact .inl (handleInput_of_closed site hconnected read)
  | true =>
    obtain ⟨conn, hc, hopen⟩ := isConnected_iff.1 hconnected
    cases read with
    | none => exact .inl (handleInput_none site c w)
    | some line => exact .inr ⟨conn, line, hc, hopen, handleInput_some site hc hopen line⟩

theorem wellFormed_handleInput (c : Nat) (read : Option Octets) (hw : w.WellFormed) :
    (handleInput site c read w).2.WellFormed ∧ w.log <+: (handleInput site c read w).2.log := by
  rcases handleInput_cases site c read w with e | ⟨conn, line, hconn, -, e⟩
  · rw [e]; exact ⟨hw, List.prefix_refl _⟩
  · rw [e, wake_log]
    split_ifs with hline
    · exact ⟨hw.frame (frame_wake c w), List.prefix_refl _⟩
    · have hreceive := frame_receive c line w
      have hhandling : Handling c conn.protocol (receive c line w) :=
        (handling_of_hasProtocol hw ⟨conn, hconn, rfl⟩).frame hreceive
      have hchunk := (keeps_log site c conn.protocol (w.saidGoodbye c) w).chunk line
        ⟨hhandling, fun _ => List.prefix_refl w.log⟩
      exact ⟨hchunk.1.wellFormed.frame (frame_wake c _), hchunk.2 (fun _ _ => rfl)⟩

/-- Input keeps a property that holds between chunks, by way of one that holds
while the object at `this` handles a chunk. -/
theorem handleInput_keepsEach {G : Event → Bool} {P : World → Prop} {M : Nat → World → Prop} {read : Option Octets}
    (hw : w.WellFormed) (hP : P w) (hG : Good G (handleInput site c read w).2)
    (henter : ∀ conn, w.connection c = some conn → conn.connected = true →
      M conn.protocol w ∧ KeepsEach site c conn.protocol (w.saidGoodbye c) G (M conn.protocol))
    (hreceive : ∀ this line, M this w → M this (receive c line w))
    (hwake : ∀ this w', Handling c this w' → M this w' → P (wake c w')) : P (handleInput site c read w).2 := by
  rcases handleInput_cases site c read w with e | ⟨conn, line, hconn, hconnected, e⟩
  · rw [e]; exact hP
  · obtain ⟨hmid, hkeeps⟩ := henter conn hconn hconnected
    have hhandling := handling_of_hasProtocol hw ⟨conn, hconn, rfl⟩
    rw [e] at hG ⊢
    split_ifs at hG ⊢ with hline
    · exact hwake conn.protocol w hhandling hmid
    · have hchunk := hkeeps.chunk line ⟨hhandling.frame (frame_receive c line w), fun _ => hreceive _ line hmid⟩
      rw [Good, wake_log] at hG
      exact hwake conn.protocol _ hchunk.1 (hchunk.2 hG)

theorem handleInput_keeps {G : Event → Bool} {P : World → Prop} {M : Nat → World → Prop} {read : Option Octets}
    (hw : w.WellFormed) (hP : P w) (hG : Good G (handleInput site c read w).2)
    (henter : ∀ conn, w.connection c = some conn → conn.connected = true →
      M conn.protocol w ∧ Keeps site c conn.protocol (w.saidGoodbye c) G (M conn.protocol))
    (hreceive : ∀ this line, M this w → M this (receive c line w))
    (hwake : ∀ this w', Handling c this w' → M this w' → P (wake c w')) : P (handleInput site c read w).2 := by
  refine handleInput_keepsEach site hw hP hG (fun conn hconn hconnected => ?_) hreceive hwake
  obtain ⟨hmid, hkeeps⟩ := henter conn hconn hconnected
  exact ⟨hmid, hkeeps.keepsEach⟩

section
variable (flags : ListenerFlags) (socket : Accepted)

theorem newConnection_hasProtocol (c a : Nat) : (newConnection flags (some socket) w).HasProtocol c a ↔
    if c = w.allocated then a = w.allocated + 1 else w.HasProtocol c a := by
  simp only [World.HasProtocol, newConnection, Function.update_apply]
  split_ifs
  · simp [eq_comm]
  · rfl

theorem newConnection_nickname (hw : w.WellFormed) (a : Nat) :
    (newConnection flags (some socket) w).nickname a = w.nickname a := by
  simp only [World.nickname, newConnection, Function.update_apply]
  split_ifs with h
  · -- nothing was at the new address
    have hnone : w.protocol a = none := by
      by_contra hsome
      have := hw.protocol_lt a (Option.isSome_iff_ne_none.2 hsome)
      omega
    rw [hnone]
    rfl
  · rfl

theorem newConnection_isConnected {c : Nat} (hc : c ≠ w.allocated) :
    (newConnection flags (some socket) w).isConnected c = w.isConnected c := by
  simp only [World.isConnected, newConnection]
  rw [Function.update_of_ne hc]

theorem newConnection_hasQuit (a : Nat) : (newConnection flags (some socket) w).HasQuit a ↔ w.HasQuit a := by
  simp [World.HasQuit, newConnection, World.record]

end

section
variable {conn : Connection} (hc : w.connection c = some conn)
include hc

theorem destroy_hasProtocol (c' a : Nat) : (destroy c w).HasProtocol c' a ↔ c' ≠ c ∧ w.HasProtocol c' a := by
  simp only [World.HasProtocol, destroy, hc, Function.update_apply]
  split_ifs with h
  · simp [h]
  · simp [h]

theorem destroy_nickname (a : Nat) : (destroy c w).nickname a = if a = conn.protocol then none else w.nickname a := by
  simp only [World.nickname, destroy, hc, Function.update_apply]
  split_ifs
  · rfl
  · rfl

theorem destroy_isConnected (c' : Nat) : (destroy c w).isConnected c' = if c' = c then false else w.isConnected c' := by
  simp only [World.isConnected, destroy, hc, Function.update_apply]
  split_ifs
  · rfl
  · rfl

theorem destroy_hasQuit (a : Nat) : (destroy c w).HasQuit a ↔ w.HasQuit a := by
  simp [World.HasQuit, destroy, hc, World.record]

end

theorem wellFormed_newConnection (flags : ListenerFlags) (accepted : Option Accepted) (hw : w.WellFormed) :
    (newConnection flags accepted w).WellFormed := by
  cases accepted with
  | none => exact hw
  | some socket =>
    have hfresh : ∀ c, (w.connection c).isSome = true → c ≠ w.allocated := fun c hc => by
      have := hw.connection_lt c hc
      omega
    refine ⟨?_, ?_, ?_, ?_, ?_⟩
    · exact List.nodup_cons.2 ⟨fun h => hfresh _ ((hw.live _).1 h) rfl, hw.nodup⟩
    · intro c
      simp only [newConnection, Function.update_apply, List.mem_cons, hw.live]
      split_ifs with h
      · simp [h]
      · simp [h]
    · intro c a ha
      simp only [newConnection, World.HasProtocol, Function.update_apply] at ha ⊢
      obtain ⟨conn, hconn, rfl⟩ := ha
      split_ifs at hconn with h
      · cases hconn
        simp [h]
      · have hlt := hw.hasProtocol_lt ⟨conn, hconn, rfl⟩
        rw [if_neg (by omega)]
        exact hw.owner c conn.protocol ⟨conn, hconn, rfl⟩
    · intro c hc
      simp only [newConnection, Function.update_apply] at hc ⊢
      split_ifs at hc with h
      · omega
      · have := hw.connection_lt c hc
        omega
    · intro a ha
      simp only [newConnection, Function.update_apply] at ha ⊢
      split_ifs at ha with h
      · omega
      · have := hw.protocol_lt a ha
        omega

theorem wellFormed_destroy (c : Nat) (hw : w.WellFormed) : (destroy c w).WellFormed := by
  unfold destroy
  cases hc : w.connection c with
  | none => exact hw
  | some conn =>
    refine ⟨hw.nodup.erase c, ?_, ?_, ?_, ?_⟩
    · intro c'
      simp only [Function.update_apply, hw.nodup.mem_erase_iff, hw.live]
      split_ifs with h
      · simp [h]
      · simp [h]
    · intro c' a ha
      simp only [World.HasProtocol, Function.update_apply] at ha ⊢
      obtain ⟨conn', hconn', rfl⟩ := ha
      split_ifs at hconn' with h
      rw [if_neg]
      · exact hw.owner c' conn'.protocol ⟨conn', hconn', rfl⟩
      · -- the object that goes was made for another connection
        intro heq
        have hc' : w.HasProtocol c' conn.protocol := ⟨conn', hconn', heq⟩
        exact h (hw.connection_unique ⟨conn, hc, rfl⟩ hc')
    · intro c' hc'
      simp only [Function.update_apply] at hc'
      split_ifs at hc' with h
      · simp at hc'
      · exact hw.connection_lt c' hc'
    · intro a ha
      simp only [Function.update_apply] at ha
      split_ifs at ha with h
      · simp at ha
      · exact hw.protocol_lt a ha

end

/-- Nobody is connected or registered when the loop starts. -/
theorem start_spec : ∃ inFDSET maxDescriptors, start site = { inFDSET, maxDescriptors } :=
  List.foldlRecOn (motive := fun w : World => ∃ inFDSET maxDescriptors, w = { inFDSET, maxDescriptors }) _ _ ⟨{0}, 0, rfl⟩
    (by rintro w ⟨s, n, rfl⟩ listener -; exact ⟨_, _, rfl⟩)

theorem wellFormed_start : (start site).WellFormed := by
  obtain ⟨s, n, e⟩ := start_spec site
  rw [e]
  exact ⟨List.nodup_nil, by simp, by simp [World.HasProtocol], by simp, by simp⟩

namespace Steps
variable {site} {G : Event → Bool} {P : World → Prop} (h : Steps site G P) {w : World}
include h

/-- What is carried through a run: `P` is promised while the events are good. -/
def Holds (_ : Steps site G P) (w : World) : Prop := w.WellFormed ∧ (Good G w → P w)

theorem holds_time (t : Nat) (hw : h.Holds w) : h.Holds { w with time := t } :=
  ⟨hw.1.frame (.setTime w t), fun hG => h.time t w hw.1 (hw.2 hG)⟩

theorem holds_newConnection (flags : ListenerFlags) (accepted : Option Accepted) (hw : h.Holds w) :
    h.Holds (Daemon.newConnection flags accepted w) := by
  refine ⟨wellFormed_newConnection flags accepted hw.1, ?_⟩
  intro hG
  have hlog : w.log <+: (Daemon.newConnection flags accepted w).log := by
    cases accepted with
    | none => exact List.prefix_refl _
    | some socket => exact List.prefix_append _ _
  exact h.newConnection flags accepted w hw.1 (hw.2 (hG.of_prefix hlog)) hG

theorem holds_handleInput (c : Nat) (read : Option Octets) (hw : h.Holds w) :
    h.Holds (Daemon.handleInput site c read w).2 := by
  obtain ⟨hwellFormed, hlog⟩ := wellFormed_handleInput site c read hw.1
  exact ⟨hwellFormed, fun hG => h.handleInput c read w hw.1 (hw.2 (hG.of_prefix hlog)) hG⟩

theorem holds_sendOutput (c written : Nat) (hw : h.Holds w) : h.Holds (Daemon.sendOutput site c written w) := by
  refine ⟨hw.1.frame (frame_sendOutput site c written w), fun hG => h.sendOutput c written w hw.1 (hw.2 ?_)⟩
  rwa [Good, sendOutput_log] at hG

theorem holds_destroy (c : Nat) (hw : h.Holds w) : h.Holds (Daemon.destroy c w) := by
  refine ⟨wellFormed_destroy c hw.1, ?_⟩
  intro hG
  have hlog : w.log <+: (Daemon.destroy c w).log := by
    unfold Daemon.destroy
    split
    · exact List.prefix_refl _
    · exact List.prefix_append _ _
  exact h.destroy c w hw.1 (hw.2 (hG.of_prefix hlog)) hG

theorem holds_act (a : Action) (hw : h.Holds w) : h.Holds (act site w a) := by
  cases a with
  | setTime t => exact h.holds_time t hw
  | newConnection flags accepted => exact h.holds_newConnection flags accepted hw
  | handleInput c read => exact h.holds_handleInput c read hw
  | sendOutput c written => exact h.holds_sendOutput c written hw
  | destroy c => exact h.holds_destroy c hw

/-- Whatever the order of the steps, a property that each of them keeps holds
as long as the events are good. -/
theorem reach (hstart : P (start site)) (actions : List Action) (hG : Good G (reach site actions)) :
    P (Daemon.reach site actions) := by
  have hholds : h.Holds (Daemon.reach site actions) :=
    Runs.run_keeps (fun _ a hw => h.holds_act a hw) ⟨wellFormed_start site, fun _ => hstart⟩
  exact hholds.2 hG

end Steps

theorem wellFormed_act {w : World} (hw : w.WellFormed) (a : Action) : (act site w a).WellFormed := by
  have h : Steps site (fun _ => true) (fun _ => True) := by constructor <;> intros <;> trivial
  exact (h.holds_act a ⟨hw, fun _ => trivial⟩).1

theorem wellFormed_reach (actions : List Action) : (reach site actions).WellFormed :=
  Runs.run_keeps (fun _ a hw => wellFormed_act site hw a) (wellFormed_start site)

/-! ## Passes are sequences of steps -/

section
variable (p : Pass)

def sendActions (c : Nat) (w : World) : List Action :=
  match w.connection c with
  | none => []
  | some conn => if p.writable conn.fd then [.sendOutput c (p.written conn.fd)] else []

/-- The steps of `serve`. -/
def serveActions : List Nat → World → List Action
  | [], _ => []
  | c :: cs, w =>
    match w.connection c with
    | none => serveActions cs w
    | some conn =>
      if p.readable conn.fd then
        let result := handleInput site c (p.read conn.fd) w
        .handleInput c (p.read conn.fd) ::
          if result.1 then sendActions p c result.2 ++ serveActions cs (sendIfWritable site p c result.2)
          else [.destroy c]
      else sendActions p c w ++ serveActions cs (sendIfWritable site p c w)

def acceptActions : List (Nat × ListenerFlags) → List Action
  | [] => []
  | listener :: listeners =>
    if p.readable listener.1 then .newConnection listener.2 (p.accept listener.1) :: acceptActions listeners
    else acceptActions listeners

/-- The steps of a pass. -/
def passActions (w : World) : List Action :=
  let accepted := acceptAll site p { w with time := p.time }
  .setTime p.time :: acceptActions p site.listeners ++ serveActions site p accepted.connections accepted

variable {p}

theorem sendIfWritable_actions (c : Nat) (w : World) :
    sendIfWritable site p c w = (sendActions p c w).foldl (act site) w := by
  unfold sendIfWritable sendActions
  cases w.connection c with
  | none => rfl
  | some conn =>
    dsimp only
    split_ifs <;> rfl

theorem serve_actions (cs : List Nat) (w : World) : serve site p cs w = (serveActions site p cs w).foldl (act site) w := by
  induction cs generalizing w with
  | nil => rfl
  | cons c cs ih =>
    rw [serve, serveActions]
    cases w.connection c with
    | none => exact ih w
    | some conn =>
      dsimp only
      split_ifs
      · rw [List.foldl_cons, List.foldl_append, ih, sendIfWritable_actions]
        rfl
      · rfl
      · rw [List.foldl_append, ih, ← sendIfWritable_actions]

theorem acceptAll_actions (w : World) : acceptAll site p w = (acceptActions p site.listeners).foldl (act site) w := by
  unfold acceptAll
  induction site.listeners generalizing w with
  | nil => rfl
  | cons listener listeners ih =>
    rw [List.foldl_cons, acceptActions, ih]
    split_ifs <;> rfl

/-- A pass is its steps. -/
theorem pass_actions (w : World) : pass site w p = (passActions site p w).foldl (act site) w := by
  rw [pass, serve_actions, passActions, List.cons_append, List.foldl_cons, List.foldl_append]
  rw [acceptAll_actions]
  rfl

end

/-- What passes reach, steps reach. -/
theorem run_eq_reach (passes : List Pass) : ∃ actions, run site passes = reach site actions := by
  suffices h : ∀ w, ∃ actions : List Action, passes.foldl (pass site) w = actions.foldl (act site) w from h (start site)
  intro w
  induction passes generalizing w with
  | nil => exact ⟨[], rfl⟩
  | cons p passes ih =>
    obtain ⟨rest, hrest⟩ := ih (pass site w p)
    refine ⟨passActions site p w ++ rest, ?_⟩
    rw [List.foldl_cons, hrest, pass_actions, List.foldl_append]

theorem wellFormed_run (passes : List Pass) : (run site passes).WellFormed := by
  obtain ⟨actions, e⟩ := run_eq_reach site passes
  rw [e]
  exact wellFormed_reach site actions

/-- A property that each step keeps holds after a run of passes whose events are good. -/
theorem Steps.run {site} {G : Event → Bool} {P : World → Prop} (h : Steps site G P) (hstart : P (start site))
    (passes : List Pass) (hG : Good G (run site passes)) : P (run site passes) := by
  obtain ⟨actions, e⟩ := run_eq_reach site passes
  rw [e] at hG ⊢
  exact h.reach hstart actions hG

end KineIRCd.Daemon

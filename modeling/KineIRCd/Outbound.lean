import KineIRCd.OutputStream
import KineIRCd.Turns
/-!
# What goes out

Lines are put at the end of an object's output queue, and `sendOutput` takes
from the front of it. A hand-over gives the new object what the registrar had
queued. So the octets on a connection come in the order in which they were queued.
-/
namespace KineIRCd

/-- The registrar that handed over, if the event says so. -/
def Event.handsOver : Event → Option Nat
  | .create registrar _ _ _ _ _ _ => some registrar
  | _ => none

namespace World

/-- What the object at an address has queued for its client. -/
def outgoing (w : World) (a : Nat) : Octets := ((w.protocol a).map (·.outputQueue)).getD []

/-- What is queued on a connection. -/
def unsent (w : World) (c : Nat) : Octets := ((w.connection c).map fun conn => w.outgoing conn.protocol).getD []

/-- The registrars that have handed over. -/
def handOvers (w : World) : List Nat := w.log.filterMap Event.handsOver

/-- From `w` to `w'` connections keep their objects, and more is queued at most. -/
structure Adds (w w' : World) : Prop where
  attached : ∀ c, (w'.connection c).map (·.protocol) = (w.connection c).map (·.protocol)
  outgoing : ∀ a, w.outgoing a <+: w'.outgoing a
  handOvers : w'.handOvers = w.handOvers

section
variable {w w' w'' : World} {c a : Nat}

theorem unsent_eq (w : World) (c : Nat) : w.unsent c = (((w.connection c).map (·.protocol)).map w.outgoing).getD [] := by
  rw [unsent, Option.map_map]
  rfl

theorem unsent_of_hasProtocol (h : w.HasProtocol c a) : w.unsent c = w.outgoing a := by
  obtain ⟨conn, hconn, rfl⟩ := h
  rw [unsent, hconn]
  rfl

namespace Adds

theorem refl (w : World) : Adds w w := ⟨fun _ => rfl, fun _ => List.prefix_refl _, rfl⟩

theorem trans (h : Adds w w') (h' : Adds w' w'') : Adds w w'' where
  attached c := (h'.attached c).trans (h.attached c)
  outgoing a := (h.outgoing a).trans (h'.outgoing a)
  handOvers := h'.handOvers.trans h.handOvers

theorem of_eq (hconnection : w'.connection = w.connection) (hprotocol : w'.protocol = w.protocol)
    (hhandOvers : w'.handOvers = w.handOvers) : Adds w w' where
  attached c := by rw [hconnection]
  outgoing a := by rw [World.outgoing, World.outgoing, hprotocol]
  handOvers := hhandOvers

theorem record (w : World) {e : Event} (he : e.handsOver = none) : Adds w (w.record e) := by
  refine of_eq rfl rfl ?_
  simp [World.handOvers, World.record, List.filterMap_append, he]

theorem modifyConnection (w : World) (c : Nat) {f : Connection → Connection} (hf : ∀ x, (f x).protocol = x.protocol) :
    Adds w (w.modifyConnection c f) := by
  refine ⟨fun c' => ?_, fun _ => List.prefix_refl _, rfl⟩
  rw [connection_modifyConnection]
  split_ifs with hc
  · rw [hc, Option.map_map]
    exact congrArg (Option.map · _) (funext hf)
  · rfl

theorem modifyProtocol {g : ProtocolBase → ProtocolBase}
    (h : ∀ p, w.protocol a = some p → p.outputQueue <+: (g p).outputQueue) : Adds w (w.modifyProtocol a g) := by
  refine ⟨fun _ => rfl, fun a' => ?_, rfl⟩
  rw [World.outgoing, World.outgoing, protocol_modifyProtocol]
  split_ifs with ha
  · subst ha
    cases hp : w.protocol a' with
    | none => exact List.prefix_refl _
    | some p => exact h p hp
  · exact List.prefix_refl _

theorem setInputQueue (w : World) (a : Nat) (q : Octets) : Adds w (w.modifyProtocol a (·.setInputQueue q)) := by
  refine modifyProtocol fun p _ => ?_
  obtain ⟨c, r | u⟩ := p <;> exact List.prefix_refl _

theorem outputLine (w : World) (a : Nat) (line : Octets) : Adds w (w.outputLine a line) :=
  modifyProtocol fun p _ => (ProtocolBase.Evolves.outputLine p line).outputQueue

theorem goodbye (w : World) (c : Nat) : Adds w (w.goodbye c) :=
  (modifyConnection w c (f := fun conn => { conn with connected := false }) (fun _ => rfl)).trans (record _ rfl)

theorem leave (self : Irc2User.Self) (error : Octets) (w : World) : Adds w (Irc2User.leave self error w) := by
  have hquit : Adds w (w.quit ⟨self.this, self.user.nickname⟩) := by
    refine of_eq rfl rfl ?_
    simp [World.handOvers, World.quit, World.record, List.filterMap_append, Event.handsOver]
  exact ((hquit.trans (outputLine _ _ _)).trans (goodbye _ _)).trans (goodbye _ _)

theorem hasProtocol_iff (h : Adds w w') : w'.HasProtocol c a ↔ w.HasProtocol c a := by
  rw [World.hasProtocol_iff, World.hasProtocol_iff, h.attached]

theorem unsent (h : Adds w w') (c : Nat) : w.unsent c <+: w'.unsent c := by
  rw [unsent_eq, unsent_eq, h.attached]
  cases (w.connection c).map (·.protocol) with
  | none => exact List.prefix_refl _
  | some a => exact h.outgoing a

end Adds

end

end World

namespace Daemon

open Irc2User (Site Self)

variable (site : Site)

/-! ## Chunks -/

/-- The object at `this` handles input of `c`, since `w₀`: what was queued is
still, and the connection is its own until it hands over. -/
structure Sending (w₀ : World) (c this : Nat) (w : World) : Prop where
  grows : ∀ c', w₀.unsent c' <+: w.unsent c'
  place : w.HasProtocol c this ∨ this ∈ w.handOvers

section
variable {w₀ w w' : World} {c this : Nat}

theorem Sending.adds (h : Sending w₀ c this w) (hadds : w.Adds w') : Sending w₀ c this w' where
  grows c' := (h.grows c').trans (hadds.unsent c')
  place := by
    rw [hadds.hasProtocol_iff, hadds.handOvers]
    exact h.place

theorem createProtocol_handOvers (registrar : Nat) (registrant : Irc2Registrar.Registrant) (inputQueue outputQueue : Octets) :
    (createProtocol site registrar c registrant inputQueue outputQueue w).handOvers = w.handOvers ++ [registrar] := by
  rw [World.handOvers, createProtocol_log, List.filterMap_append]
  rfl

/-- The new object starts with what the registrar has queued. -/
theorem createProtocol_outgoing (registrar : Nat) (registrant : Irc2Registrar.Registrant) (inputQueue outputQueue : Octets) :
    outputQueue <+: (createProtocol site registrar c registrant inputQueue outputQueue w).outgoing w.allocated ∧
      ∀ a ≠ w.allocated,
        (createProtocol site registrar c registrant inputQueue outputQueue w).outgoing a = w.outgoing a := by
  obtain ⟨p, hp, e⟩ := createProtocol_spec site registrar c registrant inputQueue outputQueue w
  rw [e, World.addUser_snd]
  refine ⟨?_, fun a ha => ?_⟩
  · simpa [World.outgoing] using hp.outputQueue
  · simp [World.outgoing, Function.update_of_ne ha]

/-- So nothing is missing when a registrar hands over for the first time. -/
theorem unsent_createProtocol (hw : w.WellFormed) {r : Irc2Registrar.Protocol} (hr : w.protocol this = some ⟨c, .registrar r⟩)
    (hplace : w.HasProtocol c this) (c' : Nat) : w.unsent c' <+:
      (createProtocol site this c r.registrantData r.inputQueue r.outputQueue w).unsent c' := by
  have hlive : (w.connection c).isSome = true := by
    obtain ⟨conn, hconn, -⟩ := hplace
    rw [hconn]
    rfl
  have hprotocol := createProtocol_hasProtocol site this r.registrantData r.inputQueue r.outputQueue hlive c'
  obtain ⟨hnew, hothers⟩ := @createProtocol_outgoing site w c this r.registrantData r.inputQueue r.outputQueue
  by_cases hc : c' = c
  · simp only [if_pos hc] at hprotocol
    have houtgoing : w.outgoing this = r.outputQueue := by rw [World.outgoing, hr]; rfl
    rw [World.unsent_of_hasProtocol ((hprotocol w.allocated).2 rfl), World.unsent_of_hasProtocol (hc ▸ hplace), houtgoing]
    exact hnew
  · simp only [if_neg hc] at hprotocol
    cases hconn : w.connection c' with
    | none => simp [World.unsent, hconn]
    | some conn =>
      have hself : w.HasProtocol c' conn.protocol := ⟨conn, hconn, rfl⟩
      rw [World.unsent_of_hasProtocol ((hprotocol conn.protocol).2 hself), World.unsent_of_hasProtocol hself,
        hothers _ (hw.hasProtocol_lt hself).ne]

/-- As long as no registrar hands over twice, a chunk only adds to what is queued. -/
theorem keeps_sending (goodbyeBeforeChunk : Bool) : Keeps site c this goodbyeBeforeChunk (fun _ => true)
    (fun w => w.handOvers.Nodup → Sending w₀ c this w) := by
  have hadds : ∀ {w w' : World}, w.Adds w' → (w.handOvers.Nodup → Sending w₀ c this w) → w'.handOvers.Nodup →
      Sending w₀ c this w' := by
    intro w w' h hP honce
    exact (hP (h.handOvers ▸ honce)).adds h
  refine { own := ?_, rand := ?_, goodbye := ?_, deliver := ?_, leave := ?_, create := ?_, setInputQueue := ?_, line := ?_ }
  · exact fun g w _ hP hg => hadds (.modifyProtocol fun p hp => (hg p hp).outputQueue) hP
  · intro n w _ hP
    have hrand : w.Adds { w with rand := n } := .of_eq rfl rfl rfl
    exact hadds hrand hP
  · exact fun w _ hP _ => hadds (.goodbye w c) hP
  · intro receiver line w _ hP _
    exact hadds ((World.Adds.outputLine w receiver line).trans (.record _ rfl)) hP
  · exact fun self error w _ _ _ _ hP _ => hadds (.leave self error w) hP
  · intro r w hr hw hP _ honce
    rw [createProtocol_handOvers, List.nodup_append] at honce
    obtain ⟨honce, -, hfirst⟩ := honce
    have hsending := hP honce
    have hplace : w.HasProtocol c this :=
      hsending.place.resolve_right fun hthis => hfirst this hthis this (List.mem_singleton_self _) rfl
    refine ⟨fun c' => (hsending.grows c').trans (unsent_createProtocol site hw.wellFormed hr hplace c'), .inr ?_⟩
    rw [createProtocol_handOvers]
    exact List.mem_append_right _ (List.mem_singleton_self _)
  · exact fun q w _ hP => hadds (.setInputQueue w this q) hP
  · exact fun _ _ _ _ w _ _ hP _ => hadds (.record w rfl) hP

end

/-! ## Steps -/

/-- What a step hands to the socket of the connection at `c`. -/
def offered (c : Nat) (w : World) : Action → Octets
  | .sendOutput c' _ => if c' = c then (Clbp.withdrawOutput site.readBlockSize (w.unsent c)).1 else []
  | _ => []

/-- What the socket takes of it. -/
def sent (c : Nat) (w : World) (x : Action) : Octets :=
  match x with
  | .sendOutput _ written => (offered site c w x).take written
  | _ => []

/-- The socket takes all of it. -/
def Whole (c : Nat) (w : World) (x : Action) : Prop := sent site c w x = offered site c w x

section
variable {c d : Nat} {w : World}

theorem unsent_handleInput (hw : w.WellFormed) (read : Option Octets)
    (honce : (handleInput site d read w).2.handOvers.Nodup) (c : Nat) : w.unsent c <+: (handleInput site d read w).2.unsent c := by
  have hkeeps : (handleInput site d read w).2.handOvers.Nodup →
      ∀ c, w.unsent c <+: (handleInput site d read w).2.unsent c := by
    refine handleInput_keeps site (G := fun _ => true) (P := fun w' => w'.handOvers.Nodup → ∀ c, w.unsent c <+: w'.unsent c)
      (M := fun this w' => w'.handOvers.Nodup → Sending w d this w') hw (fun _ _ => List.prefix_refl _) (fun _ _ => rfl) ?_ ?_ ?_
    · intro conn hconn _
      exact ⟨fun _ => ⟨fun _ => List.prefix_refl _, .inl ⟨conn, hconn, rfl⟩⟩, keeps_sending site _⟩
    · intro this line hP honce
      have hadds : w.Adds (receive d line w) := by
        refine (World.Adds.modifyConnection w d ?_).trans (.of_eq rfl rfl rfl)
        exact fun _ => rfl
      exact (hP (hadds.handOvers ▸ honce)).adds hadds
    · intro this w' _ hP honce c
      obtain ⟨s, e⟩ := wake_spec d w'
      rw [e] at honce ⊢
      exact (hP honce).grows c
  exact hkeeps honce c

/-- A block goes from the front of the queue of the connection's object. -/
theorem outgoing_sendOutput {a : Nat} (h : w.HasProtocol d a) (written : Nat) (a' : Nat) :
    (sendOutput site d written w).outgoing a' =
      if a' = a then (Clbp.withdrawOutput site.readBlockSize (w.outgoing a)).2 else w.outgoing a' := by
  obtain ⟨conn, hconn, rfl⟩ := h
  unfold sendOutput
  rw [hconn]
  dsimp only
  cases hp : w.protocol conn.protocol with
  | none =>
    have hempty : w.outgoing conn.protocol = [] := by rw [World.outgoing, hp]; rfl
    split_ifs with ha
    · simp [ha, hempty, Clbp.withdrawOutput, substr]
    · rfl
  | some p =>
    have houtgoing : w.outgoing conn.protocol = p.outputQueue := by rw [World.outgoing, hp]; rfl
    have hqueue : ∀ q, (p.setOutputQueue q).outputQueue = q := by
      obtain ⟨c, r | u⟩ := p <;> exact fun _ => rfl
    rw [houtgoing]
    dsimp only
    split_ifs with hmore ha ha
    all_goals simp [World.outgoing, World.modifyConnection, World.modifyProtocol, ha, hp, hqueue, Outgoing.sendOutput]

/-- What the connection hands to the socket was first in what it had queued. -/
theorem unsent_sendOutput (hw : w.WellFormed) {a : Nat} (h : w.HasProtocol c a) (d written : Nat) :
    offered site c w (.sendOutput d written) ++ (sendOutput site d written w).unsent c = w.unsent c := by
  have hafter := (frame_sendOutput site d written w).hasProtocol_iff.2 h
  rw [World.unsent_of_hasProtocol hafter, World.unsent_of_hasProtocol h, offered]
  split_ifs with hd
  · subst hd
    rw [World.unsent_of_hasProtocol h, outgoing_sendOutput site h, if_pos rfl]
    exact Clbp.withdrawOutput_split _ _
  · cases hconn : w.connection d with
    | none => simp [sendOutput, hconn]
    | some conn =>
      have hother : w.HasProtocol d conn.protocol := ⟨conn, hconn, rfl⟩
      have hne : a ≠ conn.protocol := fun e => hd (hw.connection_unique h (e ▸ hother))
      rw [outgoing_sendOutput site hother, if_neg hne, List.nil_append]

/-- What is queued is handed to the socket, or is still queued after the step. -/
theorem unsent_act (hw : w.WellFormed) (x : Action) (hc : (w.connection c).isSome = true)
    (hstays : ((act site w x).connection c).isSome = true) (honce : (act site w x).handOvers.Nodup) :
    w.unsent c <+: offered site c w x ++ (act site w x).unsent c := by
  obtain ⟨conn, hconn⟩ := Option.isSome_iff_exists.1 hc
  have hself : w.HasProtocol c conn.protocol := ⟨conn, hconn, rfl⟩
  cases x with
  | setTime t => exact List.prefix_refl _
  | newConnection flags accepted =>
    cases accepted with
    | none => exact List.prefix_refl _
    | some socket =>
      have hlt : c < w.allocated := hw.connection_lt c hc
      have hprotocol := hw.hasProtocol_lt hself
      have hself' : (newConnection flags (some socket) w).HasProtocol c conn.protocol := by
        rw [newConnection_hasProtocol, if_neg hlt.ne]
        exact hself
      rw [act, World.unsent_of_hasProtocol hself, World.unsent_of_hasProtocol hself']
      simp only [offered, newConnection, World.outgoing, List.nil_append]
      rw [Function.update_of_ne (by omega)]
  | handleInput d read => exact unsent_handleInput site hw read honce c
  | sendOutput d written =>
    rw [act, unsent_sendOutput site hw hself]
  | destroy d =>
    cases hd : w.connection d with
    | none => simp [act, destroy, hd, offered]
    | some other =>
      have hne : c ≠ d := by
        rintro rfl
        rw [act, destroy_connection] at hstays
        cases hstays
      have hself' : (destroy d w).HasProtocol c conn.protocol := (destroy_hasProtocol hd c conn.protocol).2 ⟨hne, hself⟩
      rw [act, World.unsent_of_hasProtocol hself, World.unsent_of_hasProtocol hself']
      have hprotocol : conn.protocol ≠ other.protocol := fun e => hne (hw.connection_unique ⟨other, hd, e.symm⟩ hself)
      simp [offered, destroy, hd, World.outgoing, Function.update_of_ne hprotocol]

theorem log_act (hw : w.WellFormed) (x : Action) : w.log <+: (act site w x).log := by
  cases x with
  | setTime t => exact List.prefix_refl _
  | newConnection flags accepted =>
    cases accepted with
    | none => exact List.prefix_refl _
    | some socket => exact List.prefix_append _ _
  | handleInput d read => exact (wellFormed_handleInput site d read hw).2
  | sendOutput d written =>
    rw [act, sendOutput_log]
  | destroy d =>
    simp only [act, destroy]
    split
    · exact List.prefix_refl _
    · exact List.prefix_append _ _

theorem log_run (hw : w.WellFormed) (actions : List Action) : w.log <+: (actions.foldl (act site) w).log := by
  have h : (actions.foldl (act site) w).WellFormed ∧ w.log <+: (actions.foldl (act site) w).log := by
    refine Runs.run_keeps (I := fun w' : World => w'.WellFormed ∧ w.log <+: w'.log) ?_ ⟨hw, List.prefix_refl _⟩
    intro w' x h
    exact ⟨wellFormed_act site h.1 x, h.2.trans (log_act site h.1 x)⟩
  exact h.2

end

/-! ## Runs -/

/-- What the socket of the connection at `c` took in a run. -/
def sentIn (c : Nat) (w : World) (actions : List Action) : Octets :=
  (Runs.collect (act site) (fun w x => some (sent site c w x)) w actions).flatten

/-- What it took from the start on, and what is queued after that. -/
def stream (c : Nat) (actions : List Action) : Octets := sentIn site c (start site) actions ++ (reach site actions).unsent c

section
variable {c : Nat} {w : World}

theorem unsent_run (hw : w.WellFormed) (hnewest : NewestFirst w) (hc : (w.connection c).isSome = true) (actions : List Action)
    (hstays : ((actions.foldl (act site) w).connection c).isSome = true)
    (honce : (actions.foldl (act site) w).handOvers.Nodup) (hwhole : Runs.Along (act site) (Whole site c) w actions) :
    w.unsent c <+: sentIn site c w actions ++ (actions.foldl (act site) w).unsent c := by
  induction actions generalizing w with
  | nil => exact List.prefix_refl _
  | cons x actions ih =>
    obtain ⟨hx, hrest⟩ := hwhole
    have hremains : Remains c _ w := ⟨hw, hnewest, hw.connection_lt c hc, .inl rfl⟩
    have hafter := remains_act site hremains x
    have hc' : ((act site w x).connection c).isSome = true := by
      by_contra hgone
      -- a connection that is gone does not come back
      have hnone : Remains c none (act site w x) :=
        ⟨hafter.wellFormed, hafter.newestFirst, hafter.lt_allocated, .inl (by simpa using hgone)⟩
      have hend : Remains c none (actions.foldl (act site) (act site w x)) :=
        Runs.run_keeps (fun _ x h => remains_act site h x) hnone
      rw [List.foldl_cons, Option.map_eq_none_iff.1 (hend.descriptor.elim id id)] at hstays
      cases hstays
    have honce' : (act site w x).handOvers.Nodup :=
      honce.sublist (((log_run site hafter.wellFormed actions).filterMap _).sublist)
    have hstep := unsent_act site hw x hc hc' honce'
    rw [← hx] at hstep
    refine hstep.trans ?_
    simp only [sentIn, Runs.collect, Option.toList_some, List.singleton_append, List.flatten_cons, List.append_assoc]
    exact (List.prefix_append_right_inj _).2 (ih hafter.wellFormed hafter.newestFirst hc' hstays honce hrest)

theorem sentIn_append (actions later : List Action) :
    sentIn site c w (actions ++ later) = sentIn site c w actions ++ sentIn site c (actions.foldl (act site) w) later := by
  rw [sentIn, Runs.collect_append, List.flatten_append]
  rfl

end

/-- On a connection that stays, what was sent and queued is only added to, in
every run in which its socket takes whole blocks and no registrar hands over
twice: not an octet is lost, sent again or overtaken, by a hand-over either. -/
theorem stream_grows (before later : List Action) {c : Nat} (hc : ((reach site before).connection c).isSome = true)
    (hstays : ((reach site (before ++ later)).connection c).isSome = true)
    (honce : (reach site (before ++ later)).handOvers.Nodup)
    (hwhole : Runs.Along (act site) (Whole site c) (reach site before) later) :
    stream site c before <+: stream site c (before ++ later) := by
  have hnewest : NewestFirst (reach site before) :=
    (steps_newestFirst site).reach (newestFirst_start site) before fun _ _ => rfl
  rw [reach, List.foldl_append, ← reach] at hstays honce
  rw [stream, stream, sentIn_append, List.append_assoc, reach, reach, List.foldl_append]
  exact (List.prefix_append_right_inj _).2
    (unsent_run site (wellFormed_reach site before) hnewest hc later hstays honce hwhole)

/-- The user's object sends what the registrar had queued, and its welcome after it. -/
theorem stream_grows_welcome : let before := [accepts 5, types 0 "NICK pickle\r\n"]
    let later := [types 0 "PONG Z0\r\nUSER user 0 host :name\r\n", .sendOutput 0 206]
    (reach sampleSite (before ++ later)).handOvers = [1] ∧
      sentIn sampleSite 0 (start sampleSite) before = [] ∧ (reach sampleSite (before ++ later)).unsent 0 = [] ∧
      stream sampleSite 0 before <+: stream sampleSite 0 (before ++ later) := by
  intro before later
  have hhandOvers : (reach sampleSite (before ++ later)).handOvers = [1] := by decide +kernel
  refine ⟨hhandOvers, by decide +kernel, by decide +kernel, ?_⟩
  refine stream_grows sampleSite before later (by decide +kernel) (by decide +kernel) ?_ ⟨rfl, ?_, trivial⟩
  · rw [hhandOvers]
    exact List.nodup_singleton 1
  · unfold Whole
    decide +kernel

end Daemon

end KineIRCd

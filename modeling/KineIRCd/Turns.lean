import KineIRCd.Identities
import KineIRCd.Select
/-!
# Turns

A pass goes through the connections, the newest first, and gives each one its
turn: to read if there is something to read, and to send if there is room. It
ends with a connection that is deleted, so the older ones miss their turn.
-/
namespace KineIRCd.Daemon

open Irc2User (Site)

/-! ## What a connection gets -/

def Action.reads (c : Nat) : Action → Bool
  | .handleInput c' _ => c' = c
  | _ => false

def Action.sends (c : Nat) : Action → Bool
  | .sendOutput c' _ => c' = c
  | _ => false

/-- The step deletes a connection that came after the one at `c`. -/
def Action.cuts (c : Nat) : Action → Bool
  | .destroy c' => c < c'
  | _ => false

/-- The steps give the connection its turn, all of it unless it is gone after them. -/
structure Taken (p : Pass) (c fd : Nat) (actions : List Action) (w : World) : Prop where
  reads : actions.countP (·.reads c) = (p.readable fd).toNat
  sends : (w.connection c).isSome = true → actions.countP (·.sends c) = (p.writable fd).toNat
  cuts : actions.countP (·.cuts c) = 0

/-- The steps end with a newer connection, before the turn. -/
structure Missed (c : Nat) (actions : List Action) : Prop where
  reads : actions.countP (·.reads c) = 0
  sends : actions.countP (·.sends c) = 0
  cuts : actions.countP (·.cuts c) = 1

def Turn (p : Pass) (c fd : Nat) (actions : List Action) (w : World) : Prop := Taken p c fd actions w ∨ Missed c actions

/-- Steps that are no part of the turn, and do not end it. -/
def Elsewhere (c : Nat) (actions : List Action) : Prop :=
  ∀ x ∈ actions, x.reads c = false ∧ x.sends c = false ∧ x.cuts c = false

section
variable {p : Pass} {c fd : Nat} {front back : List Action} {w : World}

theorem Elsewhere.countP (h : Elsewhere c front) : front.countP (·.reads c) = 0 ∧ front.countP (·.sends c) = 0 ∧
    front.countP (·.cuts c) = 0 := by
  refine ⟨?_, ?_, ?_⟩
  · exact List.countP_eq_zero.2 fun x hx => by simp [h x hx]
  · exact List.countP_eq_zero.2 fun x hx => by simp [h x hx]
  · exact List.countP_eq_zero.2 fun x hx => by simp [h x hx]

theorem Elsewhere.append (h : Elsewhere c front) (h' : Elsewhere c back) : Elsewhere c (front ++ back) := by
  intro x hx
  exact (List.mem_append.1 hx).elim (h x) (h' x)

theorem Turn.after (h : Turn p c fd back w) (hfront : Elsewhere c front) : Turn p c fd (front ++ back) w := by
  obtain ⟨hreads, hsends, hcuts⟩ := hfront.countP
  rcases h with h | h
  · refine .inl ⟨?_, fun hc => ?_, ?_⟩
    · rw [List.countP_append, hreads, h.reads, Nat.zero_add]
    · rw [List.countP_append, hsends, h.sends hc, Nat.zero_add]
    · rw [List.countP_append, hcuts, h.cuts]
  · refine .inr ⟨?_, ?_, ?_⟩
    · rw [List.countP_append, hreads, h.reads]
    · rw [List.countP_append, hsends, h.sends]
    · rw [List.countP_append, hcuts, h.cuts]

theorem Taken.before (h : Taken p c fd front w) (hback : Elsewhere c back) : Taken p c fd (front ++ back) w := by
  obtain ⟨hreads, hsends, hcuts⟩ := hback.countP
  refine ⟨?_, fun hc => ?_, ?_⟩
  · rw [List.countP_append, hreads, h.reads, Nat.add_zero]
  · rw [List.countP_append, hsends, h.sends hc, Nat.add_zero]
  · rw [List.countP_append, hcuts, h.cuts]

end

/-! ## One pass -/

variable (site : Site)

section
variable {p : Pass} {c d fd : Nat} {w : World}

theorem elsewhere_sendActions (h : d ≠ c) : Elsewhere c (sendActions p d w) := by
  intro x hx
  unfold sendActions at hx
  split at hx
  · cases hx
  · split_ifs at hx
    · obtain rfl := List.mem_singleton.1 hx
      simp [Action.reads, Action.sends, Action.cuts, h]
    · cases hx

theorem elsewhere_handleInput (h : d ≠ c) (read : Option Octets) : Elsewhere c [.handleInput d read] := by
  simp [Elsewhere, Action.reads, Action.sends, Action.cuts, h]

/-- Older connections neither take the turn nor end it. -/
theorem elsewhere_serveActions {cs : List Nat} (h : ∀ d ∈ cs, d < c) (w : World) :
    Elsewhere c (serveActions site p cs w) := by
  induction cs generalizing w with
  | nil => simp [serveActions, Elsewhere]
  | cons d cs ih =>
    obtain ⟨hd, hcs⟩ := List.forall_mem_cons.1 h
    rw [serveActions]
    cases w.connection d with
    | none => exact ih hcs w
    | some conn =>
      dsimp only
      split_ifs
      · exact (elsewhere_handleInput hd.ne _).append ((elsewhere_sendActions hd.ne).append (ih hcs _))
      · refine (elsewhere_handleInput hd.ne _).append ?_
        simp [Elsewhere, Action.reads, Action.sends, Action.cuts, hd.le]
      · exact (elsewhere_sendActions hd.ne).append (ih hcs _)

/-- The own turn: reading, and what can be sent after it. -/
theorem taken_own (h : HasDescriptor w c fd) (w' : World) :
    Taken p c fd ((if p.readable fd then [.handleInput c (p.read fd)] else []) ++ sendActions p c w) w' := by
  obtain ⟨conn, hconn, rfl⟩ := Option.map_eq_some_iff.1 h
  rw [sendActions, hconn]
  dsimp only
  refine ⟨?_, fun _ => ?_, ?_⟩
  · cases p.readable conn.fd <;> cases p.writable conn.fd <;> simp [Action.reads]
  · cases p.readable conn.fd <;> cases p.writable conn.fd <;> simp [Action.sends]
  · cases p.readable conn.fd <;> cases p.writable conn.fd <;> simp [Action.cuts]

theorem destroy_connection (c : Nat) (w : World) : (destroy c w).connection c = none := by
  unfold destroy
  cases hconn : w.connection c with
  | none => exact hconn
  | some conn => exact Function.update_self _ _ _

/-- Each connection in the list gets its turn, unless a newer one is deleted. -/
theorem turn_serve {cs : List Nat} (hw : w.WellFormed) (hcs : cs.Pairwise (· > ·)) (hc : c ∈ cs)
    (hfd : HasDescriptor w c fd) : Turn p c fd (serveActions site p cs w) (serve site p cs w) := by
  induction cs generalizing w with
  | nil => cases hc
  | cons d cs ih =>
    obtain ⟨hd, hcs⟩ := List.pairwise_cons.1 hcs
    rw [serveActions, serve]
    rcases List.mem_cons.1 hc with rfl | hc
    · -- its own turn comes before those of older connections
      obtain ⟨conn, hconn, rfl⟩ := Option.map_eq_some_iff.1 hfd
      rw [hconn]
      dsimp only
      left
      have hread := (handleInput_sets site hw c (p.read conn.fd)).1.hasDescriptor_iff.2 hfd
      split_ifs with hreadable hok
      · have hown := @taken_own p c conn.fd _ hread
          (serve site p cs (sendIfWritable site p c (handleInput site c (p.read conn.fd) w).2))
        rw [if_pos hreadable] at hown
        exact hown.before (elsewhere_serveActions site hd _)
      · refine ⟨?_, ?_, ?_⟩
        · simp [Action.reads, hreadable]
        · rw [destroy_connection]
          intro hsome
          cases hsome
        · simp [Action.cuts]
      · have hown := @taken_own p c conn.fd _ hfd (serve site p cs (sendIfWritable site p c w))
        rw [if_neg hreadable] at hown
        exact hown.before (elsewhere_serveActions site hd _)
    · have hne : d ≠ c := (hd c hc).ne'
      cases w.connection d with
      | none => exact ih hw hcs hc hfd
      | some conn =>
        dsimp only
        have hw' := (wellFormed_handleInput site d (p.read conn.fd) hw).1
        have hfd' := (handleInput_sets site hw d (p.read conn.fd)).1.hasDescriptor_iff.2 hfd
        split_ifs
        · refine Turn.after ?_ (elsewhere_handleInput hne (p.read conn.fd))
          refine Turn.after ?_ (elsewhere_sendActions hne)
          exact ih (wellFormed_sendIfWritable hw' p d) hcs hc ((sameDescriptors_sendIfWritable p d _).hasDescriptor_iff.2 hfd')
        · right
          refine ⟨?_, ?_, ?_⟩
          · simp [Action.reads, hne]
          · simp [Action.sends]
          · simp [Action.cuts, hd c hc]
        · refine Turn.after ?_ (elsewhere_sendActions hne)
          exact ih (wellFormed_sendIfWritable hw p d) hcs hc ((sameDescriptors_sendIfWritable p d w).hasDescriptor_iff.2 hfd)

end

/-! ## The order of the list -/

/-- New connections are put in front. -/
def NewestFirst (w : World) : Prop := w.connections.Pairwise (· > ·)

section
variable {p : Pass} {c fd : Nat} {w : World}

theorem newestFirst_newConnection (flags : ListenerFlags) (accepted : Option Accepted) (hw : w.WellFormed)
    (h : NewestFirst w) : NewestFirst (newConnection flags accepted w) := by
  cases accepted with
  | none => exact h
  | some socket => exact List.pairwise_cons.2 ⟨fun c hc => hw.connection_lt c ((hw.live c).1 hc), h⟩

theorem newestFirst_destroy (c : Nat) (h : NewestFirst w) : NewestFirst (destroy c w) := by
  unfold destroy
  split
  · exact h
  · exact h.sublist List.erase_sublist

theorem steps_newestFirst : Steps site (fun _ => true) NewestFirst where
  time _ _ _ h := h
  newConnection flags accepted w hw h _ := newestFirst_newConnection flags accepted hw h
  handleInput c read w hw h _ := by
    rw [NewestFirst, (handleInput_sets site hw c read).1.connections]
    exact h
  sendOutput c written w _ h := by
    rw [NewestFirst, (sendOutput_sets site c written w).1.connections]
    exact h
  destroy c w _ h _ := newestFirst_destroy c h

theorem newestFirst_start : NewestFirst (start site) := by
  obtain ⟨s, n, e⟩ := start_spec site
  rw [e]
  exact List.Pairwise.nil

theorem newestFirst_run (passes : List Pass) : NewestFirst (run site passes) :=
  (steps_newestFirst site).run (newestFirst_start site) passes fun _ _ => rfl

theorem newConnection_keeps (flags : ListenerFlags) (accepted : Option Accepted) (hw : w.WellFormed)
    (h : HasDescriptor w c fd) : HasDescriptor (newConnection flags accepted w) c fd := by
  cases accepted with
  | none => exact h
  | some socket =>
    rw [newConnection_hasDescriptor, if_neg (h.lt_allocated hw).ne]
    exact h

/-- The connections that come in a pass are put before the others. -/
theorem acceptAll_keeps (hw : w.WellFormed) (hnewest : NewestFirst w) (h : HasDescriptor w c fd) :
    (acceptAll site p w).WellFormed ∧ NewestFirst (acceptAll site p w) ∧ HasDescriptor (acceptAll site p w) c fd := by
  refine List.foldlRecOn (motive := fun w : World => w.WellFormed ∧ NewestFirst w ∧ HasDescriptor w c fd) _ _
    ⟨hw, hnewest, h⟩ ?_
  rintro w ⟨hw, hnewest, h⟩ listener -
  split_ifs
  · exact ⟨wellFormed_newConnection _ _ hw, newestFirst_newConnection _ _ hw hnewest, newConnection_keeps _ _ hw h⟩
  · exact ⟨hw, hnewest, h⟩

theorem elsewhere_acceptActions (listeners : List (Nat × ListenerFlags)) : Elsewhere c (acceptActions p listeners) := by
  induction listeners with
  | nil => simp [acceptActions, Elsewhere]
  | cons listener listeners ih =>
    rw [acceptActions]
    split_ifs
    · have hfirst : Elsewhere c [.newConnection listener.2 (p.accept listener.1)] := by
        simp [Elsewhere, Action.reads, Action.sends, Action.cuts]
      exact hfirst.append ih
    · exact ih

/-- So it is in a pass. -/
theorem turn_pass (hw : w.WellFormed) (hnewest : NewestFirst w) (h : HasDescriptor w c fd) :
    Turn p c fd (passActions site p w) (pass site w p) := by
  obtain ⟨hw', hnewest', h'⟩ := @acceptAll_keeps site p c fd _ (hw.frame (.setTime w p.time)) hnewest h
  have hturn := @turn_serve site p _ _ _ _ hw' hnewest' (mem_connections hw' h') h'
  have htime : Elsewhere c [.setTime p.time] := by simp [Elsewhere, Action.reads, Action.sends, Action.cuts]
  exact hturn.after (htime.append (elsewhere_acceptActions _))

/-- What a connection with this descriptor, or with none any more, comes to. -/
structure Remains (c : Nat) (descriptor : Option Nat) (w : World) : Prop where
  wellFormed : w.WellFormed
  newestFirst : NewestFirst w
  lt_allocated : c < w.allocated
  descriptor : (w.connection c).map (·.fd) = descriptor ∨ (w.connection c).map (·.fd) = none

section
variable {descriptor : Option Nat}

theorem SameDescriptors.remains {w' : World} (hs : SameDescriptors w w') (h : Remains c descriptor w) (hw' : w'.WellFormed)
    (hle : w.allocated ≤ w'.allocated) : Remains c descriptor w' := by
  refine ⟨hw', ?_, h.lt_allocated.trans_le hle, ?_⟩
  · rw [NewestFirst, hs.connections]
    exact h.newestFirst
  · rw [hs.descriptor]
    exact h.descriptor

theorem remains_act (h : Remains c descriptor w) (x : Action) : Remains c descriptor (act site w x) := by
  have hw := wellFormed_act site h.wellFormed x
  cases x with
  | setTime t => exact ⟨hw, h.newestFirst, h.lt_allocated, h.descriptor⟩
  | newConnection flags accepted =>
    cases accepted with
    | none => exact h
    | some socket =>
      refine ⟨hw, newestFirst_newConnection flags (some socket) h.wellFormed h.newestFirst,
        h.lt_allocated.trans (Nat.lt_add_of_pos_right (by decide)), ?_⟩
      simp only [act, newConnection]
      rw [Function.update_of_ne h.lt_allocated.ne]
      exact h.descriptor
  | handleInput d read =>
    exact (handleInput_sets site h.wellFormed d read).1.remains h hw (grown_handleInput site d read h.wellFormed).allocated
  | sendOutput d written =>
    exact (sendOutput_sets site d written w).1.remains h hw (frame_sendOutput site d written w).allocated.ge
  | destroy d =>
    have hdescriptor : ((destroy d w).connection c).map (·.fd) = (w.connection c).map (·.fd) ∨
        ((destroy d w).connection c).map (·.fd) = none := by
      unfold destroy
      cases w.connection d with
      | none => exact .inl rfl
      | some conn =>
        dsimp only
        rw [Function.update_apply]
        split_ifs
        · exact .inr rfl
        · exact .inl rfl
    refine ⟨hw, newestFirst_destroy d h.newestFirst, ?_, ?_⟩
    · simp only [act, destroy]
      split
      · exact h.lt_allocated
      · exact h.lt_allocated
    · rcases hdescriptor with e | e
      · rw [act, e]
        exact h.descriptor
      · exact .inr e

theorem remains_passes (h : Remains c descriptor w) (passes : List Pass) :
    Remains c descriptor (passes.foldl (pass site) w) := by
  refine Runs.run_keeps (fun w p hw => ?_) h
  rw [pass_actions]
  exact Runs.run_keeps (fun w x hw => remains_act site hw x) hw

end

end

/-! ## Runs of passes -/

/-- How many of the steps of a pass are like that. -/
def steps (f : Action → Bool) (w : World) (p : Pass) : Nat := (passActions site p w).countP f

section
variable {p : Pass} {c fd : Nat} {w : World}

/-- The passes that report the descriptor, as the turns that are taken and missed. -/
theorem Turn.counts {actions : List Action} (h : Turn p c fd actions w) (hc : (w.connection c).isSome = true) :
    (if p.readable fd then 1 else 0) =
        actions.countP (·.reads c) + (if p.readable fd then actions.countP (·.cuts c) else 0) ∧
      (if p.writable fd then 1 else 0) =
        actions.countP (·.sends c) + (if p.writable fd then actions.countP (·.cuts c) else 0) := by
  rcases h with h | h
  · rw [h.reads, h.sends hc, h.cuts]
    cases p.readable fd <;> cases p.writable fd <;> simp
  · rw [h.reads, h.sends, h.cuts]
    simp

theorem turns_passes (hw : w.WellFormed) (hnewest : NewestFirst w) (hfd : HasDescriptor w c fd) (passes : List Pass)
    (hstays : ((passes.foldl (pass site) w).connection c).isSome = true) :
    let total := fun f => Runs.total (pass site) f w passes
    passes.countP (·.readable fd) = total (steps site (·.reads c)) +
        total (fun w p => if p.readable fd then steps site (·.cuts c) w p else 0) ∧
      passes.countP (·.writable fd) = total (steps site (·.sends c)) +
        total (fun w p => if p.writable fd then steps site (·.cuts c) w p else 0) := by
  intro total
  induction passes generalizing w with
  | nil => exact ⟨rfl, rfl⟩
  | cons p passes ih =>
    have hremains : Remains c (some fd) w := ⟨hw, hnewest, hfd.lt_allocated hw, .inl hfd⟩
    have hafter : Remains c (some fd) (pass site w p) := remains_passes site hremains [p]
    have hfd' : HasDescriptor (pass site w p) c fd := by
      refine hafter.descriptor.resolve_right fun hgone => ?_
      -- a connection that is gone does not come back
      have hnone : Remains c none (pass site w p) :=
        ⟨hafter.wellFormed, hafter.newestFirst, hafter.lt_allocated, .inl hgone⟩
      have hend := remains_passes site hnone passes
      rw [List.foldl_cons, Option.map_eq_none_iff.1 (hend.descriptor.elim id id)] at hstays
      cases hstays
    have hc : ((pass site w p).connection c).isSome = true := by simpa using congrArg Option.isSome hfd'
    obtain ⟨hreads, hsends⟩ := (turn_pass site hw hnewest hfd).counts hc
    obtain ⟨ihreads, ihsends⟩ := ih hafter.wellFormed hafter.newestFirst hfd' hstays
    simp only [total, Runs.total, List.countP_cons, steps] at ihreads ihsends ⊢
    omega

end

/-- In a run of passes a connection reads in each pass that reports it readable,
and sends in each that reports it writable, other than those that delete a newer
connection before its turn comes. Older connections do not make a difference. -/
theorem turns_taken (before passes : List Pass) {c fd : Nat} (hc : HasDescriptor (run site before) c fd)
    (hstays : ((run site (before ++ passes)).connection c).isSome = true) :
    let total := fun f => Runs.total (pass site) f (run site before) passes
    passes.countP (·.readable fd) = total (steps site (·.reads c)) +
        total (fun w p => if p.readable fd then steps site (·.cuts c) w p else 0) ∧
      passes.countP (·.writable fd) = total (steps site (·.sends c)) +
        total (fun w p => if p.writable fd then steps site (·.cuts c) w p else 0) := by
  rw [run, List.foldl_append] at hstays
  exact turns_passes site (wellFormed_run site before) (newestFirst_run site before) hc passes hstays

/-- The newer of two clients drops when the other has something to say. -/
def interrupted : Pass where
  readable d := d = 5 || d = 6
  read d := if d = 5 then some (octets "QUIT\r\n") else none

/-- It is heard in the next pass. -/
theorem turns_taken_interrupted : let before := [connects 5, connects 6]
    [interrupted, sends 5 (octets "NICK sanc\r\n")].countP (·.readable 5) =
      Runs.total (pass sampleSite) (steps sampleSite (·.reads 0)) (run sampleSite before)
        [interrupted, sends 5 (octets "NICK sanc\r\n")] + 1 := by
  intro before
  have hc : HasDescriptor (run sampleSite before) 0 5 := by
    unfold HasDescriptor
    decide +kernel
  have hstays : ((run sampleSite (before ++ [interrupted, sends 5 (octets "NICK sanc\r\n")])).connection 0).isSome = true := by
    decide +kernel
  have hmissed : Runs.total (pass sampleSite) (fun w p => if p.readable 5 then steps sampleSite (·.cuts 0) w p else 0)
      (run sampleSite before) [interrupted, sends 5 (octets "NICK sanc\r\n")] = 1 := by decide +kernel
  obtain ⟨hreads, -⟩ := turns_taken sampleSite before [interrupted, sends 5 (octets "NICK sanc\r\n")] hc hstays
  exact hreads.trans (congrArg _ hmissed)

end KineIRCd.Daemon

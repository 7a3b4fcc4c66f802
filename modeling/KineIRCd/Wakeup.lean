import KineIRCd.Descriptors
/-!
# Wake-ups

A connection's descriptor is put into `outFDSET` when its own input has been
handled, and taken out when it has sent everything. A message from another user
is queued without either, so it waits for whatever happens next.
-/
namespace KineIRCd.Daemon

open Irc2User (Site Self)

variable (site : Site)

/-- `select()` waits for a live connection to become writable exactly when it
has something to send. -/
def Woken (w : World) : Prop :=
  ∀ c ∈ w.connections, ∀ conn, w.connection c = some conn → (conn.fd ∈ w.outFDSET ↔ w.pending conn.protocol = true)

/-- `accept` gives a descriptor that is not in use. -/
def newDescriptor : Event → Bool
  | .accept _ inUse => !inUse
  | _ => true

/-- No message is queued on an idle connection other than the sender's own. -/
def wakes : Event → Bool
  | .deliver _ own attached pending => own || !attached || pending
  | _ => true

/-- Descriptors in the set belong to live connections, one each, and those in
`ok` wait exactly when they have output. -/
structure WokenOn (ok : Nat → Prop) (w : World) : Prop where
  woken : ∀ c fd a, ok c → HasDescriptor w c fd → w.HasProtocol c a → (fd ∈ w.outFDSET ↔ w.pending a = true)
  distinct : ∀ c c' fd, HasDescriptor w c fd → HasDescriptor w c' fd → c = c'
  used : ∀ fd ∈ w.outFDSET, ∃ c, HasDescriptor w c fd

/-- While the object at `this` handles a chunk of the connection at `c`, that
connection may have output it does not wait for yet. -/
structure WokenDuring (c this : Nat) (w : World) : Prop extends WokenOn (· ≠ c) w where
  mine : ∀ fd a, HasDescriptor w c fd → w.HasProtocol c a → fd ∈ w.outFDSET → w.pending a = true ∧ w.pending this = true

section
variable {w w' : World} {c this : Nat} {ok : Nat → Prop}

theorem WokenOn.congr (h : WokenOn ok w) (hfd : ∀ c fd, HasDescriptor w' c fd ↔ HasDescriptor w c fd)
    (hprotocol : ∀ c a, w'.HasProtocol c a ↔ w.HasProtocol c a) (hout : w'.outFDSET = w.outFDSET)
    (hpending : ∀ c a, ok c → w.HasProtocol c a → w'.pending a = w.pending a) : WokenOn ok w' where
  woken c fd a hok hc ha := by
    have ha' := (hprotocol c a).1 ha
    rw [hout, hpending c a hok ha']
    exact h.woken c fd a hok ((hfd c fd).1 hc) ha'
  distinct c c' fd hc hc' := h.distinct c c' fd ((hfd c fd).1 hc) ((hfd c' fd).1 hc')
  used fd hmem := by
    obtain ⟨c, hc⟩ := h.used fd (hout ▸ hmem)
    exact ⟨c, (hfd c fd).2 hc⟩

/-- A step that keeps the structure, adds output to the object at `this`, and
to others only if they had some. -/
theorem WokenDuring.congr (h : WokenDuring c this w) (hfd : ∀ c fd, HasDescriptor w' c fd ↔ HasDescriptor w c fd)
    (hprotocol : ∀ c a, w'.HasProtocol c a ↔ w.HasProtocol c a) (hout : w'.outFDSET = w.outFDSET)
    (hpending : ∀ c' a, c' ≠ c → w.HasProtocol c' a → w'.pending a = w.pending a)
    (hmono : ∀ a, w.pending a = true → w'.pending a = true) : WokenDuring c this w' where
  toWokenOn := h.toWokenOn.congr hfd hprotocol hout hpending
  mine fd a hc ha hmem := by
    obtain ⟨hpend, hthis⟩ := h.mine fd a ((hfd c fd).1 hc) ((hprotocol c a).1 ha) (hout ▸ hmem)
    exact ⟨hmono a hpend, hmono this hthis⟩

theorem moreOutput_of_prefix {p p' : ProtocolBase} (h : p.outputQueue <+: p'.outputQueue) (hp : p.moreOutput = true) :
    p'.moreOutput = true := by
  obtain ⟨t, ht⟩ := h
  simp only [ProtocolBase.moreOutput, Clbp.moreOutput, Bool.not_eq_true', List.isEmpty_eq_false_iff] at hp ⊢
  rw [← ht]
  simp [hp]

theorem pending_modifyProtocol (w : World) (a : Nat) (g : ProtocolBase → ProtocolBase) (a' : Nat) :
    (w.modifyProtocol a g).pending a' = if a' = a then (w.protocol a).any (fun p => (g p).moreOutput) else w.pending a' := by
  rw [World.pending, World.protocol_modifyProtocol]
  split_ifs
  · exact Option.any_map ..
  · rfl

/-- The object of another connection is another object. -/
theorem Handling.ne_this (hw : Handling c this w) {c' a : Nat} (hc : c' ≠ c) (ha : w.HasProtocol c' a) : a ≠ this := by
  rintro rfl
  have howner := hw.wellFormed.owner c' a ha
  rw [hw.owner, Option.some_inj] at howner
  exact hc howner.symm

/-- The object at `this` may queue output. -/
theorem WokenDuring.own (h : WokenDuring c this w) (hw : Handling c this w) {g : ProtocolBase → ProtocolBase}
    (hg : ∀ p, w.protocol this = some p → p.outputQueue <+: (g p).outputQueue) :
    WokenDuring c this (w.modifyProtocol this g) := by
  refine h.congr (fun _ _ => .rfl) (fun _ _ => .rfl) rfl ?_ ?_
  · intro c' a hc' ha
    rw [pending_modifyProtocol, if_neg (hw.ne_this hc' ha)]
  · intro a hpending
    rw [pending_modifyProtocol]
    split_ifs with heq
    · subst heq
      obtain ⟨p, hp, hmore⟩ := (Option.any_eq_true ..).1 hpending
      rw [hp]
      exact moreOutput_of_prefix (hg p hp) hmore
    · exact hpending

theorem WokenDuring.goodbye (h : WokenDuring c this w) : WokenDuring c this (w.goodbye c) :=
  h.congr (fun _ _ => (SameSets.goodbye w c).hasDescriptor_iff)
    (fun _ _ => (World.Frame.goodbye w c).hasProtocol_iff) rfl (fun _ _ _ _ => rfl) (fun _ h => h)

/-- A delivery to another connection finds output there, so nothing changes for it. -/
theorem WokenDuring.deliver (h : WokenDuring c this w) (hw : Handling c this w) (receiver : Nat) (line : Octets)
    (hG : Good wakes (w.deliver c receiver line)) : WokenDuring c this (w.deliver c receiver line) := by
  have hevent := hG (.deliver receiver ((w.protocol receiver).any fun p => decide (p.connection = c)) (w.attached receiver)
    (w.pending receiver)) (by simp [World.deliver, World.record])
  simp only [wakes, Bool.or_eq_true, Bool.not_eq_true'] at hevent
  have hmore : ∀ p, (ProtocolBase.outputLine line p).moreOutput = true := by
    intro p
    obtain ⟨c, r | u⟩ := p <;> simp [ProtocolBase.outputLine, ProtocolBase.moreOutput, ProtocolBase.setOutputQueue,
      ProtocolBase.outputQueue, Clbp.moreOutput, Clbp.outputLine, Clbp.outputRaw, Clbp.EOL_CR_LF]
  have hpending : ∀ a, (w.deliver c receiver line).pending a = if a = receiver then (w.protocol receiver).isSome else w.pending a := by
    intro a
    apply (pending_modifyProtocol w receiver (·.outputLine line) a).trans
    simp only [hmore]
    cases w.protocol receiver <;> rfl
  refine h.congr (fun _ _ => .rfl) (fun _ _ => .rfl) rfl ?_ ?_
  · intro c' a hc' ha
    rw [hpending]
    split_ifs with heq
    · subst heq
      obtain ⟨p, hp, howner⟩ := Option.map_eq_some_iff.1 (hw.wellFormed.owner c' a ha)
      obtain ⟨conn, hconn, rfl⟩ := ha
      have hattached : w.attached conn.protocol = true := by simp [World.attached, hp, howner, hconn]
      simp only [hp, Option.any_some, decide_eq_true_eq, howner, hc', hattached, Bool.true_eq_false, false_or] at hevent
      rw [hp, hevent]
      rfl
    · rfl
  · intro a ha
    rw [hpending]
    split_ifs with heq
    · rw [← heq]
      obtain ⟨p, hp, -⟩ := (Option.any_eq_true ..).1 ha
      rw [hp]
      rfl
    · exact ha

/-- A new object comes with the registrar's output. -/
theorem WokenDuring.createProtocol (h : WokenDuring c this w) (hw : Handling c this w) {r : Irc2Registrar.Protocol}
    (hr : w.protocol this = some ⟨c, .registrar r⟩) :
    WokenDuring c this (createProtocol site this c r.registrantData r.inputQueue r.outputQueue w) := by
  obtain ⟨p, hp, e⟩ := createProtocol_spec site this c r.registrantData r.inputQueue r.outputQueue w
  have hlt : this < w.allocated := hw.wellFormed.protocol_lt _ (by rw [hr]; rfl)
  have hfd : ∀ c' fd, HasDescriptor (Daemon.createProtocol site this c r.registrantData r.inputQueue r.outputQueue w) c' fd ↔
      HasDescriptor w c' fd := fun _ _ => (SameSets.createProtocol site _ _ _ _ _ w).hasDescriptor_iff
  have hold : ∀ a, a ≠ w.allocated →
      (Daemon.createProtocol site this c r.registrantData r.inputQueue r.outputQueue w).pending a = w.pending a := by
    intro a ha
    rw [e, World.pending]
    simp only [Function.update_of_ne ha]
    rfl
  have hout : (Daemon.createProtocol site this c r.registrantData r.inputQueue r.outputQueue w).outFDSET = w.outFDSET := by
    rw [e, World.addUser_snd]
  refine ⟨⟨?_, ?_, ?_⟩, ?_⟩
  · intro c' fd a hc' hc ha
    rw [createProtocol_hasProtocol site _ _ _ _ hw.live, if_neg hc'] at ha
    have halt := hw.wellFormed.hasProtocol_lt ha
    rw [hout, hold a (by omega)]
    exact h.woken c' fd a hc' ((hfd c' fd).1 hc) ha
  · intro c₁ c₂ fd h₁ h₂
    exact h.distinct c₁ c₂ fd ((hfd c₁ fd).1 h₁) ((hfd c₂ fd).1 h₂)
  · intro fd hmem
    obtain ⟨c', hc'⟩ := h.used fd (hout ▸ hmem)
    exact ⟨c', (hfd c' fd).2 hc'⟩
  · intro fd a hc ha hmem
    rw [createProtocol_hasProtocol site _ _ _ _ hw.live, if_pos rfl] at ha
    obtain ⟨conn, hconn⟩ := Option.isSome_iff_exists.1 hw.live
    obtain ⟨-, hthis⟩ := h.mine fd conn.protocol ((hfd c fd).1 hc) ⟨conn, hconn, rfl⟩ (hout ▸ hmem)
    rw [hold this (by omega)]
    refine ⟨?_, hthis⟩
    have hregistrar : (ProtocolBase.mk c (.registrar r)).moreOutput = true := by simpa [World.pending, hr] using hthis
    rw [ha, e, World.pending]
    simp only [Function.update_self, Option.any_some]
    exact moreOutput_of_prefix (p := ⟨c, .registrar r⟩) hp.outputQueue hregistrar

end

theorem keeps_woken (c this : Nat) (goodbyeBeforeChunk : Bool) :
    Keeps site c this goodbyeBeforeChunk wakes (WokenDuring c this) where
  own g w hw h hg := h.own hw fun p hp => (hg p hp).outputQueue
  setInputQueue q w hw h := h.own hw fun p _ => by obtain ⟨c, r | u⟩ := p <;> exact List.prefix_refl _
  rand n w _ h := h.congr (fun _ _ => .rfl) (fun _ _ => .rfl) rfl (fun _ _ _ _ => rfl) (fun _ h => h)
  goodbye w _ h _ := h.goodbye
  deliver receiver line w hw h hG := h.deliver hw receiver line hG
  leave self error w hthis hc _ hw h _ := by
    subst hthis hc
    have hquit : WokenDuring self.connection self.this (w.quit ⟨self.this, self.user.nickname⟩) :=
      h.congr (fun _ _ => .rfl) (fun _ _ => .rfl) rfl (fun _ _ _ _ => rfl) (fun _ h => h)
    have hsend := hquit.own (hw.quit _) fun p _ =>
      (ProtocolBase.Evolves.outputLine p (LibIRC2.formatMessage LibIRC2.errorCommandName [error])).outputQueue
    exact hsend.goodbye.goodbye
  create r w hr hw h _ := h.createProtocol site hw hr
  line text goodbyeBefore use acted w _ _ h _ :=
    h.congr (fun _ _ => .rfl) (fun _ _ => .rfl) rfl (fun _ _ _ _ => rfl) (fun _ h => h)

section
variable {w w' : World} {c this : Nat}

/-- Between chunks, every connection waits exactly when it has output. -/
abbrev WokenInv (w : World) : Prop := WokenOn (fun _ => True) w

/-- Setting the one descriptor right that the others do without. -/
theorem WokenOn.setDescriptor (h : WokenOn (· ≠ c) w) {fd a : Nat} (hfd : HasDescriptor w c fd) (ha : w.HasProtocol c a)
    (out : Finset Nat) (hothers : ∀ fd', fd' ≠ fd → (fd' ∈ out ↔ fd' ∈ w.outFDSET)) (hmine : fd ∈ out ↔ w.pending a = true) :
    WokenInv { w with outFDSET := out } := by
  refine ⟨?_, h.distinct, ?_⟩
  · intro c' fd' a' _ hc' ha'
    by_cases heq : c' = c
    · subst heq
      obtain rfl : fd' = fd := Option.some_inj.1 (hc'.symm.trans hfd)
      obtain rfl : a' = a := Option.some_inj.1 ((World.hasProtocol_iff.1 ha').symm.trans (World.hasProtocol_iff.1 ha))
      exact hmine
    · have hne : fd' ≠ fd := fun e => heq (h.distinct c' c fd' hc' (e ▸ hfd))
      exact (hothers fd' hne).trans (h.woken c' fd' a' heq hc' ha')
  · intro fd' hmem
    by_cases heq : fd' = fd
    · exact ⟨c, heq ▸ hfd⟩
    · exact h.used fd' ((hothers fd' heq).1 hmem)

/-- Waking a connection after its chunk restores the invariant. -/
theorem WokenDuring.wake (h : WokenDuring c this w) (hw : Handling c this w) : WokenInv (wake c w) := by
  obtain ⟨conn, hconn⟩ := Option.isSome_iff_exists.1 hw.live
  have hfd : HasDescriptor w c conn.fd := by rw [HasDescriptor, hconn]; rfl
  have hprotocol : w.HasProtocol c conn.protocol := ⟨conn, hconn, rfl⟩
  unfold Daemon.wake
  rw [hconn]
  dsimp only
  split_ifs with hpending
  · exact h.setDescriptor hfd hprotocol _ (fun fd hne => by simp [hne]) (by simp [hpending])
  · refine h.setDescriptor hfd hprotocol w.outFDSET (fun _ _ => .rfl) ⟨?_, fun hp => absurd hp hpending⟩
    intro hmem
    exact (h.mine _ _ hfd hprotocol hmem).1

theorem WokenInv.newConnection (h : WokenInv w) (hw : w.WellFormed) (flags : ListenerFlags) (socket : Accepted)
    (hfresh : w.inUse socket.fd = false) : WokenInv (newConnection flags (some socket) w) := by
  have hunused : ∀ c, ¬ HasDescriptor w c socket.fd := by
    intro c hc
    obtain ⟨conn, hconn, hfd⟩ := Option.map_eq_some_iff.1 hc
    have hlive : c ∈ w.connections := (hw.live c).2 (by rw [hconn]; rfl)
    have huse : w.inUse socket.fd = true := List.any_eq_true.2 ⟨c, hlive, by simp [hconn, hfd]⟩
    simp [hfresh] at huse
  have hpending : ∀ a, (Daemon.newConnection flags (some socket) w).pending a =
      if a = w.allocated + 1 then false else w.pending a := by
    intro a
    simp only [World.pending, Daemon.newConnection, Function.update_apply]
    split_ifs
    · rfl
    · rfl
  refine ⟨?_, ?_, ?_⟩
  · intro c fd a _ hc ha
    rw [newConnection_hasDescriptor] at hc
    rw [newConnection_hasProtocol] at ha
    split_ifs at hc ha with heq
    · rw [hpending, if_pos ha, hc]
      refine ⟨?_, fun hp => absurd hp (by simp)⟩
      intro hmem
      obtain ⟨c', hc'⟩ := h.used socket.fd hmem
      exact absurd hc' (hunused c')
    · have halt := hw.hasProtocol_lt ha
      rw [hpending, if_neg (by omega)]
      exact h.woken c fd a trivial hc ha
  · exact distinct_newConnection h.distinct flags socket hunused
  · intro fd hmem
    exact (exists_newConnection hw flags socket).2 (.inr (h.used fd hmem))

/-- What is left in the queue is still to be sent. -/
theorem pending_sent {a : Nat} {p : ProtocolBase} (hp : w.protocol a = some p) (c : Nat) (queue : Octets) (bytes : UInt64)
    (a' : Nat) :
    ((w.modifyProtocol a (·.setOutputQueue queue)).modifyConnection c
      fun conn => { conn with sentBytes := bytes }).pending a' =
      if a' = a then Clbp.moreOutput queue else w.pending a' := by
  apply (pending_modifyProtocol w a _ a').trans
  split_ifs
  · rw [hp]
    obtain ⟨c, r | u⟩ := p <;> rfl
  · rfl

/-- Sending leaves the other connections as they were. -/
theorem WokenInv.sent (h : WokenInv w) (hw : w.WellFormed) {a : Nat} {p : ProtocolBase} (ha : w.HasProtocol c a)
    (hp : w.protocol a = some p) (queue : Octets) (bytes : UInt64) :
    WokenOn (· ≠ c) ((w.modifyProtocol a (·.setOutputQueue queue)).modifyConnection c
      fun conn => { conn with sentBytes := bytes }) := by
  have hothers : WokenOn (· ≠ c) w := ⟨fun c fd a _ => h.woken c fd a trivial, h.distinct, h.used⟩
  apply hothers.congr
  · exact fun _ _ => (SameSets.sent w a c queue bytes).hasDescriptor_iff
  · exact fun _ _ => (frame_sent w a c queue bytes).hasProtocol_iff
  · rfl
  · intro c' a' hne ha'
    rw [pending_sent hp, if_neg]
    rintro rfl
    exact hne (hw.connection_unique ha ha')

theorem WokenInv.sendOutput (h : WokenInv w) (hw : w.WellFormed) (c written : Nat) :
    WokenInv (sendOutput site c written w) := by
  unfold Daemon.sendOutput
  cases hconn : w.connection c with
  | none => exact h
  | some conn =>
    dsimp only
    cases hp : w.protocol conn.protocol with
    | none => exact h
    | some p =>
      have hconnFd : HasDescriptor w c conn.fd := by rw [HasDescriptor, hconn]; rfl
      have hconnProtocol : w.HasProtocol c conn.protocol := ⟨conn, hconn, rfl⟩
      dsimp only
      set out := Outgoing.sendOutput site.readBlockSize written ⟨p.outputQueue, conn.sentBytes⟩
      have hothers := h.sent hw hconnProtocol hp out.outputQueue out.sentBytes
      have hpending := pending_sent hp c out.outputQueue out.sentBytes conn.protocol
      have hsentFd := (SameSets.sent w conn.protocol c out.outputQueue out.sentBytes).hasDescriptor_iff.2 hconnFd
      have hsentProtocol := (frame_sent w conn.protocol c out.outputQueue out.sentBytes).hasProtocol_iff.2 hconnProtocol
      rw [if_pos rfl] at hpending
      split_ifs with hmore
      · -- more is queued, as it was before
        apply hothers.setDescriptor hsentFd hsentProtocol w.outFDSET (fun _ _ => .rfl)
        have hbefore : w.pending conn.protocol = true := by
          rw [World.pending, hp]
          exact Clbp.moreOutput_withdrawOutput hmore
        rw [hpending, hmore, h.woken c conn.fd conn.protocol trivial hconnFd hconnProtocol, hbefore]
      · apply hothers.setDescriptor hsentFd hsentProtocol _
        · intro fd hne
          exact ⟨Finset.mem_of_mem_erase, Finset.mem_erase_of_ne_of_mem hne⟩
        · rw [hpending]
          simp [hmore]

theorem WokenInv.destroy (h : WokenInv w) (hw : w.WellFormed) (c : Nat) : WokenInv (destroy c w) := by
  cases hconn : w.connection c with
  | none => simpa [Daemon.destroy, hconn] using h
  | some conn =>
    have hconnFd : HasDescriptor w c conn.fd := by rw [HasDescriptor, hconn]; rfl
    have hfd := destroy_hasDescriptor hconn
    have hout : (Daemon.destroy c w).outFDSET = w.outFDSET.erase conn.fd := by simp [Daemon.destroy, hconn]
    refine ⟨?_, ?_, ?_⟩
    · intro c' fd a _ hc ha
      obtain ⟨hne, hc⟩ := (hfd c' fd).1 hc
      have ha' := ((destroy_hasProtocol hconn c' a).1 ha).2
      have hfdne : fd ≠ conn.fd := fun e => hne (h.distinct c' c fd hc (e ▸ hconnFd))
      have hane : a ≠ conn.protocol := by
        rintro rfl
        exact hne (hw.connection_unique ⟨conn, hconn, rfl⟩ ha')
      have hpending : (Daemon.destroy c w).pending a = w.pending a := by
        simp [World.pending, Daemon.destroy, hconn, Function.update_of_ne hane]
      rw [hout, hpending, Finset.mem_erase, and_iff_right hfdne]
      exact h.woken c' fd a trivial hc ha'
    · exact distinct_destroy h.distinct hconn
    · intro fd hmem
      rw [hout] at hmem
      obtain ⟨hne, hmem⟩ := Finset.mem_erase.1 hmem
      exact (exists_destroy hconn hne).2 (h.used fd hmem)

end

/-- A run in which accepted descriptors are new, and messages wake their receivers. -/
def wakesAll (e : Event) : Bool := newDescriptor e && wakes e

theorem steps_woken : Steps site wakesAll WokenInv where
  time t w _ h := h.congr (fun _ _ => .rfl) (fun _ _ => .rfl) rfl (fun _ _ _ _ => rfl)
  newConnection flags accepted w hw h hG := by
    cases accepted with
    | none => exact h
    | some socket =>
      have hevent : wakesAll (.accept socket.fd (w.inUse socket.fd)) = true :=
        hG _ (by simp [newConnection, World.record])
      simp only [wakesAll, newDescriptor, wakes, Bool.and_true, Bool.not_eq_true'] at hevent
      exact h.newConnection hw flags socket hevent
  handleInput c read w hw h hG := by
    refine handleInput_keeps site (M := WokenDuring c) (G := wakes) hw h ?_ (fun conn hconn _ => ⟨⟨?_, ?_⟩, ?_⟩)
      ?_ (fun _ w hw h => h.wake hw)
    · intro e he
      have hboth := hG e he
      simp only [wakesAll, Bool.and_eq_true] at hboth
      exact hboth.2
    · exact ⟨fun c fd a _ => h.woken c fd a trivial, h.distinct, h.used⟩
    · intro fd a hc ha hmem
      obtain rfl : a = conn.protocol := by
        obtain ⟨conn', hconn', rfl⟩ := ha
        rw [hconn, Option.some_inj] at hconn'
        rw [hconn']
      have hpending := (h.woken c fd _ trivial hc ha).1 hmem
      exact ⟨hpending, hpending⟩
    · exact keeps_woken site c conn.protocol _
    · intro this line h
      exact h.congr (fun _ _ => (SameSets.receive c line w).hasDescriptor_iff) (fun _ _ => (frame_receive c line w).hasProtocol_iff) rfl
        (fun _ _ _ _ => rfl) (fun _ h => h)
  sendOutput c written w hw h := h.sendOutput site hw c written
  destroy c w hw h _ := h.destroy hw c

/-- With a kernel that accepts new descriptors, every connection waits exactly
when it has output, along every run that queues no message on another
connection that is idle. -/
theorem wakeups_set (passes : List Pass) (haccept : Good newDescriptor (run site passes))
    (hG : Good wakes (run site passes)) : Woken (run site passes) := by
  have hinv : WokenInv (run site passes) := by
    refine (steps_woken site).run ?_ passes ?_
    · obtain ⟨s, n, e⟩ := start_spec site
      rw [e]
      refine ⟨?_, ?_, ?_⟩
      · intro c fd a _ hc
        simp [HasDescriptor] at hc
      · intro c c' fd hc
        simp [HasDescriptor] at hc
      · intro fd hmem
        simp at hmem
    · intro e he
      simp [wakesAll, haccept e he, hG e he]
  intro c _ conn hconn
  exact hinv.woken c conn.fd conn.protocol trivial (by rw [HasDescriptor, hconn]; rfl) ⟨conn, hconn, rfl⟩

/-- A message to a user who has not been sent the welcome yet. -/
theorem wakeups_set_before_welcome :
    Woken (run sampleSite (registers 5 "pickle" "Z0" ++ registers 6 "sanc" "Z1" ++
      [sends 6 (octets "PRIVMSG pickle :hello\r\n")])) :=
  wakeups_set sampleSite _ (by decide +kernel) (by decide +kernel)

/-- A message to a user who has been sent everything so far. -/
def toIdle : List Pass :=
  registers 5 "pickle" "Z0" ++ [takes 5] ++ registers 6 "sanc" "Z1" ++ [sends 6 (octets "PRIVMSG pickle :hello\r\n")]

/-- It is queued, and nobody waits for the descriptor. -/
theorem not_woken_of_toIdle : (run sampleSite toIdle).pending 2 = true ∧ 5 ∉ (run sampleSite toIdle).outFDSET ∧
    ¬ Woken (run sampleSite toIdle) := by
  have hpending : (run sampleSite toIdle).pending 2 = true := by decide +kernel
  have hout : 5 ∉ (run sampleSite toIdle).outFDSET := by decide +kernel
  refine ⟨hpending, hout, ?_⟩
  intro h
  have hlive : 0 ∈ (run sampleSite toIdle).connections := by decide +kernel
  have hfields : ((run sampleSite toIdle).connection 0).map (fun conn => (conn.fd, conn.protocol)) = some (5, 2) := by
    decide +kernel
  obtain ⟨conn, hconn, hboth⟩ := Option.map_eq_some_iff.1 hfields
  obtain ⟨hfd, hprotocol⟩ := Prod.mk.inj hboth
  apply hout
  rw [← hfd]
  exact (h 0 hlive conn hconn).2 (by rw [hprotocol]; exact hpending)

end KineIRCd.Daemon

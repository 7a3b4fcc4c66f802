import KineIRCd.DaemonSteps
/-!
# Descriptors

Each connection has a descriptor for as long as it lives. What `select()` is to
wait for changes when a connection comes or goes, and when it has output or is
done with it; handling messages leaves all of that alone.
-/
namespace KineIRCd.Daemon

open Irc2User (Site Self)

variable (site : Site)

/-- The connection at `c` uses the descriptor. -/
def HasDescriptor (w : World) (c fd : Nat) : Prop := (w.connection c).map (·.fd) = some fd

/-- From `w` to `w'` connections keep their descriptors, and those to read from
stay the same. -/
structure SameDescriptors (w w' : World) : Prop where
  connections : w'.connections = w.connections
  descriptor : ∀ c, (w'.connection c).map (·.fd) = (w.connection c).map (·.fd)
  inFDSET : w'.inFDSET = w.inFDSET
  maxDescriptors : w'.maxDescriptors = w.maxDescriptors

/-- From `w` to `w'` nothing changes that `select()` depends on. -/
structure SameSets (w w' : World) : Prop extends SameDescriptors w w' where
  outFDSET : w'.outFDSET = w.outFDSET

section
variable {w w' w'' : World} {c fd : Nat}

theorem SameDescriptors.trans (h : SameDescriptors w w') (h' : SameDescriptors w' w'') : SameDescriptors w w'' where
  connections := h'.connections.trans h.connections
  descriptor c := (h'.descriptor c).trans (h.descriptor c)
  inFDSET := h'.inFDSET.trans h.inFDSET
  maxDescriptors := h'.maxDescriptors.trans h.maxDescriptors

theorem SameDescriptors.hasDescriptor_iff (h : SameDescriptors w w') : HasDescriptor w' c fd ↔ HasDescriptor w c fd := by
  rw [HasDescriptor, HasDescriptor, h.descriptor]

namespace SameSets

theorem refl (w : World) : SameSets w w := ⟨⟨rfl, fun _ => rfl, rfl, rfl⟩, rfl⟩

theorem trans (h : SameSets w w') (h' : SameSets w' w'') : SameSets w w'' :=
  ⟨h.toSameDescriptors.trans h'.toSameDescriptors, h'.outFDSET.trans h.outFDSET⟩

/-- What touches neither connections nor sets. -/
theorem of_eq (hconnections : w'.connections = w.connections) (hconnection : w'.connection = w.connection)
    (hin : w'.inFDSET = w.inFDSET) (hmax : w'.maxDescriptors = w.maxDescriptors) (hout : w'.outFDSET = w.outFDSET) :
    SameSets w w' := ⟨⟨hconnections, fun _ => by rw [hconnection], hin, hmax⟩, hout⟩

theorem modifyConnection (w : World) (c : Nat) {f : Connection → Connection} (hf : ∀ conn, (f conn).fd = conn.fd) :
    SameSets w (w.modifyConnection c f) := by
  refine ⟨⟨rfl, ?_, rfl, rfl⟩, rfl⟩
  intro c'
  rw [World.connection_modifyConnection]
  split_ifs with hc
  · rw [hc, Option.map_map]
    exact congrArg (Option.map · _) (funext hf)
  · rfl

/-- Sending takes from the queue and counts. -/
theorem sent (w : World) (a c : Nat) (queue : Octets) (bytes : UInt64) :
    SameSets w ((w.modifyProtocol a (·.setOutputQueue queue)).modifyConnection c
      fun conn => { conn with sentBytes := bytes }) := by
  have hqueue : SameSets w (w.modifyProtocol a (·.setOutputQueue queue)) := .of_eq rfl rfl rfl rfl rfl
  exact hqueue.trans (modifyConnection _ c (f := fun conn => { conn with sentBytes := bytes }) (fun _ => rfl))

theorem goodbye (w : World) (c : Nat) : SameSets w (w.goodbye c) :=
  (modifyConnection w c (f := fun conn => { conn with connected := false }) (fun _ => rfl)).trans
    (.of_eq rfl rfl rfl rfl rfl)

theorem leave (self : Self) (error : Octets) (w : World) : SameSets w (Irc2User.leave self error w) := by
  have hquit : SameSets w ((w.quit ⟨self.this, self.user.nickname⟩).outputLine self.this
    (LibIRC2.formatMessage LibIRC2.errorCommandName [error])) := (.of_eq rfl rfl rfl rfl rfl)
  exact (hquit.trans (goodbye _ _)).trans (goodbye _ _)

theorem createProtocol (registrar connection : Nat) (registrant : Irc2Registrar.Registrant)
    (inputQueue outputQueue : Octets) (w : World) :
    SameSets w (createProtocol site registrar connection registrant inputQueue outputQueue w) := by
  obtain ⟨p, -, e⟩ := createProtocol_spec site registrar connection registrant inputQueue outputQueue w
  rw [e, World.addUser_snd]
  refine ⟨⟨rfl, ?_, rfl, rfl⟩, rfl⟩
  intro c
  simp only [Function.update_apply]
  split_ifs with hc
  · rw [hc, Option.map_map]
    rfl
  · rfl

theorem receive (c : Nat) (line : Octets) (w : World) : SameSets w (receive c line w) :=
  (modifyConnection w c (f := fun conn => { conn with
      receivedBytes := conn.receivedBytes + UInt64.ofNat line.length, lastSpoke := w.time }) (fun _ => rfl)).trans
    (.of_eq rfl rfl rfl rfl rfl)

end SameSets

/-- Messages leave alone what `select()` depends on. -/
theorem keeps_sets (c this : Nat) (goodbyeBeforeChunk : Bool) (w₀ : World) :
    Keeps site c this goodbyeBeforeChunk (fun _ => true) (SameSets w₀) where
  own _ _ _ h _ := h.trans (.of_eq rfl rfl rfl rfl rfl)
  setInputQueue _ _ _ h := h.trans (.of_eq rfl rfl rfl rfl rfl)
  rand _ _ _ h := h.trans (.of_eq rfl rfl rfl rfl rfl)
  goodbye w _ h _ := h.trans (.goodbye w c)
  deliver _ _ _ _ h _ := h.trans (.of_eq rfl rfl rfl rfl rfl)
  leave self error w _ _ _ _ h _ := h.trans (.leave self error w)
  create _ w _ _ h _ := h.trans (.createProtocol site _ _ _ _ _ w)
  line _ _ _ _ _ _ _ h _ := h.trans (.of_eq rfl rfl rfl rfl rfl)

theorem sameDescriptors_wake (c : Nat) (w : World) : SameDescriptors w (wake c w) := by
  obtain ⟨s, e⟩ := wake_spec c w
  rw [e]
  exact ⟨rfl, fun _ => rfl, rfl, rfl⟩

theorem mem_wake (h : fd ∈ (wake c w).outFDSET) : fd ∈ w.outFDSET ∨ HasDescriptor w c fd := by
  unfold wake at h
  cases hc : w.connection c with
  | none =>
    rw [hc] at h
    exact .inl h
  | some conn =>
    simp only [hc] at h
    split_ifs at h
    · rcases Finset.mem_insert.1 h with rfl | h
      · exact .inr (by rw [HasDescriptor, hc]; rfl)
      · exact .inl h
    · exact .inl h

/-- Input keeps all descriptors, and may put the connection's own into `outFDSET`. -/
theorem handleInput_sets (hw : w.WellFormed) (c : Nat) (read : Option Octets) :
    SameDescriptors w (handleInput site c read w).2 ∧
      ∀ fd ∈ (handleInput site c read w).2.outFDSET, fd ∈ w.outFDSET ∨ HasDescriptor w c fd := by
  have hwake : ∀ w', SameSets w w' →
      SameDescriptors w (wake c w') ∧ ∀ fd ∈ (wake c w').outFDSET, fd ∈ w.outFDSET ∨ HasDescriptor w c fd := by
    intro w' hsame
    refine ⟨hsame.toSameDescriptors.trans (sameDescriptors_wake c w'), ?_⟩
    intro fd hmem
    have h := mem_wake hmem
    rwa [hsame.outFDSET, hsame.hasDescriptor_iff] at h
  rcases handleInput_cases site c read w with e | ⟨conn, line, hconn, -, e⟩
  · rw [e]
    exact ⟨(SameSets.refl w).toSameDescriptors, fun _ => .inl⟩
  · rw [e]
    split_ifs with hline
    · exact hwake w (.refl w)
    · have hhandling : Handling c conn.protocol (receive c line w) :=
        (handling_of_hasProtocol hw ⟨conn, hconn, rfl⟩).frame (frame_receive c line w)
      have hchunk := (keeps_sets site c conn.protocol (w.saidGoodbye c) w).chunk line
        ⟨hhandling, fun _ => SameSets.receive c line w⟩
      exact hwake _ (hchunk.2 (fun _ _ => rfl))

/-- Output keeps all descriptors, and puts none into `outFDSET`. -/
theorem sendOutput_sets (c written : Nat) (w : World) :
    SameDescriptors w (sendOutput site c written w) ∧ (sendOutput site c written w).outFDSET ⊆ w.outFDSET := by
  unfold sendOutput
  cases w.connection c with
  | none => exact ⟨(SameSets.refl w).toSameDescriptors, Finset.Subset.refl _⟩
  | some conn =>
    dsimp only
    cases w.protocol conn.protocol with
    | none => exact ⟨(SameSets.refl w).toSameDescriptors, Finset.Subset.refl _⟩
    | some p =>
      dsimp only
      set out := Outgoing.sendOutput site.readBlockSize written ⟨p.outputQueue, conn.sentBytes⟩
      have hsame := SameSets.sent w conn.protocol c out.outputQueue out.sentBytes
      split_ifs
      · exact ⟨hsame.toSameDescriptors, Finset.Subset.refl _⟩
      · exact ⟨⟨hsame.connections, hsame.descriptor, hsame.inFDSET, hsame.maxDescriptors⟩, Finset.erase_subset _ _⟩

theorem newConnection_hasDescriptor (flags : ListenerFlags) (socket : Accepted) :
    HasDescriptor (newConnection flags (some socket) w) c fd ↔
      if c = w.allocated then fd = socket.fd else HasDescriptor w c fd := by
  simp only [HasDescriptor, newConnection, Function.update_apply]
  split_ifs
  · simp [eq_comm]
  · rfl

theorem destroy_hasDescriptor {conn : Connection} {c : Nat} (hc : w.connection c = some conn) (c' fd : Nat) :
    HasDescriptor (destroy c w) c' fd ↔ c' ≠ c ∧ HasDescriptor w c' fd := by
  simp only [HasDescriptor, destroy, hc, Function.update_apply]
  split_ifs with heq
  · simp [heq]
  · simp [heq]

theorem HasDescriptor.lt_allocated (h : HasDescriptor w c fd) (hw : w.WellFormed) : c < w.allocated :=
  hw.connection_lt c (by simpa using congrArg Option.isSome h)

/-- The descriptors in use after a connection came. -/
theorem exists_newConnection (hw : w.WellFormed) (flags : ListenerFlags) (socket : Accepted) :
    (∃ c, HasDescriptor (newConnection flags (some socket) w) c fd) ↔ fd = socket.fd ∨ ∃ c, HasDescriptor w c fd := by
  simp only [newConnection_hasDescriptor]
  constructor
  · rintro ⟨c, hc⟩
    split_ifs at hc
    · exact .inl hc
    · exact .inr ⟨c, hc⟩
  · rintro (rfl | ⟨c, hc⟩)
    · exact ⟨w.allocated, by simp⟩
    · exact ⟨c, by rwa [if_neg (hc.lt_allocated hw).ne]⟩

theorem distinct_newConnection (h : ∀ c c' fd, HasDescriptor w c fd → HasDescriptor w c' fd → c = c')
    (flags : ListenerFlags) (socket : Accepted) (hunused : ∀ c, ¬ HasDescriptor w c socket.fd) (c c' fd : Nat)
    (hc : HasDescriptor (newConnection flags (some socket) w) c fd)
    (hc' : HasDescriptor (newConnection flags (some socket) w) c' fd) : c = c' := by
  rw [newConnection_hasDescriptor] at hc hc'
  split_ifs at hc hc' with heq heq'
  · rw [heq, heq']
  · exact absurd (hc ▸ hc') (hunused c')
  · exact absurd (hc' ▸ hc) (hunused c)
  · exact h c c' fd hc hc'

/-- A descriptor other than the connection's own is used as before. -/
theorem exists_destroy {conn : Connection} (hc : w.connection c = some conn) (hne : fd ≠ conn.fd) :
    (∃ c', HasDescriptor (destroy c w) c' fd) ↔ ∃ c', HasDescriptor w c' fd := by
  simp only [destroy_hasDescriptor hc]
  constructor
  · rintro ⟨c', -, hc'⟩
    exact ⟨c', hc'⟩
  · rintro ⟨c', hc'⟩
    refine ⟨c', ?_, hc'⟩
    rintro rfl
    rw [HasDescriptor, hc] at hc'
    exact hne (Option.some_inj.1 hc').symm

theorem distinct_destroy {conn : Connection} (h : ∀ c c' fd, HasDescriptor w c fd → HasDescriptor w c' fd → c = c')
    (hc : w.connection c = some conn) (c₁ c₂ fd : Nat) (h₁ : HasDescriptor (destroy c w) c₁ fd)
    (h₂ : HasDescriptor (destroy c w) c₂ fd) : c₁ = c₂ :=
  h c₁ c₂ fd ((destroy_hasDescriptor hc c₁ fd).1 h₁).2 ((destroy_hasDescriptor hc c₂ fd).1 h₂).2

end

end KineIRCd.Daemon

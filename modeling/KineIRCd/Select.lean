import KineIRCd.Descriptors
/-!
# What `select()` waits for

The daemon keeps the sets it gives to `select()` by hand: three functions put
descriptors in and take them out, and a descriptor comes back for another
connection when its connection is gone.
-/
namespace KineIRCd.Daemon

open Irc2User (Site)

variable (site : Site)

/-- Descriptor 0, the listeners' and the live connections' are open. -/
def Open (w : World) (fd : Nat) : Prop :=
  fd = 0 ∨ fd ∈ site.listeners.map Prod.fst ∨ ∃ c ∈ w.connections, HasDescriptor w c fd

/-- `select()` is given every open descriptor to read from, and connections'
only to write to. -/
structure Consistent (w : World) : Prop where
  inFDSET : ∀ fd, fd ∈ w.inFDSET ↔ Open site w fd
  maxDescriptors : ∀ fd ∈ w.inFDSET, fd < w.maxDescriptors
  outFDSET : ∀ fd ∈ w.outFDSET, ∃ c ∈ w.connections, HasDescriptor w c fd

/-- What one listener does in a pass. -/
def acceptOne (p : Pass) (w : World) (listener : Nat × ListenerFlags) : World :=
  if p.readable listener.1 then newConnection listener.2 (p.accept listener.1) w else w

theorem acceptAll_fold (p : Pass) (w : World) : acceptAll site p w = site.listeners.foldl (acceptOne p) w := rfl

/-- What is assumed of the system: `select()` reports members of the sets it was
given, and `accept` gives a descriptor that is not open. -/
structure Kernel (w : World) (p : Pass) : Prop where
  readable : ∀ fd, p.readable fd = true → fd ∈ w.inFDSET
  writable : ∀ fd, p.writable fd = true → fd ∈ w.outFDSET
  accept : Runs.Along (acceptOne p)
    (fun w listener => p.readable listener.1 = true → ∀ socket ∈ p.accept listener.1, ¬ Open site w socket.fd)
    { w with time := p.time } site.listeners

/-! ## The invariant -/

/-- What holds at any moment: the sets are right, and each open descriptor has
one owner. -/
structure Tracked (w : World) : Prop extends Consistent site w where
  wellFormed : w.WellFormed
  distinct : ∀ c c' fd, HasDescriptor w c fd → HasDescriptor w c' fd → c = c'
  reserved : ∀ c fd, HasDescriptor w c fd → fd ≠ 0 ∧ fd ∉ site.listeners.map Prod.fst

section
variable {site} {w w' : World} {c fd : Nat}

theorem mem_connections (hw : w.WellFormed) (h : HasDescriptor w c fd) : c ∈ w.connections :=
  (hw.live c).2 (by simpa using congrArg Option.isSome h)

/-- Only connections in the list have a descriptor. -/
theorem open_iff (hw : w.WellFormed) :
    Open site w fd ↔ fd = 0 ∨ fd ∈ site.listeners.map Prod.fst ∨ ∃ c, HasDescriptor w c fd := by
  constructor
  · rintro (h0 | hl | ⟨c, -, hc⟩)
    · exact .inl h0
    · exact .inr (.inl hl)
    · exact .inr (.inr ⟨c, hc⟩)
  · rintro (h0 | hl | ⟨c, hc⟩)
    · exact .inl h0
    · exact .inr (.inl hl)
    · exact .inr (.inr ⟨c, mem_connections hw hc, hc⟩)

theorem Tracked.mem_inFDSET (h : Tracked site w) :
    fd ∈ w.inFDSET ↔ fd = 0 ∨ fd ∈ site.listeners.map Prod.fst ∨ ∃ c, HasDescriptor w c fd := by
  rw [h.inFDSET, open_iff h.wellFormed]

/-- Built from what is known by owner rather than by place in the list. -/
theorem Tracked.intro (hw : w.WellFormed)
    (hin : ∀ fd, fd ∈ w.inFDSET ↔ fd = 0 ∨ fd ∈ site.listeners.map Prod.fst ∨ ∃ c, HasDescriptor w c fd)
    (hmax : ∀ fd ∈ w.inFDSET, fd < w.maxDescriptors) (hout : ∀ fd ∈ w.outFDSET, ∃ c, HasDescriptor w c fd)
    (hdistinct : ∀ c c' fd, HasDescriptor w c fd → HasDescriptor w c' fd → c = c')
    (hreserved : ∀ c fd, HasDescriptor w c fd → fd ≠ 0 ∧ fd ∉ site.listeners.map Prod.fst) : Tracked site w := by
  refine ⟨⟨?_, hmax, ?_⟩, hw, hdistinct, hreserved⟩
  · intro fd
    rw [hin, open_iff hw]
  · intro fd hfd
    obtain ⟨c, hc⟩ := hout fd hfd
    exact ⟨c, mem_connections hw hc, hc⟩

/-- A step that keeps all descriptors, and waits to write to connections only. -/
theorem Tracked.same (h : Tracked site w) (hw' : w'.WellFormed) (hs : SameDescriptors w w')
    (hout : ∀ fd ∈ w'.outFDSET, fd ∈ w.outFDSET ∨ ∃ c, HasDescriptor w c fd) : Tracked site w' := by
  apply Tracked.intro hw'
  · intro fd
    simp only [hs.inFDSET, hs.hasDescriptor_iff, h.mem_inFDSET]
  · rw [hs.inFDSET, hs.maxDescriptors]
    exact h.maxDescriptors
  · intro fd hfd
    simp only [hs.hasDescriptor_iff]
    rcases hout fd hfd with hmem | hc
    · obtain ⟨c, -, hc⟩ := h.outFDSET fd hmem
      exact ⟨c, hc⟩
    · exact hc
  · intro c c' fd hc hc'
    exact h.distinct c c' fd (hs.hasDescriptor_iff.1 hc) (hs.hasDescriptor_iff.1 hc')
  · intro c fd hc
    exact h.reserved c fd (hs.hasDescriptor_iff.1 hc)

theorem Tracked.handleInput (h : Tracked site w) (c : Nat) (read : Option Octets) :
    Tracked site (handleInput site c read w).2 := by
  obtain ⟨hsame, hout⟩ := handleInput_sets site h.wellFormed c read
  apply h.same (wellFormed_handleInput site c read h.wellFormed).1 hsame
  intro fd hfd
  rcases hout fd hfd with hmem | hc
  · exact .inl hmem
  · exact .inr ⟨c, hc⟩

theorem Tracked.sendOutput (h : Tracked site w) (c written : Nat) : Tracked site (sendOutput site c written w) := by
  obtain ⟨hsame, hout⟩ := sendOutput_sets site c written w
  apply h.same (h.wellFormed.frame (frame_sendOutput site c written w)) hsame
  intro fd hfd
  exact .inl (hout hfd)

/-- A connection that goes takes its descriptor along, which no other has. -/
theorem Tracked.destroy (h : Tracked site w) (c : Nat) : Tracked site (destroy c w) := by
  cases hc : w.connection c with
  | none =>
    have e : Daemon.destroy c w = w := by simp [Daemon.destroy, hc]
    rw [e]
    exact h
  | some conn =>
    have hown : HasDescriptor w c conn.fd := by rw [HasDescriptor, hc]; rfl
    have hin : (Daemon.destroy c w).inFDSET = w.inFDSET.erase conn.fd := by simp [Daemon.destroy, hc]
    have hout : (Daemon.destroy c w).outFDSET = w.outFDSET.erase conn.fd := by simp [Daemon.destroy, hc]
    have hmax : (Daemon.destroy c w).maxDescriptors = w.maxDescriptors := by simp [Daemon.destroy, hc, World.record]
    apply Tracked.intro (wellFormed_destroy c h.wellFormed)
    · intro fd
      rw [hin, Finset.mem_erase]
      by_cases hfd : fd = conn.fd
      · apply iff_of_false
        · rintro ⟨hne, -⟩
          exact hne hfd
        · obtain ⟨h0, hl⟩ := h.reserved c conn.fd hown
          rw [hfd]
          rintro (hz | hmem | ⟨c', hc'⟩)
          · exact h0 hz
          · exact hl hmem
          · rw [destroy_hasDescriptor hc] at hc'
            exact hc'.1 (h.distinct c' c conn.fd hc'.2 hown)
      · rw [exists_destroy hc hfd, ← h.mem_inFDSET]
        exact and_iff_right hfd
    · intro fd hfd
      rw [hmax]
      rw [hin] at hfd
      exact h.maxDescriptors fd (Finset.mem_of_mem_erase hfd)
    · intro fd hfd
      rw [hout] at hfd
      obtain ⟨hne, hmem⟩ := Finset.mem_erase.1 hfd
      obtain ⟨c', -, hc'⟩ := h.outFDSET fd hmem
      exact (exists_destroy hc hne).2 ⟨c', hc'⟩
    · exact distinct_destroy h.distinct hc
    · intro c' fd hc'
      rw [destroy_hasDescriptor hc] at hc'
      exact h.reserved c' fd hc'.2

/-- A new connection brings a descriptor that was not open. -/
theorem Tracked.newConnection (h : Tracked site w) (flags : ListenerFlags) (accepted : Option Accepted)
    (hnew : ∀ socket ∈ accepted, ¬ Open site w socket.fd) : Tracked site (newConnection flags accepted w) := by
  cases accepted with
  | none => exact h
  | some socket =>
    have hclosed := hnew socket rfl
    have hunused : ∀ c, ¬ HasDescriptor w c socket.fd := fun c hc =>
      hclosed (.inr (.inr ⟨c, mem_connections h.wellFormed hc, hc⟩))
    apply Tracked.intro (wellFormed_newConnection flags (some socket) h.wellFormed)
    · intro fd
      have hin : (Daemon.newConnection flags (some socket) w).inFDSET = insert socket.fd w.inFDSET := rfl
      rw [exists_newConnection h.wellFormed, hin, Finset.mem_insert, h.mem_inFDSET]
      tauto
    · intro fd hfd
      have hmax : (Daemon.newConnection flags (some socket) w).maxDescriptors =
        if socket.fd ≥ w.maxDescriptors then socket.fd + 1 else w.maxDescriptors := rfl
      rw [hmax]
      rcases Finset.mem_insert.1 hfd with rfl | hmem
      · split_ifs <;> omega
      · have hlt := h.maxDescriptors fd hmem
        split_ifs <;> omega
    · intro fd hfd
      obtain ⟨c, -, hc⟩ := h.outFDSET fd hfd
      exact (exists_newConnection h.wellFormed flags socket).2 (.inr ⟨c, hc⟩)
    · exact distinct_newConnection h.distinct flags socket hunused
    · intro c fd hc
      rw [newConnection_hasDescriptor] at hc
      split_ifs at hc
      · rw [hc]
        refine ⟨?_, ?_⟩
        · intro h0
          exact hclosed (.inl h0)
        · intro hl
          exact hclosed (.inr (.inl hl))
      · exact h.reserved c fd hc

/-! ## Runs -/

theorem Tracked.setTime (h : Tracked site w) (t : Nat) : Tracked site { w with time := t } :=
  h.same (h.wellFormed.frame (.setTime w t)) ⟨rfl, fun _ => rfl, rfl, rfl⟩
    fun _ => .inl

theorem Tracked.acceptAll {p : Pass} (h : Tracked site w) (hk : Kernel site w p) :
    Tracked site (acceptAll site p { w with time := p.time }) := by
  rw [acceptAll_fold]
  apply Runs.run_inv ?_ (h.setTime p.time) hk.accept
  intro w listener h hnew
  unfold acceptOne
  split_ifs with hreadable
  · exact h.newConnection listener.2 (p.accept listener.1) (hnew hreadable)
  · exact h

theorem Tracked.sendIfWritable (h : Tracked site w) (p : Pass) (c : Nat) : Tracked site (sendIfWritable site p c w) := by
  unfold Daemon.sendIfWritable
  split
  · exact h
  · split_ifs
    · exact h.sendOutput c _
    · exact h

theorem Tracked.serve (h : Tracked site w) (p : Pass) (cs : List Nat) : Tracked site (serve site p cs w) := by
  induction cs generalizing w with
  | nil => exact h
  | cons c cs ih =>
    unfold Daemon.serve
    cases w.connection c with
    | none => exact ih h
    | some conn =>
      dsimp only
      split_ifs
      · exact ih ((h.handleInput c _).sendIfWritable p c)
      · exact (h.handleInput c _).destroy c
      · exact ih (h.sendIfWritable p c)

theorem Tracked.pass {p : Pass} (h : Tracked site w) (hk : Kernel site w p) : Tracked site (pass site w p) :=
  (h.acceptAll hk).serve p _

/-- Listeners come into the set, and the bound rises above them. -/
theorem listen_sets (listeners : List (Nat × ListenerFlags)) (w : World) :
    let w' := listeners.foldl (fun w listener => { w with
      inFDSET := insert listener.1 w.inFDSET
      maxDescriptors := if listener.1 ≥ w.maxDescriptors then listener.1 + 1 else w.maxDescriptors }) w
    (∀ fd, fd ∈ w'.inFDSET ↔ fd ∈ w.inFDSET ∨ fd ∈ listeners.map Prod.fst) ∧ w.maxDescriptors ≤ w'.maxDescriptors ∧
      ∀ fd ∈ listeners.map Prod.fst, fd < w'.maxDescriptors := by
  induction listeners generalizing w with
  | nil => simp
  | cons listener listeners ih =>
    obtain ⟨hin, hle, hlt⟩ := ih { w with
      inFDSET := insert listener.1 w.inFDSET
      maxDescriptors := if listener.1 ≥ w.maxDescriptors then listener.1 + 1 else w.maxDescriptors }
    simp only [List.foldl_cons, List.map_cons, List.mem_cons]
    have hmax : w.maxDescriptors ≤ (if listener.1 ≥ w.maxDescriptors then listener.1 + 1 else w.maxDescriptors) ∧
        listener.1 < (if listener.1 ≥ w.maxDescriptors then listener.1 + 1 else w.maxDescriptors) := by
      split_ifs <;> omega
    refine ⟨?_, hmax.1.trans hle, ?_⟩
    · intro fd
      rw [hin, Finset.mem_insert]
      tauto
    · rintro fd (rfl | hmem)
      · exact hmax.2.trans_le hle
      · exact hlt fd hmem

/-- The sets `select()` is first given. -/
theorem tracked_start (hlisteners : site.listeners ≠ []) : Tracked site (start site) := by
  obtain ⟨hin, -, hlt⟩ := listen_sets site.listeners { inFDSET := {0} }
  obtain ⟨inFDSET, maxDescriptors, e⟩ := start_spec site
  have hnobody : ∀ c fd, ¬ HasDescriptor (start site) c fd := by
    intro c fd
    rw [e]
    simp [HasDescriptor]
  have hstart : ∀ fd, fd ∈ (start site).inFDSET ↔ fd = 0 ∨ fd ∈ site.listeners.map Prod.fst := by
    intro fd
    rw [← Finset.mem_singleton]
    exact hin fd
  apply Tracked.intro (wellFormed_start site)
  · intro fd
    simp [hstart, hnobody]
  · intro fd hfd
    rcases (hstart fd).1 hfd with rfl | hmem
    · -- any listener has a descriptor, and the bound is above it
      obtain ⟨listener, hl⟩ := List.exists_mem_of_ne_nil _ hlisteners
      exact (Nat.zero_le _).trans_lt (hlt listener.1 (List.mem_map_of_mem hl))
    · exact hlt fd hmem
  · intro fd hfd
    rw [e] at hfd
    simp at hfd
  · intro c c' fd hc
    exact absurd hc (hnobody c fd)
  · intro c fd hc
    exact absurd hc (hnobody c fd)

/-! ## Who is served -/

/-- The step is on a connection that was there when `select()` was entered, for
a descriptor of its own that was waited for and reported. -/
def Reported (w : World) (p : Pass) : Action → Prop
  | .handleInput c _ => c ∈ w.connections ∧ ∃ fd ∈ w.inFDSET, HasDescriptor w c fd ∧ p.readable fd = true
  | .sendOutput c _ => c ∈ w.connections ∧ ∃ fd ∈ w.outFDSET, HasDescriptor w c fd ∧ p.writable fd = true
  | _ => True

/-- The step is on a connection whose descriptor now is one of those reported. -/
def Asked (w : World) (p : Pass) : Action → Prop
  | .handleInput c _ => ∃ fd, HasDescriptor w c fd ∧ p.readable fd = true
  | .sendOutput c _ => ∃ fd, HasDescriptor w c fd ∧ p.writable fd = true
  | _ => True

theorem sameDescriptors_sendIfWritable (p : Pass) (c : Nat) (w : World) : SameDescriptors w (sendIfWritable site p c w) := by
  unfold sendIfWritable
  split
  · exact (SameSets.refl w).toSameDescriptors
  · split_ifs
    · exact (sendOutput_sets site c _ w).1
    · exact (SameSets.refl w).toSameDescriptors

theorem asked_send {p : Pass} {a : Action} (hs : SameDescriptors w w') (ha : a ∈ sendActions p c w') : Asked w p a := by
  unfold sendActions at ha
  cases hc : w'.connection c with
  | none => simp [hc] at ha
  | some conn =>
    simp only [hc] at ha
    split_ifs at ha with hwritable
    · obtain rfl := List.mem_singleton.1 ha
      exact ⟨conn.fd, hs.hasDescriptor_iff.1 (by rw [HasDescriptor, hc]; rfl), hwritable⟩
    · simp at ha

theorem wellFormed_sendIfWritable (hw : w.WellFormed) (p : Pass) (c : Nat) : (sendIfWritable site p c w).WellFormed := by
  unfold sendIfWritable
  split
  · exact hw
  · split_ifs
    · exact hw.frame (frame_sendOutput site c _ w)
    · exact hw

/-- The loop looks at each connection's own descriptor, and descriptors do not
change before the loop ends. -/
theorem asked_serve {p : Pass} {a : Action} (cs : List Nat) (hw' : w'.WellFormed) (hs : SameDescriptors w w')
    (ha : a ∈ serveActions site p cs w') : Asked w p a := by
  induction cs generalizing w' with
  | nil => simp [serveActions] at ha
  | cons c cs ih =>
    unfold serveActions at ha
    cases hc : w'.connection c with
    | none =>
      simp only [hc] at ha
      exact ih hw' hs ha
    | some conn =>
      have hfd : HasDescriptor w c conn.fd := hs.hasDescriptor_iff.1 (by rw [HasDescriptor, hc]; rfl)
      simp only [hc] at ha
      split_ifs at ha with hreadable hok
      · have hinput := hs.trans (handleInput_sets site hw' c (p.read conn.fd)).1
        have hwellFormed := (wellFormed_handleInput site c (p.read conn.fd) hw').1
        rcases List.mem_cons.1 ha with rfl | ha
        · exact ⟨conn.fd, hfd, hreadable⟩
        · rcases List.mem_append.1 ha with ha | ha
          · exact asked_send hinput ha
          · exact ih (wellFormed_sendIfWritable hwellFormed p c) (hinput.trans (sameDescriptors_sendIfWritable p c _)) ha
      · rcases List.mem_cons.1 ha with rfl | ha
        · exact ⟨conn.fd, hfd, hreadable⟩
        · obtain rfl := List.mem_singleton.1 ha
          trivial
      · rcases List.mem_append.1 ha with ha | ha
        · exact asked_send hs ha
        · exact ih (wellFormed_sendIfWritable hw' p c) (hs.trans (sameDescriptors_sendIfWritable p c _)) ha

/-- While connections are accepted, open descriptors stay open, and the
connections that use them were there before. -/
theorem hasDescriptor_acceptAll {p : Pass} (h : Tracked site w) (hk : Kernel site w p)
    (hc : HasDescriptor (acceptAll site p { w with time := p.time }) c fd) (hopen : Open site w fd) :
    HasDescriptor w c fd := by
  let I (w' : World) := Tracked site w' ∧ (∀ fd, Open site w fd → Open site w' fd) ∧
    ∀ c fd, HasDescriptor w' c fd → Open site w fd → HasDescriptor w c fd
  have hrun : I (acceptAll site p { w with time := p.time }) := by
    rw [acceptAll_fold]
    apply Runs.run_inv (I := I) ?_ ⟨h.setTime p.time, fun _ h => h, fun _ _ hc _ => hc⟩ hk.accept
    rintro w' listener ⟨h', hmono, hback⟩ hnew
    unfold acceptOne
    split_ifs with hreadable
    · have hadded := h'.newConnection listener.2 (p.accept listener.1) (hnew hreadable)
      have hclosed := hnew hreadable
      cases haccept : p.accept listener.1 with
      | none => exact ⟨h', hmono, hback⟩
      | some socket =>
        rw [haccept] at hadded hclosed
        refine ⟨hadded, ?_, ?_⟩
        · intro fd hfd
          rcases hmono fd hfd with h0 | hl | ⟨c, hlive, hc⟩
          · exact .inl h0
          · exact .inr (.inl hl)
          · have hne : c ≠ w'.allocated := by
              have hlt := h'.wellFormed.connection_lt c ((h'.wellFormed.live c).1 hlive)
              omega
            refine .inr (.inr ⟨c, List.mem_cons_of_mem _ hlive, ?_⟩)
            rw [newConnection_hasDescriptor, if_neg hne]
            exact hc
        · intro c fd hc hfd
          rw [newConnection_hasDescriptor] at hc
          split_ifs at hc
          · -- a descriptor that was open is not given out
            rw [hc] at hfd
            exact absurd (hmono _ hfd) (hclosed socket rfl)
          · exact hback c fd hc hfd
    · exact ⟨h', hmono, hback⟩
  exact hrun.2.2 c fd hc hopen

theorem mem_acceptActions {p : Pass} {a : Action} {listeners : List (Nat × ListenerFlags)}
    (ha : a ∈ acceptActions p listeners) : ∃ flags accepted, a = .newConnection flags accepted := by
  induction listeners with
  | nil => simp [acceptActions] at ha
  | cons listener listeners ih =>
    unfold acceptActions at ha
    split_ifs at ha
    · rcases List.mem_cons.1 ha with rfl | ha
      · exact ⟨_, _, rfl⟩
      · exact ih ha
    · exact ih ha

/-- A descriptor that was reported was open, so it is not one that came with a
connection accepted in between. -/
theorem reported_of_asked {p : Pass} {a : Action} (h : Tracked site w) (hk : Kernel site w p)
    (ha : Asked (acceptAll site p { w with time := p.time }) p a) : Reported w p a := by
  cases a with
  | handleInput c read =>
    obtain ⟨fd, hc, hreadable⟩ := ha
    have hmem := hk.readable fd hreadable
    have hc' := hasDescriptor_acceptAll h hk hc ((h.inFDSET fd).1 hmem)
    exact ⟨mem_connections h.wellFormed hc', fd, hmem, hc', hreadable⟩
  | sendOutput c written =>
    obtain ⟨fd, hc, hwritable⟩ := ha
    have hmem := hk.writable fd hwritable
    have hc' := hasDescriptor_acceptAll h hk hc (.inr (.inr (h.outFDSET fd hmem)))
    exact ⟨mem_connections h.wellFormed hc', fd, hmem, hc', hwritable⟩
  | _ => trivial

theorem reported_pass {p : Pass} {a : Action} (h : Tracked site w) (hk : Kernel site w p)
    (ha : a ∈ passActions site p w) : Reported w p a := by
  rcases List.mem_append.1 ha with ha | ha
  · rcases List.mem_cons.1 ha with rfl | ha
    · trivial
    · obtain ⟨flags, accepted, rfl⟩ := mem_acceptActions ha
      trivial
  · apply reported_of_asked h hk
    exact asked_serve _ (h.acceptAll hk).wellFormed (SameSets.refl _).toSameDescriptors ha

end

/-- In every run with at least one listener, on a system that reports what it was
asked for and accepts with descriptors that are not open, the sets are right
each time `select()` is entered, and every pass serves only connections whose
own descriptor was reported. -/
theorem select_consistent (hlisteners : site.listeners ≠ []) (passes : List Pass)
    (hkernel : Runs.Along (pass site) (Kernel site) (start site) passes) :
    Runs.Throughout (pass site) (Consistent site) (start site) passes ∧
      Runs.Along (pass site) (fun w p => ∀ a ∈ passActions site p w, Reported w p a) (start site) passes := by
  have hstep : ∀ w p, Tracked site w → Kernel site w p → Tracked site (pass site w p) := fun _ _ h hk => h.pass hk
  constructor
  · exact (Runs.throughout_of_along hstep (tracked_start hlisteners) hkernel).imp fun _ h => h.toConsistent
  · exact Runs.along_of_along hstep (fun w p h hk a ha => reported_pass h hk ha) (tracked_start hlisteners) hkernel

instance (w : World) (c fd : Nat) : Decidable (HasDescriptor w c fd) := inferInstanceAs (Decidable (_ = _))

instance (w : World) (fd : Nat) : Decidable (Open site w fd) := inferInstanceAs (Decidable (_ ∨ _))

theorem kernel_connects {w : World} {fd : Nat} (hlistening : 3 ∈ w.inFDSET) (hclosed : ¬ Open sampleSite w fd) :
    Kernel sampleSite w (connects fd) := by
  refine ⟨?_, by simp [connects], ?_, trivial⟩
  · intro fd' hreadable
    obtain rfl : fd' = 3 := by simpa [connects] using hreadable
    exact hlistening
  · rintro - socket ⟨⟩
    exact hclosed

theorem kernel_drops {w : World} {fd : Nat} (hopen : fd ∈ w.inFDSET) (hfd : fd ≠ 3) : Kernel sampleSite w (drops fd) := by
  refine ⟨?_, by simp [drops], ?_, trivial⟩
  · intro fd' hreadable
    obtain rfl : fd' = fd := by simpa [drops] using hreadable
    exact hopen
  · intro hreadable
    have hlistener : 3 = fd := by simpa [drops] using hreadable
    exact absurd hlistener.symm hfd

/-- A client comes, goes, and another comes on the same descriptor. -/
def reuse : List Pass := [connects 5, drops 5, connects 5]

theorem select_consistent_reuse :
    Runs.Throughout (pass sampleSite) (Consistent sampleSite) (start sampleSite) reuse ∧
      Runs.Along (pass sampleSite) (fun w p => ∀ a ∈ passActions sampleSite p w, Reported w p a) (start sampleSite) reuse :=
  select_consistent sampleSite (by decide) reuse
    ⟨kernel_connects (by decide +kernel) (by decide +kernel), kernel_drops (by decide +kernel) (by decide),
      kernel_connects (by decide +kernel) (by decide +kernel), trivial⟩

end KineIRCd.Daemon

import KineIRCd.DaemonSteps
/-!
# Users, counters and the registry

The registry, the two user counters and the connections' protocol objects are
changed in different places: a hand-over adds a user, QUIT removes one, and a
failed read deletes a connection and removes nobody. Each invariant here holds
along the runs that stay clear of what its places do not agree on.
-/
namespace KineIRCd.Daemon

open Irc2User (Site Self)

variable (site : Site)

/-! ## The counters -/

/-- Both counters equal the number of registered users, and neither was ever
lowered at zero. -/
structure Counted (w : World) : Prop where
  network : w.networkUserCount.count.toNat = Index.size w.registry.users
  server : w.serverUserCount.count.toNat = Index.size w.registry.users
  positive : ∀ a held n s, .quit a held n s ∈ w.log → n ≠ 0 ∧ s ≠ 0

/-- A user who quits is found in the registry, and the counters can count the users. -/
def countable : Event → Bool
  | .quit _ held _ _ => held
  | .create _ _ _ valid free _ users => !(valid && free) || decide (users + 1 < UInt32.size)
  | _ => true

section
variable {w w' : World}

theorem Counted.congr (h : Counted w) (hregistry : w'.registry = w.registry)
    (hnetwork : w'.networkUserCount = w.networkUserCount) (hserver : w'.serverUserCount = w.serverUserCount)
    (hquits : ∀ a held n s, Event.quit a held n s ∈ w'.log → .quit a held n s ∈ w.log) : Counted w' where
  network := by rw [hregistry, hnetwork]; exact h.network
  server := by rw [hregistry, hserver]; exact h.server
  positive a held n s hq := h.positive a held n s (hquits a held n s hq)

theorem Counted.frame (h : Counted w) (hf : w.Frame w') : Counted w' :=
  h.congr hf.registry hf.networkUserCount hf.serverUserCount fun a held n s => (hf.quits a held n s).1

theorem toNat_decrement {p : PeakCount} {n : Nat} (h : p.count.toNat = n + 1) : p.decrement.count.toNat = n := by
  have hle : (1 : UInt32) ≤ p.count := by rw [UInt32.le_iff_toNat_le, h]; simp
  rw [PeakCount.decrement, UInt32.toNat_sub_of_le _ _ hle, h]
  rfl

theorem toNat_increment {p : PeakCount} {n : Nat} (h : p.count.toNat = n) (hn : n + 1 < UInt32.size) :
    p.increment.count.toNat = n + 1 := by
  rw [PeakCount.increment, UInt32.toNat_add, h]
  exact Nat.mod_eq_of_lt hn

/-- A user who is found takes one from the registry and one from each counter. -/
theorem Counted.quit (h : Counted w) (user : Entity) (hheld : (w.registry.findUser user.name).isSome = true) :
    Counted (w.quit user) := by
  rcases Registry.removeUser_cases w.registry user with ⟨i, hi, e⟩ | ⟨hnone, -⟩
  · have hsize : Index.size (w.registry.users.erase (IRCtoLower user.name)) + 1 = Index.size w.registry.users :=
      Index.size_erase hi
    refine ⟨?_, ?_, ?_⟩
    · simp only [World.quit, World.record, e]
      exact toNat_decrement (h.network.trans hsize.symm)
    · simp only [World.quit, World.record, e]
      exact toNat_decrement (h.server.trans hsize.symm)
    · intro a held n s hq
      rcases List.mem_append.1 hq with hq | hq
      · exact h.positive a held n s hq
      · have hnetwork := h.network
        have hserver := h.server
        simp only [List.mem_singleton, Event.quit.injEq] at hq
        obtain ⟨-, -, rfl, rfl⟩ := hq
        -- there is an entry to be counted
        constructor
        · rintro h0
          rw [h0, UInt32.toNat_zero] at hnetwork
          omega
        · rintro h0
          rw [h0, UInt32.toNat_zero] at hserver
          omega
  · rw [hnone] at hheld
    simp at hheld

/-- A hand-over that adds a user adds one to each counter. -/
theorem Counted.createProtocol {registrar c : Nat} {registrant : Irc2Registrar.Registrant} {inputQueue outputQueue : Octets}
    (h : Counted w) (hG : Good countable (createProtocol site registrar c registrant inputQueue outputQueue w)) :
    Counted (createProtocol site registrar c registrant inputQueue outputQueue w) := by
  have hevent := hG (createEvent site registrar c registrant.name inputQueue w) (by rw [createProtocol_log]; simp)
  obtain ⟨p, -, e⟩ := createProtocol_spec site registrar c registrant inputQueue outputQueue w
  have hpositive : ∀ a held n s, .quit a held n s ∈ (Daemon.createProtocol site registrar c registrant inputQueue
      outputQueue w).log → n ≠ 0 ∧ s ≠ 0 := by
    intro a held n s hq
    rw [e] at hq
    exact h.positive a held n s (by simpa [createEvent] using hq)
  refine ⟨?_, ?_, hpositive⟩
  all_goals
    rw [e, World.addUser_snd]
    rcases Registry.addUser_cases site.maxNickNameLength w.registry ⟨w.allocated, registrant.name⟩ with
      ⟨hvalid, hfree, hadded⟩ | ⟨-, err, herr, hadded⟩
    · -- one more user, within the counters' range
      have hsize := Index.size_insert (i := w.allocated) hfree
      have hrange : Index.size w.registry.users + 1 < UInt32.size := by
        simpa [createEvent, countable, hvalid, show w.registry.findUser registrant.name = none from hfree] using hevent
      simp only [hadded, if_true]
      rw [hsize]
      first | exact toNat_increment h.network hrange | exact toNat_increment h.server hrange
    · simp only [hadded, if_neg herr]
      first | exact h.network | exact h.server

end

theorem keeps_counted (c this : Nat) (goodbyeBeforeChunk : Bool) :
    Keeps site c this goodbyeBeforeChunk countable Counted := by
  refine .of_frame site (fun _ _ _ h hf => h.frame hf) ?_ ?_
  · intro self w _ _ _ _ h error hG
    have hheld := hG (.quit self.this (w.registry.findUser self.user.nickname).isSome w.networkUserCount.count
      w.serverUserCount.count) (by rw [leave_log]; simp)
    exact (h.quit ⟨self.this, self.user.nickname⟩ hheld).frame (.leave self error w)
  · intro r w _ _ h hG
    exact h.createProtocol site hG

theorem steps_counted : Steps site countable Counted where
  time t w _ h := h.congr rfl rfl rfl fun _ _ _ _ h => h
  newConnection flags accepted w _ h _ := by
    cases accepted with
    | none => exact h
    | some socket => exact h.congr rfl rfl rfl fun a held n s hq => by simpa [newConnection, World.record] using hq
  handleInput c read w hw h hG := handleInput_keeps site (M := fun _ => Counted) hw h hG
    (fun _ _ _ => ⟨h, keeps_counted site _ _ _⟩) (fun _ line h => h.frame (frame_receive c line w))
    (fun _ w _ h => h.frame (frame_wake c w))
  sendOutput c written w _ h := h.frame (frame_sendOutput site c written w)
  destroy c w _ h _ := by
    unfold destroy
    split
    · exact h
    · exact h.congr rfl rfl rfl fun a held n s hq => by simpa [World.record] using hq

/-- Along every run in which users who quit are found in the registry, the
counters equal the number of registered users. -/
theorem counters_match (passes : List Pass) (hG : Good countable (run site passes)) : Counted (run site passes) := by
  refine (steps_counted site).run ?_ passes hG
  obtain ⟨s, n, e⟩ := start_spec site
  rw [e]
  exact ⟨rfl, rfl, by simp⟩

/-- Two users, one of whom quits and one of whom drops. -/
theorem counters_match_quit_and_drop :
    Counted (run sampleSite (registers 5 "pickle" "Z0" ++ registers 6 "sanc" "Z1" ++
      [sends 5 (octets "QUIT\r\n"), drops 6])) :=
  counters_match sampleSite _ (by decide +kernel)

/-- A second QUIT in the same chunk lowers both counters below zero. -/
theorem not_counted_of_two_quits :
    (run sampleSite (registers 5 "pickle" "Z0" ++ [sends 5 (octets "QUIT\r\nQUIT\r\n")])).networkUserCount.count = 4294967295 ∧
      ¬ Counted (run sampleSite (registers 5 "pickle" "Z0" ++ [sends 5 (octets "QUIT\r\nQUIT\r\n")])) :=
  ⟨by decide +kernel, fun h => absurd h.network (by decide +kernel)⟩

/-! ## Entries of the dead -/

/-- Every user in the registry is the user of the object of a live connection. -/
def Alive (w : World) : Prop :=
  ∀ k a, w.registry.users.lookup k = some a → ∃ c ∈ w.connections, w.HasProtocol c a ∧ (w.nickname a).isSome = true

/-- Neither a deleted connection nor a replaced object leaves an entry behind. -/
def noneHeld : Event → Bool
  | .create _ _ _ _ _ replacedHeld _ => !replacedHeld
  | .destroy _ held => !held
  | _ => true

/-- `Alive`, with liveness read off the heap. -/
def AliveInv (w : World) : Prop :=
  ∀ k a, w.registry.users.lookup k = some a → ∃ c, w.HasProtocol c a ∧ (w.nickname a).isSome = true

section
variable {w w' : World}

theorem not_held {a : Nat} (h : w.held a = false) {k : WString} (hk : w.registry.users.lookup k = some a) : False := by
  have hmem : k ∈ w.registry.users.keys := AList.lookup_isSome.1 (by simp [hk])
  have hheld : w.held a = true := List.any_eq_true.2 ⟨k, hmem, by simpa using hk⟩
  simp [h] at hheld

theorem AliveInv.frame (h : AliveInv w) (hf : w.Frame w') : AliveInv w' := by
  intro k a hk
  rw [hf.registry] at hk
  obtain ⟨c, hc, hname⟩ := h k a hk
  exact ⟨c, hf.hasProtocol_iff.2 hc, by rw [hf.nickname]; exact hname⟩

/-- A user who quits only takes entries away. -/
theorem AliveInv.quit (h : AliveInv w) (user : Entity) : AliveInv (w.quit user) := by
  intro k a hk
  apply h k a
  rcases Registry.removeUser_cases w.registry user with ⟨i, -, e⟩ | ⟨-, e⟩
  · simp only [World.quit, World.record, e] at hk
    by_cases heq : k = IRCtoLower user.name
    · -- the entry is gone, whoever it referred to
      subst heq
      simp at hk
    · rwa [AList.lookup_erase_ne heq] at hk
  · simpa only [World.quit, World.record, e] using hk

/-- The new user's object is that of the connection, and the one it replaced was
nobody's entry. -/
theorem AliveInv.createProtocol {registrar c : Nat} {registrant : Irc2Registrar.Registrant}
    {inputQueue outputQueue : Octets} (hw : w.WellFormed) (hc : (w.connection c).isSome = true) (h : AliveInv w)
    (hG : Good noneHeld (createProtocol site registrar c registrant inputQueue outputQueue w)) :
    AliveInv (createProtocol site registrar c registrant inputQueue outputQueue w) := by
  have hevent := hG (createEvent site registrar c registrant.name inputQueue w) (by rw [createProtocol_log]; simp)
  obtain ⟨conn, hconn⟩ := Option.isSome_iff_exists.1 hc
  have hreplaced : w.held conn.protocol = false := by simpa [createEvent, noneHeld, hconn] using hevent
  have hold : ∀ k a, w.registry.users.lookup k = some a →
      ∃ c', (Daemon.createProtocol site registrar c registrant inputQueue outputQueue w).HasProtocol c' a ∧
        ((Daemon.createProtocol site registrar c registrant inputQueue outputQueue w).nickname a).isSome = true := by
    intro k a hk
    obtain ⟨c', hc', hname⟩ := h k a hk
    have hlt := hw.hasProtocol_lt hc'
    refine ⟨c', (createProtocol_hasProtocol site _ _ _ _ hc c' a).2 ?_, ?_⟩
    · rw [if_neg]
      · exact hc'
      · rintro rfl
        obtain ⟨conn', hconn', rfl⟩ := hc'
        rw [hconn, Option.some_inj] at hconn'
        subst hconn'
        exact not_held hreplaced hk
    · rw [createProtocol_nickname, if_neg (by omega)]
      exact hname
  intro k a hk
  rw [createProtocol_registry] at hk
  rcases Registry.addUser_cases site.maxNickNameLength w.registry ⟨w.allocated, registrant.name⟩ with
    ⟨-, -, hadded⟩ | ⟨-, err, -, hadded⟩
  · rw [hadded] at hk
    by_cases hkey : k = IRCtoLower registrant.name
    · subst hkey
      rw [AList.lookup_insert, Option.some_inj] at hk
      subst hk
      refine ⟨c, (createProtocol_hasProtocol site _ _ _ _ hc c _).2 (by rw [if_pos rfl]), ?_⟩
      rw [createProtocol_nickname, if_pos rfl]
      rfl
    · rw [AList.lookup_insert_ne hkey] at hk
      exact hold k a hk
  · rw [hadded] at hk
    exact hold k a hk

end

theorem keeps_alive (c this : Nat) (goodbyeBeforeChunk : Bool) : Keeps site c this goodbyeBeforeChunk noneHeld AliveInv :=
  .of_frame site (fun _ _ _ h hf => h.frame hf)
    (fun self w _ _ _ _ h error _ => (h.quit ⟨self.this, self.user.nickname⟩).frame (.leave self error w))
    (fun _ _ _ hw h hG => h.createProtocol site hw.wellFormed hw.live hG)

theorem steps_alive : Steps site noneHeld AliveInv where
  time t w _ h := h.frame (.setTime w t)
  newConnection flags accepted w hw h _ := by
    cases accepted with
    | none => exact h
    | some socket =>
      intro k a hk
      obtain ⟨c, hc, hname⟩ := h k a hk
      have hclt : c < w.allocated := hw.connection_lt c (by obtain ⟨conn, hconn, -⟩ := hc; simp [hconn])
      refine ⟨c, (newConnection_hasProtocol flags socket c a).2 (by rwa [if_neg (by omega)]), ?_⟩
      rw [newConnection_nickname flags socket hw]
      exact hname
  handleInput c read w hw h hG := handleInput_keeps site (M := fun _ => AliveInv) hw h hG
    (fun _ _ _ => ⟨h, keeps_alive site _ _ _⟩) (fun _ line h => h.frame (frame_receive c line w))
    (fun _ w _ h => h.frame (frame_wake c w))
  sendOutput c written w _ h := h.frame (frame_sendOutput site c written w)
  destroy c w hw h hG := by
    cases hc : w.connection c with
    | none => simpa [destroy, hc] using h
    | some conn =>
      have hevent : noneHeld (.destroy c (w.held conn.protocol)) = true := hG _ (by simp [destroy, hc, World.record])
      have hheld : w.held conn.protocol = false := by simpa [noneHeld] using hevent
      intro k a hk
      simp only [destroy, hc, World.record] at hk
      obtain ⟨c', hc', hname⟩ := h k a hk
      have hne : a ≠ conn.protocol := by rintro rfl; exact not_held hheld hk
      refine ⟨c', (destroy_hasProtocol hc c' a).2 ⟨?_, hc'⟩, ?_⟩
      · rintro rfl
        obtain ⟨conn', hconn', rfl⟩ := hc'
        rw [hc, Option.some_inj] at hconn'
        subst hconn'
        exact hne rfl
      · rw [destroy_nickname hc, if_neg hne]
        exact hname

/-- Along every run that leaves no entry behind, the registry refers to live
connections only. -/
theorem registered_alive (passes : List Pass) (hG : Good noneHeld (run site passes)) : Alive (run site passes) := by
  have hinv : AliveInv (run site passes) := by
    refine (steps_alive site).run ?_ passes hG
    obtain ⟨s, n, e⟩ := start_spec site
    rw [e]
    intro k a hk
    simp at hk
  intro k a hk
  obtain ⟨c, hc, hname⟩ := hinv k a hk
  refine ⟨c, ((wellFormed_run site passes).live c).2 ?_, hc, hname⟩
  obtain ⟨conn, hconn, -⟩ := hc
  simp [hconn]

/-- A user who quits before the connection drops. -/
theorem registered_alive_quit_then_drop :
    Alive (run sampleSite (registers 5 "pickle" "Z0" ++ [sends 5 (octets "QUIT\r\n"), drops 5])) :=
  registered_alive sampleSite _ (by decide +kernel)

/-- A connection that drops leaves its user in the registry. -/
theorem not_alive_of_drop :
    (run sampleSite (registers 5 "pickle" "Z0" ++ [drops 5])).connections = [] ∧
      ¬ Alive (run sampleSite (registers 5 "pickle" "Z0" ++ [drops 5])) := by
  have hnone : (run sampleSite (registers 5 "pickle" "Z0" ++ [drops 5])).connections = [] := by decide +kernel
  have hentry : (run sampleSite (registers 5 "pickle" "Z0" ++ [drops 5])).registry.users.lookup (wide "pickle") = some 2 := by
    decide +kernel
  refine ⟨hnone, ?_⟩
  intro h
  obtain ⟨c, hc, -⟩ := h _ _ hentry
  rw [hnone] at hc
  simp at hc

end KineIRCd.Daemon

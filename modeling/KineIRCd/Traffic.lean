import KineIRCd.DaemonSteps
/-!
# Octet counters

Every connection counts the octets it has received and sent, and the daemon
counts what it has received on all of them. The counters are 64 bits wide.
-/
namespace KineIRCd

/-- From `w` to `w'` no octets were counted. -/
structure World.SameBytes (w w' : World) : Prop where
  receivedBytes : w'.receivedBytes = w.receivedBytes
  connection : ∀ c, (w'.connection c).map (fun conn => (conn.receivedBytes, conn.sentBytes)) =
    (w.connection c).map fun conn => (conn.receivedBytes, conn.sentBytes)
  allocated : w.allocated ≤ w'.allocated

namespace World.SameBytes
variable {w w' w'' : World}

theorem refl (w : World) : SameBytes w w := ⟨rfl, fun _ => rfl, le_rfl⟩

theorem trans (h : SameBytes w w') (h' : SameBytes w' w'') : SameBytes w w'' where
  receivedBytes := h'.receivedBytes.trans h.receivedBytes
  connection c := (h'.connection c).trans (h.connection c)
  allocated := h.allocated.trans h'.allocated

theorem of_eq (hreceived : w'.receivedBytes = w.receivedBytes) (hconnection : w'.connection = w.connection)
    (hallocated : w'.allocated = w.allocated) : SameBytes w w' :=
  ⟨hreceived, fun _ => by rw [hconnection], hallocated.ge⟩

theorem modifyConnection (w : World) (c : Nat) {f : Connection → Connection}
    (hf : ∀ conn, (f conn).receivedBytes = conn.receivedBytes ∧ (f conn).sentBytes = conn.sentBytes) :
    SameBytes w (w.modifyConnection c f) := by
  refine ⟨rfl, fun c' => ?_, le_rfl⟩
  rw [World.connection_modifyConnection]
  split_ifs with hc
  · subst hc
    rw [Option.map_map]
    exact congrArg (Option.map · _) (funext fun conn => Prod.ext (hf conn).1 (hf conn).2)
  · rfl

theorem goodbye (w : World) (c : Nat) : SameBytes w (w.goodbye c) :=
  (modifyConnection w c (f := fun conn => { conn with connected := false }) fun _ => ⟨rfl, rfl⟩).trans
    (of_eq rfl rfl rfl)

end World.SameBytes

namespace Daemon

open Irc2User (Site Self)

variable (site : Site)

theorem sameBytes_createProtocol (registrar c : Nat) (registrant : Irc2Registrar.Registrant)
    (inputQueue outputQueue : Octets) (w : World) :
    w.SameBytes (createProtocol site registrar c registrant inputQueue outputQueue w) := by
  obtain ⟨p, -, e⟩ := createProtocol_spec site registrar c registrant inputQueue outputQueue w
  have hconnection := (World.SameBytes.modifyConnection w c (f := fun conn => { conn with protocol := w.allocated })
    fun _ => ⟨rfl, rfl⟩).connection
  rw [e, World.addUser_snd]
  exact ⟨rfl, hconnection, Nat.le_succ _⟩

/-- What a chunk says is not counted. -/
theorem keeps_sameBytes (c this : Nat) (goodbyeBeforeChunk : Bool) (w₀ : World) :
    Keeps site c this goodbyeBeforeChunk (fun _ => true) w₀.SameBytes where
  own _ _ _ hP _ := hP.trans (.of_eq rfl rfl rfl)
  rand _ _ _ hP := hP.trans (.of_eq rfl rfl rfl)
  goodbye w _ hP _ := hP.trans (.goodbye w c)
  deliver _ _ _ _ hP _ := hP.trans (.of_eq rfl rfl rfl)
  leave self error w _ _ _ _ hP _ := by
    have hquit : w.SameBytes ((w.quit ⟨self.this, self.user.nickname⟩).outputLine self.this
        (LibIRC2.formatMessage LibIRC2.errorCommandName [error])) := .of_eq rfl rfl rfl
    exact ((hP.trans hquit).trans (.goodbye _ _)).trans (.goodbye _ _)
  create _ w _ _ hP _ := hP.trans (sameBytes_createProtocol site this c _ _ _ w)
  setInputQueue _ _ _ hP := hP.trans (.of_eq rfl rfl rfl)
  line _ _ _ _ _ _ _ hP _ := hP.trans (.of_eq rfl rfl rfl)

/-! ## What a step counts -/

/-- The octets a step reads from connections that meet `on`. -/
def octetsRead (on : Nat → Bool) (w : World) : Action → Nat
  | .handleInput c (some line) => if on c && w.isConnected c then line.length else 0
  | _ => 0

/-- The octets that the socket of the connection at `c` takes in a step. -/
def octetsWritten (c : Nat) (w : World) : Action → Nat
  | .sendOutput c' written => if c' = c ∧ (w.connection c').isSome then written else 0
  | _ => 0

/-- The counters of `w` after steps that read and wrote so much. -/
structure Counts (read written : Nat → Nat) (readInAll : Nat) (w : World) : Prop where
  receivedBytes : w.receivedBytes = UInt64.ofNat readInAll
  connection : ∀ c conn, w.connection c = some conn →
    conn.receivedBytes = UInt64.ofNat (read c) ∧ conn.sentBytes = UInt64.ofNat (written c)
  unallocated : ∀ c, w.allocated ≤ c → read c = 0 ∧ written c = 0

section
variable {site} {read written : Nat → Nat} {readInAll : Nat} {w w' : World}

theorem Counts.sameBytes (h : Counts read written readInAll w) (hsame : w.SameBytes w') :
    Counts read written readInAll w' where
  receivedBytes := hsame.receivedBytes.trans h.receivedBytes
  connection c conn hconn := by
    have hpair := hsame.connection c
    rw [hconn] at hpair
    obtain ⟨conn', hconn', e⟩ := Option.map_eq_some_iff.1 hpair.symm
    obtain ⟨hreceived, hsent⟩ := Prod.mk.inj e
    rw [← hreceived, ← hsent]
    exact h.connection c conn' hconn'
  unallocated c hc := h.unallocated c (hsame.allocated.trans hc)

/-- A chunk is counted when it is read. -/
theorem Counts.receive (h : Counts read written readInAll w) (hw : w.WellFormed) {c : Nat} (hc : w.isConnected c = true)
    (line : Octets) : Counts (fun c' => read c' + if c' = c then line.length else 0) written (readInAll + line.length)
      (receive c line w) where
  receivedBytes := by
    rw [UInt64.ofNat_add, ← h.receivedBytes]
    rfl
  connection c' conn hconn := by
    rw [Daemon.receive] at hconn
    dsimp only at hconn
    rw [World.connection_modifyConnection] at hconn
    split_ifs at hconn ⊢ with hc'
    · obtain ⟨conn', hconn', rfl⟩ := Option.map_eq_some_iff.1 hconn
      obtain ⟨hreceived, hsent⟩ := h.connection c conn' hconn'
      subst hc'
      exact ⟨by rw [UInt64.ofNat_add, ← hreceived], hsent⟩
    · exact h.connection c' conn hconn
  unallocated c' hc' := by
    obtain ⟨conn, hconn, -⟩ := isConnected_iff.1 hc
    have hlt : c < w.allocated := hw.connection_lt c (by rw [hconn]; rfl)
    have hle : w.allocated ≤ c' := hc'
    rw [if_neg (by omega)]
    exact h.unallocated c' hle

theorem Counts.handleInput (h : Counts read written readInAll w) (hw : w.WellFormed) (c : Nat) (input : Option Octets) :
    Counts (fun c' => read c' + octetsRead (fun x => decide (x = c')) w (.handleInput c input)) written
      (readInAll + octetsRead (fun _ => true) w (.handleInput c input)) (handleInput site c input w).2 := by
  cases hopen : w.isConnected c with
  | false =>
    have hnone : ∀ on, octetsRead on w (.handleInput c input) = 0 := by
      intro on
      cases input <;> simp [octetsRead, hopen]
    simpa [hnone, handleInput_of_closed site hopen] using h
  | true =>
    cases input with
    | none => simpa [octetsRead, handleInput_none] using h
    | some line =>
      obtain ⟨conn, hconn, hconnected⟩ := isConnected_iff.1 hopen
      have hread : ∀ on : Nat → Bool, octetsRead on w (.handleInput c (some line)) = if on c then line.length else 0 := by
        intro on
        simp [octetsRead, hopen]
      have hboth : Counts (fun c' => read c' + if c' = c then line.length else 0) written (readInAll + line.length)
          (if line = [] then w else (Daemon.input site conn.protocol (w.saidGoodbye c)).handleInput line (Daemon.receive c line w)) := by
        split_ifs with hempty
        · subst hempty
          simpa using h
        · have hhandling : Handling c conn.protocol (Daemon.receive c line w) :=
            (handling_of_hasProtocol hw ⟨conn, hconn, rfl⟩).frame (frame_receive c line w)
          have hchunk := (keeps_sameBytes site c conn.protocol (w.saidGoodbye c) (Daemon.receive c line w)).chunk line
            ⟨hhandling, fun _ => .refl _⟩
          exact (h.receive hw hopen line).sameBytes (hchunk.2 fun _ _ => rfl)
      obtain ⟨s, hwake⟩ := wake_spec c (if line = [] then w
        else (Daemon.input site conn.protocol (w.saidGoodbye c)).handleInput line (Daemon.receive c line w))
      rw [handleInput_some site hconn hconnected, hwake]
      simp only [hread, decide_eq_true_eq, ↓reduceIte, eq_comm (a := c)]
      exact hboth.sameBytes (.of_eq rfl rfl rfl)

/-- A socket's answer is counted, whatever it took of what it was offered. -/
theorem Counts.sendOutput (h : Counts read written readInAll w) (hw : w.WellFormed) (c n : Nat) :
    Counts read (fun c' => written c' + octetsWritten c' w (.sendOutput c n)) readInAll (sendOutput site c n w) := by
  unfold Daemon.sendOutput
  cases hconn : w.connection c with
  | none => simpa [octetsWritten, hconn] using h
  | some conn =>
    obtain ⟨p, hp, -⟩ := Option.map_eq_some_iff.1 (hw.owner c conn.protocol ⟨conn, hconn, rfl⟩)
    dsimp only
    rw [hp]
    dsimp only
    generalize hout : Outgoing.sendOutput site.readBlockSize n ⟨p.outputQueue, conn.sentBytes⟩ = out
    have hsent : out.sentBytes = conn.sentBytes + UInt64.ofNat n := by rw [← hout]; rfl
    have hboth : Counts read (fun c' => written c' + octetsWritten c' w (.sendOutput c n)) readInAll
        ((w.modifyProtocol conn.protocol (·.setOutputQueue out.outputQueue)).modifyConnection c
          fun conn => { conn with sentBytes := out.sentBytes }) := by
      refine ⟨h.receivedBytes, fun c' conn' hconn' => ?_, fun c' hc' => ?_⟩
      · have hconnection := w.connection_modifyConnection c (fun conn => { conn with sentBytes := out.sentBytes }) c'
        obtain hconn' := hconnection.symm.trans hconn'
        split_ifs at hconn' with hc'
        · obtain ⟨conn'', hconn'', rfl⟩ := Option.map_eq_some_iff.1 hconn'
          obtain rfl := Option.some_inj.1 (hconn.symm.trans hconn'')
          subst hc'
          obtain ⟨hreceived, hbefore⟩ := h.connection c' conn hconn
          refine ⟨hreceived, ?_⟩
          simp only [octetsWritten, hconn, Option.isSome_some, and_self, ↓reduceIte]
          rw [UInt64.ofNat_add, ← hbefore, hsent]
        · have hother : octetsWritten c' w (.sendOutput c n) = 0 := by simp [octetsWritten, Ne.symm hc']
          rw [hother, Nat.add_zero]
          exact h.connection c' conn' hconn'
      · have hlt : c < w.allocated := hw.connection_lt c (by rw [hconn]; rfl)
        have hle : w.allocated ≤ c' := hc'
        have hother : octetsWritten c' w (.sendOutput c n) = 0 := by
          simp only [octetsWritten]
          rw [if_neg (by omega)]
        rw [hother, Nat.add_zero]
        exact h.unallocated c' hle
    split_ifs
    · exact hboth
    · exact hboth.sameBytes (.of_eq rfl rfl rfl)

theorem Counts.newConnection (h : Counts read written readInAll w) (flags : ListenerFlags) (accepted : Option Accepted) :
    Counts read written readInAll (newConnection flags accepted w) := by
  cases accepted with
  | none => exact h
  | some socket =>
    refine ⟨h.receivedBytes, fun c conn hconn => ?_, fun c hc => ?_⟩
    · simp only [Daemon.newConnection, Function.update_apply] at hconn
      split_ifs at hconn with hnew
      · -- nothing was read or written at an address nobody had
        obtain rfl := Option.some_inj.1 hconn
        obtain ⟨hread, hwritten⟩ := h.unallocated c hnew.ge
        rw [hread, hwritten]
        exact ⟨rfl, rfl⟩
      · exact h.connection c conn hconn
    · have hle : w.allocated + 2 ≤ c := hc
      exact h.unallocated c (by omega)

theorem Counts.destroy (h : Counts read written readInAll w) (c : Nat) : Counts read written readInAll (destroy c w) := by
  unfold Daemon.destroy
  cases w.connection c with
  | none => exact h
  | some conn =>
    refine ⟨h.receivedBytes, fun c' conn' hconn' => ?_, h.unallocated⟩
    simp only [Function.update_apply] at hconn'
    split_ifs at hconn'
    exact h.connection c' conn' hconn'

variable (site) in
/-- The counters after a step. -/
theorem Counts.act (h : Counts read written readInAll w) (hw : w.WellFormed) (x : Action) :
    Counts (fun c => read c + octetsRead (fun c' => decide (c' = c)) w x) (fun c => written c + octetsWritten c w x)
      (readInAll + octetsRead (fun _ => true) w x) (act site w x) := by
  cases x with
  | setTime t => exact h.sameBytes (.of_eq rfl rfl rfl)
  | newConnection flags accepted => exact h.newConnection flags accepted
  | handleInput c input => exact h.handleInput hw c input
  | sendOutput c n => exact h.sendOutput hw c n
  | destroy c => exact h.destroy c

end

/-- In every state of every run, the daemon's counter says how many octets were
read in all, and each connection's counters how many were read and written on
it, all modulo 2^64. -/
theorem octets_counted (site : Site) (actions : List Action) :
    let total := fun f => Runs.total (act site) f (start site) actions
    (reach site actions).receivedBytes = UInt64.ofNat (total (octetsRead fun _ => true)) ∧
      ∀ c conn, (reach site actions).connection c = some conn →
        conn.receivedBytes = UInt64.ofNat (total (octetsRead fun c' => decide (c' = c))) ∧
          conn.sentBytes = UInt64.ofNat (total (octetsWritten c)) := by
  intro total
  have hcounts : Counts (fun c => total (octetsRead fun c' => decide (c' = c))) (fun c => total (octetsWritten c))
      (total (octetsRead fun _ => true)) (reach site actions) := by
    induction actions using List.reverseRecOn with
    | nil =>
      obtain ⟨s, n, e⟩ := start_spec site
      rw [reach, List.foldl_nil, e]
      exact ⟨rfl, by simp, fun _ _ => ⟨rfl, rfl⟩⟩
    | append_singleton actions x ih =>
      have hstep := ih.act site (wellFormed_reach site actions) x
      simp only [total, Runs.total_concat]
      rw [reach, List.foldl_append]
      exact hstep
  exact ⟨hcounts.receivedBytes, hcounts.connection⟩

end Daemon

end KineIRCd

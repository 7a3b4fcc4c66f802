import KineIRCd.Daemon
import KineIRCd.WorldSteps
/-!
# What a hand-over does

The registrar that hands over makes a user's object, which adds its user to the
registry and welcomes it, and puts it in its own place.
-/
namespace KineIRCd

open Irc2User (Site Self)

/-- From `w` to `w'` only the protocol object at `a` evolved. -/
def World.Evolution (a : Nat) (w w' : World) : Prop :=
  ∃ p p', w.protocol a = some p ∧ p.Evolves p' ∧ w' = { w with protocol := Function.update w.protocol a (some p') }

namespace World.Evolution
variable {a : Nat} {w w' : World} {g : ProtocolBase → ProtocolBase}

theorem refl {p : ProtocolBase} (h : w.protocol a = some p) : World.Evolution a w w := by
  refine ⟨p, p, h, .refl p, ?_⟩
  rw [← h, Function.update_eq_self]

theorem modifyProtocol (h : World.Evolution a w w') (hg : ∀ p, w'.protocol a = some p → p.Evolves (g p)) :
    World.Evolution a w (w'.modifyProtocol a g) := by
  obtain ⟨p, p', hp, hevolves, rfl⟩ := h
  have hp' : Function.update w.protocol a (some p') a = some p' := Function.update_self ..
  refine ⟨p, g p', hp, hevolves.trans (hg p' hp'), ?_⟩
  simp [World.modifyProtocol]

theorem outputLine (h : World.Evolution a w w') (line : Octets) : World.Evolution a w (w'.outputLine a line) :=
  h.modifyProtocol fun p _ => .outputLine p line

theorem outputLines {self : Self} (h : World.Evolution self.this w w') (lines : List Octets) :
    World.Evolution self.this w (Irc2User.outputLines self lines w') := by
  rw [Irc2User.outputLines_eq]
  exact h.modifyProtocol fun p _ => .outputLines p lines

end World.Evolution

namespace Daemon

variable (site : Site)

theorem evolution_welcome (self : Self) {w w' : World} (h : World.Evolution self.this w w') :
    World.Evolution self.this w (welcome site self w') := by
  simp only [welcome, List.foldl_cons, List.foldl_nil, Irc2User.report]
  exact ((((((h.outputLine _).outputLine _).outputLine _).outputLine _).outputLines _).outputLines _).outputLines _
    |>.outputLines _ |>.outputLines _

/-- An object the constructor made for a connection, from a registrant and the
registrar's queues. -/
structure Made (connection : Nat) (name : WString) (inputQueue outputQueue : Octets) (p : ProtocolBase) : Prop where
  connection : p.connection = connection
  inputQueue : p.inputQueue = inputQueue
  outputQueue : outputQueue <+: p.outputQueue
  nickname : p.user?.map (·.nickname) = some name

/-- The constructor adds the user, if it can, and otherwise only evolves the
new object. -/
theorem evolution_construct (self : Self) {w : World} {p : ProtocolBase} (hp : w.protocol self.this = some p)
    (hname : p.user?.map (·.nickname) = some self.user.nickname) :
    World.Evolution self.this (w.addUser site.maxNickNameLength ⟨self.this, self.user.nickname⟩).2
      (construct site self w) := by
  have hp' : (w.addUser site.maxNickNameLength ⟨self.this, self.user.nickname⟩).2.protocol self.this = some p := by
    rw [World.addUser_snd]; exact hp
  simp only [construct]
  generalize w.addUser site.maxNickNameLength ⟨self.this, self.user.nickname⟩ = added at hp' ⊢
  split_ifs
  · generalize hu : ({ self.user with languageList := [site.defaultLanguage] } : Irc2User.User) = user
    have hmodify : World.Evolution self.this added.2 (Irc2User.modifyUser self (fun _ => user) added.2) := by
      apply (World.Evolution.refl hp').modifyProtocol
      intro q hq
      obtain rfl := Option.some_inj.1 (hp'.symm.trans hq)
      obtain ⟨c, r | u⟩ := p
      · exact .refl _
      · exact ⟨rfl, rfl, List.prefix_refl _, by rw [hname, ← hu]; rfl⟩
    exact evolution_welcome site ⟨self.this, self.connection, user⟩ hmodify
  · exact .refl hp'

/-- A hand-over adds the user, if it can, and puts a new object in the
registrar's place. -/
theorem createProtocol_spec (registrar connection : Nat) (registrant : Irc2Registrar.Registrant)
    (inputQueue outputQueue : Octets) (w : World) : ∃ p, Made connection registrant.name inputQueue outputQueue p ∧
      createProtocol site registrar connection registrant inputQueue outputQueue w =
        { (w.addUser site.maxNickNameLength ⟨w.allocated, registrant.name⟩).2 with
          protocol := Function.update w.protocol w.allocated (some p)
          allocated := w.allocated + 1
          connection := Function.update w.connection connection
            ((w.connection connection).map fun c => { c with protocol := w.allocated })
          log := w.log ++ [createEvent site registrar connection registrant.name inputQueue w] } := by
  simp only [createProtocol]
  generalize hu : Irc2User.User.mk _ _ _ _ _ _ _ _ = user
  have hname : user.nickname = registrant.name := by rw [← hu]
  generalize hbefore : World.allocate _ _ = before
  have hnew : before.protocol w.allocated = some ⟨connection, .user ⟨inputQueue, outputQueue, user⟩⟩ := by
    rw [← hbefore]; exact Function.update_self ..
  obtain ⟨p, p', hp, hevolves, e⟩ :=
    evolution_construct site ⟨w.allocated, connection, user⟩ hnew rfl
  rw [World.addUser_snd] at hp
  obtain rfl := Option.some_inj.1 (hp.symm.trans hnew)
  refine ⟨p', ⟨hevolves.connection, hevolves.inputQueue, hevolves.outputQueue, ?_⟩, ?_⟩
  · rw [hevolves.nickname, ← hname]; rfl
  · rw [e, World.addUser_snd, World.addUser_snd, ← hbefore, ← hname]
    simp only [World.allocate, World.record, World.modifyConnection, Function.update_idem]
    rfl

/-! ## What changes, field by field -/

section
variable {c : Nat} {w : World}
variable (registrar : Nat) (registrant : Irc2Registrar.Registrant) (inputQueue outputQueue : Octets)

theorem createProtocol_log : (createProtocol site registrar c registrant inputQueue outputQueue w).log =
    w.log ++ [createEvent site registrar c registrant.name inputQueue w] := by
  obtain ⟨p, -, e⟩ := createProtocol_spec site registrar c registrant inputQueue outputQueue w
  rw [e]

theorem createProtocol_registry : (createProtocol site registrar c registrant inputQueue outputQueue w).registry =
    (w.registry.addUser site.maxNickNameLength ⟨w.allocated, registrant.name⟩).2 := by
  obtain ⟨p, -, e⟩ := createProtocol_spec site registrar c registrant inputQueue outputQueue w
  rw [e, World.addUser_snd]

theorem createProtocol_allocated : (createProtocol site registrar c registrant inputQueue outputQueue w).allocated =
    w.allocated + 1 := by
  obtain ⟨p, -, e⟩ := createProtocol_spec site registrar c registrant inputQueue outputQueue w
  rw [e]

theorem createProtocol_hasProtocol (hc : (w.connection c).isSome = true) (c' a : Nat) :
    (createProtocol site registrar c registrant inputQueue outputQueue w).HasProtocol c' a ↔
      if c' = c then a = w.allocated else w.HasProtocol c' a := by
  obtain ⟨p, -, e⟩ := createProtocol_spec site registrar c registrant inputQueue outputQueue w
  obtain ⟨conn, hconn⟩ := Option.isSome_iff_exists.1 hc
  rw [e, World.addUser_snd, World.hasProtocol_iff, World.hasProtocol_iff]
  simp only [Function.update_apply, hconn, Option.map_some]
  split_ifs
  · simp [eq_comm]
  · rfl

theorem createProtocol_nickname (a : Nat) :
    (createProtocol site registrar c registrant inputQueue outputQueue w).nickname a =
      if a = w.allocated then some registrant.name else w.nickname a := by
  obtain ⟨p, hp, e⟩ := createProtocol_spec site registrar c registrant inputQueue outputQueue w
  rw [e, World.addUser_snd, World.nickname]
  simp only [Function.update_apply]
  split_ifs
  · exact hp.nickname
  · rfl

theorem createProtocol_isConnected (c' : Nat) :
    (createProtocol site registrar c registrant inputQueue outputQueue w).isConnected c' = w.isConnected c' := by
  obtain ⟨p, -, e⟩ := createProtocol_spec site registrar c registrant inputQueue outputQueue w
  rw [e, World.addUser_snd, World.isConnected, World.isConnected]
  simp only [Function.update_apply]
  split_ifs with h
  · rw [h, Option.any_map]
  · rfl

theorem createProtocol_hasQuit (a : Nat) :
    (createProtocol site registrar c registrant inputQueue outputQueue w).HasQuit a ↔ w.HasQuit a := by
  simp [World.HasQuit, createProtocol_log, createEvent]

/-- The new object is fresh, and takes the place of the connection's old one. -/
theorem wellFormed_createProtocol (hw : w.WellFormed) (hc : (w.connection c).isSome = true) :
    (createProtocol site registrar c registrant inputQueue outputQueue w).WellFormed := by
  obtain ⟨p, hp, e⟩ := createProtocol_spec site registrar c registrant inputQueue outputQueue w
  obtain ⟨conn, hconn⟩ := Option.isSome_iff_exists.1 hc
  rw [e, World.addUser_snd]
  refine ⟨hw.nodup, ?_, ?_, ?_, ?_⟩
  · intro c'
    simp only [Function.update_apply, hconn, Option.map_some]
    split_ifs with h
    · simp [h, hw.live, hc]
    · exact hw.live c'
  · intro c' a ha
    simp only [World.HasProtocol, Function.update_apply, hconn, Option.map_some] at ha ⊢
    obtain ⟨conn', hconn', rfl⟩ := ha
    split_ifs at hconn' with h
    · cases hconn'
      simp [hp.connection, h]
    · have howner := hw.owner c' conn'.protocol ⟨conn', hconn', rfl⟩
      rw [if_neg]
      · exact howner
      · -- the new address is nobody's yet
        intro heq
        have hlt := hw.hasProtocol_lt ⟨conn', hconn', rfl⟩
        omega
  · intro c' hc'
    simp only [Function.update_apply, hconn, Option.map_some] at hc' ⊢
    split_ifs at hc' with h
    · have := hw.connection_lt c hc
      omega
    · have := hw.connection_lt c' hc'
      omega
  · intro a ha
    simp only [Function.update_apply] at ha ⊢
    split_ifs at ha with h
    · omega
    · have := hw.protocol_lt a ha
      omega

end

end Daemon

end KineIRCd

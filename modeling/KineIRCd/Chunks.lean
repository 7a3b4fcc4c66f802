import KineIRCd.Creation
import KineIRCd.RegistrarSteps
/-!
# What a chunk does

A message is a sequence of small steps on the object that parses it, its
connection, and the users it reaches. `KeepsEachMessage` takes a property through
a message from those steps, and `KeepsEach` through the lines of a chunk, as far
as the events meet a condition `G`. `KeepsMessage` and `Keeps` are the same for a
property to which most of these steps are one.
-/
namespace KineIRCd.Daemon

open Irc2User (Site Self)

variable (site : Site)

/-- The object at `this` handles input of the connection at `c`. A user's
object stays the one its connection refers to; a registrar may be replaced. -/
structure Handling (c this : Nat) (w : World) : Prop where
  wellFormed : w.WellFormed
  owner : (w.protocol this).map (·.connection) = some c
  live : (w.connection c).isSome = true
  attached : (w.nickname this).isSome = true → w.HasProtocol c this

/-- Every event so far meets `G`. -/
def Good (G : Event → Bool) (w : World) : Prop := ∀ e ∈ w.log, G e = true

instance (G : Event → Bool) (w : World) : Decidable (Good G w) := inferInstanceAs (Decidable (∀ e ∈ w.log, G e = true))

theorem Good.of_prefix {G : Event → Bool} {w w' : World} (h : Good G w') (hlog : w.log <+: w'.log) : Good G w :=
  fun e he => h e (hlog.subset he)

section
variable {c this : Nat} {w w' : World}

theorem Handling.isSome (h : Handling c this w) : (w.protocol this).isSome = true := by
  simpa using congrArg Option.isSome h.owner

theorem Handling.lt_allocated (h : Handling c this w) : this < w.allocated := h.wellFormed.protocol_lt this h.isSome

theorem Handling.frame (h : Handling c this w) (hf : w.Frame w') : Handling c this w' where
  wellFormed := h.wellFormed.frame hf
  owner := (hf.owner this).trans h.owner
  live := (hf.isSome_connection c).trans h.live
  attached hn := hf.hasProtocol_iff.2 (h.attached (hf.nickname this ▸ hn))

theorem Handling.quit (h : Handling c this w) (user : Entity) : Handling c this (w.quit user) where
  wellFormed := ⟨h.wellFormed.nodup, h.wellFormed.live, h.wellFormed.owner, h.wellFormed.connection_lt,
    h.wellFormed.protocol_lt⟩
  owner := h.owner
  live := h.live
  attached := h.attached

theorem Handling.leave (h : Handling c this w) (self : Self) (error : Octets) :
    Handling c this (Irc2User.leave self error w) :=
  (h.quit _).frame (.leave self error w)

theorem leave_log (self : Self) (error : Octets) (w : World) : (Irc2User.leave self error w).log = w.log ++
    [.quit self.this (w.registry.findUser self.user.nickname).isSome w.networkUserCount.count w.serverUserCount.count,
      .goodbye self.connection, .goodbye self.connection] := by
  simp [Irc2User.leave, Irc2User.sendError, World.goodbye, World.record, World.modifyConnection, World.outputLine,
    World.modifyProtocol, World.quit]

variable (registrant : Irc2Registrar.Registrant) (inputQueue outputQueue : Octets)

theorem Handling.createProtocol (h : Handling c this w) (hthis : w.nickname this = none) :
    Handling c this (createProtocol site this c registrant inputQueue outputQueue w) := by
  have hw := wellFormed_createProtocol site this registrant inputQueue outputQueue h.wellFormed h.live
  obtain ⟨p, hp, e⟩ := createProtocol_spec site this c registrant inputQueue outputQueue w
  have hlt := h.lt_allocated
  have hprotocol : (Daemon.createProtocol site this c registrant inputQueue outputQueue w).protocol this = w.protocol this := by
    rw [e]; exact Function.update_of_ne (by omega) _ _
  refine ⟨hw, by rw [hprotocol]; exact h.owner, ?_, ?_⟩
  · obtain ⟨conn, hconn⟩ := Option.isSome_iff_exists.1 h.live
    rw [e]; simp [hconn]
  · intro hn
    rw [World.nickname, hprotocol, ← World.nickname, hthis] at hn
    simp at hn

end

/-- Only a message that there is a use for has an effect. -/
theorem acted_hasUse (this : Nat) (p : ProtocolBase) (m : LibIRC2.Message) (w : World) :
    (protocolMessage site this p m w).2 = true → hasUse site p m = true := by
  obtain ⟨c, r | u⟩ := p
  · intro hacted
    by_contra huse
    simp only [hasUse, Bool.or_eq_true, not_or, Bool.not_eq_true, Option.isSome_eq_false_iff, Option.isNone_iff_eq_none] at huse
    obtain ⟨hcommand, hnone⟩ := huse
    have hfound : (Irc2Registrar.Session.findCompletion site.toEnv
        { this := r, connected := w.isConnected c, rand := w.rand }).2 = none := by
      rw [← hnone]
      exact Irc2Registrar.Session.findCompletion_snd site.toEnv _ rfl
    have hsame := Irc2Registrar.Session.parseMessage_of_no_use site.toEnv w.registry _ hcommand hfound
    simp only [protocolMessage, registrarMessage] at hacted
    split_ifs at hacted <;> simp [hsame] at hacted
  · intro hacted
    rwa [protocolMessage, Irc2User.parseMessage_handles] at hacted

/-- The rule for a message to the object at `this`, on the connection at `c`: a
property that each kind of small step keeps. -/
structure KeepsEachMessage (c this : Nat) (G : Event → Bool) (P : World → Prop) : Prop where
  outputLine : ∀ line w, Handling c this w → P w → P (w.outputLine this line)
  modifyUser : ∀ f w, Irc2User.Amends w.time f → Handling c this w → P w → P (w.modifyProtocol this (·.modifyUser f))
  registrar : ∀ (r r' : Irc2Registrar.Protocol) w, w.protocol this = some ⟨c, .registrar r⟩ → Handling c this w → P w →
    r'.inputQueue = r.inputQueue → r.outputQueue <+: r'.outputQueue →
    P (w.modifyProtocol this fun p => { p with body := .registrar r' })
  rand : ∀ n w, Handling c this w → P w → P { w with rand := n }
  goodbye : ∀ w, Handling c this w → P w → Good G (w.goodbye c) → P (w.goodbye c)
  receivePrivate : ∀ (self : Self) commandName receiver message w, self.this = this → self.connection = c →
    w.identity this = some self.user.identity → commandName ∈ [octets "PRIVMSG", octets "NOTICE"] → Handling c this w →
    P w → Good G (Irc2User.receivePrivate site self commandName receiver message w) →
    P (Irc2User.receivePrivate site self commandName receiver message w)
  leave : ∀ (self : Self) error w, self.this = this → self.connection = c →
    w.identity this = some self.user.identity → Handling c this w → P w → Good G (Irc2User.leave self error w) →
    P (Irc2User.leave self error w)
  create : ∀ (r : Irc2Registrar.Protocol) w, w.protocol this = some ⟨c, .registrar r⟩ → Handling c this w → P w →
    Good G (createProtocol site this c r.registrantData r.inputQueue r.outputQueue w) →
    P (createProtocol site this c r.registrantData r.inputQueue r.outputQueue w)

/-- The rule for a chunk: what keeps a property through its messages and
between them. -/
structure KeepsEach (c this : Nat) (goodbyeBeforeChunk : Bool) (G : Event → Bool) (P : World → Prop) : Prop
    extends KeepsEachMessage site c this G P where
  setInputQueue : ∀ q w, Handling c this w → P w → P (w.modifyProtocol this (·.setInputQueue q))
  line : ∀ text goodbyeBefore hasUse acted w, (acted = true → hasUse = true) → Handling c this w → P w →
    Good G (w.record (.line this text goodbyeBeforeChunk goodbyeBefore hasUse acted)) →
    P (w.record (.line this text goodbyeBeforeChunk goodbyeBefore hasUse acted))

/-- What is carried through a chunk: `P` is promised while the events are good. -/
def During (c this : Nat) (G : Event → Bool) (P : World → Prop) (w : World) : Prop :=
  Handling c this w ∧ (Good G w → P w)

section
variable {site} {c this : Nat} {G : Event → Bool} {P : World → Prop} {w : World}

namespace KeepsEachMessage
variable (h : KeepsEachMessage site c this G P)
include h

theorem during_outputLine (line : Octets) (hw : During c this G P w) : During c this G P (w.outputLine this line) :=
  ⟨hw.1.frame (.outputLine w this line), fun hG => h.outputLine line w hw.1 (hw.2 hG)⟩

theorem during_modifyUser {f : Irc2User.User → Irc2User.User} (hf : Irc2User.Amends w.time f) (hw : During c this G P w) :
    During c this G P (w.modifyProtocol this (·.modifyUser f)) :=
  ⟨hw.1.frame (.evolve fun p _ => .modifyUser p f fun u => congrArg (·.1) (hf.identity u)),
    fun hG => h.modifyUser f w hf hw.1 (hw.2 hG)⟩

theorem during_registrar {r r' : Irc2Registrar.Protocol} (hr : w.protocol this = some ⟨c, .registrar r⟩)
    (hinput : r'.inputQueue = r.inputQueue) (houtput : r.outputQueue <+: r'.outputQueue) (hw : During c this G P w) :
    During c this G P (w.modifyProtocol this fun p => { p with body := .registrar r' }) := by
  refine ⟨hw.1.frame (.evolve ?_), fun hG => h.registrar r r' w hr hw.1 (hw.2 hG) hinput houtput⟩
  intro p hp
  obtain rfl := Option.some_inj.1 (hr.symm.trans hp)
  exact ⟨rfl, hinput, houtput, rfl⟩

theorem during_rand (n : Nat) (hw : During c this G P w) : During c this G P { w with rand := n } :=
  ⟨hw.1.frame (.setRand w n), fun hG => h.rand n w hw.1 (hw.2 hG)⟩

theorem during_goodbye (hw : During c this G P w) : During c this G P (w.goodbye c) :=
  ⟨hw.1.frame (.goodbye w c), fun hG => h.goodbye w hw.1 (hw.2 (hG.of_prefix (List.prefix_append _ _))) hG⟩

theorem during_receivePrivate {self : Self} (hthis : self.this = this) (hc : self.connection = c)
    (hidentity : w.identity this = some self.user.identity) {commandName : Octets}
    (hcommand : commandName ∈ [octets "PRIVMSG", octets "NOTICE"]) (receiver : Nat) (message : WString)
    (hw : During c this G P w) :
    During c this G P (Irc2User.receivePrivate site self commandName receiver message w) := by
  have hlog : w.log <+: (Irc2User.receivePrivate site self commandName receiver message w).log := by
    unfold Irc2User.receivePrivate
    split
    · exact List.prefix_append _ _
    · exact List.prefix_refl _
  exact ⟨hw.1.frame (.receivePrivate site self commandName receiver message w), fun hG =>
    h.receivePrivate self commandName receiver message w hthis hc hidentity hcommand hw.1 (hw.2 (hG.of_prefix hlog)) hG⟩

theorem during_create {r : Irc2Registrar.Protocol} (hr : w.protocol this = some ⟨c, .registrar r⟩)
    (hw : During c this G P w) :
    During c this G P (createProtocol site this c r.registrantData r.inputQueue r.outputQueue w) := by
  refine ⟨hw.1.createProtocol site _ _ _ (by simp [World.nickname, hr, ProtocolBase.user?]), ?_⟩
  intro hG
  have hlog : w.log <+: (createProtocol site this c r.registrantData r.inputQueue r.outputQueue w).log := by
    rw [createProtocol_log]; exact List.prefix_append _ _
  exact h.create r w hr hw.1 (hw.2 (hG.of_prefix hlog)) hG

/-- A user's command keeps what a chunk carries, and who the user is. -/
theorem userMessage {self : Self} (hthis : self.this = this) (hc : self.connection = c) :
    Irc2User.KeepsEach site self fun w => During c this G P w ∧ w.identity this = some self.user.identity := by
  subst hthis hc
  refine ⟨?_, ?_, ?_, ?_⟩
  · intro line w hw
    exact ⟨h.during_outputLine line hw.1, (World.identity_outputLine w _ line _).trans hw.2⟩
  · intro f w hf hw
    exact ⟨h.during_modifyUser hf hw.1, (World.identity_modifyUser w _ hf.identity _).trans hw.2⟩
  · intro commandName receiver message w hcommand hw
    exact ⟨h.during_receivePrivate rfl rfl hw.2 hcommand receiver message hw.1,
      (World.identity_receivePrivate w commandName receiver message _).trans hw.2⟩
  · intro error w hw
    obtain ⟨⟨hhandling, hP⟩, hidentity⟩ := hw
    refine ⟨⟨hhandling.leave self error, ?_⟩, (World.identity_outputLine _ _ _ _).trans hidentity⟩
    intro hG
    have hlog : w.log <+: (Irc2User.leave self error w).log := by rw [leave_log]; exact List.prefix_append _ _
    exact h.leave self error w rfl rfl hidentity hhandling (hP (hG.of_prefix hlog)) hG

/-- A registrar's command evolves it, may say goodbye, and may hand over. -/
theorem registrarMessage {r : Irc2Registrar.Protocol} (hr : w.protocol this = some ⟨c, .registrar r⟩)
    (m : LibIRC2.Message) (hw : During c this G P w) : During c this G P (registrarMessage site this c r m w).1 := by
  simp only [Daemon.registrarMessage]
  set result := Irc2Registrar.Session.parseMessage site.toEnv w.registry m _ with hresult
  have hframe := Irc2Registrar.Session.frame_parseMessage site.toEnv w.registry
    { this := r, connected := w.isConnected c, rand := w.rand } m
  rw [← hresult] at hframe
  set s := result.1
  have hown := h.during_rand s.rand (h.during_registrar hr hframe.inputQueue hframe.outputQueue hw)
  have hnow : ({ w.modifyProtocol this (fun p => { p with body := .registrar s.this }) with rand := s.rand } : World).protocol
      this = some ⟨c, .registrar s.this⟩ := by
    simp [World.modifyProtocol, hr]
  split_ifs with hdone hconnected hconnected
  · exact h.during_create hnow hown
  · exact h.during_create hnow (h.during_goodbye hown)
  · exact hown
  · exact h.during_goodbye hown

theorem protocolMessage {p : ProtocolBase} (hp : w.protocol this = some p) (m : LibIRC2.Message)
    (hw : During c this G P w) : During c this G P (protocolMessage site this p m w).1 := by
  obtain ⟨p', hp', hc⟩ := Option.map_eq_some_iff.1 hw.1.owner
  obtain rfl := Option.some_inj.1 (hp.symm.trans hp')
  obtain ⟨c', r | u⟩ := p
  · subst hc
    exact h.registrarMessage hp m hw
  · have huser : Irc2User.KeepsEach site ⟨this, c', u.user⟩ _ := h.userMessage rfl hc
    have hidentity : w.identity this = some u.user.identity := by simp [World.identity, hp, ProtocolBase.user?]
    exact (huser.parseMessage m ⟨hw, hidentity⟩).1

end KeepsEachMessage

namespace KeepsEach
variable {goodbyeBeforeChunk : Bool} (h : KeepsEach site c this goodbyeBeforeChunk G P)
include h

theorem during_setInputQueue (q : Octets) (hw : During c this G P w) :
    During c this G P (w.modifyProtocol this (·.setInputQueue q)) :=
  ⟨hw.1.frame (.setInputQueue w this q), fun hG => h.setInputQueue q w hw.1 (hw.2 hG)⟩

theorem during_line (text : Octets) (goodbyeBefore hasUse acted : Bool) (hacted : acted = true → hasUse = true)
    (hw : During c this G P w) :
    During c this G P (w.record (.line this text goodbyeBeforeChunk goodbyeBefore hasUse acted)) :=
  ⟨hw.1.frame (.record w (by simp)), fun hG =>
    h.line text goodbyeBefore hasUse acted w hacted hw.1 (hw.2 (hG.of_prefix (List.prefix_append _ _))) hG⟩

theorem parseLine (line : Octets) (hw : During c this G P w) :
    During c this G P (parseLine site this goodbyeBeforeChunk line w) := by
  obtain ⟨p, hp, hc⟩ := Option.map_eq_some_iff.1 hw.1.owner
  simp only [Daemon.parseLine, hp]
  cases LibIRC2.parseLine line with
  | none => exact h.during_line _ _ _ _ (by simp) hw
  | some m => exact h.during_line _ _ _ _ (acted_hasUse site this p m w) (h.protocolMessage hp m hw)

/-- A chunk keeps what its small steps keep, from any position on. -/
theorem chunkFrom (data : Octets) (pos : Nat) (hw : During c this G P w) :
    During c this G P ((input site this goodbyeBeforeChunk).handleInputFrom data pos w) := by
  refine Clbp.Input.handleInputFrom_keeps (P := During c this G P) _ ?_
    (fun q w => h.during_setInputQueue q) data pos w hw
  intro l w hw
  unfold Clbp.Input.takeLine
  split_ifs
  · exact h.parseLine l hw
  · exact h.during_setInputQueue [] (h.parseLine _ hw)

theorem chunk (data : Octets) (hw : During c this G P w) :
    During c this G P ((input site this goodbyeBeforeChunk).handleInput data w) :=
  h.chunkFrom data 0 hw

end KeepsEach

end

/-- The rule for a property that does not depend on how the object at `this`
evolves, nor on what is delivered. -/
structure KeepsMessage (c this : Nat) (G : Event → Bool) (P : World → Prop) : Prop where
  own : ∀ g w, Handling c this w → P w → (∀ p, w.protocol this = some p → p.Evolves (g p)) → P (w.modifyProtocol this g)
  rand : ∀ n w, Handling c this w → P w → P { w with rand := n }
  goodbye : ∀ w, Handling c this w → P w → Good G (w.goodbye c) → P (w.goodbye c)
  deliver : ∀ receiver line w, Handling c this w → P w → Good G (w.deliver c receiver line) →
    P (w.deliver c receiver line)
  leave : ∀ (self : Self) error w, self.this = this → self.connection = c →
    w.nickname this = some self.user.nickname → Handling c this w → P w → Good G (Irc2User.leave self error w) →
    P (Irc2User.leave self error w)
  create : ∀ (r : Irc2Registrar.Protocol) w, w.protocol this = some ⟨c, .registrar r⟩ → Handling c this w → P w →
    Good G (createProtocol site this c r.registrantData r.inputQueue r.outputQueue w) →
    P (createProtocol site this c r.registrantData r.inputQueue r.outputQueue w)

/-- The same, for a chunk. -/
structure Keeps (c this : Nat) (goodbyeBeforeChunk : Bool) (G : Event → Bool) (P : World → Prop) : Prop
    extends KeepsMessage site c this G P where
  setInputQueue : ∀ q w, Handling c this w → P w → P (w.modifyProtocol this (·.setInputQueue q))
  line : ∀ text goodbyeBefore hasUse acted w, (acted = true → hasUse = true) → Handling c this w → P w →
    Good G (w.record (.line this text goodbyeBeforeChunk goodbyeBefore hasUse acted)) →
    P (w.record (.line this text goodbyeBeforeChunk goodbyeBefore hasUse acted))

section
variable {site} {c this : Nat} {G : Event → Bool} {P : World → Prop} {w : World}

theorem KeepsMessage.keepsEachMessage (h : KeepsMessage site c this G P) : KeepsEachMessage site c this G P where
  outputLine line w hw hP := h.own _ w hw hP fun p _ => .outputLine p line
  modifyUser f w hf hw hP := h.own _ w hw hP fun p _ => .modifyUser p f fun u => congrArg (·.1) (hf.identity u)
  registrar r r' w hr hw hP hinput houtput := by
    refine h.own _ w hw hP fun p hp => ?_
    obtain rfl := Option.some_inj.1 (hr.symm.trans hp)
    exact ⟨rfl, hinput, houtput, rfl⟩
  rand := h.rand
  goodbye := h.goodbye
  receivePrivate self commandName receiver message w hthis hc hidentity hcommand hw hP hG := by
    subst hc
    unfold Irc2User.receivePrivate at hG ⊢
    split at hG
    · exact h.deliver _ _ w hw hP hG
    · exact hP
  leave self error w hthis hc hidentity := h.leave self error w hthis hc (World.nickname_of_identity hidentity)
  create := h.create

theorem KeepsMessage.protocolMessage (h : KeepsMessage site c this G P) {p : ProtocolBase} (hp : w.protocol this = some p)
    (m : LibIRC2.Message) (hw : During c this G P w) : During c this G P (protocolMessage site this p m w).1 :=
  h.keepsEachMessage.protocolMessage hp m hw

namespace Keeps
variable {goodbyeBeforeChunk : Bool} (h : Keeps site c this goodbyeBeforeChunk G P)
include h

theorem keepsEach : KeepsEach site c this goodbyeBeforeChunk G P :=
  ⟨h.keepsEachMessage, h.setInputQueue, h.line⟩

theorem chunkFrom (data : Octets) (pos : Nat) (hw : During c this G P w) :
    During c this G P ((input site this goodbyeBeforeChunk).handleInputFrom data pos w) :=
  h.keepsEach.chunkFrom data pos hw

theorem chunk (data : Octets) (hw : During c this G P w) :
    During c this G P ((input site this goodbyeBeforeChunk).handleInput data w) := h.keepsEach.chunk data hw

end Keeps

end

/-- For a property of the structure, the steps that change it are enough. -/
theorem Keeps.of_frame {c this : Nat} {goodbyeBeforeChunk : Bool} {G : Event → Bool} {P : World → Prop}
    (hframe : ∀ w w', Handling c this w → P w → w.Frame w' → P w')
    (hleave : ∀ (self : Self) w, self.this = this → self.connection = c → w.nickname this = some self.user.nickname →
      Handling c this w → P w → ∀ error, Good G (Irc2User.leave self error w) → P (Irc2User.leave self error w))
    (hcreate : ∀ (r : Irc2Registrar.Protocol) w, w.protocol this = some ⟨c, .registrar r⟩ → Handling c this w → P w →
      Good G (createProtocol site this c r.registrantData r.inputQueue r.outputQueue w) →
      P (createProtocol site this c r.registrantData r.inputQueue r.outputQueue w)) :
    Keeps site c this goodbyeBeforeChunk G P where
  own g w hw hP hg := hframe w _ hw hP (.evolve hg)
  setInputQueue q w hw hP := hframe w _ hw hP (.setInputQueue w this q)
  rand n w hw hP := hframe w _ hw hP (.setRand w n)
  goodbye w hw hP _ := hframe w _ hw hP (.goodbye w c)
  deliver receiver line w hw hP _ := hframe w _ hw hP (.deliver w c receiver line)
  leave self error w hthis hc hname hw hP hG := hleave self w hthis hc hname hw hP error hG
  create := hcreate
  line text goodbyeBefore hasUse acted w _ hw hP _ := hframe w _ hw hP (.record w (by simp))

theorem keeps_log (c this : Nat) (goodbyeBeforeChunk : Bool) (w₀ : World) :
    Keeps site c this goodbyeBeforeChunk (fun _ => true) (fun w => w₀.log <+: w.log) where
  own _ _ _ hP _ := hP
  setInputQueue _ _ _ hP := hP
  rand _ _ _ hP := hP
  goodbye _ _ hP _ := hP.trans (List.prefix_append _ _)
  deliver _ _ _ _ hP _ := hP.trans (List.prefix_append _ _)
  leave self error w _ _ _ _ hP _ := hP.trans (by rw [leave_log]; exact List.prefix_append _ _)
  create r w _ _ hP _ := hP.trans (by rw [createProtocol_log]; exact List.prefix_append _ _)
  line _ _ _ _ _ _ _ hP _ := hP.trans (List.prefix_append _ _)

end KineIRCd.Daemon

import KineIRCd.Irc2User
/-!
# What a user's commands do

Every command is made of a few kinds of step on the user's own protocol, of
messages to other users' protocols, and of the user's farewell. `KeepsEach` takes
a property through a whole command from those, and `Keeps` one that does not
depend on what is queued.
-/
namespace KineIRCd

open LibIRC2

/-! ## Protocols that evolve -/

/-- The protocol queued output or changed its user's data, and nothing else. -/
structure ProtocolBase.Evolves (p p' : ProtocolBase) : Prop where
  connection : p'.connection = p.connection
  inputQueue : p'.inputQueue = p.inputQueue
  outputQueue : p.outputQueue <+: p'.outputQueue
  nickname : p'.user?.map (·.nickname) = p.user?.map (·.nickname)

namespace ProtocolBase.Evolves

theorem refl (p : ProtocolBase) : p.Evolves p := ⟨rfl, rfl, List.prefix_refl _, rfl⟩

theorem trans {p p' p'' : ProtocolBase} (h : p.Evolves p') (h' : p'.Evolves p'') : p.Evolves p'' where
  connection := h'.connection.trans h.connection
  inputQueue := h'.inputQueue.trans h.inputQueue
  outputQueue := h.outputQueue.trans h'.outputQueue
  nickname := h'.nickname.trans h.nickname

theorem outputLine (p : ProtocolBase) (line : Octets) : p.Evolves (p.outputLine line) := by
  obtain ⟨c, r | u⟩ := p
  all_goals
    refine ⟨rfl, rfl, ?_, rfl⟩
    simp [ProtocolBase.outputLine, ProtocolBase.setOutputQueue, ProtocolBase.outputQueue, Clbp.outputLine, Clbp.outputRaw]

theorem outputLines (p : ProtocolBase) (lines : List Octets) : p.Evolves (lines.foldl (fun p line => p.outputLine line) p) := by
  induction lines generalizing p with
  | nil => exact refl p
  | cons line lines ih => exact (outputLine p line).trans (ih _)

theorem modifyUser (p : ProtocolBase) (f : Irc2User.User → Irc2User.User) (hf : ∀ u, (f u).nickname = u.nickname) :
    p.Evolves (p.modifyUser f) := by
  obtain ⟨c, r | u⟩ := p
  · exact refl _
  · exact ⟨rfl, rfl, List.prefix_refl _, congrArg some (hf u.user)⟩

end ProtocolBase.Evolves

namespace Irc2User

variable {site : Site} {self : Self}

theorem outputLines_eq (lines : List Octets) (w : World) :
    outputLines self lines w = w.modifyProtocol self.this (fun p => lines.foldl (fun p line => p.outputLine line) p) := by
  induction lines generalizing w with
  | nil =>
    simp only [outputLines, List.foldl_nil, World.modifyProtocol]
    rw [show (w.protocol self.this).map (fun p => p) = w.protocol self.this by simp, Function.update_eq_self]
  | cons line lines ih =>
    simp only [outputLines, List.foldl_cons] at ih ⊢
    rw [ih]
    simp [World.outputLine, World.modifyProtocol, Function.comp_def]

/-! ## The rules for commands -/

/-- Nickname, username, hostname and description. -/
abbrev Identity := WString × WString × WString × WString

/-- What tells a user from others. No command changes it. -/
def User.identity (u : User) : Identity := (u.nickname, u.username, u.hostname, u.description)

/-- A change of the data that a user's commands may change, at `time`. -/
structure Amends (time : Nat) (f : User → User) : Prop where
  identity : ∀ u, (f u).identity = u.identity
  awaySince : ∀ u, (f u).awaySince = u.awaySince ∨ (f u).awaySince = time
  lastAwake : ∀ u, (f u).lastAwake = u.lastAwake ∨ (f u).lastAwake = time

/-- A property of the world that each kind of step keeps: a line for the client,
a change of the user's data, a message to a user, and the end. -/
structure KeepsEach (site : Site) (user : Self) (Q : World → Prop) : Prop where
  outputLine : ∀ line w, Q w → Q (w.outputLine user.this line)
  modifyUser : ∀ f w, Amends w.time f → Q w → Q (modifyUser user f w)
  receivePrivate : ∀ commandName receiver message w, commandName ∈ [octets "PRIVMSG", octets "NOTICE"] → Q w →
    Q (receivePrivate site user commandName receiver message w)
  leave : ∀ error w, Q w → Q (leave user error w)

namespace KeepsEach
variable {Q : World → Prop} (h : KeepsEach site self Q) {w : World}
include h

theorem sendNumeric (numeric : Nat) (parameters : List Octets) (hw : Q w) :
    Q (sendNumeric site self numeric parameters w) := h.outputLine _ w hw

theorem report (command : Octets) (parameters : List Octets) (hw : Q w) : Q (report site self command parameters w) :=
  List.foldlRecOn (motive := Q) _ _ hw fun w hw line _ => h.outputLine line w hw

theorem sendAway (receiver : Nat) (hw : Q w) : Q (sendAway site self receiver w) := by
  unfold Irc2User.sendAway
  split
  · split_ifs
    · exact h.sendNumeric _ _ hw
    · exact hw
  · exact hw

theorem messageTarget (isNotice : Bool) (target : Octets) (message : WString) (hw : Q w) :
    Q (messageTarget site self isNotice target message w) := by
  simp only [Irc2User.messageTarget]
  split <;> split_ifs
  · exact h.receivePrivate _ _ _ w (by simp) hw
  · exact h.sendAway _ (h.receivePrivate _ _ _ w (by simp) hw)
  · exact hw
  · exact h.sendNumeric _ _ hw
  · exact hw
  · exact h.sendNumeric _ _ hw

theorem queryTarget (target : Octets) (hw : Q w) : Q (queryTarget site self target w) := by
  unfold Irc2User.queryTarget
  split
  · exact h.sendNumeric _ _ hw
  · exact h.sendNumeric _ _ hw
  · exact h.sendNumeric _ _ hw

omit h in
theorem forTargets {each : Octets → World → World} {tooMany : World → World} (heach : ∀ t w, Q w → Q (each t w))
    (htooMany : ∀ w, Q w → Q (tooMany w)) (targets : UInt32) (recipients : StringTokens) (w : World) (hw : Q w) :
    Q (forTargets self each tooMany targets recipients w) := by
  fun_induction Irc2User.forTargets self each tooMany targets recipients w with
  | case1 targets recipients w _ target targets' _ ih => exact ih (heach target w hw)
  | case2 targets recipients w _ targets' _ => exact htooMany w hw
  | case3 targets recipients w _ => exact hw

theorem missingParameters (command : String) (parameters : List Octets) (hw : Q w) :
    Q (missingParameters site self command parameters w) := by
  unfold Irc2User.missingParameters
  split_ifs
  · exact h.sendNumeric _ _ hw
  · exact h.sendNumeric _ _ hw

theorem doMessage (parameters : List Octets) (isNotice : Bool) (hw : Q w) :
    Q (doMessage site self parameters isNotice w) := by
  unfold Irc2User.doMessage
  split_ifs
  · exact forTargets (fun t w hw => h.messageTarget _ t _ hw) (fun w hw => hw) _ _ w hw
  · exact forTargets (fun t w hw => h.messageTarget _ t _ hw) (fun w hw => h.sendNumeric _ _ hw) _ _ w hw
  · exact hw
  · exact h.missingParameters _ _ hw

theorem languageCodes (langCodes : StringTokens) (languageCount : UInt8) (languageList : LanguageList) (w : World)
    (hw : Q w) : Q (languageCodes site self langCodes languageCount languageList w).2 := by
  fun_induction Irc2User.languageCodes site self langCodes languageCount languageList w with
  | case1 langCodes count list w _ code rest data _ ih => exact ih (h.sendNumeric _ _ hw)
  | case2 langCodes count list w _ code data _ _ => exact h.sendNumeric _ _ hw
  | case3 langCodes count list w _ code rest data _ _ ih => exact ih hw
  | case4 langCodes count list w _ => exact hw

theorem handleLANGUAGE (parameters : List Octets) (hw : Q w) : Q (handleLANGUAGE site self parameters w) := by
  simp only [Irc2User.handleLANGUAGE]
  split_ifs
  · exact h.report _ _ hw
  · have hcodes : Q (Irc2User.languageCodes site self ⟨parameters.getD 0 []⟩ 0 [] w).2 := h.languageCodes _ _ _ w hw
    split
    · exact h.report _ _ (h.modifyUser _ _ ⟨fun _ => rfl, fun _ => .inl rfl, fun _ => .inl rfl⟩ hcodes)
    · exact hcodes

theorem handleAWAY (parameters : List Octets) (hw : Q w) : Q (handleAWAY site self parameters w) := by
  have hamends : Amends w.time fun u => { u with
      awayMessage := if parameters = [] then [] else site.localiseStr (parameters.getD 0 [])
      awaySince := if parameters = [] then u.awaySince else w.time } := by
    refine ⟨fun _ => rfl, fun u => ?_, fun _ => .inl rfl⟩
    dsimp only
    split_ifs
    · exact .inl rfl
    · exact .inr rfl
  simp only [Irc2User.handleAWAY]
  split_ifs with hnone haway haway
  all_goals
    refine h.sendNumeric _ _ ?_
    simpa only [hnone, ↓reduceIte] using h.modifyUser _ w hamends hw

/-- A handler keeps what each kind of step keeps. -/
theorem handle (command : Octets) (parameters : List Octets) (handler : Handler) (hw : Q w) :
    Q (handle site self command parameters w handler) := by
  cases handler with
  | away => exact h.handleAWAY parameters hw
  | join => exact h.sendNumeric _ _ hw
  | language => exact h.handleLANGUAGE parameters hw
  | nick =>
    simp only [Irc2User.handle, handleNICK]
    split_ifs <;> exact h.sendNumeric _ _ hw
  | notice => exact h.doMessage parameters true hw
  | oper => exact h.sendNumeric _ _ hw
  | part => exact h.sendNumeric _ _ hw
  | ping =>
    simp only [Irc2User.handle, handlePING]
    split_ifs
    · exact h.outputLine _ w hw
    · exact h.sendNumeric _ _ hw
  | privmsg => exact h.doMessage parameters false hw
  | quit => exact h.leave _ w hw
  | squery =>
    simp only [Irc2User.handle, handleSQUERY]
    split_ifs
    · exact forTargets (fun t w hw => h.queryTarget t hw) (fun w hw => h.sendNumeric _ _ hw) _ _ w hw
    · exact h.missingParameters _ _ hw
  | reports => exact h.report _ _ hw
  | forOperators => exact hw

theorem parseMessage (m : Message) (hw : Q w) : Q (parseMessage site self m w).1 := by
  unfold Irc2User.parseMessage
  split
  · exact h.sendNumeric _ _ hw
  · split_ifs
    · exact h.sendNumeric _ _ hw
    · exact h.sendNumeric _ _ hw
    · exact h.sendNumeric _ _ hw
    · exact h.handle _ _ _ (h.modifyUser _ w ⟨fun _ => rfl, fun _ => .inl rfl, fun _ => .inr rfl⟩ hw)
    · exact h.handle _ _ _ hw

end KeepsEach

/-- A property that the user's own object keeps as it evolves, whatever is
delivered, until the user leaves. -/
structure Keeps (user : Self) (Q : World → Prop) : Prop where
  own : ∀ g w, (∀ p : ProtocolBase, p.Evolves (g p)) → Q w → Q (w.modifyProtocol user.this g)
  deliver : ∀ receiver line w, Q w → Q (w.deliver user.connection receiver line)
  leave : ∀ error w, Q w → Q (leave user error w)

namespace Keeps
variable {Q : World → Prop} (h : Keeps self Q) {w : World}
include h

theorem keepsEach (site : Site) : KeepsEach site self Q where
  outputLine line w hw := h.own _ w (fun p => .outputLine p line) hw
  modifyUser f w hf hw := h.own _ w (fun p => .modifyUser p f fun u => congrArg (·.1) (hf.identity u)) hw
  receivePrivate commandName receiver message w _ hw := by
    unfold Irc2User.receivePrivate
    split
    · exact h.deliver _ _ w hw
    · exact hw
  leave := h.leave

theorem parseMessage (m : Message) (hw : Q w) : Q (parseMessage site self m w).1 := (h.keepsEach site).parseMessage m hw

end Keeps

/-- A handler is called exactly when the table says so. -/
theorem parseMessage_handles (m : Message) (w : World) : (parseMessage site self m w).2 = handles self.user m := by
  unfold parseMessage handles
  cases commandList.lookup m.command with
  | none => rfl
  | some info =>
    dsimp only [Option.any_some]
    split_ifs with henabled haccess hparams <;> simp_all

end Irc2User

end KineIRCd

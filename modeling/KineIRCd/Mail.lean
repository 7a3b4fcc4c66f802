import KineIRCd.Readers
/-!
# Mail between users

What one connection's input does to the users of other connections: it queues
messages for them, under the sender's own mask, and nothing else.
-/
namespace KineIRCd

open LibIRC2

/-- From `p` to `p'` lines that meet `L` were queued, and nothing else changed. -/
def ProtocolBase.Receives (L : Octets → Prop) (p p' : ProtocolBase) : Prop :=
  ∃ lines : List Octets, (∀ line ∈ lines, L line) ∧ p' = lines.foldl (fun p line => p.outputLine line) p

namespace ProtocolBase.Receives
variable {L L' : Octets → Prop} {p p' p'' : ProtocolBase}

theorem refl (p : ProtocolBase) : p.Receives L p := ⟨[], by simp, rfl⟩

theorem trans (h : p.Receives L p') (h' : p'.Receives L p'') : p.Receives L p'' := by
  obtain ⟨lines, hlines, rfl⟩ := h
  obtain ⟨lines', hlines', rfl⟩ := h'
  refine ⟨lines ++ lines', ?_, by rw [List.foldl_append]⟩
  intro line hline
  rcases List.mem_append.1 hline with hline | hline
  · exact hlines line hline
  · exact hlines' line hline

theorem imp (h : p.Receives L p') (hL : ∀ line, L line → L' line) : p.Receives L' p' := by
  obtain ⟨lines, hlines, e⟩ := h
  exact ⟨lines, fun line hline => hL line (hlines line hline), e⟩

theorem outputLine (p : ProtocolBase) {line : Octets} (h : L line) : p.Receives L (p.outputLine line) :=
  ⟨[line], by simpa using h, rfl⟩

end ProtocolBase.Receives

@[simp] theorem ProtocolBase.user?_outputLine (p : ProtocolBase) (line : Octets) : (p.outputLine line).user? = p.user? := by
  obtain ⟨c, r | u⟩ := p <;> rfl

@[simp] theorem ProtocolBase.connection_outputLine (p : ProtocolBase) (line : Octets) :
    (p.outputLine line).connection = p.connection := by
  obtain ⟨c, r | u⟩ := p <;> rfl

theorem ProtocolBase.outputQueue_outputLine (p : ProtocolBase) (line : Octets) :
    (p.outputLine line).outputQueue = p.outputQueue ++ (line ++ Clbp.EOL_CR_LF) := by
  obtain ⟨c, r | u⟩ := p <;> simp [ProtocolBase.outputLine, ProtocolBase.setOutputQueue, ProtocolBase.outputQueue,
    Clbp.outputLine, Clbp.outputRaw]

/-- The lines of a queue, in order. -/
theorem ProtocolBase.outputQueue_foldl_outputLine (p : ProtocolBase) (lines : List Octets) :
    (lines.foldl (fun p line => p.outputLine line) p).outputQueue = p.outputQueue ++ lines.flatMap (· ++ Clbp.EOL_CR_LF) := by
  induction lines generalizing p with
  | nil => simp
  | cons line lines ih => rw [List.foldl_cons, ih, outputQueue_outputLine, List.flatMap_cons, List.append_assoc]

theorem ProtocolBase.Receives.user? {L : Octets → Prop} {p p' : ProtocolBase} (h : p.Receives L p') : p'.user? = p.user? := by
  obtain ⟨lines, -, rfl⟩ := h
  exact List.foldlRecOn (motive := fun p' : ProtocolBase => p'.user? = p.user?) _ _ rfl fun p' h line _ => by simpa using h

namespace Irc2User

/-- A message that a user of this identity sends to the user called `nickname`. -/
def IsMessage (site : Site) (sender : Identity) (nickname : WString) (line : Octets) : Prop :=
  ∃ u : User, u.identity = sender ∧ ∃ commandName ∈ [octets "PRIVMSG", octets "NOTICE"], ∃ message,
    line = formatMessageFrom (site.delocaliseStr u.makeNickUserHostIdent) commandName
      [site.delocaliseStr nickname, site.delocaliseStr message]

end Irc2User

namespace Daemon

open Irc2User (Site Self User Identity IsMessage)

variable (site : Site)

/-- What the object `p` may be sent by a sender of this identity: messages, if it is a user's. -/
def MayReceive (origin : Option Identity) (p : ProtocolBase) (line : Octets) : Prop :=
  ∃ s u, origin = some s ∧ p.user? = some u ∧ IsMessage site s u.nickname line

/-- The object at `a`, which was `p`, has received lines from the sender that
the object at `this` is. -/
structure Mailed (this a : Nat) (origin : Option Identity) (p : ProtocolBase) (w : World) :
    Prop where
  lt_allocated : a < w.allocated
  sender : w.identity this = origin
  received : ∃ p', w.protocol a = some p' ∧ p.Receives (MayReceive site origin p) p'

section
variable {site} {this a : Nat} {origin : Option Identity} {p : ProtocolBase} {w w' : World}

theorem Mailed.of_eq (h : Mailed site this a origin p w) (hallocated : w'.allocated = w.allocated)
    (hidentity : w'.identity this = w.identity this) (hprotocol : w'.protocol a = w.protocol a) :
    Mailed site this a origin p w' where
  lt_allocated := hallocated ▸ h.lt_allocated
  sender := hidentity.trans h.sender
  received := by rw [hprotocol]; exact h.received

/-- What the object at `this` does to itself is nothing to another. -/
theorem Mailed.own (h : Mailed site this a origin p w) (hne : a ≠ this) {g : ProtocolBase → ProtocolBase}
    (hidentity : (w.modifyProtocol this g).identity this = w.identity this) :
    Mailed site this a origin p (w.modifyProtocol this g) :=
  h.of_eq rfl hidentity (by rw [World.protocol_modifyProtocol, if_neg hne])

theorem Mailed.receivePrivate (h : Mailed site this a origin p w) {self : Self}
    (hsender : w.identity this = some self.user.identity) {commandName : Octets}
    (hcommand : commandName ∈ [octets "PRIVMSG", octets "NOTICE"]) (receiver : Nat) (message : WString) :
    Mailed site this a origin p (Irc2User.receivePrivate site self commandName receiver message w) where
  lt_allocated := by rw [(World.Frame.receivePrivate site self commandName receiver message w).allocated]; exact h.lt_allocated
  sender := (World.identity_receivePrivate w commandName receiver message this).trans h.sender
  received := by
    obtain ⟨p', hp', hreceives⟩ := h.received
    unfold Irc2User.receivePrivate
    split
    · rename_i receiverUser hreceiver
      have hprotocol := w.protocol_modifyProtocol receiver (·.outputLine (formatMessageFrom
        (site.delocaliseStr self.user.makeNickUserHostIdent) commandName
        [site.delocaliseStr receiverUser.nickname, site.delocaliseStr message])) a
      by_cases ha : a = receiver
      · subst ha
        rw [if_pos rfl, hp', Option.map_some] at hprotocol
        refine ⟨_, hprotocol, hreceives.trans (.outputLine p' ⟨self.user.identity, receiverUser, ?_, ?_, ?_⟩)⟩
        · rw [← h.sender, hsender]
        · rw [← hreceives.user?]
          simpa [hp'] using hreceiver
        · exact ⟨self.user, rfl, commandName, hcommand, message, rfl⟩
      · rw [if_neg ha, hp'] at hprotocol
        exact ⟨p', hprotocol, hreceives⟩
    · exact ⟨p', hp', hreceives⟩

/-- A chunk brings another object messages only. -/
theorem keepsEach_mailed {c : Nat} (goodbyeBeforeChunk : Bool) (hne : a ≠ this) :
    KeepsEach site c this goodbyeBeforeChunk (fun _ => true) (Mailed site this a origin p) where
  outputLine line w _ hP := hP.own hne (w.identity_outputLine this line this)
  modifyUser f w hf _ hP := hP.own hne (w.identity_modifyUser this hf.identity this)
  registrar r r' w hr _ hP _ _ := by
    refine hP.own hne ?_
    simp [World.identity, World.modifyProtocol, hr, ProtocolBase.user?]
  rand n w _ hP := hP.of_eq rfl rfl rfl
  goodbye w _ hP _ := hP.of_eq rfl rfl rfl
  receivePrivate self commandName receiver message w _ _ hidentity hcommand _ hP _ :=
    hP.receivePrivate hidentity hcommand receiver message
  leave self error w hthis _ _ _ hP _ := by
    subst hthis
    have hquit : Mailed site self.this a origin p (w.quit ⟨self.this, self.user.nickname⟩) := hP.of_eq rfl rfl rfl
    have htold := hquit.own hne (World.identity_outputLine _ self.this (formatMessage errorCommandName [error]) self.this)
    exact htold.of_eq rfl rfl rfl
  create r w hr hw hP _ := by
    have hthis := hw.lt_allocated
    have ha := hP.lt_allocated
    obtain ⟨q, -, e⟩ := createProtocol_spec site this c r.registrantData r.inputQueue r.outputQueue w
    have hprotocol : ∀ b, b < w.allocated →
        (createProtocol site this c r.registrantData r.inputQueue r.outputQueue w).protocol b = w.protocol b := by
      intro b hb
      rw [e]
      exact Function.update_of_ne (by omega) _ _
    refine ⟨?_, ?_, ?_⟩
    · rw [createProtocol_allocated]
      omega
    · rw [World.identity, hprotocol this hthis]
      exact hP.sender
    · rw [hprotocol a ha]
      exact hP.received
  setInputQueue q w _ hP := by
    refine hP.own hne (w.identity_modifyProtocol (fun p => ?_) this)
    obtain ⟨c, r | u⟩ := p <;> rfl
  line text gb use acted w _ _ hP _ := hP.of_eq rfl rfl rfl

end

/-! ## Steps -/

section
variable {c a : Nat} {p : ProtocolBase} {w : World}

/-- Input on another connection, of the object at `this`. -/
theorem handleInput_mails {c' : Nat} (read : Option Octets) (hw : w.WellFormed) (hc : w.HasProtocol c a)
    (hp : w.protocol a = some p) (hne : c' ≠ c) : (handleInput site c' read w).2 = w ∨
      ∃ this, w.HasProtocol c' this ∧ Mailed site this a (w.identity this) p (handleInput site c' read w).2 := by
  cases hconn : w.connection c' with
  | none =>
    left
    simp [handleInput, hconn]
  | some conn =>
    right
    have hthis : w.HasProtocol c' conn.protocol := ⟨conn, hconn, rfl⟩
    have ha : a ≠ conn.protocol := by
      rintro rfl
      exact hne (hw.connection_unique hc hthis)
    have hstart : Mailed site conn.protocol a (w.identity conn.protocol) p w :=
      ⟨hw.hasProtocol_lt hc, rfl, p, hp, .refl p⟩
    refine ⟨conn.protocol, hthis, ?_⟩
    refine handleInput_keepsEach site (G := fun _ => true) (M := fun _ => Mailed site conn.protocol a (w.identity conn.protocol) p)
      hw hstart (fun _ _ => rfl) ?_ (fun _ line h => h.of_eq rfl rfl rfl) ?_
    · intro conn' hconn' _
      obtain rfl := Option.some_inj.1 (hconn.symm.trans hconn')
      exact ⟨hstart, keepsEach_mailed _ ha⟩
    · intro _ w' _ h
      obtain ⟨s, e⟩ := wake_spec c' w'
      rw [e]
      exact h.of_eq rfl rfl rfl

/-- Is the step about the connection at `c`? -/
def Action.About (c : Nat) : Action → Prop
  | .handleInput c' _ => c' = c
  | .sendOutput c' _ => c' = c
  | .destroy c' => c' = c
  | _ => False

/-- What another connection's user may send to the object `p` of the one at `c`. -/
def ByAnother (c : Nat) (p : ProtocolBase) (w : World) (line : Octets) : Prop :=
  ∃ c' this, c' ≠ c ∧ w.HasProtocol c' this ∧ MayReceive site (w.identity this) p line

theorem sendOutput_protocol {c' : Nat} (written : Nat) (hw : w.WellFormed) (hc : w.HasProtocol c a) (hne : c' ≠ c) :
    (sendOutput site c' written w).protocol a = w.protocol a := by
  unfold sendOutput
  cases hconn : w.connection c' with
  | none => rfl
  | some conn =>
    dsimp only
    have ha : a ≠ conn.protocol := by
      rintro rfl
      exact hne (hw.connection_unique hc ⟨conn, hconn, rfl⟩)
    cases w.protocol conn.protocol with
    | none => rfl
    | some q =>
      dsimp only
      split_ifs
      all_goals exact Function.update_of_ne ha _ _

/-- A step about something else brings the object of a connection messages only. -/
theorem act_mails (x : Action) (hw : w.WellFormed) (hc : w.HasProtocol c a) (hp : w.protocol a = some p)
    (hx : ¬ x.About c) : (act site w x).HasProtocol c a ∧
      ∃ p', (act site w x).protocol a = some p' ∧ p.Receives (ByAnother site c p w) p' := by
  have hlt := hw.hasProtocol_lt hc
  cases x with
  | setTime t => exact ⟨hc, p, hp, .refl p⟩
  | newConnection flags accepted =>
    refine ⟨((untouched_newConnection flags accepted hw hlt).attached c).2 hc, p, ?_, .refl p⟩
    cases accepted with
    | none => exact hp
    | some socket =>
      rw [← hp]
      exact Function.update_of_ne (by omega) _ _
  | handleInput c' read =>
    have hattached : (act site w (.handleInput c' read)).HasProtocol c a := by
      refine ((untouched_handleInput site c' read hw hlt ?_).attached c).2 hc
      exact fun h => hx (hw.connection_unique hc h)
    refine ⟨hattached, ?_⟩
    rcases handleInput_mails site read hw hc hp hx with e | ⟨this, hthis, h⟩
    · exact ⟨p, (congrArg (·.protocol a) e).trans hp, .refl p⟩
    · obtain ⟨p', hp', hreceives⟩ := h.received
      exact ⟨p', hp', hreceives.imp fun line hline => ⟨c', this, hx, hthis, hline⟩⟩
  | sendOutput c' written =>
    exact ⟨(frame_sendOutput site c' written w).hasProtocol_iff.2 hc, p,
      (sendOutput_protocol site written hw hc hx).trans hp, .refl p⟩
  | destroy c' =>
    cases hconn : w.connection c' with
    | none =>
      have e : act site w (.destroy c') = w := by simp [act, destroy, hconn]
      rw [e]
      exact ⟨hc, p, hp, .refl p⟩
    | some conn =>
      refine ⟨(destroy_hasProtocol hconn c a).2 ⟨fun h => hx h.symm, hc⟩, p, ?_, .refl p⟩
      have ha : a ≠ conn.protocol := by
        rintro rfl
        exact hx (hw.connection_unique hc ⟨conn, hconn, rfl⟩)
      simp only [act, destroy, hconn]
      rw [Function.update_of_ne ha, hp]

/-! ## Runs -/

/-- While nothing is done about a connection, its object receives messages from
the users of other connections, each under the mask its sender had then, and is
otherwise left as it is. -/
theorem idle_receives (site : Site) (before idle : List Action) (c a : Nat) (p : ProtocolBase)
    (hc : (reach site before).HasProtocol c a) (hp : (reach site before).protocol a = some p)
    (hidle : ∀ x ∈ idle, ¬ x.About c) : ∃ p', (reach site (before ++ idle)).protocol a = some p' ∧
      p.Receives (fun line => ∃ served, served <+: idle ∧ ByAnother site c p (reach site (before ++ served)) line) p' := by
  suffices h : (reach site (before ++ idle)).HasProtocol c a ∧ ∃ p', (reach site (before ++ idle)).protocol a = some p' ∧
      p.Receives (fun line => ∃ served, served <+: idle ∧ ByAnother site c p (reach site (before ++ served)) line) p' from h.2
  induction idle using List.reverseRecOn with
  | nil =>
    rw [List.append_nil]
    exact ⟨hc, p, hp, .refl p⟩
  | append_singleton idle x ih =>
    obtain ⟨hc', p', hp', hreceives⟩ := ih fun y hy => hidle y (List.mem_append_left _ hy)
    have hreach : reach site (before ++ (idle ++ [x])) = act site (reach site (before ++ idle)) x := by
      rw [← List.append_assoc, reach, List.foldl_append]
      rfl
    obtain ⟨hc'', p'', hp'', hreceives'⟩ :=
      act_mails site x (wellFormed_reach site _) hc' hp' (hidle x (by simp))
    rw [hreach]
    refine ⟨hc'', p'', hp'', .trans (hreceives.imp ?_) (hreceives'.imp ?_)⟩
    · rintro line ⟨served, hserved, h⟩
      exact ⟨served, hserved.trans (List.prefix_append _ _), h⟩
    · rintro line ⟨c', this, hne, hthis, s, u, hs, hu, h⟩
      exact ⟨idle, List.prefix_append _ _, c', this, hne, hthis, s, u, hs, hreceives.user? ▸ hu, h⟩

end

/-- Two clients connect and register, as connections 0 and 3. -/
def bothRegister : List Action :=
  [accepts 5, types 0 "NICK pickle\r\nPONG Z0\r\nUSER user 0 host :name\r\n",
    accepts 6, types 3 "NICK sanc\r\nPONG Z1\r\nUSER user 0 host :name\r\n"]

theorem idle_receives_hello : ∃ p p', (reach sampleSite bothRegister).protocol 2 = some p ∧
    (reach sampleSite (bothRegister ++ [types 3 "PRIVMSG pickle :hello\r\n"])).protocol 2 = some p' ∧
    p.outputQueue.length < p'.outputQueue.length ∧
    p.Receives (fun line => ∃ served, served <+: [types 3 "PRIVMSG pickle :hello\r\n"] ∧
      ByAnother sampleSite 0 p (reach sampleSite (bothRegister ++ served)) line) p' := by
  have hattached : (reach sampleSite bothRegister).HasProtocol 0 2 := World.hasProtocol_iff.2 (by decide +kernel)
  have hlength : ((reach sampleSite bothRegister).protocol 2).map (·.outputQueue.length) = some 206 := by decide +kernel
  have hlength' : ((reach sampleSite (bothRegister ++ [types 3 "PRIVMSG pickle :hello\r\n"])).protocol 2).map
      (·.outputQueue.length) = some 250 := by decide +kernel
  obtain ⟨p, hp, hsize⟩ := Option.map_eq_some_iff.1 hlength
  obtain ⟨p', hp', hreceives⟩ := idle_receives sampleSite bothRegister [types 3 "PRIVMSG pickle :hello\r\n"] 0 2 p hattached hp
    (by simp [types, Action.About])
  rw [hp', Option.map_some, Option.some_inj] at hlength'
  exact ⟨p, p', hp, hp', by omega, hreceives⟩

end Daemon

end KineIRCd

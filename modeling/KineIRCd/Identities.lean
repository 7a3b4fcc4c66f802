import KineIRCd.DaemonSteps
/-!
# Who a user is

A registration fixes a user's nickname, username, host and description. The host
is the address the connection was accepted from, whatever the client says, and
all four stay until the user's object is gone.
-/
namespace KineIRCd

open Irc2User (Site Self User Identity)

def Irc2User.Identity.hostname (i : Identity) : WString := i.2.2.1

/-- Who the object is for: its connection, and the identity of its user if it is
a user's. -/
def ProtocolBase.holder (p : ProtocolBase) : Nat × Option Identity := (p.connection, p.user?.map User.identity)

namespace ProtocolBase

@[simp] theorem holder_setOutputQueue (q : Octets) (p : ProtocolBase) : (p.setOutputQueue q).holder = p.holder := by
  obtain ⟨c, r | u⟩ := p <;> rfl

@[simp] theorem holder_setInputQueue (q : Octets) (p : ProtocolBase) : (p.setInputQueue q).holder = p.holder := by
  obtain ⟨c, r | u⟩ := p <;> rfl

@[simp] theorem holder_outputLine (line : Octets) (p : ProtocolBase) : (p.outputLine line).holder = p.holder :=
  holder_setOutputQueue _ p

theorem holder_modifyUser {f : User → User} {p : ProtocolBase} (h : ∀ u, p.user? = some u → (f u).identity = u.identity) :
    (p.modifyUser f).holder = p.holder := by
  obtain ⟨c, r | v⟩ := p
  · rfl
  · simp [holder, modifyUser, user?, h v.user rfl]

end ProtocolBase

namespace World

def holder (w : World) (a : Nat) : Option (Nat × Option Identity) := (w.protocol a).map (·.holder)

/-- The address that a connection comes from. -/
def address (w : World) (c : Nat) : Option Octets := (w.connection c).map (·.remoteAddress)

/-- From `w` to `w'` nobody came or went, and nobody changed who they are. -/
structure Alike (w w' : World) : Prop where
  holder : w'.holder = w.holder
  address : w'.address = w.address
  allocated : w'.allocated = w.allocated

namespace Alike
variable {w w' w'' : World}

theorem of_eq (hprotocol : w'.protocol = w.protocol) (hconnection : w'.connection = w.connection)
    (hallocated : w'.allocated = w.allocated) : w.Alike w' :=
  ⟨by unfold World.holder; rw [hprotocol], by unfold World.address; rw [hconnection], hallocated⟩

theorem trans (h : w.Alike w') (h' : w'.Alike w'') : w.Alike w'' :=
  ⟨h'.holder.trans h.holder, h'.address.trans h.address, h'.allocated.trans h.allocated⟩

theorem modifyProtocol (w : World) {a : Nat} {g : ProtocolBase → ProtocolBase}
    (hg : ∀ p, w.protocol a = some p → (g p).holder = p.holder) : w.Alike (w.modifyProtocol a g) :=
  ⟨funext fun a' => w.modifyProtocol_congr (Option.map ProtocolBase.holder) (fun p hp => congrArg some (hg p hp)) a',
    rfl, rfl⟩

theorem outputLine (w : World) (a : Nat) (line : Octets) : w.Alike (w.outputLine a line) :=
  .modifyProtocol w fun p _ => p.holder_outputLine line

theorem modifyConnection (w : World) (c : Nat) {f : Connection → Connection}
    (hf : ∀ conn, (f conn).remoteAddress = conn.remoteAddress) : w.Alike (w.modifyConnection c f) := by
  refine ⟨rfl, funext fun c' => ?_, rfl⟩
  simp only [World.address, connection_modifyConnection]
  split_ifs with hc
  · subst hc
    simp [hf, Function.comp_def]
  · rfl

theorem goodbye (w : World) (c : Nat) : w.Alike (w.goodbye c) :=
  (modifyConnection w c (f := fun conn => { conn with connected := false }) fun _ => rfl).trans (.of_eq rfl rfl rfl)

theorem outputLines {self : Self} (w : World) (lines : List Octets) : w.Alike (Irc2User.outputLines self lines w) :=
  List.foldlRecOn (motive := fun w' => w.Alike w') _ _ (.of_eq rfl rfl rfl) fun _ hw line _ => hw.trans (.outputLine _ _ line)

end Alike

/-- From `w` to `w'` everybody stayed who they are, and whoever is new has the
host of their connection. -/
structure Grown (w w' : World) : Prop where
  allocated : w.allocated ≤ w'.allocated
  holder : ∀ a < w.allocated, w'.holder a = w.holder a
  address : w'.address = w.address
  newcomer : ∀ a c i, w.allocated ≤ a → w'.holder a = some (c, some i) →
    ∃ address, w.address c = some address ∧ i.hostname = toWideStr address

/-- Nobody is at an address that is not allocated yet. -/
theorem holder_of_le {w : World} (hw : w.WellFormed) {a : Nat} (ha : w.allocated ≤ a) : w.holder a = none := by
  rw [holder, Option.map_eq_none_iff]
  by_contra hsome
  have := hw.protocol_lt a (Option.isSome_iff_ne_none.2 hsome)
  omega

namespace Grown
variable {w w' w'' : World}

theorem of_alike (hw : w.WellFormed) (h : w.Alike w') : w.Grown w' where
  allocated := h.allocated.ge
  holder a _ := congrFun h.holder a
  address := h.address
  newcomer a c i ha hi := by
    rw [h.holder, holder_of_le hw ha] at hi
    cases hi

theorem trans (h : w.Grown w') (h' : w'.Grown w'') : w.Grown w'' where
  allocated := h.allocated.trans h'.allocated
  holder a ha := (h'.holder a (ha.trans_le h.allocated)).trans (h.holder a ha)
  address := h'.address.trans h.address
  newcomer a c i ha hi := by
    by_cases hnew : a < w'.allocated
    · exact h.newcomer a c i ha ((h'.holder a hnew).symm.trans hi)
    · obtain ⟨address, haddress, hhost⟩ := h'.newcomer a c i (not_lt.1 hnew) hi
      exact ⟨address, h.address ▸ haddress, hhost⟩

theorem alike (h : w.Grown w') (h' : w'.Alike w'') : w.Grown w'' where
  allocated := h.allocated.trans h'.allocated.ge
  holder a ha := (congrFun h'.holder a).trans (h.holder a ha)
  address := h'.address.trans h.address
  newcomer a c i ha hi := h.newcomer a c i ha (h'.holder ▸ hi)

end Grown

end World

namespace Daemon

open World (Alike Grown)

variable (site : Site)

/-! ## The hand-over -/

theorem alike_welcome (self : Self) (w : World) : w.Alike (welcome site self w) := by
  have hreport : ∀ (commands : List Octets) (w : World),
      w.Alike (commands.foldl (fun w command => Irc2User.report site self command [] w) w) := fun commands w =>
    List.foldlRecOn (motive := fun w' => w.Alike w') _ _ (.of_eq rfl rfl rfl) fun _ hw _ _ => hw.trans (.outputLines _ _)
  exact ((((Alike.outputLine _ _ _).trans (.outputLine _ _ _)).trans (.outputLine _ _ _)).trans (.outputLine _ _ _)).trans
    (hreport _ _)

/-- The constructor works on the user that is there already. -/
theorem alike_construct (self : Self) {w : World} (hself : w.holder self.this = some (self.connection, some self.user.identity)) :
    w.Alike (construct site self w) := by
  have hadded : w.Alike (w.addUser site.maxNickNameLength ⟨self.this, self.user.nickname⟩).2 := by
    rw [World.addUser_snd]
    exact .of_eq rfl rfl rfl
  simp only [construct]
  split_ifs
  · refine (hadded.trans (.modifyProtocol _ fun p hp => ?_)).trans (alike_welcome site _ _)
    refine ProtocolBase.holder_modifyUser fun u hu => ?_
    rw [← hadded.holder, World.holder, hp, Option.map_some, ProtocolBase.holder, hu] at hself
    have hidentity : some u.identity = some self.user.identity := congrArg Prod.snd (Option.some_inj.1 hself)
    exact (Option.some_inj.1 hidentity).symm
  · exact hadded

/-- Whoever is handed over has the host of the connection. -/
theorem grown_createProtocol (registrar connection : Nat) (registrant : Irc2Registrar.Registrant)
    (inputQueue outputQueue : Octets) {w : World} (hw : w.WellFormed) (hconnection : (w.connection connection).isSome = true) :
    w.Grown (createProtocol site registrar connection registrant inputQueue outputQueue w) := by
  obtain ⟨conn, hconn⟩ := Option.isSome_iff_exists.1 hconnection
  simp only [createProtocol]
  generalize hu : Irc2User.User.mk _ _ _ _ _ _ _ _ = user
  have hhost : user.identity.hostname = toWideStr conn.remoteAddress := by
    rw [← hu, hconn]
    rfl
  generalize hallocate : (w.record (createEvent site registrar connection registrant.name inputQueue w)).allocate _ = w₁
  have hholder : ∀ a, w₁.holder a = if a = w.allocated then some (connection, some user.identity) else w.holder a := by
    intro a
    rw [← hallocate]
    simp only [World.holder, World.allocate, World.record, Function.update_apply]
    split_ifs <;> rfl
  have hmade : w.Grown w₁ := by
    refine ⟨?_, ?_, ?_, ?_⟩
    · rw [← hallocate]
      exact Nat.le_succ _
    · intro a ha
      rw [hholder, if_neg (by omega)]
    · rw [← hallocate]
      rfl
    · intro a c i ha hi
      rw [hholder] at hi
      split_ifs at hi
      · obtain ⟨rfl, rfl⟩ : connection = c ∧ user.identity = i := by simpa using hi
        exact ⟨conn.remoteAddress, by rw [World.address, hconn]; rfl, hhost⟩
      · rw [World.holder_of_le hw ha] at hi
        cases hi
  refine hmade.alike ((alike_construct site ⟨w.allocated, connection, user⟩ ?_).trans (.modifyConnection _ _ fun _ => rfl))
  rw [hholder, if_pos rfl]

/-! ## Steps -/

theorem keepsEach_grown (c this : Nat) (goodbyeBeforeChunk : Bool) (w₀ : World) :
    KeepsEach site c this goodbyeBeforeChunk (fun _ => true) w₀.Grown where
  outputLine line w _ hP := hP.alike (.outputLine w this line)
  modifyUser f w hf _ hP := hP.alike (.modifyProtocol w fun p _ => p.holder_modifyUser fun u _ => hf.identity u)
  registrar r r' w hr _ hP _ _ := hP.alike (.modifyProtocol w fun p hp => by
    obtain rfl := Option.some_inj.1 (hr.symm.trans hp)
    rfl)
  rand _ _ _ hP := hP.alike (.of_eq rfl rfl rfl)
  goodbye w _ hP _ := hP.alike (.goodbye w c)
  receivePrivate self commandName receiver message w _ _ _ _ _ hP _ := by
    unfold Irc2User.receivePrivate
    split
    · exact hP.alike ((Alike.outputLine w receiver _).trans (.of_eq rfl rfl rfl))
    · exact hP
  leave self error w _ _ _ _ hP _ := by
    have hquit : w.Alike (w.quit ⟨self.this, self.user.nickname⟩) := .of_eq rfl rfl rfl
    exact hP.alike (((hquit.trans (.outputLine _ _ _)).trans (.goodbye _ _)).trans (.goodbye _ _))
  create r w _ hw hP _ := hP.trans (grown_createProtocol site this c _ _ _ hw.wellFormed hw.live)
  setInputQueue q w _ hP := hP.alike (.modifyProtocol w fun p _ => p.holder_setInputQueue q)
  line _ _ _ _ _ _ _ hP _ := hP.alike (.of_eq rfl rfl rfl)

theorem grown_handleInput (c : Nat) (read : Option Octets) {w : World} (hw : w.WellFormed) :
    w.Grown (handleInput site c read w).2 := by
  have hself : w.Grown w := .of_alike hw (.of_eq rfl rfl rfl)
  refine handleInput_keepsEach site (G := fun _ => true) (M := fun _ => w.Grown) hw hself (fun _ _ => rfl) ?_ ?_ ?_
  · intro conn _ _
    exact ⟨hself, keepsEach_grown site c conn.protocol _ w⟩
  · intro _ line hP
    have hreceive := Alike.modifyConnection w c (f := fun conn => { conn with
      receivedBytes := conn.receivedBytes + UInt64.ofNat line.length, lastSpoke := w.time }) fun _ => rfl
    exact hP.alike (hreceive.trans (.of_eq rfl rfl rfl))
  · intro _ w' _ hP
    obtain ⟨s, e⟩ := wake_spec c w'
    rw [e]
    exact hP.alike (.of_eq rfl rfl rfl)

theorem grown_sendOutput (c written : Nat) {w : World} (hw : w.WellFormed) : w.Grown (sendOutput site c written w) := by
  rcases sendOutput_spec site c written w with e | ⟨a, q, n, s, e⟩
  · rw [e]
    exact .of_alike hw (.of_eq rfl rfl rfl)
  · rw [e]
    have hqueue := Alike.modifyProtocol w (a := a) (g := (·.setOutputQueue q)) fun p _ => p.holder_setOutputQueue q
    have hsent := Alike.modifyConnection (w.modifyProtocol a (·.setOutputQueue q)) c
      (f := fun conn => { conn with sentBytes := n }) fun _ => rfl
    exact .of_alike hw ((hqueue.trans hsent).trans (.of_eq rfl rfl rfl))

/-! ## Runs -/

/-- The connection is the one made for a socket that was accepted from the address. -/
def AcceptedFrom (actions : List Action) (c : Nat) (address : Octets) : Prop :=
  ∃ before flags socket, before ++ [.newConnection flags (some socket)] <+: actions ∧
    (reach site before).allocated = c ∧ socket.remoteAddress = address

/-- The step accepts the connection from the address. -/
def Accepts (w : World) (c : Nat) (address : Octets) (x : Action) : Prop :=
  ∃ flags socket, x = .newConnection flags (some socket) ∧ w.allocated = c ∧ socket.remoteAddress = address

theorem acceptedFrom_concat (actions : List Action) (x : Action) (c : Nat) (address : Octets) :
    AcceptedFrom site (actions ++ [x]) c address ↔
      AcceptedFrom site actions c address ∨ Accepts (reach site actions) c address x := by
  simp only [AcceptedFrom, Accepts, List.prefix_concat_iff]
  constructor
  · rintro ⟨before, flags, socket, h | h, hc, haddress⟩
    · obtain ⟨rfl, hx⟩ := List.append_inj' h rfl
      exact .inr ⟨flags, socket, (List.cons.inj hx).1.symm, hc, haddress⟩
    · exact .inl ⟨before, flags, socket, h, hc, haddress⟩
  · rintro (⟨before, flags, socket, h, hc, haddress⟩ | ⟨flags, socket, rfl, hc, haddress⟩)
    · exact ⟨before, flags, socket, .inr h, hc, haddress⟩
    · exact ⟨actions, flags, socket, .inl rfl, hc, haddress⟩

/-- Every connection has the address that `From` says, and every user the host. -/
structure Hosted (From : Nat → Octets → Prop) (w : World) : Prop where
  fresh : ∀ c address, From c address → c < w.allocated
  unique : ∀ c address address', From c address → From c address' → address = address'
  address : ∀ c address, w.address c = some address → From c address
  holder : ∀ a c i, w.holder a = some (c, some i) → ∃ address, From c address ∧ i.hostname = toWideStr address

namespace Hosted
variable {From From' : Nat → Octets → Prop} {w w' : World}

theorem congr (h : Hosted From w) (hfrom : ∀ c address, From' c address ↔ From c address) : Hosted From' w := by
  obtain rfl : From' = From := funext fun c => funext fun address => propext (hfrom c address)
  exact h

theorem grown (h : Hosted From w) (hw : w.Grown w') : Hosted From w' where
  fresh c address hc := (h.fresh c address hc).trans_le hw.allocated
  unique := h.unique
  address c address hc := h.address c address (hw.address ▸ hc)
  holder a c i hi := by
    by_cases ha : a < w.allocated
    · exact h.holder a c i (hw.holder a ha ▸ hi)
    · obtain ⟨address, hc, hhost⟩ := hw.newcomer a c i (not_lt.1 ha) hi
      exact ⟨address, h.address c address hc, hhost⟩

/-- A connection that is accepted has nobody's number. -/
theorem newConnection (h : Hosted From w) (flags : ListenerFlags) (accepted : Option Accepted) :
    Hosted (fun c address => From c address ∨ Accepts w c address (.newConnection flags accepted))
      (Daemon.newConnection flags accepted w) := by
  cases accepted with
  | none => exact h.congr fun c address => or_iff_left (by simp [Accepts])
  | some socket =>
    have haccepts : ∀ c address, Accepts w c address (.newConnection flags (some socket)) ↔
        w.allocated = c ∧ socket.remoteAddress = address := by simp [Accepts]
    simp only [haccepts]
    refine ⟨?_, ?_, ?_, ?_⟩
    · rintro c address (hc | ⟨rfl, -⟩)
      · exact (h.fresh c address hc).trans (Nat.lt_add_of_pos_right (by decide))
      · exact Nat.lt_add_of_pos_right (by decide)
    · rintro c address address' (hc | ⟨rfl, rfl⟩) (hc' | ⟨e, rfl⟩)
      · exact h.unique c address address' hc hc'
      · exact absurd (h.fresh c address hc) (by omega)
      · exact absurd (h.fresh _ _ hc') (by omega)
      · rfl
    · intro c address hc
      simp only [World.address, Daemon.newConnection, Function.update_apply] at hc
      split_ifs at hc with hnew
      · exact .inr ⟨hnew.symm, by simpa using hc⟩
      · exact .inl (h.address c address hc)
    · intro a c i hi
      simp only [World.holder, Daemon.newConnection, Function.update_apply] at hi
      split_ifs at hi
      · simp [ProtocolBase.holder, ProtocolBase.user?] at hi
      · obtain ⟨address, hc, hhost⟩ := h.holder a c i hi
        exact ⟨address, .inl hc, hhost⟩

theorem destroy (h : Hosted From w) (c : Nat) : Hosted From (Daemon.destroy c w) := by
  unfold Daemon.destroy
  cases w.connection c with
  | none => exact h
  | some conn =>
    refine ⟨h.fresh, h.unique, fun c' address hc' => ?_, fun a c' i hi => ?_⟩
    · simp only [World.address, Function.update_apply] at hc'
      split_ifs at hc'
      · cases hc'
      · exact h.address c' address hc'
    · simp only [World.holder, Function.update_apply] at hi
      split_ifs at hi
      · cases hi
      · exact h.holder a c' i hi

end Hosted

theorem hosted_reach (actions : List Action) : Hosted (AcceptedFrom site actions) (reach site actions) := by
  induction actions using List.reverseRecOn with
  | nil =>
    obtain ⟨s, n, e⟩ := start_spec site
    rw [reach, List.foldl_nil, e]
    have hnone : ∀ c address, ¬ AcceptedFrom site [] c address := by simp [AcceptedFrom]
    exact ⟨fun c address h => absurd h (hnone c address), fun c address _ h => absurd h (hnone c address),
      by simp [World.address], by simp [World.holder]⟩
  | append_singleton actions x ih =>
    have hw := wellFormed_reach site actions
    have hsame : (∀ flags accepted, x ≠ .newConnection flags accepted) → ∀ c address,
        AcceptedFrom site (actions ++ [x]) c address ↔ AcceptedFrom site actions c address := by
      intro hx c address
      rw [acceptedFrom_concat]
      refine or_iff_left ?_
      rintro ⟨flags, socket, rfl, -⟩
      exact hx _ _ rfl
    rw [reach, List.foldl_append, List.foldl_cons, List.foldl_nil, ← reach]
    cases x with
    | setTime t =>
      have hgrown : (reach site actions).Grown { reach site actions with time := t } := .of_alike hw (.of_eq rfl rfl rfl)
      exact (ih.grown hgrown).congr (hsame (by simp))
    | newConnection flags accepted => exact (ih.newConnection flags accepted).congr fun c address => acceptedFrom_concat ..
    | handleInput c read => exact (ih.grown (grown_handleInput site c read hw)).congr (hsame (by simp))
    | sendOutput c written => exact (ih.grown (grown_sendOutput site c written hw)).congr (hsame (by simp))
    | destroy c => exact (ih.destroy c).congr (hsame (by simp))

/-- An object that is in use keeps its holder until it is deleted. -/
theorem holder_act {a : Nat} {w : World} (hw : w.WellFormed) (ha : a < w.allocated) (x : Action) :
    a < (act site w x).allocated ∧ ((act site w x).holder a = w.holder a ∨ (act site w x).protocol a = none) := by
  have hgrown : ∀ {w'}, w.Grown w' → a < w'.allocated ∧ (w'.holder a = w.holder a ∨ w'.protocol a = none) :=
    fun h => ⟨ha.trans_le h.allocated, .inl (h.holder a ha)⟩
  cases x with
  | setTime t => exact hgrown (.of_alike hw (.of_eq rfl rfl rfl))
  | newConnection flags accepted =>
    cases accepted with
    | none => exact ⟨ha, .inl rfl⟩
    | some socket =>
      refine ⟨ha.trans (Nat.lt_add_of_pos_right (by decide)), .inl ?_⟩
      have hne : a ≠ w.allocated + 1 := by omega
      simp [act, newConnection, World.holder, Function.update_of_ne hne]
  | handleInput c read => exact hgrown (grown_handleInput site c read hw)
  | sendOutput c written => exact hgrown (grown_sendOutput site c written hw)
  | destroy c =>
    simp only [act, destroy]
    cases w.connection c with
    | none => exact ⟨ha, .inl rfl⟩
    | some conn =>
      refine ⟨ha, ?_⟩
      simp only [World.holder, Function.update_apply]
      split_ifs
      · exact .inr rfl
      · exact .inl rfl

/-- A user has the host that their connection was accepted from, and stays who
they are for as long as their object is there, in any run. -/
theorem identity_lasts (site : Site) (before later : List Action) {a c : Nat} {i : Identity}
    (h : (reach site before).holder a = some (c, some i)) :
    (∃ address, (∀ other, AcceptedFrom site before c other ↔ other = address) ∧ i.hostname = toWideStr address) ∧
      ((reach site (before ++ later)).holder a = some (c, some i) ∨ (reach site (before ++ later)).protocol a = none) := by
  have hhosted := hosted_reach site before
  refine ⟨?_, ?_⟩
  · obtain ⟨address, hfrom, hhost⟩ := hhosted.holder a c i h
    refine ⟨address, fun other => ⟨fun hother => hhosted.unique c _ _ hother hfrom, ?_⟩, hhost⟩
    rintro rfl
    exact hfrom
  · have ha : a < (reach site before).allocated := by
      by_contra hle
      rw [World.holder_of_le (wellFormed_reach site before) (not_lt.1 hle)] at h
      cases h
    suffices hlater : a < (reach site (before ++ later)).allocated ∧
        ((reach site (before ++ later)).holder a = some (c, some i) ∨ (reach site (before ++ later)).protocol a = none) from
      hlater.2
    induction later using List.reverseRecOn with
    | nil =>
      rw [List.append_nil]
      exact ⟨ha, .inl h⟩
    | append_singleton later x ih =>
      have hw := wellFormed_reach site (before ++ later)
      obtain ⟨hlt, hstep⟩ := holder_act site hw ih.1 x
      rw [← List.append_assoc, reach, List.foldl_append, List.foldl_cons, List.foldl_nil, ← reach]
      refine ⟨hlt, ?_⟩
      rcases ih.2 with hsame | hgone
      · exact hstep.imp_left (·.trans hsame)
      · refine .inr (hstep.elim (fun e => ?_) id)
        rw [World.holder, World.holder, hgone] at e
        exact Option.map_eq_none_iff.1 e

/-- A client that says it comes from elsewhere. -/
def liar : List Action := [accepts 5, types 0 "NICK pickle\r\nPONG Z0\r\nUSER user elsewhere elsewhere :name\r\n"]

theorem identity_lasts_liar : ∃ i address, i.hostname = wide "localhost" ∧
    (∀ other, AcceptedFrom sampleSite liar 0 other ↔ other = address) ∧ i.hostname = toWideStr address ∧
      ((reach sampleSite (liar ++ [types 0 "AWAY :gone\r\n"])).holder 2 = some (0, some i) ∨
        (reach sampleSite (liar ++ [types 0 "AWAY :gone\r\n"])).protocol 2 = none) := by
  have hwho : ((reach sampleSite liar).holder 2).map (fun h => (h.1, h.2.map (·.hostname))) =
      some (0, some (wide "localhost")) := by decide +kernel
  obtain ⟨⟨c, who⟩, hholder, e⟩ := Option.map_eq_some_iff.1 hwho
  obtain ⟨rfl, hhost⟩ := Prod.mk.inj e
  obtain ⟨i, rfl, hi⟩ := Option.map_eq_some_iff.1 hhost
  obtain ⟨⟨address, hfrom, haddress⟩, hlater⟩ := identity_lasts sampleSite liar [types 0 "AWAY :gone\r\n"] hholder
  exact ⟨i, address, hi, hfrom, haddress, hlater⟩

end Daemon

end KineIRCd

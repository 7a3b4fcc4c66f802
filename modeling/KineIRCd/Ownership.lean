import KineIRCd.DaemonSteps
/-!
# Who owns a nickname

The registrar looks a nickname up when NICK is parsed, but the user is added
when the registration completes. Every online user owns its nickname along the
runs in which the nickname is still free, and still valid, at that moment.
-/
namespace KineIRCd.Daemon

open Irc2User (Site Self)

/-- The connection at `c` has a user's object at `a`, who is called `n` and has not quit. -/
structure Online (w : World) (c a : Nat) (n : WString) : Prop where
  connected : c ∈ w.connections
  hasProtocol : w.HasProtocol c a
  nickname : w.nickname a = some n
  here : ¬ w.HasQuit a

/-- Every online user is the one registered under its folded nickname, and no
two of them have the same. -/
structure Owned (w : World) : Prop where
  registered : ∀ c a n, Online w c a n → w.registry.findUser n = some a
  distinct : ∀ c c' a a' n n', Online w c a n → Online w c' a' n' → c ≠ c' → IRCtoLower n ≠ IRCtoLower n'

/-- A hand-over finds the nickname valid and free. -/
def fresh : Event → Bool
  | .create _ _ _ valid free _ _ => valid && free
  | _ => true

/-- What holds between chunks: online users are registered, and those who quit
are not heard any more. -/
structure OwnedInv (w : World) : Prop where
  registered : ∀ c a n, w.HasProtocol c a → w.nickname a = some n → ¬ w.HasQuit a → w.registry.findUser n = some a
  silent : ∀ a, w.HasQuit a → a < w.allocated ∧ ∀ c, w.HasProtocol c a → w.isConnected c = false

/-- What holds during a chunk: once its user has quit, the nickname is free. -/
structure OwnedDuring (this : Nat) (w : World) : Prop extends OwnedInv w where
  vacated : w.HasQuit this → ∀ n, w.nickname this = some n → w.registry.findUser n = none

section
variable {w w' : World} {c this : Nat}

theorem OwnedInv.frame (h : OwnedInv w) (hf : w.Frame w') : OwnedInv w' where
  registered c a n hc hname hq := by
    rw [hf.registry]
    exact h.registered c a n (hf.hasProtocol_iff.1 hc) (hf.nickname a ▸ hname) fun hq' => hq (hf.hasQuit_iff.2 hq')
  silent a hq := by
    obtain ⟨hlt, hsilent⟩ := h.silent a (hf.hasQuit_iff.1 hq)
    exact ⟨by rw [hf.allocated]; exact hlt, fun c hc => hf.closed c (hsilent c (hf.hasProtocol_iff.1 hc))⟩

theorem OwnedDuring.frame (h : OwnedDuring this w) (hf : w.Frame w') : OwnedDuring this w' where
  toOwnedInv := h.toOwnedInv.frame hf
  vacated hq n hname := by
    rw [hf.registry]
    exact h.vacated (hf.hasQuit_iff.1 hq) n (hf.nickname this ▸ hname)

theorem hasQuit_quit {user : Entity} {a : Nat} : (w.quit user).HasQuit a ↔ w.HasQuit a ∨ a = user.address := by
  simp only [World.HasQuit, World.quit, World.record, List.mem_append, List.mem_singleton, Event.quit.injEq]
  constructor
  · rintro ⟨held, n, s, h | ⟨rfl, -⟩⟩
    · exact .inl ⟨held, n, s, h⟩
    · exact .inr rfl
  · rintro (⟨held, n, s, h⟩ | rfl)
    · exact ⟨held, n, s, .inl h⟩
    · exact ⟨_, _, _, .inr ⟨rfl, rfl, rfl, rfl⟩⟩

theorem findUser_quit (user : Entity) (n : WString) : (w.quit user).registry.findUser n =
    if IRCtoLower n = IRCtoLower user.name then none else w.registry.findUser n := by
  have hquit : (w.quit user).registry = (w.registry.removeUser user).2 := rfl
  rw [hquit]
  split_ifs with h
  · rcases Registry.removeUser_cases w.registry user with ⟨i, -, e⟩ | ⟨hnone, e⟩
    · rw [e, Registry.findUser, findEntity, h, AList.lookup_erase]
    · rw [e, Registry.findUser, findEntity, h]; exact hnone
  · rcases Registry.removeUser_cases w.registry user with ⟨i, -, e⟩ | ⟨-, e⟩
    · rw [e]; simp [Registry.findUser, findEntity, AList.lookup_erase_ne h]
    · rw [e]

/-- A user who quits gives up its own entry, or nobody's. -/
theorem OwnedDuring.quit (h : OwnedDuring this w) (hw : Handling c this w) {n₀ : WString}
    (hname : w.nickname this = some n₀) {w' : World} (hf : (w.quit ⟨this, n₀⟩).Frame w')
    (hsilent : w'.isConnected c = false) : OwnedDuring this w' := by
  have hown : w.HasProtocol c this := hw.attached (by rw [hname]; rfl)
  have hthis : ∀ c', w.HasProtocol c' this → c' = c := by
    intro c' hc'
    have howner := hw.wellFormed.owner c' this hc'
    rw [hw.owner, Option.some_inj] at howner
    exact howner.symm
  refine ⟨⟨?_, ?_⟩, ?_⟩
  · intro c' a n hc' hn hq
    have hq' : ¬ ((w.quit ⟨this, n₀⟩).HasQuit a) := fun h => hq (hf.hasQuit_iff.2 h)
    rw [hasQuit_quit, not_or] at hq'
    have hfind := h.registered c' a n (hf.hasProtocol_iff.1 hc') (hf.nickname a ▸ hn) hq'.1
    rw [hf.registry, findUser_quit, if_neg]
    · exact hfind
    · -- an online user of that name would be this one
      intro hfold
      rw [Registry.findUser, findEntity, hfold] at hfind
      by_cases hgone : w.HasQuit this
      · have hvacated := h.vacated hgone n₀ hname
        rw [Registry.findUser, findEntity, hfind] at hvacated
        simp at hvacated
      · have hmine := h.registered c this n₀ hown hname hgone
        rw [Registry.findUser, findEntity, hfind, Option.some_inj] at hmine
        exact hq'.2 hmine
  · intro a hq
    rw [hf.allocated]
    rcases hasQuit_quit.1 (hf.hasQuit_iff.1 hq) with hq | rfl
    · obtain ⟨hlt, hall⟩ := h.silent a hq
      exact ⟨hlt, fun c' hc' => hf.closed c' (hall c' (hf.hasProtocol_iff.1 hc'))⟩
    · refine ⟨hw.lt_allocated, ?_⟩
      intro c' hc'
      rw [hthis c' (hf.hasProtocol_iff.1 hc')]
      exact hsilent
  · intro _ n hn
    have hn₀ : w.nickname this = some n := (hf.nickname this).symm.trans hn
    rw [hname, Option.some_inj] at hn₀
    rw [hf.registry, findUser_quit, if_pos (by rw [hn₀])]

/-- The new user owns its nickname, and nobody else had it. -/
theorem OwnedDuring.createProtocol (site : Site) {registrant : Irc2Registrar.Registrant} {inputQueue outputQueue : Octets}
    (h : OwnedDuring this w) (hw : Handling c this w) (hthis : w.nickname this = none)
    (hG : Good fresh (createProtocol site this c registrant inputQueue outputQueue w)) :
    OwnedDuring this (createProtocol site this c registrant inputQueue outputQueue w) := by
  have hevent := hG (createEvent site this c registrant.name inputQueue w) (by rw [createProtocol_log]; simp)
  simp only [createEvent, fresh, Bool.and_eq_true, decide_eq_true_eq, Option.isNone_iff_eq_none] at hevent
  obtain ⟨hvalid, hfree⟩ := hevent
  have hadded : w.registry.addUser site.maxNickNameLength ⟨w.allocated, registrant.name⟩ =
      (.noError, { w.registry with users := w.registry.users.insert (IRCtoLower registrant.name) w.allocated }) := by
    rcases Registry.addUser_cases site.maxNickNameLength w.registry ⟨w.allocated, registrant.name⟩ with
      ⟨-, -, h⟩ | ⟨hbad, -⟩
    · exact h
    · exact absurd hbad (not_or.2 ⟨not_not.2 hvalid, not_not.2 hfree⟩)
  have hlt : this < w.allocated := hw.lt_allocated
  refine ⟨⟨fun c' a n hc' hn hq => ?_, fun a hq => ?_⟩, fun _ n hn => ?_⟩
  · rw [createProtocol_registry, hadded]
    rw [createProtocol_nickname] at hn
    rw [createProtocol_hasQuit] at hq
    rw [createProtocol_hasProtocol site _ _ _ _ hw.live] at hc'
    split_ifs at hc' with h'
    · rw [if_pos hc', Option.some_inj] at hn
      rw [← hn, hc']
      exact AList.lookup_insert _
    · have halt := hw.wellFormed.hasProtocol_lt hc'
      rw [if_neg (by omega)] at hn
      have hfind := h.registered c' a n hc' hn hq
      have hne : IRCtoLower n ≠ IRCtoLower registrant.name := by
        intro hfold
        rw [Registry.findUser, findEntity, hfold] at hfind
        rw [Registry.findUser, findEntity, hfind] at hfree
        simp at hfree
      simpa [Registry.findUser, findEntity, AList.lookup_insert_ne hne] using hfind
  · rw [createProtocol_allocated]
    obtain ⟨halt, hall⟩ := h.silent a ((createProtocol_hasQuit site _ _ _ _ a).1 hq)
    refine ⟨by omega, ?_⟩
    intro c' hc'
    rw [createProtocol_hasProtocol site _ _ _ _ hw.live] at hc'
    rw [createProtocol_isConnected]
    split_ifs at hc'
    · omega
    · exact hall c' hc'
  · rw [createProtocol_nickname, if_neg (by omega), hthis] at hn
    simp at hn

end

variable (site : Site)

theorem keeps_owned (c this : Nat) (goodbyeBeforeChunk : Bool) :
    Keeps site c this goodbyeBeforeChunk fresh (OwnedDuring this) := by
  refine .of_frame site (fun _ _ _ h hf => h.frame hf) ?_
    (fun r w hr hw h hG => h.createProtocol site hw (by simp [World.nickname, hr, ProtocolBase.user?]) hG)
  intro self w hthis hc hname hw h error _
  subst hthis hc
  apply h.quit hw hname (.leave self error w)
  exact World.isConnected_goodbye _ _

theorem steps_owned : Steps site fresh OwnedInv where
  time t w _ h := h.frame (.setTime w t)
  newConnection flags accepted w hw h _ := by
    cases accepted with
    | none => exact h
    | some socket =>
      refine ⟨?_, ?_⟩
      · intro c a n hc hn hq
        rw [newConnection_nickname flags socket hw] at hn
        rw [newConnection_hasQuit] at hq
        rw [newConnection_hasProtocol] at hc
        split_ifs at hc with h'
        · have hlt := hw.protocol_lt a (World.isSome_protocol_of_nickname hn)
          omega
        · exact h.registered c a n hc hn hq
      · intro a hq
        obtain ⟨hlt, hall⟩ := h.silent a ((newConnection_hasQuit flags socket a).1 hq)
        refine ⟨show a < w.allocated + 2 by omega, ?_⟩
        intro c hc
        rw [newConnection_hasProtocol] at hc
        split_ifs at hc with h'
        · omega
        · rw [newConnection_isConnected flags socket h']
          exact hall c hc
  handleInput c read w hw h hG := by
    refine handleInput_keeps site (M := OwnedDuring) hw h hG (fun conn hconn hconnected => ⟨⟨h, ?_⟩, ?_⟩)
      (fun this line h => h.frame (frame_receive c line w)) (fun _ w _ h => h.toOwnedInv.frame (frame_wake c w))
    · intro hq
      -- whoever quit is not connected
      have hsilent := (h.silent conn.protocol hq).2 c ⟨conn, hconn, rfl⟩
      simp [World.isConnected, hconn, hconnected] at hsilent
    · exact keeps_owned site _ _ _
  sendOutput c written w _ h := h.frame (frame_sendOutput site c written w)
  destroy c w hw h _ := by
    cases hc : w.connection c with
    | none => simpa [destroy, hc] using h
    | some conn =>
      refine ⟨?_, ?_⟩
      · intro c' a n hc' hn hq
        rw [destroy_nickname hc] at hn
        split_ifs at hn
        rw [destroy_hasQuit hc] at hq
        rw [show (destroy c w).registry = w.registry by simp [destroy, hc, World.record]]
        exact h.registered c' a n ((destroy_hasProtocol hc c' a).1 hc').2 hn hq
      · intro a hq
        obtain ⟨hlt, hall⟩ := h.silent a ((destroy_hasQuit hc a).1 hq)
        refine ⟨by simpa [destroy, hc, World.record] using hlt, ?_⟩
        intro c' hc'
        obtain ⟨hne, hc'⟩ := (destroy_hasProtocol hc c' a).1 hc'
        rw [destroy_isConnected hc, if_neg hne]
        exact hall c' hc'

/-- Whatever the order of the steps: as long as nicknames are still free when
their registrations complete, every online user owns its nickname. -/
theorem nicknames_owned (actions : List Action) (hG : Good fresh (reach site actions)) : Owned (reach site actions) := by
  have hinv : OwnedInv (reach site actions) := by
    refine (steps_owned site).reach ?_ actions hG
    obtain ⟨s, n, e⟩ := start_spec site
    rw [e]
    refine ⟨?_, ?_⟩
    · intro c a n hc
      simp [World.HasProtocol] at hc
    · intro a hq
      simp [World.HasQuit] at hq
  have hregistered : ∀ c a n, Online (reach site actions) c a n → (reach site actions).registry.findUser n = some a :=
    fun c a n h => hinv.registered c a n h.hasProtocol h.nickname h.here
  refine ⟨hregistered, fun c c' a a' n n' h h' hne hfold => hne ?_⟩
  -- one entry, hence one object, and that was made for one connection
  have ha := hregistered c a n h
  have ha' := hregistered c' a' n' h'
  rw [Registry.findUser, findEntity] at ha ha'
  rw [hfold, ha', Option.some_inj] at ha
  subst ha
  exact (wellFormed_reach site actions).connection_unique h'.hasProtocol h.hasProtocol

/-- A nickname is taken again after its user quit. -/
theorem nicknames_owned_again : Owned (reach sampleSite
    [accepts 5, accepts 6, types 0 "NICK pickle\r\n", types 0 "PONG Z0\r\n", types 0 "USER user 0 host :name\r\n",
      types 0 "QUIT\r\n", types 2 "NICK PICKLE\r\n", types 2 "PONG Z1\r\n", types 2 "USER user 0 host :name\r\n"]) :=
  nicknames_owned sampleSite _ (by decide +kernel)

/-- Two clients choose one nickname before either has registered. -/
def race : List Action :=
  [accepts 5, accepts 6, types 0 "NICK pickle\r\n", types 2 "NICK PICKLE\r\n", types 0 "PONG Z0\r\n", types 2 "PONG Z1\r\n",
    types 0 "USER user 0 host :name\r\n", types 2 "USER user 0 host :name\r\n"]

/-- The second of them is online with a nickname that belongs to the first. -/
theorem not_owned_of_race : Online (reach sampleSite race) 2 5 (wide "PICKLE") ∧
    (reach sampleSite race).registry.findUser (wide "PICKLE") = some 4 ∧ ¬ Owned (reach sampleSite race) := by
  have hprotocol : ((reach sampleSite race).connection 2).map (·.protocol) = some 5 := by decide +kernel
  have honline : Online (reach sampleSite race) 2 5 (wide "PICKLE") :=
    ⟨by decide +kernel, World.hasProtocol_iff.2 hprotocol, by decide +kernel, by decide +kernel⟩
  have hfirst : (reach sampleSite race).registry.findUser (wide "PICKLE") = some 4 := by decide +kernel
  refine ⟨honline, hfirst, ?_⟩
  intro h
  have hown := h.registered _ _ _ honline
  rw [hfirst] at hown
  exact absurd hown (by decide)

end KineIRCd.Daemon

import KineIRCd.Ownership
import KineIRCd.UserAccesses
import KineIRCd.Users
/-!
# Who is there

ISON and USERHOST look nicknames up in the registry. As long as nicknames are
free when registrations complete, and nobody leaves an entry behind, the registry
knows the users who are there and no others, so what they say is true.
-/
namespace KineIRCd.Daemon

open Irc2User (Site Self User)
open Irc2User.Accesses LibIRC2 LibIRC2.Numerics

/-- Every entry is under its user's own nickname, and those who quit have none.
There are no services. -/
structure Keyed (w : World) : Prop where
  key : ∀ k a, w.registry.users.lookup k = some a → ∃ n, w.nickname a = some n ∧ IRCtoLower n = k
  gone : ∀ a, w.HasQuit a → a < w.allocated ∧ ∀ k, w.registry.users.lookup k ≠ some a
  services : w.registry.services = ∅

section
variable {w w' : World}

theorem Keyed.frame (h : Keyed w) (hf : w.Frame w') : Keyed w' where
  key k a hk := by
    rw [hf.registry] at hk
    rw [hf.nickname]
    exact h.key k a hk
  gone a hq := by
    rw [hf.allocated, hf.registry]
    exact h.gone a (hf.hasQuit_iff.1 hq)
  services := hf.registry ▸ h.services

theorem quit_users (user : Entity) (k : WString) : (w.quit user).registry.users.lookup k =
    if k = IRCtoLower user.name then none else w.registry.users.lookup k := by
  have hquit : (w.quit user).registry = (w.registry.removeUser user).2 := rfl
  rw [hquit]
  rcases Registry.removeUser_cases w.registry user with ⟨i, -, e⟩ | ⟨hnone, e⟩
  · rw [e]
    split_ifs with hk
    · rw [hk]
      exact AList.lookup_erase _ _
    · exact AList.lookup_erase_ne hk
  · rw [e]
    split_ifs with hk
    · rw [hk]
      exact hnone
    · rfl

/-- A user who quits takes its entry with it, which is the only one it has. -/
theorem Keyed.quit (h : Keyed w) {user : Entity} (ha : user.address < w.allocated)
    (hname : w.nickname user.address = some user.name) : Keyed (w.quit user) := by
  refine ⟨?_, ?_, ?_⟩
  · intro k a hk
    rw [quit_users] at hk
    split_ifs at hk
    exact h.key k a hk
  · intro a hq
    simp only [quit_users]
    rcases hasQuit_quit.1 hq with hq | rfl
    · refine ⟨(h.gone a hq).1, fun k hk => ?_⟩
      split_ifs at hk
      exact (h.gone a hq).2 k hk
    · refine ⟨ha, fun k hk => ?_⟩
      split_ifs at hk with hne
      obtain ⟨n, hn, hkey⟩ := h.key k _ hk
      rw [hname, Option.some_inj] at hn
      exact hne (hn ▸ hkey.symm)
  · have hquit : (w.quit user).registry = (w.registry.removeUser user).2 := rfl
    rw [hquit]
    rcases Registry.removeUser_cases w.registry user with ⟨i, -, e⟩ | ⟨-, e⟩
    · rw [e]
      exact h.services
    · rw [e]
      exact h.services

theorem Keyed.findService (h : Keyed w) (name : WString) : w.registry.findService name = none := by
  rw [Registry.findService, findEntity, h.services]
  exact AList.lookup_empty _

/-- The object of an entry has a user. -/
theorem Keyed.user_found (h : Keyed w) {name : WString} {a : Nat} (hfound : w.registry.findUser name = some a) :
    ∃ u, (w.protocol a).bind (·.user?) = some u := by
  obtain ⟨n, hn, -⟩ := h.key _ a hfound
  obtain ⟨u, hu, -⟩ := Option.map_eq_some_iff.1 hn
  exact ⟨u, hu⟩

theorem Keyed.lt_allocated (h : Keyed w) (hw : w.WellFormed) {k : WString} {a : Nat}
    (hk : w.registry.users.lookup k = some a) : a < w.allocated := by
  obtain ⟨n, hn, -⟩ := h.key k a hk
  exact hw.protocol_lt a (World.isSome_protocol_of_nickname hn)

theorem Keyed.createProtocol (h : Keyed w) (hw : w.WellFormed) (site : Site) (registrar c : Nat)
    (registrant : Irc2Registrar.Registrant) (inputQueue outputQueue : Octets) :
    Keyed (createProtocol site registrar c registrant inputQueue outputQueue w) := by
  have hold : ∀ k a, w.registry.users.lookup k = some a → ∃ n,
      (Daemon.createProtocol site registrar c registrant inputQueue outputQueue w).nickname a = some n ∧
        IRCtoLower n = k := by
    intro k a hk
    rw [createProtocol_nickname, if_neg (h.lt_allocated hw hk).ne]
    exact h.key k a hk
  have hgone : ∀ a, w.HasQuit a → a < w.allocated + 1 ∧ a ≠ w.allocated := by
    intro a hq
    have := (h.gone a hq).1
    omega
  rcases Registry.addUser_cases site.maxNickNameLength w.registry ⟨w.allocated, registrant.name⟩ with
    ⟨-, -, hadded⟩ | ⟨-, err, -, hadded⟩
  · refine ⟨fun k a hk => ?_, fun a hq => ?_, ?_⟩
    · rw [createProtocol_registry, hadded] at hk
      by_cases hkey : k = IRCtoLower registrant.name
      · rw [hkey, AList.lookup_insert, Option.some_inj] at hk
        exact ⟨registrant.name, by rw [createProtocol_nickname, if_pos hk.symm], hkey.symm⟩
      · rw [AList.lookup_insert_ne hkey] at hk
        exact hold k a hk
    · rw [createProtocol_hasQuit] at hq
      rw [createProtocol_allocated, createProtocol_registry, hadded]
      refine ⟨(hgone a hq).1, fun k hk => ?_⟩
      by_cases hkey : k = IRCtoLower registrant.name
      · rw [hkey, AList.lookup_insert, Option.some_inj] at hk
        exact (hgone a hq).2 hk.symm
      · rw [AList.lookup_insert_ne hkey] at hk
        exact (h.gone a hq).2 k hk
    · rw [createProtocol_registry, hadded]
      exact h.services
  · refine ⟨fun k a hk => ?_, fun a hq => ?_, ?_⟩
    · rw [createProtocol_registry, hadded] at hk
      exact hold k a hk
    · rw [createProtocol_hasQuit] at hq
      rw [createProtocol_allocated, createProtocol_registry, hadded]
      exact ⟨(hgone a hq).1, (h.gone a hq).2⟩
    · rw [createProtocol_registry, hadded]
      exact h.services

end

variable (site : Site)

theorem keeps_keyed (c this : Nat) (goodbyeBeforeChunk : Bool) : Keeps site c this goodbyeBeforeChunk noneHeld Keyed := by
  refine .of_frame site (fun _ _ _ h hf => h.frame hf) ?_
    (fun r w _ hw h _ => h.createProtocol hw.wellFormed site _ _ _ _ _)
  intro self w hthis _ hname hw h error _
  subst hthis
  have hquit : Keyed (w.quit ⟨self.this, self.user.nickname⟩) := h.quit hw.lt_allocated hname
  exact hquit.frame (.leave self error w)

theorem steps_keyed : Steps site noneHeld Keyed where
  time t w _ h := h.frame (.setTime w t)
  newConnection flags accepted w hw h _ := by
    cases accepted with
    | none => exact h
    | some socket =>
      refine ⟨fun k a hk => ?_, fun a hq => ?_, h.services⟩
      · rw [newConnection_nickname flags socket hw]
        exact h.key k a hk
      · obtain ⟨hlt, hnone⟩ := h.gone a ((newConnection_hasQuit flags socket a).1 hq)
        exact ⟨show a < w.allocated + 2 by omega, hnone⟩
  handleInput c read w hw h hG := handleInput_keeps site (M := fun _ => Keyed) hw h hG
    (fun _ _ _ => ⟨h, keeps_keyed site _ _ _⟩) (fun _ line h => h.frame (frame_receive c line w))
    (fun _ w _ h => h.frame (frame_wake c w))
  sendOutput c written w _ h := h.frame (frame_sendOutput site c written w)
  destroy c w _ h hG := by
    cases hc : w.connection c with
    | none => simpa [destroy, hc] using h
    | some conn =>
      have hevent : noneHeld (.destroy c (w.held conn.protocol)) = true := hG _ (by simp [destroy, hc, World.record])
      have hheld : w.held conn.protocol = false := by simpa [noneHeld] using hevent
      have hregistry : (destroy c w).registry = w.registry := by simp [destroy, hc, World.record]
      have hallocated : (destroy c w).allocated = w.allocated := by simp [destroy, hc, World.record]
      refine ⟨fun k a hk => ?_, fun a hq => ?_, ?_⟩
      · rw [hregistry] at hk
        have hne : a ≠ conn.protocol := by rintro rfl; exact not_held hheld hk
        rw [destroy_nickname hc, if_neg hne]
        exact h.key k a hk
      · rw [hallocated, hregistry]
        exact h.gone a ((destroy_hasQuit hc a).1 hq)
      · rw [hregistry]
        exact h.services

/-! ## Reports on others -/

/-- A hand-over finds the nickname valid and free, and no entry is left behind. -/
def clean (e : Event) : Bool := fresh e && noneHeld e

/-- The user object of a nickname's owner, who is there. -/
def Present (w : World) (name : WString) (u : User) : Prop :=
  ∃ c a, Online w c a u.nickname ∧ (w.protocol a).bind (·.user?) = some u ∧ IRCtoLower u.nickname = IRCtoLower name

section
variable {actions : List Action}

theorem Good.imp {G G' : Event → Bool} {w : World} (h : Good G w) (himp : ∀ e, G e = true → G' e = true) : Good G' w :=
  fun e he => himp e (h e he)

theorem keyed_reach (hG : Good noneHeld (reach site actions)) : Keyed (reach site actions) := by
  refine (steps_keyed site).reach ?_ actions hG
  obtain ⟨s, n, e⟩ := start_spec site
  rw [e]
  exact ⟨by simp, by simp [World.HasQuit], rfl⟩

/-- The registry knows the users who are there, by their nicknames, and no others. -/
theorem findUser_iff_online (hG : Good clean (reach site actions)) (n : WString) (a : Nat) :
    (reach site actions).registry.findUser n = some a ↔
      ∃ c m, Online (reach site actions) c a m ∧ IRCtoLower m = IRCtoLower n := by
  have hfresh : Good fresh (reach site actions) := Good.imp hG fun e he => (Bool.and_eq_true_iff.1 he).1
  have hheld : Good noneHeld (reach site actions) := Good.imp hG fun e he => (Bool.and_eq_true_iff.1 he).2
  have hstart : ∃ s n, start site = { inFDSET := s, maxDescriptors := n } := start_spec site
  obtain ⟨s, m, e⟩ := hstart
  have howned : OwnedInv (reach site actions) := by
    refine (steps_owned site).reach ?_ actions hfresh
    rw [e]
    exact ⟨by simp [World.HasProtocol], by simp [World.HasQuit]⟩
  have halive : AliveInv (reach site actions) := by
    refine (steps_alive site).reach ?_ actions hheld
    rw [e]
    exact fun k a hk => by simp at hk
  have hkeyed := keyed_reach site hheld
  have hw := wellFormed_reach site actions
  constructor
  · intro hfound
    obtain ⟨c, hc, -⟩ := halive _ a hfound
    obtain ⟨m, hm, hkey⟩ := hkeyed.key _ a hfound
    have hlive : ((reach site actions).connection c).isSome = true := by
      obtain ⟨conn, hconn, -⟩ := hc
      rw [hconn]
      rfl
    exact ⟨c, m, ⟨(hw.live c).2 hlive, hc, hm, fun hq => (hkeyed.gone a hq).2 _ hfound⟩, hkey⟩
  · rintro ⟨c, m, honline, hfold⟩
    have hfound := howned.registered c a m honline.hasProtocol honline.nickname honline.here
    rw [Registry.findUser, findEntity] at hfound ⊢
    rwa [← hfold]

/-- The object that is found is that of a user who is there. -/
theorem user_found_iff (hG : Good clean (reach site actions)) {name : WString} {a : Nat} {u : User} :
    (reach site actions).registry.findUser name = some a ∧ ((reach site actions).protocol a).bind (·.user?) = some u ↔
      ∃ c, Online (reach site actions) c a u.nickname ∧ ((reach site actions).protocol a).bind (·.user?) = some u ∧
        IRCtoLower u.nickname = IRCtoLower name := by
  rw [findUser_iff_online site hG]
  constructor
  · rintro ⟨⟨c, m, honline, hfold⟩, hu⟩
    have hname : (reach site actions).nickname a = some u.nickname := by rw [World.nickname, hu]; rfl
    obtain rfl := Option.some_inj.1 (honline.nickname.symm.trans hname)
    exact ⟨c, honline, hu, hfold⟩
  · rintro ⟨c, honline, hu, hfold⟩
    exact ⟨⟨c, _, honline, hfold⟩, hu⟩

theorem found_iff_present (hG : Good clean (reach site actions)) (name : WString) (u : User) :
    (((reach site actions).registry.findUser name).bind fun a => ((reach site actions).protocol a).bind (·.user?)) = some u ↔
      Present (reach site actions) name u := by
  rw [Option.bind_eq_some_iff]
  simp only [user_found_iff site hG]
  exact exists_comm

/-- What ISON shows of the objects that it finds. -/
theorem ison_found (hG : Good clean (reach site actions)) (parameters : List Octets) :
    let w := reach site actions
    (parameters.filterMap fun nickname => w.registry.findClient (site.localiseStr nickname)).map
        (fun client => site.delocaliseStr ((w.nickname client).getD [])) =
      (parameters.filterMap fun nickname => (w.registry.findUser (site.localiseStr nickname)).bind fun a =>
        (w.protocol a).bind (·.user?)).map fun u => site.delocaliseStr u.nickname := by
  intro w
  have hkeyed : Keyed w := keyed_reach site (Good.imp hG fun e he => (Bool.and_eq_true_iff.1 he).2)
  rw [List.map_filterMap, List.map_filterMap]
  refine List.filterMap_congr fun nickname _ => ?_
  rw [Registry.findClient, hkeyed.findService]
  cases hfound : w.registry.findUser (site.localiseStr nickname) with
  | none => rfl
  | some a =>
    obtain ⟨u, hu⟩ := hkeyed.user_found hfound
    have hn : w.nickname a = some u.nickname := by rw [World.nickname, hu]; rfl
    simp only [Option.orElse_some, Option.map_some, Option.bind_some, hn, hu, Option.getD_some]

end

/-- In every run of clean hand-overs and partings, ISON and USERHOST answer with the
users who are there among those asked for, in the order of the request, and with
nobody else. -/
theorem presence_told (actions : List Action) (hG : Good clean (reach site actions)) (answers : Answers) (self : Self)
    (parameters : List Octets) :
    let w := reach site actions
    ∃ there : Octets → Option User, (∀ nickname u, there nickname = some u ↔ Present w (site.localiseStr nickname) u) ∧
      (handleISON site { answers with nickname := fun client w => (w.nickname client).getD [] } self parameters w).value =
        [numericLine site self RPL_ISON
          [joinDelimited SPACE ((parameters.filterMap there).map fun u => site.delocaliseStr u.nickname)]] ∧
      (handleUSERHOST site self parameters w).value =
        [numericLine site self RPL_USERHOST
          [joinDelimited SPACE (((parameters.take 5).filterMap there).map (userHost site))]] := by
  intro w
  refine ⟨fun nickname => (w.registry.findUser (site.localiseStr nickname)).bind fun a => (w.protocol a).bind (·.user?),
    fun nickname u => found_iff_present site hG _ u, ?_, ?_⟩
  · rw [← ison_found site hG parameters]
    rfl
  · rfl

/-- Of two users one has quit, and dropped after that. -/
def parting : List Action :=
  [accepts 5, types 0 "NICK pickle\r\nPONG Z0\r\nUSER user 0 host :name\r\n",
    accepts 6, types 3 "NICK sanc\r\nPONG Z1\r\nUSER user 0 host :name\r\n", types 0 "QUIT\r\n", .destroy 0]

/-- The other asks for both. -/
theorem presence_told_parting : let w := reach sampleSite parting
    let self : Self := ⟨5, 3, ⟨wide "sanc", wide "user", wide "localhost", wide "name", [], 0, 0, []⟩⟩
    let asked := [octets "PICKLE", octets "SANC"]
    (handleUSERHOST sampleSite self asked w).value =
        [numericLine sampleSite self RPL_USERHOST [octets "sanc=?user@localhost"]] ∧
      ∃ there : Octets → Option User,
        (∀ nickname u, there nickname = some u ↔ Present w (sampleSite.localiseStr nickname) u) ∧
          (handleUSERHOST sampleSite self asked w).value = [numericLine sampleSite self RPL_USERHOST
            [joinDelimited SPACE (((asked.take 5).filterMap there).map (userHost sampleSite))]] := by
  intro w self asked
  obtain ⟨there, hthere, -, htold⟩ := presence_told sampleSite parting (by decide +kernel) .silent self asked
  exact ⟨by decide +kernel, there, hthere, htold⟩

end KineIRCd.Daemon

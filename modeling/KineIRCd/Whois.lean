import KineIRCd.Clock
import KineIRCd.Identities
import KineIRCd.Presence
/-!
# WHOIS

WHOIS describes the clients that it is asked for, one by one, from their own
objects. What it says of a user is what the user's own connection did, and when.
-/
namespace KineIRCd

namespace LibIRC2.Numerics

def RPL_WHOISUSER : Nat := 311
def RPL_WHOISSERVER : Nat := 312
def RPL_WHOISOPERATOR : Nat := 313
def RPL_WHOISIDLE : Nat := 317
def RPL_ENDOFWHOIS : Nat := 318
def RPL_WHOIS_HIDDEN : Nat := 320
def RPL_WHOISSTAFF : Nat := 689
def RPL_WHOISLANGUAGE : Nat := 690

end LibIRC2.Numerics

namespace Irc2User

open Accesses LibIRC2 LibIRC2.Numerics

/-- The language tags that WHOIS asks for, beside ERR_NOSUCHNICK's. -/
inductive WhoisTag where
  | irc2_RPL_ENDOFWHOIS
  | irc2_RPL_WHOISIDLE
  | irc2_RPL_WHOISLANGUAGE
  | irc2_RPL_WHOISOPERATOR
  | irc2_RPL_WHOISOPERATOR_LOCAL
  | irc2_RPL_WHOISSTAFF
  | irc2_RPL_WHOIS_HIDDEN
  deriving DecidableEq

/-- `Kine::Service`, and its server. -/
structure Service where
  nickname : WString
  username : WString
  hostname : WString
  description : WString
  serverName : WString
  serverDescription : WString

/-- What WHOIS reads that no other command does. -/
structure Details where
  lang : LanguageList → WhoisTag → WString
  /-- The text for a staff status, if its tag is in some language. -/
  staffText : LanguageList → Octets → Option WString
  /-- `getStaffStatus` and `getSignonTime` of the user at an address. -/
  staffStatus : Nat → Octets
  signonTime : Nat → Nat
  service : Nat → Service
  /-- `getDescription` and `isHiddenFrom` of this server. -/
  serverDescription : WString
  serverHidden : Bool

def Details.isStaff (details : Details) (user : Nat) : Bool := !(details.staffStatus user).isEmpty

/-- Every user may see every host. -/
def User.hideHostFrom (_ _ : User) : Bool := false

def User.getVirtualHostname (u : User) : WString := u.hostname

def User.isGlobalOperator (_ : User) : Bool := false

def User.isLocalOperator (_ : User) : Bool := false

variable (site : Site) (details : Details) (self : Self)

/-- `GETLANG`, in the languages of the user who asks. -/
def Details.getLang (tag : WhoisTag) : Octets := site.delocaliseStr (details.lang self.user.languageList tag)

/-- What `doWHOIS` says of a user. All users are local, and none is secured. -/
def whoisUser (a : Nat) (foundUser : User) (w : World) : List Octets :=
  let nickname := site.delocaliseStr foundUser.nickname
  let username := site.delocaliseStr foundUser.username
  let description := site.delocaliseStr foundUser.description
  let virtualHostname := site.delocaliseStr foundUser.getVirtualHostname
  (if foundUser.hideHostFrom self.user then
    [numericLine site self RPL_WHOISUSER [nickname, username, virtualHostname, replacementParameter, description]]
  else
    [numericLine site self RPL_WHOISUSER
        [nickname, username, site.delocaliseStr foundUser.hostname, replacementParameter, description],
      numericLine site self RPL_WHOIS_HIDDEN
        [nickname, virtualHostname, details.getLang site self .irc2_RPL_WHOIS_HIDDEN]]) ++
  (if !details.serverHidden || details.isStaff self.this then
    [numericLine site self RPL_WHOISSERVER
      [nickname, site.delocaliseStr site.serverName, site.delocaliseStr details.serverDescription]]
  else []) ++
  (if foundUser.languageList ≠ [] then
    -- null languages have no code to show
    [numericLine site self RPL_WHOISLANGUAGE [nickname, joinDelimited COMMA (foundUser.languageList.filterMap id),
      details.getLang site self .irc2_RPL_WHOISLANGUAGE]]
  else []) ++
  (if foundUser.isAway then
    [numericLine site self RPL_AWAY
      [nickname, decimal (w.time - foundUser.awaySince), site.delocaliseStr foundUser.awayMessage]]
  else []) ++
  (if foundUser.isGlobalOperator then
    [numericLine site self RPL_WHOISOPERATOR [nickname, details.getLang site self .irc2_RPL_WHOISOPERATOR]]
  else if foundUser.isLocalOperator then
    [numericLine site self RPL_WHOISOPERATOR [nickname, details.getLang site self .irc2_RPL_WHOISOPERATOR_LOCAL]]
  else []) ++
  (if details.isStaff a then
    [numericLine site self RPL_WHOISSTAFF
      [nickname, match details.staffText self.user.languageList (details.staffStatus a) with
        | some text => site.delocaliseStr text
        | none => details.getLang site self .irc2_RPL_WHOISSTAFF]]
  else []) ++
  [numericLine site self RPL_WHOISIDLE [nickname, decimal (w.time - foundUser.lastAwake),
    decimal (details.signonTime a), details.getLang site self .irc2_RPL_WHOISIDLE]]

/-- What `doWHOIS` says of a service: its host is hidden from staff and operators. -/
def whoisService (service : Service) : List Octets :=
  let nickname := site.delocaliseStr service.nickname
  let hostname :=
    if details.isStaff self.this || self.user.isOperator then replacementParameter
    else site.delocaliseStr service.hostname
  numericLine site self RPL_WHOISUSER [nickname, site.delocaliseStr service.username, hostname, replacementParameter,
    site.delocaliseStr service.description] ::
  if details.isStaff self.this then
    [numericLine site self RPL_WHOISSERVER
      [nickname, site.delocaliseStr service.serverName, site.delocaliseStr service.serverDescription]]
  else []

/-- One target of `doWHOIS`. -/
def whoisTarget (w : World) (target : Octets) : List Octets :=
  match w.registry.findUser (site.localiseStr target) with
  | some a =>
    match (w.protocol a).bind (·.user?) with
    | some foundUser => whoisUser site details self a foundUser w
    -- the entry is of an object that is gone
    | none => []
  | none =>
    match w.registry.findService (site.localiseStr target) with
    | some a => whoisService site details self (details.service a)
    | none => [numericLine site self ERR_NOSUCHNICK [target, Irc2User.getLang site self .irc2_ERR_NOSUCHNICK]]

def doWHOIS (targets : Octets) (w : World) : List Octets :=
  ((⟨targets⟩ : StringTokens).tokens COMMA).flatMap (whoisTarget site details self w) ++
    [numericLine site self RPL_ENDOFWHOIS [targets, details.getLang site self .irc2_RPL_ENDOFWHOIS]]

end Irc2User

namespace Daemon

open Irc2User (Site Self User Details)
open Irc2User.Accesses LibIRC2 LibIRC2.Numerics

/-- The object at `a` is that of the user who is there under the name. -/
def PresentAt (w : World) (name : WString) (a : Nat) (u : User) : Prop :=
  ∃ c, Online w c a u.nickname ∧ (w.protocol a).bind (·.user?) = some u ∧ IRCtoLower u.nickname = IRCtoLower name

variable (site : Site) {actions : List Action}

/-- The user whom WHOIS finds. -/
def whoisFound (w : World) (target : Octets) : Option (Nat × User) :=
  (w.registry.findUser (site.localiseStr target)).bind fun a =>
    ((w.protocol a).bind (·.user?)).map fun u => (a, u)

theorem whoisFound_iff (hG : Good clean (reach site actions)) (target : Octets) (a : Nat) (u : User) :
    whoisFound site (reach site actions) target = some (a, u) ↔
      PresentAt (reach site actions) (site.localiseStr target) a u := by
  rw [PresentAt, ← user_found_iff site hG, whoisFound, Option.bind_eq_some_iff]
  constructor
  · rintro ⟨b, hfound, hb⟩
    obtain ⟨v, hu, e⟩ := Option.map_eq_some_iff.1 hb
    obtain ⟨rfl, rfl⟩ := Prod.mk.inj e
    exact ⟨hfound, hu⟩
  · rintro ⟨hfound, hu⟩
    exact ⟨a, hfound, by rw [hu, Option.map_some]⟩

/-- A target of WHOIS is a user who is found, or nobody. -/
theorem whoisTarget_eq (hG : Good clean (reach site actions)) (details : Details) (self : Self) (target : Octets) :
    Irc2User.whoisTarget site details self (reach site actions) target =
      match whoisFound site (reach site actions) target with
      | some (a, u) => Irc2User.whoisUser site details self a u (reach site actions)
      | none => [numericLine site self ERR_NOSUCHNICK [target, Irc2User.getLang site self .irc2_ERR_NOSUCHNICK]] := by
  have hkeyed : Keyed (reach site actions) := keyed_reach site (Good.imp hG fun e he => (Bool.and_eq_true_iff.1 he).2)
  rw [Irc2User.whoisTarget, whoisFound, hkeyed.findService]
  cases hfound : (reach site actions).registry.findUser (site.localiseStr target) with
  | none => rfl
  | some a =>
    obtain ⟨u, hu⟩ := hkeyed.user_found hfound
    simp only [hu, Option.bind_some, Option.map_some]

/-- Someone who is online comes from where their connection was accepted. -/
theorem Online.acceptedFrom {c a : Nat} {u : User} (h : Online (reach site actions) c a u.nickname)
    (hu : ((reach site actions).protocol a).bind (·.user?) = some u) :
    ∃ address, AcceptedFrom site actions c address ∧ u.hostname = toWideStr address := by
  have howner := (wellFormed_reach site actions).owner c a h.hasProtocol
  obtain ⟨p, hp, hpuser⟩ := Option.bind_eq_some_iff.1 hu
  rw [hp, Option.map_some, Option.some_inj] at howner
  have hholder : (reach site actions).holder a = some (c, some u.identity) := by
    rw [World.holder, hp, Option.map_some, ProtocolBase.holder, howner, hpuser, Option.map_some]
  exact (hosted_reach site actions).holder a c u.identity hholder

/-- In every run of clean hand-overs and partings whose clock is never set back,
WHOIS describes those of its targets who are online, in their order and from
their own objects, and says of each other that there is no such nickname. Whoever
is described comes from where their own connection was accepted, and was awake,
or went away, before now. -/
theorem whois_told (actions : List Action) (hG : Good clean (reach site actions))
    (hclock : Runs.Along (act site) Action.Forward (start site) actions) (details : Details) (answers : Answers)
    (self : Self) (targets : Octets) :
    let w := reach site actions
    ∃ found : Octets → Option (Nat × User),
      (∀ target a u, found target = some (a, u) ↔ PresentAt w (site.localiseStr target) a u) ∧
      (∀ target a u, found target = some (a, u) → u.InPast w.time ∧ ∃ c address, Online w c a u.nickname ∧
        AcceptedFrom site actions c address ∧ u.hostname = toWideStr address) ∧
      (handleWHOIS site { answers with doWHOIS := Irc2User.doWHOIS site details self } self [targets] w).value =
        ((⟨targets⟩ : StringTokens).tokens COMMA).flatMap (fun target =>
          match found target with
          | some (a, u) => Irc2User.whoisUser site details self a u w
          | none => [numericLine site self ERR_NOSUCHNICK [target, Irc2User.getLang site self .irc2_ERR_NOSUCHNICK]]) ++
        [numericLine site self RPL_ENDOFWHOIS [targets, details.getLang site self .irc2_RPL_ENDOFWHOIS]] := by
  intro w
  refine ⟨whoisFound site w, whoisFound_iff site hG, ?_, ?_⟩
  · intro target a u hfound
    obtain ⟨c, honline, hu, -⟩ := (whoisFound_iff site hG target a u).1 hfound
    obtain ⟨p, hp, hpuser⟩ := Option.bind_eq_some_iff.1 hu
    obtain ⟨address, haccepted, hhost⟩ := Online.acceptedFrom site honline hu
    exact ⟨(wellFormed_inPast site hclock).2.user a p hp u hpuser, c, address, honline, haccepted, hhost⟩
  · have hblocks : Irc2User.whoisTarget site details self w = _ := funext (whoisTarget_eq site hG details self)
    rw [← hblocks]
    rfl

/-- The details of a server that nobody works for. -/
def plainDetails : Details where
  lang _ _ := wide "text"
  staffText _ _ := none
  staffStatus _ := []
  signonTime _ := 7
  service _ := ⟨[], [], [], [], [], []⟩
  serverDescription := wide "server"
  serverHidden := false

/-- The user who is left when the other has parted goes away for a while. -/
def awhile : List Action := parting ++ [.setTime 9, types 3 "AWAY :gone\r\n", .setTime 12]

/-- Both are asked for. -/
theorem whois_told_awhile : let w := reach sampleSite awhile
    let self : Self := ⟨5, 3, ⟨wide "sanc", wide "user", wide "localhost", wide "name", [], 0, 0, []⟩⟩
    let answers := { Answers.silent with doWHOIS := Irc2User.doWHOIS sampleSite plainDetails self }
    (handleWHOIS sampleSite answers self [octets "PICKLE,SANC"] w).value =
        [octets ":irc.kine 401 sanc PICKLE :text", octets ":irc.kine 311 sanc sanc user localhost * :name",
          octets ":irc.kine 320 sanc sanc localhost :text", octets ":irc.kine 312 sanc sanc irc.kine :server",
          octets ":irc.kine 690 sanc sanc en :text", octets ":irc.kine 301 sanc sanc 3 :gone",
          octets ":irc.kine 317 sanc sanc 12 7 :text", octets ":irc.kine 318 sanc PICKLE,SANC :text"] ∧
      ∃ found : Octets → Option (Nat × User),
        (∀ target a u, found target = some (a, u) ↔ PresentAt w (sampleSite.localiseStr target) a u) ∧
        ∀ target a u, found target = some (a, u) → u.InPast w.time ∧ ∃ c address, Online w c a u.nickname ∧
          AcceptedFrom sampleSite awhile c address ∧ u.hostname = toWideStr address := by
  intro w self answers
  have hclock : Runs.Along (act sampleSite) Action.Forward (start sampleSite) awhile := by
    simp only [awhile, parting, Runs.along_cons, Runs.along_nil, List.cons_append, List.nil_append, Action.Forward,
      accepts, types, true_and, and_true]
    decide +kernel
  obtain ⟨found, hfound, hpast, -⟩ := whois_told sampleSite awhile (by decide +kernel) hclock plainDetails .silent self
    (octets "PICKLE,SANC")
  exact ⟨by decide +kernel, found, hfound, hpast⟩

end Daemon

end KineIRCd

import KineIRCd.Environment
import KineIRCd.Languages
import Mathlib.Algebra.Group.Nat.Defs
/-!
# Listener ports

A listener is given its port by number or by name. A name is looked up in the
services of the system, and every port found there is opened.
-/
namespace KineIRCd

/-- `servent`. The port is in the byte order of the machine, as `ntohs` gives it. -/
structure Servent where
  s_proto : Octets
  s_name : Octets
  s_aliases : List Octets
  s_port : UInt16

/-- The domains of sockets that have ports. -/
inductive DomainType where
  | DOMAIN_IPV4
  | DOMAIN_IPV6
  | DOMAIN_IPX
  deriving DecidableEq

structure Listener where
  port : Int
  listenBacklog : UInt16
  flags : ListenerFlags

/-- What the configuration parser has read of a listener. `varPort` is the text
that `c_str()` passes on. -/
structure ListenerConfig where
  varPort : Octets
  varListenBacklog : UInt16
  flags : ListenerFlags

/-! ## Numbers -/

/-- The value of a digit in a base of up to 36, and 36 when it is none. -/
def digitValue (c : UInt8) : Nat :=
  if 0x30 ≤ c ∧ c ≤ 0x39 then c.toNat - 0x30
  else if 0x41 ≤ c ∧ c ≤ 0x5A then c.toNat - 0x37
  else if 0x61 ≤ c ∧ c ≤ 0x7A then c.toNat - 0x57
  else 36

/-- The base that the prefix of a number tells, and the text after the prefix. -/
def splitBase : Octets → Nat × Octets
  | 0x30 :: x :: c :: rest => if (x = 0x78 ∨ x = 0x58) ∧ digitValue c < 16 then (16, c :: rest) else (8, 0x30 :: x :: c :: rest)
  | 0x30 :: rest => (8, 0x30 :: rest)
  | text => (10, text)

/-- `strtol` with base 0: the number at the start of the text, with a `long` of 64
bits at whose ends it stops, and the text from where the number ends. -/
def strtol (text : Octets) : Int × Octets :=
  let start := text.dropWhile LangTags.isSpaceOctet
  let negative := start.head? = some 0x2D
  let (base, digits) := splitBase (if negative ∨ start.head? = some 0x2B then start.tail else start)
  let number := digits.takeWhile (digitValue · < base)
  let value := number.foldl (fun (value : Int) c => value * base + digitValue c) 0
  if number = [] then (0, text)
  else
    (max Int64.minValue.toInt (min Int64.maxValue.toInt (if negative then -value else value)),
     digits.dropWhile (digitValue · < base))

namespace ListenerConfig

/-! ## Opening -/

def tcpProtocolName : Octets := octets "TCP"

/-- The entry is of the protocol, and has the name as its own or as an alias. -/
def isFor (varPort : Octets) (entry : Servent) : Bool :=
  sameIgnoringCase entry.s_proto tcpProtocolName &&
    (sameIgnoringCase entry.s_name varPort || entry.s_aliases.any (sameIgnoringCase · varPort))

/-- The loop over `getservent()`: the port, and what is left of the services
unless they have run out. The port may have been set before. -/
def findService (varPort : Octets) (port : Int) : List Servent → Int × Option (List Servent)
  | [] => (port, none)
  | entry :: services =>
    let port : Int := if isFor varPort entry then entry.s_port.toNat else port
    if port > 0 then (port, some services) else findService varPort port services

/-- What the loop of `classHandler` has done. -/
structure Opening where
  /-- The ports that `setupSocket` was called with, in order. -/
  attempts : List Int := []
  listeners : List Listener
  errString : Octets
  manyErrors : UInt32 := 0

section
-- the n-th call of `setupSocket` fails with the text, or works
variable (setupSocket : Nat → Option Octets) (config : ListenerConfig)

/-- The loop of `classHandler` when names are looked up, for some rounds. -/
def openServices : Nat → Int → List Servent → Opening → Option Opening
  | 0, _, _, _ => none
  | rounds + 1, port, services, s =>
    match findService config.varPort port services with
    | (_, none) => some s
    | (port, some services) =>
      match setupSocket s.attempts.length with
      | some errString =>
        openServices rounds port services
          { s with attempts := s.attempts ++ [port], errString, manyErrors := s.manyErrors + 1 }
      | none =>
        openServices rounds (-2) services
          { s with
            attempts := s.attempts ++ [port]
            listeners := ⟨port, config.varListenBacklog, config.flags⟩ :: s.listeners }

/-- The `int` that `strtol` is stored in. -/
def startPort (varPort : Octets) : Int := (BitVec.ofInt 32 (strtol varPort).1).toInt

/-- `ListenerConfig::classHandler` from the port on, with `none` when it has not
returned after so many rounds of its loop. -/
def classHandler (domainType : DomainType) (services : List Servent) (rounds : Nat) (s : Opening) :
    Option (Bool × Opening) :=
  let port := startPort config.varPort
  if (strtol config.varPort).2 ≠ [] then
    if domainType = .DOMAIN_IPX then
      some (false, { s with errString := octets "Unable to look up the given port name, you must specify a number" })
    else
      (openServices setupSocket config rounds port services s).map fun s =>
        if s.manyErrors > 1 then
          (false, { s with errString := octets "There are some errors, some or all ports many not have been opened." })
        else if s.manyErrors = 1 then (false, s)
        else (true, s)
  else if port ≤ 0 then
    some (false, { s with errString := octets "Invalid port number \x27" ++ config.varPort ++ octets "\x27" })
  else
    match setupSocket s.attempts.length with
    | some errString => some (false, { s with attempts := s.attempts ++ [port], errString })
    | none =>
      some (true, { s with
        attempts := s.attempts ++ [port]
        listeners := ⟨port, config.varListenBacklog, config.flags⟩ :: s.listeners })

end

/-! ## One entry after the other -/

section
variable {setupSocket : Nat → Option Octets} {config : ListenerConfig} {varPort : Octets}

/-- The ports tried for the services from an entry on, when a port has been set
and `n` sockets have been set up before. -/
def tried (setupSocket : Nat → Option Octets) (varPort : Octets) : Int → Nat → List Servent → List Int
  | _, _, [] => []
  | port, n, entry :: services =>
    let port : Int := if isFor varPort entry then entry.s_port.toNat else port
    if port > 0 then
      port :: tried setupSocket varPort (if (setupSocket n).isSome then port else -2) (n + 1) services
    else tried setupSocket varPort port n services

/-- How many of the sockets from the n-th on cannot be set up. -/
def failures (setupSocket : Nat → Option Octets) (n count : Nat) : Nat :=
  (List.range' n count).countP fun i => (setupSocket i).isSome

theorem failures_succ (n count : Nat) :
    failures setupSocket n (count + 1) = failures setupSocket (n + 1) count + if (setupSocket n).isSome then 1 else 0 :=
  List.countP_cons

/-- The loop ends with the services, and passes over each once. -/
theorem openServices_eq {services : List Servent} {rounds : Nat} (hrounds : services.length < rounds) (port : Int)
    (s : Opening) : ∃ s', openServices setupSocket config rounds port services s = some s' ∧
      s'.attempts = s.attempts ++ tried setupSocket config.varPort port s.attempts.length services ∧
      s'.manyErrors = s.manyErrors + .ofNat (failures setupSocket s.attempts.length
        (tried setupSocket config.varPort port s.attempts.length services).length) := by
  induction services generalizing rounds port s with
  | nil =>
    obtain ⟨rounds, rfl⟩ := Nat.exists_eq_add_one.2 (Nat.zero_lt_of_lt hrounds)
    exact ⟨s, rfl, (List.append_nil _).symm, (UInt32.add_zero _).symm⟩
  | cons entry services ih =>
    obtain ⟨rounds, rfl⟩ := Nat.exists_eq_add_one.2 (Nat.zero_lt_of_lt hrounds)
    rw [List.length_cons] at hrounds
    rw [openServices, findService, tried]
    generalize (if isFor config.varPort entry then (entry.s_port.toNat : Int) else port) = port'
    by_cases hport : port' > 0
    · rw [if_pos hport, if_pos hport, List.length_cons, failures_succ]
      cases hsetup : setupSocket s.attempts.length with
      | none =>
        obtain ⟨s', hs', hattempts, herrors⟩ := @ih rounds (by omega) (-2) { s with
          attempts := s.attempts ++ [port']
          listeners := ⟨port', config.varListenBacklog, config.flags⟩ :: s.listeners }
        rw [List.length_append, List.length_singleton] at hattempts herrors
        refine ⟨s', hs', ?_, ?_⟩
        · rw [hattempts]
          simp
        · rw [herrors]
          simp
      | some errString =>
        obtain ⟨s', hs', hattempts, herrors⟩ := @ih rounds (by omega) port'
          { s with attempts := s.attempts ++ [port'], errString, manyErrors := s.manyErrors + 1 }
        rw [List.length_append, List.length_singleton] at hattempts herrors
        refine ⟨s', hs', ?_, ?_⟩
        · rw [hattempts]
          simp
        · rw [herrors, Option.isSome_some, if_pos rfl, if_pos rfl, UInt32.ofNat_add, UInt32.add_assoc,
            UInt32.add_comm 1]
          rfl
    · rw [if_neg hport, if_neg hport]
      have hrest := @ih (rounds + 1) (by omega) port' s
      rw [openServices] at hrest
      exact hrest

/-- Only ports above 0 are tried. -/
theorem pos_of_mem_tried {port : Int} {n : Nat} {services : List Servent} :
    ∀ p ∈ tried setupSocket varPort port n services, 0 < p := by
  fun_induction tried setupSocket varPort port n services with
  | case1 => exact fun _ hp => nomatch hp
  | case2 port n entry services port' hport ih => exact List.forall_mem_cons.2 ⟨hport, ih⟩
  | case3 port n entry services port' hport ih => exact ih

theorem zero_not_mem_tried {port : Int} {n : Nat} {services : List Servent} :
    0 ∉ tried setupSocket varPort port n services :=
  fun h => Int.lt_irrefl 0 (pos_of_mem_tried 0 h)

/-- The ports that should be tried. -/
def portsFor (varPort : Octets) (services : List Servent) : List Int :=
  (services.filter (isFor varPort)).map fun entry => (entry.s_port.toNat : Int)

theorem portsFor_cons_pos {entry : Servent} (hfor : isFor varPort entry = true) (services : List Servent) :
    portsFor varPort (entry :: services) = (entry.s_port.toNat : Int) :: portsFor varPort services := by
  rw [portsFor, List.filter_cons_of_pos hfor, List.map_cons]
  rfl

theorem portsFor_cons_neg {entry : Servent} (hfor : ¬ isFor varPort entry = true) (services : List Servent) :
    portsFor varPort (entry :: services) = portsFor varPort services := by
  rw [portsFor, List.filter_cons_of_neg hfor]
  rfl

theorem port_pos {entry : Servent} (hport : entry.s_port ≠ 0) : 0 < (entry.s_port.toNat : Int) := by
  have hne : entry.s_port.toNat ≠ 0 := fun h0 => hport (UInt16.toNat_inj.1 h0)
  omega

/-- Ports above 0 that should be tried are. -/
theorem length_portsFor_le {port : Int} {n : Nat} {services : List Servent} (h : 0 ∉ portsFor varPort services) :
    (portsFor varPort services).length ≤ (tried setupSocket varPort port n services).length := by
  fun_induction tried setupSocket varPort port n services with
  | case1 => exact Nat.le_refl _
  | case2 port n entry services port' hport ih =>
    by_cases hfor : isFor varPort entry = true
    · rw [portsFor_cons_pos hfor] at h ⊢
      exact Nat.succ_le_succ (ih fun h0 => h (List.mem_cons_of_mem _ h0))
    · rw [portsFor_cons_neg hfor] at h ⊢
      exact Nat.le_succ_of_le (ih h)
  | case3 port n entry services port' hport ih =>
    by_cases hfor : isFor varPort entry = true
    · have hzero : (entry.s_port.toNat : Int) = 0 := by
        simp only [port', hfor, if_true] at hport
        omega
      rw [portsFor_cons_pos hfor, hzero] at h
      exact absurd List.mem_cons_self h
    · rw [portsFor_cons_neg hfor] at h ⊢
      exact ih h

/-- No port is left set where an entry is not for the name: not by the number at
the start of the name, and not by a socket that cannot be set up. -/
structure Undisturbed (setupSocket : Nat → Option Octets) (varPort : Octets) (port : Int) (n : Nat)
    (services : List Servent) : Prop where
  ports : ∀ entry ∈ services, isFor varPort entry = true → entry.s_port ≠ 0
  first : port ≤ 0 ∨ ∀ entry ∈ services.head?, isFor varPort entry = true
  next : ∀ before entry next after, services = before ++ entry :: next :: after → isFor varPort entry = true →
    (setupSocket (n + before.countP (isFor varPort))).isSome = true → isFor varPort next = true

theorem undisturbed_cons_pos {port : Int} {n : Nat} {entry : Servent} {services : List Servent}
    (hfor : isFor varPort entry = true) : Undisturbed setupSocket varPort port n (entry :: services) ↔
      entry.s_port ≠ 0 ∧
        Undisturbed setupSocket varPort (if (setupSocket n).isSome then entry.s_port.toNat else -2) (n + 1) services := by
  constructor
  · intro h
    refine ⟨h.ports entry List.mem_cons_self hfor, ?_, ?_, ?_⟩
    · exact fun e he => h.ports e (List.mem_cons_of_mem _ he)
    · split_ifs with hfails
      · right
        intro next hnext
        obtain ⟨after, rfl⟩ := List.head?_eq_some_iff.1 hnext
        exact h.next [] entry next after rfl hfor hfails
      · exact .inl (by decide)
    · intro before e next after hsplit he hfails
      apply h.next (entry :: before) e next after (by rw [hsplit, List.cons_append]) he
      rwa [List.countP_cons_of_pos hfor, Nat.add_comm _ 1, ← Nat.add_assoc]
  · rintro ⟨hport, h⟩
    refine ⟨?_, .inr ?_, ?_⟩
    · exact List.forall_mem_cons.2 ⟨fun _ => hport, h.ports⟩
    · rintro e ⟨⟩
      exact hfor
    · rintro (_ | ⟨first, before⟩) e next after hsplit he hfails
      · obtain ⟨rfl, rfl⟩ := List.cons.inj hsplit
        have hfirst := h.first
        rw [if_pos (show (setupSocket n).isSome = true from hfails)] at hfirst
        exact hfirst.resolve_left (Int.not_le.2 (port_pos hport)) next rfl
      · obtain ⟨rfl, rfl⟩ := List.cons.inj hsplit
        apply h.next before e next after rfl he
        rwa [List.countP_cons_of_pos hfor, Nat.add_comm _ 1, ← Nat.add_assoc] at hfails

theorem undisturbed_cons_neg {port : Int} {n : Nat} {entry : Servent} {services : List Servent}
    (hfor : ¬ isFor varPort entry = true) : Undisturbed setupSocket varPort port n (entry :: services) ↔
      port ≤ 0 ∧ Undisturbed setupSocket varPort port n services := by
  constructor
  · intro h
    have hport : port ≤ 0 := h.first.resolve_right fun hhead => hfor (hhead entry rfl)
    refine ⟨hport, fun e he => h.ports e (List.mem_cons_of_mem _ he), .inl hport, ?_⟩
    intro before e next after hsplit he hfails
    apply h.next (entry :: before) e next after (by rw [hsplit, List.cons_append]) he
    rwa [List.countP_cons_of_neg hfor]
  · rintro ⟨hport, h⟩
    refine ⟨List.forall_mem_cons.2 ⟨fun he => absurd he hfor, h.ports⟩, .inl hport, ?_⟩
    rintro (_ | ⟨first, before⟩) e next after hsplit he hfails
    · obtain ⟨rfl, -⟩ := List.cons.inj hsplit
      exact absurd he hfor
    · obtain ⟨rfl, rfl⟩ := List.cons.inj hsplit
      apply h.next before e next after rfl he
      rwa [List.countP_cons_of_neg hfor] at hfails

theorem tried_eq_iff {port : Int} {n : Nat} {services : List Servent} :
    tried setupSocket varPort port n services = portsFor varPort services ↔
      Undisturbed setupSocket varPort port n services := by
  induction services generalizing port n with
  | nil => exact iff_of_true rfl ⟨nofun, .inr nofun, fun before _ _ _ h => by simp at h⟩
  | cons entry services ih =>
    by_cases hfor : isFor varPort entry = true
    · rw [undisturbed_cons_pos hfor, ← ih, tried, if_pos hfor, portsFor_cons_pos hfor]
      by_cases hport : entry.s_port = 0
      · apply iff_of_false _ fun h => h.1 hport
        -- 0 is not tried
        intro h
        rw [hport] at h
        apply zero_not_mem_tried
        rw [show tried setupSocket varPort 0 n services = _ from h]
        exact List.mem_cons_self
      · rw [if_pos (port_pos hport), List.cons_inj_right, and_iff_right hport]
    · rw [undisturbed_cons_neg hfor, ← ih, tried, if_neg hfor, portsFor_cons_neg hfor]
      by_cases hport : port > 0
      · rw [if_pos hport]
        apply iff_of_false _ fun h => absurd h.1 (Int.not_le.2 hport)
        -- one port more than there should be
        intro h
        have hzero : 0 ∉ portsFor varPort services := by
          rw [← h, List.mem_cons, not_or]
          exact ⟨Int.ne_of_lt hport, zero_not_mem_tried⟩
        have hlength := congrArg List.length h
        have hle := @length_portsFor_le setupSocket varPort (if (setupSocket n).isSome then port else -2) (n + 1) services
          hzero
        rw [List.length_cons] at hlength
        omega
      · rw [if_neg hport, and_iff_right (Int.not_lt.1 hport)]

/-! ## Names -/

/-- The text is a number from its start to its end. -/
def IsNumber (varPort : Octets) : Prop := varPort ≠ [] ∧ (strtol varPort).2 = []

/-- The handler ends, tries the ports of the service in order, and fails when
one of them cannot be set up. -/
def OpensService (setupSocket : Nat → Option Octets) (config : ListenerConfig) (domainType : DomainType)
    (services : List Servent) (listeners : List Listener) (errString : Octets) : Prop :=
  ∀ rounds, services.length < rounds → ∃ result s,
    classHandler setupSocket config domainType services rounds { listeners, errString } = some (result, s) ∧
    s.attempts = portsFor config.varPort services ∧
    (result = false ↔ ∃ n < s.attempts.length, (setupSocket n).isSome = true)

theorem failures_pos_iff {count : Nat} :
    failures setupSocket 0 count ≠ 0 ↔ ∃ n < count, (setupSocket n).isSome = true := by
  rw [failures, ← Nat.pos_iff_ne_zero, List.countP_pos_iff]
  simp [List.mem_range'_1]

theorem ofNat_eq_zero_iff (n : Nat) : UInt32.ofNat n = 0 ↔ 2 ^ 32 ∣ n := by
  rw [← UInt32.toNat_inj, UInt32.toNat_ofNat', Nat.dvd_iff_mod_eq_zero]
  rfl

/-- A name is looked up to the end of the services. -/
theorem classHandler_named {domainType : DomainType} {services : List Servent} {rounds : Nat}
    (hname : (strtol config.varPort).2 ≠ []) (hdomain : domainType ≠ .DOMAIN_IPX) (hrounds : services.length < rounds)
    (listeners : List Listener) (errString : Octets) :
    ∃ s, classHandler setupSocket config domainType services rounds { listeners, errString } =
        some (decide (s.manyErrors = 0), s) ∧
      s.attempts = tried setupSocket config.varPort (startPort config.varPort) 0 services ∧
      s.manyErrors = .ofNat (failures setupSocket 0 s.attempts.length) := by
  obtain ⟨s, hs, hattempts, herrors⟩ :=
    @openServices_eq setupSocket config services rounds hrounds (startPort config.varPort) { listeners, errString }
  rw [List.nil_append] at hattempts
  rw [UInt32.zero_add] at herrors
  rw [← hattempts] at herrors
  simp only [classHandler]
  rw [if_pos hname, if_neg hdomain, hs, Option.map_some]
  split_ifs with hmany hone
  · have hne : s.manyErrors ≠ 0 := by grind
    exact ⟨{ s with errString := octets "There are some errors, some or all ports many not have been opened." },
      by simp only [decide_eq_false hne], hattempts, herrors⟩
  · have hne : s.manyErrors ≠ 0 := by rw [hone]; decide
    exact ⟨s, by rw [decide_eq_false hne], hattempts, herrors⟩
  · have hzero : s.manyErrors = 0 := by grind
    exact ⟨s, by rw [decide_eq_true hzero], hattempts, herrors⟩

/-- The result tells of the failures as long as their counter does not come round to 0. -/
theorem result_iff {manyErrors : UInt32} {count : Nat} (h : manyErrors = .ofNat (failures setupSocket 0 count)) :
    (decide (manyErrors = 0) = false ↔ ∃ n < count, (setupSocket n).isSome = true) ↔
      (2 ^ 32 ∣ failures setupSocket 0 count → failures setupSocket 0 count = 0) := by
  rw [decide_eq_false_iff_not, h, ofNat_eq_zero_iff, ← failures_pos_iff, not_iff_not]
  constructor
  · exact fun hiff => hiff.1
  · intro hdvd
    refine ⟨hdvd, ?_⟩
    intro h0
    rw [h0]
    exact Nat.dvd_zero _

/-- A port refused before any try tells of a failure where there was none. -/
theorem not_opensService_of_refused {domainType : DomainType} {services : List Servent} {listeners : List Listener}
    {errString : Octets} (h : ∀ rounds, ∃ complaint, classHandler setupSocket config domainType services rounds
      { listeners, errString } = some (false, { listeners, errString := complaint })) :
    ¬ OpensService setupSocket config domainType services listeners errString := by
  intro hopens
  obtain ⟨result, s, hs, -, hresult⟩ := hopens _ (Nat.lt_succ_self _)
  obtain ⟨complaint, hrefused⟩ := h (services.length + 1)
  rw [hrefused] at hs
  cases hs
  obtain ⟨n, hn, -⟩ := hresult.1 rfl
  cases hn

/-- A name opens its service exactly on a listener that takes names, when no port
is left set where an entry is not for the name. -/
theorem opensService_iff (setupSocket : Nat → Option Octets) (config : ListenerConfig) (domainType : DomainType)
    (services : List Servent) (listeners : List Listener) (errString : Octets) (h : ¬ IsNumber config.varPort) :
    OpensService setupSocket config domainType services listeners errString ↔
      domainType ≠ .DOMAIN_IPX ∧ config.varPort ≠ [] ∧
        Undisturbed setupSocket config.varPort (startPort config.varPort) 0 services ∧
        (2 ^ 32 ∣ failures setupSocket 0 (services.countP (isFor config.varPort)) →
          failures setupSocket 0 (services.countP (isFor config.varPort)) = 0) := by
  by_cases hnone : config.varPort = []
  · -- an empty name is refused as a number
    apply iff_of_false _ fun h => h.2.1 hnone
    have hend : (strtol config.varPort).2 = [] := by rw [hnone]; rfl
    have hport : startPort config.varPort ≤ 0 := by rw [hnone]; decide
    apply not_opensService_of_refused
    intro rounds
    simp only [classHandler]
    exact ⟨_, by rw [if_neg (not_not.2 hend), if_pos hport]⟩
  · have hname : (strtol config.varPort).2 ≠ [] := fun hend => h ⟨hnone, hend⟩
    by_cases hdomain : domainType = .DOMAIN_IPX
    · apply iff_of_false _ fun h => h.1 hdomain
      apply not_opensService_of_refused
      intro rounds
      simp only [classHandler]
      exact ⟨_, by rw [if_pos hname, if_pos hdomain]⟩
    · rw [and_iff_right hdomain, and_iff_right hnone, ← tried_eq_iff]
      have hcount : (portsFor config.varPort services).length = services.countP (isFor config.varPort) := by
        rw [portsFor, List.length_map, List.countP_eq_length_filter]
      constructor
      · intro hopens
        obtain ⟨result, s, hs, hattempts, hresult⟩ := hopens _ (Nat.lt_succ_self _)
        obtain ⟨s', hs', htried, herrors⟩ := @classHandler_named setupSocket config domainType services _ hname hdomain
          (Nat.lt_succ_self _) listeners errString
        rw [hs] at hs'
        cases hs'
        rw [result_iff herrors, hattempts, hcount] at hresult
        exact ⟨htried.symm.trans hattempts, hresult⟩
      · rintro ⟨htried, hfailures⟩ rounds hrounds
        obtain ⟨s, hs, hattempts, herrors⟩ := @classHandler_named setupSocket config domainType services _ hname hdomain
          hrounds listeners errString
        rw [htried] at hattempts
        refine ⟨_, s, hs, hattempts, ?_⟩
        rw [result_iff herrors, hattempts, hcount]
        exact hfailures

/-- Two services of the system. -/
def sampleServices : List Servent :=
  [⟨octets "tcp", octets "ircd", [octets "irc"], 6667⟩, ⟨octets "udp", octets "talk", [], 517⟩]

def sampleConfig (varPort : String) : ListenerConfig := ⟨octets varPort, 5, .all⟩

theorem opensService_irc : ¬ IsNumber (sampleConfig "IRC").varPort ∧
    (OpensService (fun _ => none) (sampleConfig "IRC") .DOMAIN_IPV4 sampleServices [] [] ↔
      DomainType.DOMAIN_IPV4 ≠ .DOMAIN_IPX ∧ (sampleConfig "IRC").varPort ≠ [] ∧
        Undisturbed (fun _ => none) (sampleConfig "IRC").varPort (startPort (sampleConfig "IRC").varPort) 0 sampleServices ∧
        (2 ^ 32 ∣ failures (fun _ => none) 0 (sampleServices.countP (isFor (sampleConfig "IRC").varPort)) →
          failures (fun _ => none) 0 (sampleServices.countP (isFor (sampleConfig "IRC").varPort)) = 0)) := by
  have hname : ¬ IsNumber (sampleConfig "IRC").varPort := fun h => absurd h.2 (by decide)
  exact ⟨hname, opensService_iff (fun _ => none) (sampleConfig "IRC") .DOMAIN_IPV4 sampleServices [] [] hname⟩

/-- When the port of the service is taken, it is tried again for the service after it. -/
theorem not_opensService_taken :
    ¬ OpensService (fun _ => some (octets "in use")) (sampleConfig "irc") .DOMAIN_IPV4 sampleServices [] [] := by
  intro h
  obtain ⟨result, s, hs, hattempts, -⟩ := h 3 (by decide)
  have hrun : (classHandler (fun _ => some (octets "in use")) (sampleConfig "irc") .DOMAIN_IPV4 sampleServices 3
      { listeners := [], errString := [] }).map (fun r => r.2.attempts) = some [6667, 6667] := by decide
  rw [hs, Option.map_some, hattempts] at hrun
  exact absurd hrun (by decide)

end

end ListenerConfig

end KineIRCd

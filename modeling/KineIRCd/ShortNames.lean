import KineIRCd.UserAccesses
import KineIRCd.Lib.Abbreviations
import Mathlib.Data.List.Find
import Mathlib.Data.List.TakeWhile
/-!
# Names cut short

STATS takes the beginning of a command's name for the command, if it has enough
characters, and so does the configuration with the names in it. How many are
enough is written in the table of commands, and computed for the configuration.
-/
namespace KineIRCd

open Abbreviations

/-! ## Names in the configuration -/

namespace Config

/-- `examineNames` for two names. `substring` fails past the end of either. -/
def examineNames (name defName : Octets) (charCount : Nat) : Option Nat :=
  if h : charCount ≤ name.length ∧ charCount ≤ defName.length then
    if name.take charCount = defName.take charCount then examineNames name defName (charCount + 1) else some charCount
  else none
termination_by name.length + 1 - charCount

/-- `calcDefChars`: how many characters a name of the list `defList` needs. AutoGen's
`=` compares strings, too. -/
def calcDefChars (defList : List Octets) (defName : Octets) : Option Nat :=
  defList.foldlM (fun charCount name =>
    if charCount ≤ name.length ∧ name ≠ defName then examineNames name defName charCount else some charCount) 1

section
variable {name defName other : Octets} {charCount n : Nat} {defList front back : List Octets}

theorem examineNames_some (h : examineNames name defName charCount = some n) :
    charCount ≤ n ∧ n ≤ defName.length ∧ name.take n ≠ defName.take n ∧
      ∀ k, charCount ≤ k → k < n → name.take k = defName.take k := by
  fun_induction examineNames name defName charCount with
  | case1 charCount hlength hsame ih =>
    obtain ⟨hle, hdef, hne, hall⟩ := ih h
    refine ⟨by omega, hdef, hne, fun k hk hkn => ?_⟩
    rcases Nat.eq_or_lt_of_le hk with rfl | hlt
    · exact hsame
    · exact hall k hlt hkn
  | case2 charCount hlength hdiffer =>
    cases h
    exact ⟨Nat.le_refl _, hlength.2, hdiffer, fun k hk hkn => by omega⟩
  | case3 => cases h

/-- It finds no end when one name is the beginning of the other. -/
theorem examineNames_of_prefix (h : name <+: defName ∨ defName <+: name) (charCount : Nat) :
    examineNames name defName charCount = none := by
  fun_induction examineNames name defName charCount with
  | case1 charCount hlength hsame ih => exact ih
  | case2 charCount hlength hdiffer =>
    refine absurd ?_ hdiffer
    rcases h with ⟨rest, rfl⟩ | ⟨rest, rfl⟩
    · exact (List.take_append_of_le_length hlength.1).symm
    · exact List.take_append_of_le_length hlength.2
  | case3 => rfl

theorem prefix_of_examineNames (hname : charCount ≤ name.length) (hdef : charCount ≤ defName.length)
    (h : examineNames name defName charCount = none) : name <+: defName ∨ defName <+: name := by
  fun_induction examineNames name defName charCount with
  | case1 charCount hlength hsame ih =>
    by_cases hnext : charCount + 1 ≤ name.length ∧ charCount + 1 ≤ defName.length
    · exact ih hnext.1 hnext.2 h
    · -- the next character is past the end of one of them
      by_cases hend : name.length = charCount
      · rw [← hend, List.take_length] at hsame
        exact .inl (hsame ▸ List.take_prefix _ _)
      · have hend' : defName.length = charCount := by omega
        rw [← hend', List.take_length] at hsame
        exact .inr (hsame ▸ List.take_prefix _ _)
  | case2 => cases h
  | case3 charCount hlength => exact absurd ⟨hname, hdef⟩ hlength

/-- Some name makes the computation fail: one that begins with `defName`, or one that
`defName` begins with and none before it in the list does. -/
def Clashes (defList : List Octets) (defName : Octets) : Prop :=
  ∃ front name back, defList = front ++ name :: back ∧ name ≠ [] ∧ name ≠ defName ∧
    (defName <+: name ∨ name <+: defName ∧ ∀ earlier ∈ front, earlier ≠ defName → ¬ name <+: earlier)

theorem clashes_concat : Clashes (front ++ [name]) defName ↔ Clashes front defName ∨ (name ≠ [] ∧ name ≠ defName ∧
    (defName <+: name ∨ name <+: defName ∧ ∀ earlier ∈ front, earlier ≠ defName → ¬ name <+: earlier)) := by
  constructor
  · rintro ⟨front', name', back, e, h⟩
    rcases List.eq_nil_or_concat' back with rfl | ⟨back, last, rfl⟩
    · obtain ⟨rfl, hlast⟩ := List.append_inj' e rfl
      obtain rfl := (List.cons.inj hlast).1
      exact .inr h
    · left
      rw [← List.cons_append, ← List.append_assoc] at e
      obtain ⟨rfl, -⟩ := List.append_inj' e rfl
      exact ⟨front', name', back, rfl, h⟩
  · rintro (⟨front', name', back, rfl, h⟩ | h)
    · exact ⟨front', name', back ++ [name], by simp, h⟩
    · exact ⟨front, name, [], rfl, h⟩

/-- How many characters tell `defName` apart, from one up. -/
def Enough (defList : List Octets) (defName : Octets) : Set Nat := {k | 1 ≤ k ∧ TellsApart defList defName k}

theorem mem_enough_concat {k : Nat} : k ∈ Enough (front ++ [name]) defName ↔
    k ∈ Enough front defName ∧ (name ≠ defName → name.take k ≠ defName.take k) := by
  simp only [Enough, TellsApart, Set.mem_ofPred_eq, List.mem_append, List.mem_singleton]
  grind

/-- A name that is too short is told apart by its length. -/
theorem take_ne_of_short (hshort : name.length < n) (hne : name ≠ defName) : name.take n ≠ defName.take n := by
  intro e
  have hlength := congrArg List.length e
  rw [List.length_take, List.length_take] at hlength
  rw [List.take_of_length_le (by omega), List.take_of_length_le (by omega)] at e
  exact hne e

/-- No name in the list that is told apart begins with one that has enough characters. -/
theorem not_prefix_of_enough (hn : n ∈ Enough front defName) (hbegins : name <+: defName) (hlength : n ≤ name.length)
    {earlier : Octets} (hmem : earlier ∈ front) (hne : earlier ≠ defName) : ¬ name <+: earlier :=
  fun h => hn.2.mono hlength earlier hmem hne ((take_eq_iff_begins hbegins).2 h)

theorem calcDefChars_concat (front : List Octets) (name defName : Octets) : calcDefChars (front ++ [name]) defName =
    (calcDefChars front defName).bind fun charCount =>
      if charCount ≤ name.length ∧ name ≠ defName then examineNames name defName charCount else some charCount := by
  rw [calcDefChars, List.foldlM_append]
  simp only [List.foldlM_cons, List.foldlM_nil, bind_pure]
  rfl

/-- One more name is examined. -/
theorem examineNames_spec (hn : IsLeast (Enough front defName) n) (hbound : n ≤ defName.length ∨ n = 1)
    (hlength : n ≤ name.length) (hne : name ≠ defName) :
    (examineNames name defName n = none ↔
      defName <+: name ∨ name <+: defName ∧ ∀ earlier ∈ front, earlier ≠ defName → ¬ name <+: earlier) ∧
    ∀ k, examineNames name defName n = some k →
      IsLeast (Enough (front ++ [name]) defName) k ∧ (k ≤ defName.length ∨ k = 1) := by
  refine ⟨⟨fun hnone => ?_, fun h => examineNames_of_prefix (h.symm.imp_left And.left) n⟩, fun k hk => ?_⟩
  · by_cases hdef : n ≤ defName.length
    · rcases prefix_of_examineNames hlength hdef hnone with h | h
      · exact .inr ⟨h, fun earlier hmem => not_prefix_of_enough hn.1 h hlength hmem⟩
      · exact .inl h
    · -- the empty name
      have hempty : defName = [] := List.length_eq_zero_iff.1 (by omega)
      exact .inl (hempty ▸ List.nil_prefix)
  · obtain ⟨hle, hdef, hdiffer, hsame⟩ := examineNames_some hk
    refine ⟨⟨mem_enough_concat.2 ⟨⟨hn.1.1.trans hle, hn.1.2.mono hle⟩, fun _ => hdiffer⟩, fun j hj => ?_⟩, .inl hdef⟩
    obtain ⟨hfront, hother⟩ := mem_enough_concat.1 hj
    by_contra hlt
    exact hother hne (hsame j (hn.2 hfront) (by omega))

/-- A name that is not examined changes nothing. -/
theorem enough_of_short (hn : IsLeast (Enough front defName) n) (h : ¬ (n ≤ name.length ∧ name ≠ defName)) :
    IsLeast (Enough (front ++ [name]) defName) n := by
  refine ⟨mem_enough_concat.2 ⟨hn.1, fun hne => take_ne_of_short ?_ hne⟩, fun k hk => hn.2 (mem_enough_concat.1 hk).1⟩
  by_contra hlength
  exact h ⟨by omega, hne⟩

theorem not_clash_of_short (hn : IsLeast (Enough front defName) n) (hbound : n ≤ defName.length ∨ n = 1)
    (hshort : name.length < n) (hname : name ≠ []) :
    ¬ (defName <+: name ∨ name <+: defName ∧ ∀ earlier ∈ front, earlier ≠ defName → ¬ name <+: earlier) := by
  have hpos := List.length_pos_iff.2 hname
  rintro (h | ⟨h, hnone⟩)
  · have hle := h.length_le
    omega
  · -- then the length of the name would be enough
    have hmem : name.length ∈ Enough front defName :=
      ⟨hpos, fun earlier hearlier hne e => hnone earlier hearlier hne ((take_eq_iff_begins h).1 e)⟩
    have hle := hn.2 hmem
    omega

end

/-- The number computed for a name is the least that tells it from the others in
the list. There is none exactly if the name clashes with one of them. -/
theorem calcDefChars_cases (defList : List Octets) (defName : Octets) :
    (calcDefChars defList defName = none ↔ Clashes defList defName) ∧
      ∀ n, calcDefChars defList defName = some n → IsLeast (Enough defList defName) n := by
  suffices h : (calcDefChars defList defName = none ↔ Clashes defList defName) ∧
      ∀ n, calcDefChars defList defName = some n → IsLeast (Enough defList defName) n ∧ (n ≤ defName.length ∨ n = 1) from
    ⟨h.1, fun n hn => (h.2 n hn).1⟩
  induction defList using List.reverseRecOn with
  | nil =>
    refine ⟨iff_of_false nofun ?_, ?_⟩
    · rintro ⟨front, name, back, e, -⟩
      simp at e
    · rintro n h
      cases h
      exact ⟨⟨⟨Nat.le_refl _, nofun⟩, fun k hk => hk.1⟩, .inr rfl⟩
  | append_singleton front name ih =>
    obtain ⟨ihnone, ihsome⟩ := ih
    rw [calcDefChars_concat, clashes_concat]
    cases hfront : calcDefChars front defName with
    | none => exact ⟨iff_of_true rfl (.inl (ihnone.1 hfront)), nofun⟩
    | some n =>
      obtain ⟨hn, hbound⟩ := ihsome n hfront
      have hclash : ¬ Clashes front defName := fun h => by
        rw [ihnone.2 h] at hfront
        cases hfront
      rw [Option.bind_some, or_iff_right hclash]
      split_ifs with hexamine
      · obtain ⟨hnone, hsome⟩ := examineNames_spec hn hbound hexamine.1 hexamine.2
        have hname : name ≠ [] := List.length_pos_iff.1 (hn.1.1.trans hexamine.1)
        rw [and_iff_right hname, and_iff_right hexamine.2]
        exact ⟨hnone, hsome⟩
      · refine ⟨iff_of_false nofun ?_, ?_⟩
        · rintro ⟨hname, hne, h⟩
          exact not_clash_of_short hn hbound (by by_contra hlength; exact hexamine ⟨by omega, hne⟩) hname h
        · rintro k hk
          cases hk
          exact ⟨enough_of_short hn hexamine, hbound⟩

/-- With the numbers computed for a table, no request is an abbreviation of two of
its names, and the numbers are the least that do it. A name has no number
exactly if it clashes with another. -/
theorem calcDefChars_tells (defList : List Octets) :
    (∀ defName, (calcDefChars defList defName = none ↔ Clashes defList defName) ∧
      ∀ n, calcDefChars defList defName = some n → IsLeast (Enough defList defName) n) ∧
    ∀ name ∈ defList, ∀ other ∈ defList, ∀ m n request, calcDefChars defList name = some m →
      calcDefChars defList other = some n → Abbreviates m name request → Abbreviates n other request → other = name := by
  refine ⟨calcDefChars_cases defList, ?_⟩
  intro name _ other hother m n request hm _ hname hrequest
  exact ((calcDefChars_cases defList name).2 m hm).1.2.eq hother hname hrequest

/-- `MaxBans` needs more characters than it would without `MaxBanExceptions`. -/
example : calcDefChars [octets "MAXBANEXCEPTIONS", octets "MAXBANS", octets "MAXTOPICLENGTH"] (octets "MAXBANS") = some 7 := by
  decide +kernel

end Config

/-! ## Statistics -/

/-- A string as `strncmp` reads it, with the null character that ends it. One in the
string itself ends it early. -/
def throughNull (s : Octets) : Octets := s.takeWhile (· ≠ 0) ++ if 0 ∈ s then [0] else []

/-- The request, in any case, stands for the name. A null character ends the request, so
that it has to be the whole name then. -/
def Asks (minChars : Nat) (name request : Octets) : Prop := Abbreviates minChars (name ++ [0]) (throughNull (toLower request))

instance (minChars : Nat) (name request : Octets) : Decidable (Asks minChars name request) :=
  inferInstanceAs (Decidable (Abbreviates _ _ _))

namespace LibIRC2

open Irc2User (Site Self getLang)
open Irc2User.Accesses (numericLine strncmpEq)
open Numerics

/-- The functions that answer requests; what they say is a parameter. -/
inductive StatsHandler where
  | handleLanguages
  | handleListConnections
  | handleOperators
  | handleResources
  | handleUptime
  deriving DecidableEq, Repr

structure StatsCommand where
  request : Octets
  minChars : Nat
  handler : StatsHandler

def statsCommands : List StatsCommand :=
  [⟨octets "languages", 2, .handleLanguages⟩, ⟨octets "listconnections", 1, .handleListConnections⟩,
   ⟨octets "operators", 1, .handleOperators⟩, ⟨octets "resources", 1, .handleResources⟩,
   ⟨octets "uptime", 1, .handleUptime⟩]

/-- `Protocol::doSTATS`: the first command that matches answers, and the footer has the
request as it was given. -/
def doSTATS (site : Site) (self : Self) (handler : StatsHandler → World → List Octets) (request : Octets) (w : World) :
    List Octets :=
  let req := toLower request
  (match statsCommands.find? (fun command => strncmpEq req command.request (max req.length command.minChars)) with
    | some command => handler command.handler w
    | none => []) ++
    [numericLine site self RPL_ENDOFSTATS [request, getLang site self .irc2_RPL_ENDOFSTATS]]

end LibIRC2

open Irc2User.Accesses Accessing

section
variable {name r : Octets} {least : Nat}

theorem takeWhile_of_not_mem (h : 0 ∉ r) : r.takeWhile (· ≠ 0) = r :=
  List.takeWhile_eq_self_iff.2 fun x hx => by simpa using fun hzero : x = 0 => h (hzero ▸ hx)

theorem length_takeWhile_lt (h : 0 ∈ r) : (r.takeWhile (· ≠ 0)).length < r.length := by
  refine Nat.lt_of_le_of_ne (List.takeWhile_sublist _).length_le fun e => ?_
  have hall := List.takeWhile_eq_self_iff.1 ((List.takeWhile_sublist _).eq_of_length e) 0 h
  simp at hall

/-- A string that ends with a null character stands for the whole name only. -/
theorem concat_null_prefix (hname : 0 ∉ name) {s : Octets} : s ++ [0] <+: name ++ [0] ↔ s = name := by
  constructor
  · intro h
    rcases List.prefix_concat_iff.1 h with h | h
    · exact List.append_cancel_right h
    · exact absurd (h.subset (by simp)) hname
  · rintro rfl
    exact List.prefix_refl _

theorem prefix_concat_null (h : 0 ∉ r) : r <+: name ++ [0] ↔ r <+: name := by
  rw [List.prefix_concat_iff]
  refine or_iff_right ?_
  rintro rfl
  simp at h

/-- What `strncmp` compares, with as many characters as there are or as are needed. -/
theorem strncmpEq_iff (hname : 0 ∉ name) (hleast : least ≤ name.length) :
    strncmpEq r name (max r.length least) = true ↔ Abbreviates least (name ++ [0]) (throughNull r) := by
  rw [strncmpEq, decide_eq_true_iff, takeWhile_of_not_mem hname, throughNull]
  by_cases hnull : 0 ∈ r
  · have hshort := length_takeWhile_lt hnull
    rw [if_pos hnull, Abbreviates, concat_null_prefix hname, List.take_of_length_le (by omega)]
    constructor
    · intro e
      have hlength := congrArg List.length e
      rw [List.length_take] at hlength
      rw [List.take_of_length_le (by omega)] at e
      refine ⟨?_, e⟩
      rw [e, List.length_append]
      omega
    · rintro ⟨-, e⟩
      rw [e] at hshort ⊢
      rw [List.take_of_length_le (by omega)]
  · rw [if_neg hnull, List.append_nil, takeWhile_of_not_mem hnull, Abbreviates, prefix_concat_null hnull,
      List.take_of_length_le (Nat.le_max_left _ _)]
    constructor
    · intro e
      have hlength := congrArg List.length e
      rw [List.length_take] at hlength
      refine ⟨by omega, e ▸ List.take_prefix _ _⟩
    · rintro ⟨hle, hbegins⟩
      rw [Nat.max_eq_left hle]
      exact List.prefix_iff_eq_take.1 hbegins

end

/-- The requests that STATS answers, with how many characters they need: the one that
the user protocol answers itself, and those of the library. -/
def requests : List (Octets × Nat) :=
  (octets "messages", 1) :: LibIRC2.statsCommands.map fun command => (command.request, command.minChars)

/-- Any two of them differ within the characters that both need. -/
theorem requests_differ : (∀ a ∈ requests, 0 ∉ a.1 ∧ a.2 ≤ a.1.length) ∧ ∀ a ∈ requests, ∀ b ∈ requests, a.1 ≠ b.1 →
    (a.1 ++ [0]).take (max a.2 b.2) ≠ (b.1 ++ [0]).take (max a.2 b.2) := by decide +kernel

theorem asks_unique {request : Octets} {a b : Octets × Nat} (ha : a ∈ requests) (hb : b ∈ requests)
    (haskA : Asks a.2 a.1 request) (haskB : Asks b.2 b.1 request) : a.1 = b.1 := by
  by_contra hne
  exact requests_differ.2 a ha b hb hne (haskA.take_max_eq haskB)

theorem strncmpEq_asks {request : Octets} {entry : Octets × Nat} (h : entry ∈ requests) :
    strncmpEq (toLower request) entry.1 (max request.length entry.2) = decide (Asks entry.2 entry.1 request) := by
  obtain ⟨hnull, hlength⟩ := requests_differ.1 entry h
  have hsame : (toLower request).length = request.length := List.length_map _
  rw [Bool.eq_iff_iff, decide_eq_true_iff, ← hsame]
  exact strncmpEq_iff hnull hlength

/-- The library gives the answer of the one of its requests that is asked for. -/
theorem doSTATS_eq (site : Irc2User.Site) (self : Irc2User.Self) (handler : LibIRC2.StatsHandler → World → List Octets)
    (request : Octets) (w : World) : LibIRC2.doSTATS site self handler request w =
      (LibIRC2.statsCommands.filter fun command => decide (Asks command.minChars command.request request)).flatMap
        (fun command => handler command.handler w) ++ [numericLine site self LibIRC2.Numerics.RPL_ENDOFSTATS
          [request, Irc2User.getLang site self .irc2_RPL_ENDOFSTATS]] := by
  have hrequest : ∀ command ∈ LibIRC2.statsCommands, (command.request, command.minChars) ∈ requests :=
    fun command hmem => List.mem_cons_of_mem _ (List.mem_map_of_mem hmem)
  have hone : (LibIRC2.statsCommands.filter fun command =>
      decide (Asks command.minChars command.request request)).length ≤ 1 := by
    refine length_filter_le_one (f := (·.request)) (by decide +kernel) fun a ha b hb haskA haskB => ?_
    exact asks_unique (hrequest a ha) (hrequest b hb) (of_decide_eq_true haskA) (of_decide_eq_true haskB)
  have hfind : (LibIRC2.statsCommands.find? fun command =>
      strncmpEq (toLower request) command.request (max (toLower request).length command.minChars)).toList =
      LibIRC2.statsCommands.filter fun command => decide (Asks command.minChars command.request request) := by
    rw [← find?_toList hone]
    refine congrArg Option.toList (List.find?_congr fun command hmem => ?_)
    rw [show (toLower request).length = request.length from List.length_map _]
    exact strncmpEq_asks (hrequest command hmem)
  rw [LibIRC2.doSTATS, ← hfind]
  cases LibIRC2.statsCommands.find? fun command =>
    strncmpEq (toLower request) command.request (max (toLower request).length command.minChars) <;> simp

/-- What STATS can answer, with the answers. -/
def statistics (answers : Answers) (handler : LibIRC2.StatsHandler → World → List Octets) :
    List (Octets × Nat × (World → List Octets)) :=
  (octets "messages", 1, answers.callCounts) ::
    LibIRC2.statsCommands.map fun command => (command.request, command.minChars, handler command.handler)

theorem asked_length_le_one (answers : Answers) (handler : LibIRC2.StatsHandler → World → List Octets) (request : Octets) :
    ((statistics answers handler).filter fun entry => decide (Asks entry.2.1 entry.1 request)).length ≤ 1 := by
  have hmem : ∀ entry ∈ statistics answers handler, (entry.1, entry.2.1) ∈ requests := fun entry h =>
    List.mem_map_of_mem (f := fun entry : Octets × Nat × (World → List Octets) => (entry.1, entry.2.1)) h
  refine length_filter_le_one (f := fun entry => entry.1) (show (requests.map (·.1)).Nodup by decide +kernel) ?_
  intro a ha b hb haskA haskB
  exact asks_unique (hmem a ha) (hmem b hb) (of_decide_eq_true haskA) (of_decide_eq_true haskB)

/-- STATS gives the answer of the one request that is asked for, if it is one, and
then the footer. No two of them are asked for by the same text, so that their
order makes no difference. -/
theorem handleSTATS_asked (site : Irc2User.Site) (self : Irc2User.Self) (answers : Answers)
    (handler : LibIRC2.StatsHandler → World → List Octets) (request : Octets) (w : World) :
    let asked := (statistics answers handler).filter fun entry => decide (Asks entry.2.1 entry.1 request)
    asked.length ≤ 1 ∧
      (handleSTATS site { answers with doSTATS := LibIRC2.doSTATS site self handler } self [request] w).value =
        asked.flatMap (fun entry => entry.2.2 w) ++ [numericLine site self LibIRC2.Numerics.RPL_ENDOFSTATS
          [request, Irc2User.getLang site self .irc2_RPL_ENDOFSTATS]] := by
  have hone := asked_length_le_one answers handler request
  refine ⟨hone, ?_⟩
  have hmessages := @strncmpEq_asks request (octets "messages", 1) List.mem_cons_self
  simp only [handleSTATS, List.length_cons, List.length_nil, Nat.zero_add, Nat.reduceLT, if_true, value_bind]
  rw [statistics, List.filter_cons] at hone ⊢
  simp only [List.getD_cons_zero, hmessages]
  by_cases hasks : Asks 1 (octets "messages") request
  · -- nothing else is asked for
    rw [if_pos (decide_eq_true hasks)] at hone ⊢
    have hrest := List.length_eq_zero_iff.1 (Nat.le_zero.1 (Nat.le_of_succ_le_succ hone))
    rw [hrest]
    simp [hasks]
  · rw [if_neg (by simpa using hasks)]
    simp only [decide_eq_false hasks, Bool.false_eq_true, if_false]
    refine (doSTATS_eq site self handler request w).trans ?_
    rw [List.filter_map, List.flatMap_map]
    rfl

end KineIRCd

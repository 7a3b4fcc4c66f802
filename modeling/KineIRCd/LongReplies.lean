import KineIRCd.Irc2User
import KineIRCd.Lib.Filling
import KineIRCd.WorldSteps
/-!
# Replies of several lines

RPL_ISUPPORT and RPL_NAMREPLY take as many lines as they need. Both loops
gather tokens in a buffer and send it when the next token is one too many, by a
budget of octets worked out beforehand.
-/
namespace KineIRCd.Irc2User

open Filling LibIRC2 LibIRC2.Numerics

def maxMessageSize : UInt32 := 512

def maxParams : UInt32 := 15

variable (site : Site) (user : Self)

/-! ## RPL_ISUPPORT -/

/-- `maxOutputLength` of `sendISUPPORT`, an `unsigned int`. Names count by
character. -/
def isupportBudget (suffix : Octets) : UInt32 :=
  (maxMessageSize.toUInt64 - .ofNat suffix.length - .ofNat user.user.nickname.length -
    .ofNat site.serverName.length - 10).toUInt32

/-- The loop of `sendISUPPORT`: the tags to go, the buffer and the count. -/
def isupportReplies (suffix : Octets) (maxOutputLength : UInt32) : List Octets → Octets → UInt32 → List Reply
  | [], output, _ => if output ≠ [] then [⟨RPL_ISUPPORT, [output, suffix]⟩] else []
  | tag :: info, output, params =>
    if params + 1 > maxParams - 2 ∨ output.length + tag.length > maxOutputLength.toNat then
      -- the tag goes into the empty buffer, and is not counted there
      ⟨RPL_ISUPPORT, [output, suffix]⟩ :: isupportReplies suffix maxOutputLength info (addDelimited SPACE [] tag) 0
    else isupportReplies suffix maxOutputLength info (addDelimited SPACE output tag) (params + 1)

/-- What `sendISUPPORT` sends, for the tags of `isupport().getInfo()`. -/
def sendISUPPORT (info : List Octets) : List Reply :=
  let suffix := getLang site user .irc2_RPL_ISUPPORT
  isupportReplies suffix (isupportBudget site user suffix) info [] 0

/-! ## RPL_NAMREPLY -/

/-- `Kine::Channel`, as far as it is listed. -/
structure Channel where
  name : WString
  /-- The nicknames of the members, in the order of the map. -/
  members : List WString

namespace Channel

def isSecret (_ : Channel) : Bool := false

def isPrivate (_ : Channel) : Bool := false

def isHiddenFrom (channel : Channel) (_ : User) : Bool := channel.isSecret || channel.isPrivate

def hasClient (_ : Channel) (_ : User) : Bool := false

def visibilityChar (channel : Channel) : Octets :=
  if channel.isSecret then octets "@" else if channel.isPrivate then octets "*" else octets "="

end Channel

/-- `Entity::isHiddenFrom` of a client. -/
def isHiddenFrom (_ : User) (_nickname : WString) : Bool := false

/-- Nothing gives a user a staff status. -/
def User.isStaff (_ : User) : Bool := false

/-- Can the user see this member? -/
def User.sees (u : User) (channel : Channel) (nickname : WString) : Bool :=
  u.isOperator || u.isStaff || channel.hasClient u || (!channel.isHiddenFrom u && !isHiddenFrom u nickname)

/-- `maxOutputLength` of `sendNames`. -/
def namesBudget : UInt32 :=
  (maxMessageSize.toUInt64 - .ofNat user.user.nickname.length - .ofNat site.serverName.length - 15).toUInt32

def nameReply (channel : Channel) (reply : Octets) : Reply :=
  ⟨RPL_NAMREPLY, [channel.visibilityChar, site.delocaliseStr channel.name, reply]⟩

/-- The loop of `sendNames`: the members to go and the buffer. -/
def namesReplies (channel : Channel) (maxOutputLength : UInt32) : List WString → Octets → List Reply
  | [], reply => if reply ≠ [] then [nameReply site channel reply] else []
  | nickname :: members, reply =>
    if user.user.sees channel nickname then
      if reply.length + nickname.length + 2 > maxOutputLength.toNat then
        nameReply site channel reply ::
          namesReplies channel maxOutputLength members (addDelimited SPACE [] (site.delocaliseStr nickname))
      else namesReplies channel maxOutputLength members (addDelimited SPACE reply (site.delocaliseStr nickname))
    else namesReplies channel maxOutputLength members reply

def sendNames (channel : Channel) : List Reply :=
  namesReplies site user channel (namesBudget site user) channel.members []

/-! ## Lines -/

namespace LongReplies

/-- The buffer with some tokens in it. -/
def text (line : List Octets) : Octets := joinDelimited SPACE line

theorem text_concat (line : List Octets) (token : Octets) :
    text (line ++ [token]) = addDelimited SPACE (text line) token := by
  rw [text, joinDelimited, List.foldl_append]
  rfl

theorem text_single (token : Octets) : text [token] = token := rfl

theorem length_text_concat (line : List Octets) (token : Octets) :
    (text (line ++ [token])).length =
      (text line).length + token.length + if text line = [] then 0 else 1 := by
  rw [text_concat, addDelimited]
  split_ifs with h
  · rw [h, List.length_nil, Nat.zero_add, Nat.add_zero]
  · rw [List.length_append, List.length_cons, Nat.add_assoc]

theorem length_text_le {short line : List Octets} (h : short <+: line) : (text short).length ≤ (text line).length := by
  obtain ⟨more, rfl⟩ := h
  induction more using List.reverseRecOn with
  | nil => rw [List.append_nil]
  | append_singleton more token ih =>
    rw [← List.append_assoc, length_text_concat]
    omega

/-- The tags counted when a line holds some: the tag that starts a line after the
first is not. -/
def counted (first : Bool) (line : List Octets) : Nat := if first then line.length else line.length - 1

/-- The test of `sendISUPPORT` before a tag. -/
def fullISUPPORT (maxOutputLength : UInt32) (first : Bool) (line : List Octets) (tag : Octets) : Bool :=
  13 ≤ counted first line ∨ maxOutputLength.toNat < (text line).length + tag.length

def keepISUPPORT (line : List Octets) : Bool := text line ≠ []

/-- The test of `sendNames` before a member. -/
def fullNames (maxOutputLength : UInt32) (_first : Bool) (line : List WString) (nickname : WString) : Bool :=
  maxOutputLength.toNat < (text (line.map site.delocaliseStr)).length + nickname.length + 2

def keepNames (line : List WString) : Bool := text (line.map site.delocaliseStr) ≠ []

variable {site user}

/-- `sendISUPPORT` fills lines with tags. -/
theorem isupportReplies_eq (suffix : Octets) (maxOutputLength : UInt32) (info : List Octets) {first : Bool}
    {line : List Octets} {params : UInt32} (hparams : params.toNat = counted first line)
    (hfew : counted first line ≤ 13) (hne : first = false → line ≠ []) :
    isupportReplies suffix maxOutputLength info (text line) params =
      (lines (fullISUPPORT maxOutputLength) keepISUPPORT first line info).map
        fun line => ⟨RPL_ISUPPORT, [text line, suffix]⟩ := by
  induction info generalizing first line params with
  | nil =>
    by_cases h : text line = [] <;> simp [isupportReplies, lines, keepISUPPORT, h]
  | cons tag info ih =>
    have hsucc : (params + 1).toNat = counted first line + 1 := by
      rw [UInt32.toNat_add, hparams]
      exact Nat.mod_eq_of_lt (show counted first line + 1 < 2 ^ 32 by omega)
    have hfull : (params + 1 > maxParams - 2 ∨ (text line).length + tag.length > maxOutputLength.toNat) ↔
        fullISUPPORT maxOutputLength first line tag = true := by
      rw [fullISUPPORT, decide_eq_true_iff, gt_iff_lt, UInt32.lt_iff_toNat_lt, hsucc]
      exact or_congr_left (show 13 < counted first line + 1 ↔ _ by omega)
    rw [isupportReplies, lines]
    split_ifs with h₁ h₂ h₂
    · rw [List.map_cons]
      exact congrArg _ (@ih false [tag] 0 rfl (Nat.zero_le 13) fun _ => List.cons_ne_nil _ _)
    · exact absurd (hfull.1 h₁) h₂
    · exact absurd (hfull.2 h₂) h₁
    · have hroom : counted first line < 13 := by
        by_contra hmany
        exact h₂ (decide_eq_true (.inl (by omega)))
      have hcount : counted first (line ++ [tag]) = counted first line + 1 := by
        rw [counted, counted, List.length_append, List.length_singleton]
        cases first with
        | true => rfl
        | false =>
          have := List.length_pos_iff.2 (hne rfl)
          show line.length + 1 - 1 = line.length - 1 + 1
          omega
      rw [← text_concat]
      exact ih (by rw [hsucc, hcount]) (by omega)
        fun _ => List.append_ne_nil_of_right_ne_nil _ (List.cons_ne_nil _ _)

/-- `sendNames` fills lines with nicknames. Every member can be seen. -/
theorem namesReplies_eq (channel : Channel) (maxOutputLength : UInt32) (members : List WString) (first : Bool)
    (line : List WString) :
    namesReplies site user channel maxOutputLength members (text (line.map site.delocaliseStr)) =
      (lines (fullNames site maxOutputLength) (keepNames site) first line members).map
        fun line => nameReply site channel (text (line.map site.delocaliseStr)) := by
  induction members generalizing first line with
  | nil =>
    by_cases h : text (line.map site.delocaliseStr) = [] <;> simp [namesReplies, lines, keepNames, h]
  | cons nickname members ih =>
    have hsees : user.user.sees channel nickname = true := rfl
    have hfull : (text (line.map site.delocaliseStr)).length + nickname.length + 2 > maxOutputLength.toNat ↔
        fullNames site maxOutputLength first line nickname = true := by
      rw [fullNames, decide_eq_true_iff]
    rw [namesReplies, if_pos hsees, lines]
    split_ifs with h₁ h₂ h₂
    · rw [List.map_cons]
      exact congrArg _ (ih false [nickname])
    · exact absurd (hfull.1 h₁) h₂
    · exact absurd (hfull.2 h₂) h₁
    · rw [← text_concat, ← List.map_singleton, ← List.map_append]
      exact ih first (line ++ [nickname])

theorem sendNames_eq_map (channel : Channel) :
    sendNames site user channel =
      (lines (fullNames site (namesBudget site user)) (keepNames site) true [] channel.members).map
        fun line => nameReply site channel (text (line.map site.delocaliseStr)) :=
  namesReplies_eq channel (namesBudget site user) channel.members true []

/-! ## Tokens -/

/-- The words of a text. -/
def words (s : Octets) : List Octets := ((⟨s⟩ : StringTokens).tokens SPACE).filter (· ≠ [])

/-- The tokens that a line of RPL_ISUPPORT carries. -/
def tokens (reply : Reply) : List Octets := words (reply.parameters.getD 0 [])

/-- The lines carry the tags, at least one each, and no more than the parameters
allowed: the nickname and the text at the end are two of them. -/
structure Carries (info : List Octets) (replies : List Reply) : Prop where
  all : replies.flatMap tokens = info
  some : ∀ reply ∈ replies, tokens reply ≠ []
  few : ∀ reply ∈ replies, (tokens reply).length + 2 ≤ maxParams.toNat

/-- A word by itself. -/
def IsToken (tag : Octets) : Prop := tag ≠ [] ∧ SPACE ∉ tag

theorem isToken_of_mem_words {s token : Octets} (h : token ∈ words s) : IsToken token := by
  obtain ⟨htoken, hne⟩ := List.mem_filter.1 h
  exact ⟨of_decide_eq_true hne, StringTokens.not_mem_of_mem_tokens token htoken⟩

theorem words_text {line : List Octets} (h : ∀ tag ∈ line, IsToken tag) : words (text line) = line := by
  have hnil : [] ∉ line := fun hmem => (h [] hmem).1 rfl
  have hlast : line.getLast? ≠ some [] := fun heq => hnil (List.mem_of_getLast? heq)
  rw [words, text, joinDelimited_eq SPACE hnil, StringTokens.tokens_intercalate (fun tag htag => (h tag htag).2) hlast]
  apply List.filter_eq_self.2
  intro tag htag
  exact decide_eq_true (h tag htag).1

theorem text_ne_nil {line : List Octets} (h : ∀ tag ∈ line, IsToken tag) (hne : line ≠ []) : text line ≠ [] := by
  obtain ⟨tag, rest, rfl⟩ := List.exists_cons_of_ne_nil hne
  have hle := length_text_le (List.prefix_append [tag] rest)
  have hpos := List.length_pos_iff.2 (h tag List.mem_cons_self).1
  rw [text_single, List.singleton_append] at hle
  exact List.length_pos_iff.1 (by omega)

variable {suffix : Octets} {maxOutputLength : UInt32} {info : List Octets}

theorem length_concat_of_tokens {line : List Octets} {tag : Octets} (h : ∀ t ∈ line ++ [tag], IsToken t)
    (hne : line ≠ []) :
    (text (line ++ [tag])).length = (text line).length + tag.length + 1 := by
  rw [length_text_concat, if_neg (text_ne_nil (fun t ht => h t (List.mem_append_left _ ht)) hne)]

/-- Fourteen tags go on a line after the first when the budget has room for them
without the last space. -/
theorem takes_later_iff {line : List Octets} (hline : ∀ tag ∈ line, IsToken tag) (hlength : line.length = 14) :
    Takes (fullISUPPORT maxOutputLength) false line ↔ (text line).length ≤ maxOutputLength.toNat + 1 := by
  constructor
  · intro htakes
    obtain rfl | ⟨p, tag, rfl⟩ := List.eq_nil_or_concat' line
    · cases hlength
    · rw [List.length_append, List.length_singleton] at hlength
      have hne : p ≠ [] := by
        rintro rfl
        cases hlength
      have hfull := ((takes_concat fun _ => hne).1 htakes).2
      have htext := length_concat_of_tokens hline hne
      have := not_or.1 (of_decide_eq_false hfull)
      omega
  · intro hle p tag hinit hne
    have hp := hinit.length_le
    have htext := length_text_le hinit
    rw [length_concat_of_tokens (fun t ht => hline t (hinit.subset ht)) (hne rfl)] at htext
    rw [List.length_append, List.length_singleton, hlength] at hp
    apply decide_eq_false
    rintro (hmany | hlong)
    · have : counted false p = p.length - 1 := rfl
      omega
    · omega

theorem takes_first {line : List Octets} (h : Takes (fullISUPPORT maxOutputLength) true line) : line.length ≤ 13 := by
  obtain rfl | ⟨p, tag, rfl⟩ := List.eq_nil_or_concat' line
  · exact Nat.zero_le _
  · have hfull := ((@takes_concat _ (fullISUPPORT maxOutputLength) true p tag nofun).1 h).2
    have hfew : ¬ 13 ≤ p.length := (not_or.1 (of_decide_eq_false hfull)).1
    rw [List.length_append, List.length_singleton]
    omega

theorem takes_few {line : List Octets} (h : Takes (fullISUPPORT maxOutputLength) false line) : line.length ≤ 14 := by
  obtain rfl | ⟨p, tag, rfl⟩ := List.eq_nil_or_concat' line
  · exact Nat.zero_le _
  · by_cases hne : p = []
    · subst hne
      exact Nat.le_add_left 1 13
    · have hfull := ((takes_concat fun _ => hne).1 h).2
      have hfew : ¬ 13 ≤ p.length - 1 := (not_or.1 (of_decide_eq_false hfull)).1
      rw [List.length_append, List.length_singleton]
      omega

/-- The lines that `sendISUPPORT` cuts the tags into. -/
def isupportLines (maxOutputLength : UInt32) (info : List Octets) : List (List Octets) :=
  lines (fullISUPPORT maxOutputLength) keepISUPPORT true [] info

theorem isupportReplies_eq_map (suffix : Octets) (maxOutputLength : UInt32) (info : List Octets) :
    isupportReplies suffix maxOutputLength info [] 0 =
      (isupportLines maxOutputLength info).map fun line => ⟨RPL_ISUPPORT, [text line, suffix]⟩ :=
  @isupportReplies_eq suffix maxOutputLength info true [] 0 rfl (Nat.zero_le 13) nofun

theorem keepISUPPORT_of_tokens (h : ∀ tag ∈ info, IsToken tag) :
    ∀ line, line <:+ info → line ≠ [] → keepISUPPORT line = true := by
  intro line hsuffix hne
  exact decide_eq_true (text_ne_nil (fun tag htag => h tag (hsuffix.subset htag)) hne)

theorem flatten_isupportLines (h : ∀ tag ∈ info, IsToken tag) : (isupportLines maxOutputLength info).flatten = info :=
  flatten_lines (keepISUPPORT_of_tokens h)

/-- When the tags are words, the lines carry them if no line is empty or has more than 13. -/
theorem carries_iff_lines (h : ∀ tag ∈ info, IsToken tag) :
    Carries info (isupportReplies suffix maxOutputLength info [] 0) ↔
      [] ∉ isupportLines maxOutputLength info ∧ ∀ line ∈ isupportLines maxOutputLength info, line.length ≤ 13 := by
  have hflatten := @flatten_isupportLines maxOutputLength info h
  have htokens : ∀ line ∈ isupportLines maxOutputLength info, tokens ⟨RPL_ISUPPORT, [text line, suffix]⟩ = line := by
    intro line hline
    apply words_text
    intro tag htag
    apply h
    rw [← hflatten]
    exact List.mem_flatten.2 ⟨line, hline, htag⟩
  rw [isupportReplies_eq_map]
  constructor
  · rintro ⟨-, hsome, hfew⟩
    constructor
    · intro hnil
      exact hsome _ (List.mem_map_of_mem hnil) (htokens [] hnil)
    · intro line hline
      have hle := hfew _ (List.mem_map_of_mem hline)
      rw [htokens line hline] at hle
      exact Nat.le_of_add_le_add_right (show line.length + 2 ≤ 13 + 2 from hle)
  · rintro ⟨hnil, hfew⟩
    constructor
    · rw [List.flatMap_map, List.flatMap_def, List.map_congr_left htokens, List.map_id', hflatten]
    · intro reply hreply
      obtain ⟨line, hline, rfl⟩ := List.mem_map.1 hreply
      rw [htokens line hline]
      rintro rfl
      exact hnil hline
    · intro reply hreply
      obtain ⟨line, hline, rfl⟩ := List.mem_map.1 hreply
      rw [htokens line hline]
      exact Nat.add_le_add_right (hfew line hline) 2

/-- An empty line comes of a first tag longer than the budget. -/
theorem nil_notMem_isupportLines_iff :
    [] ∉ isupportLines maxOutputLength info ↔ ∀ tag ∈ info.head?, tag.length ≤ maxOutputLength.toNat := by
  have hfull : ∀ tag, fullISUPPORT maxOutputLength true [] tag = true ↔ maxOutputLength.toNat < tag.length := by
    intro tag
    rw [fullISUPPORT, decide_eq_true_iff, show text [] = [] from rfl, List.length_nil, Nat.zero_add]
    apply or_iff_right
    exact Nat.not_succ_le_zero 12
  rw [isupportLines, nil_mem_lines_iff rfl]
  constructor
  · intro hnone tag htag
    by_contra hlong
    exact hnone ⟨tag, htag, (hfull tag).2 (Nat.not_le.1 hlong)⟩
  · rintro hfits ⟨tag, htag, hlong⟩
    exact absurd (hfits tag htag) (Nat.not_le.2 ((hfull tag).1 hlong))

/-- A line of fourteen tags comes of a start, after the first, where the budget
lets as many through. -/
theorem few_isupportLines_iff (hwords : ∀ tag ∈ info, IsToken tag) :
    (∀ line ∈ isupportLines maxOutputLength info, line.length ≤ 13) ↔
      ∀ rest, Starts (fullISUPPORT maxOutputLength) info false rest → 14 ≤ rest.length →
        maxOutputLength.toNat + 1 < (text (rest.take 14)).length := by
  rw [isupportLines, forall_lines_iff]
  · constructor
    · intro hfew rest hstart hmany
      by_contra hle
      have hlength : (rest.take 14).length = 14 := List.length_take_of_le hmany
      have hwords' : ∀ tag ∈ rest.take 14, IsToken tag :=
        fun tag htag => hwords tag (hstart.suffix.subset (List.mem_of_mem_take htag))
      have htakes := (@takes_later_iff maxOutputLength _ hwords' hlength).2 (by omega)
      have := hfew false (rest.take 14) (rest.drop 14) (by rwa [List.take_append_drop]) htakes
      omega
    · intro hlong first line rest hstart htakes
      cases first with
      | true => exact takes_first htakes
      | false =>
        by_contra hmany
        have hlength : line.length = 14 := Nat.le_antisymm (takes_few htakes) (by omega)
        have hwords' : ∀ tag ∈ line, IsToken tag :=
          fun tag htag => hwords tag (hstart.suffix.subset (List.mem_append_left _ htag))
        have hover := hlong (line ++ rest) hstart (by rw [List.length_append]; omega)
        rw [List.take_left' hlength] at hover
        exact absurd ((takes_later_iff hwords' hlength).1 htakes) (by omega)
  · intro short line hinit hle
    exact hinit.length_le.trans hle
  · intro line hsuffix hdropped
    by_contra hmany
    have hne : line ≠ [] := by
      rintro rfl
      exact hmany (Nat.zero_le _)
    rw [keepISUPPORT_of_tokens hwords line hsuffix hne] at hdropped
    cases hdropped

/-- The lines carry the tags when these are words, the first one is within the
budget, and no line after the first starts with fourteen tags the budget lets
through. -/
theorem carries_iff (suffix : Octets) (maxOutputLength : UInt32) (info : List Octets) :
    Carries info (isupportReplies suffix maxOutputLength info [] 0) ↔
      (∀ tag ∈ info, IsToken tag) ∧ (∀ tag ∈ info.head?, tag.length ≤ maxOutputLength.toNat) ∧
        ∀ rest, Starts (fullISUPPORT maxOutputLength) info false rest → 14 ≤ rest.length →
          maxOutputLength.toNat + 1 < (text (rest.take 14)).length := by
  by_cases hwords : ∀ tag ∈ info, IsToken tag
  · rw [and_iff_right hwords, carries_iff_lines hwords, nil_notMem_isupportLines_iff, few_isupportLines_iff hwords]
  · refine iff_of_false (fun h => hwords ?_) fun h => hwords h.1
    intro tag htag
    rw [← h.all] at htag
    obtain ⟨reply, -, hmem⟩ := List.mem_flatMap.1 htag
    exact isToken_of_mem_words hmem

/-- They do when no fourteen tags in a row are within the budget. -/
theorem carries_of_runs (hwords : ∀ tag ∈ info, IsToken tag)
    (hfirst : ∀ tag ∈ info.head?, tag.length ≤ maxOutputLength.toNat)
    (hruns : ∀ line, line <:+: info → line.length = 14 → maxOutputLength.toNat + 1 < (text line).length) :
    Carries info (isupportReplies suffix maxOutputLength info [] 0) := by
  rw [carries_iff_lines hwords, nil_notMem_isupportLines_iff, few_isupportLines_iff hwords]
  refine ⟨hfirst, fun rest hstart hmany => hruns _ ?_ (List.length_take_of_le hmany)⟩
  exact (List.take_prefix 14 rest).isInfix.trans hstart.suffix.isInfix

/-- Twenty-seven short tags: thirteen on the first line, and fourteen on the second. -/
theorem not_carries_fourteen :
    ¬ Carries (List.replicate 27 (octets "A")) (isupportReplies [] 400 (List.replicate 27 (octets "A")) [] 0) := by
  have hwords : ∀ tag ∈ List.replicate 27 (octets "A"), IsToken tag := by
    intro tag htag
    rw [List.eq_of_mem_replicate htag]
    exact ⟨by decide, by decide⟩
  have hsecond : List.replicate 14 (octets "A") ∈ isupportLines 400 (List.replicate 27 (octets "A")) := by decide
  intro h
  have hfew := ((carries_iff_lines hwords).1 h).2 _ hsecond
  rw [List.length_replicate] at hfew
  omega

end LongReplies

end KineIRCd.Irc2User

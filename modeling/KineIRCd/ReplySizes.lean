import KineIRCd.LongReplies
/-!
# The sizes of long replies

A line of RPL_ISUPPORT or RPL_NAMREPLY may have 512 octets. Both loops leave room
for the names of the server and of the user, counted by character, and for some
octets more: 10, where the line takes 11 and a space that the test leaves out, and
15, where it takes 13, the space and the name of the channel. So whether a line
overruns is a matter of what its tokens come to, in octets.
-/
namespace KineIRCd.Irc2User

open Filling LibIRC2 LibIRC2.Numerics

namespace LongReplies

variable (site : Site) (user : Self)

/-- The line of a reply as it is queued, with its CR and LF. -/
def queued (reply : Reply) : Octets :=
  formatNumeric (site.delocaliseStr site.serverName) (site.delocaliseStr user.user.nickname) reply.numeric
    reply.parameters ++ Clbp.EOL_CR_LF

def size (reply : Reply) : Nat := (queued site user reply).length

/-- Replies go to the end of the queue line by line. -/
theorem outputQueue_sendReplies (replies : List Reply) (w : World) :
    ((sendReplies site user replies w).protocol user.this).map (·.outputQueue) =
      (w.protocol user.this).map fun p => p.outputQueue ++ replies.flatMap (queued site user) := by
  induction replies generalizing w with
  | nil => simp [sendReplies]
  | cons reply replies ih =>
    have hline : ∀ (p : ProtocolBase) line,
        (p.outputLine line).outputQueue = p.outputQueue ++ (line ++ Clbp.EOL_CR_LF) := by
      rintro ⟨c, r | u⟩ line <;> exact List.append_assoc _ _ _
    apply (ih _).trans
    dsimp only [sendNumeric, World.outputLine]
    rw [World.protocol_modifyProtocol, if_pos rfl, Option.map_map]
    congr 1
    funext p
    rw [Function.comp_apply, hline, List.flatMap_cons, List.append_assoc]
    rfl

/-- The octets of the two names on every line. -/
def namesSent : Nat :=
  (site.delocaliseStr site.serverName).length + (site.delocaliseStr user.user.nickname).length

/-- Their characters. -/
def namesCounted : Nat := site.serverName.length + user.user.nickname.length

theorem size_isupport (output suffix : Octets) :
    size site user ⟨RPL_ISUPPORT, [output, suffix]⟩ = namesSent site user + suffix.length + 11 + output.length := by
  have hfield : (numericField RPL_ISUPPORT).length = 3 := by decide
  simp only [size, queued, formatNumeric, formatParameters, List.length_append, List.length_cons, hfield, namesSent]
  rw [show Clbp.EOL_CR_LF.length = 2 from rfl]
  omega

/-- A tag fits on a line of its own. -/
theorem fits_isupport_iff (tag suffix : Octets) :
    size site user ⟨RPL_ISUPPORT, [tag, suffix]⟩ ≤ maxMessageSize.toNat ↔
      namesSent site user + suffix.length + tag.length ≤ 501 := by
  have hsize : maxMessageSize.toNat = 512 := rfl
  rw [size_isupport, hsize]
  omega

theorem size_nameReply (channel : Channel) (reply : Octets) :
    size site user (nameReply site channel reply) =
      namesSent site user + (site.delocaliseStr channel.name).length + 13 + reply.length := by
  have hfield : (numericField RPL_NAMREPLY).length = 3 := by decide
  have hvisibility : channel.visibilityChar.length = 1 := rfl
  simp only [size, queued, nameReply, formatNumeric, formatParameters, List.length_append, List.length_cons, hfield,
    hvisibility, namesSent]
  rw [show Clbp.EOL_CR_LF.length = 2 from rfl]
  omega

/-! ## Counts -/

/-- The octets of tokens of so many octets, with a space between any two. -/
def joined (line : List Nat) : Nat := line.foldl (fun n token => if n = 0 then token else n + 1 + token) 0

theorem joined_concat (line : List Nat) (token : Nat) :
    joined (line ++ [token]) = joined line + token + if joined line = 0 then 0 else 1 := by
  rw [joined, List.foldl_append, ← joined, List.foldl_cons, List.foldl_nil]
  split_ifs with h <;> omega

theorem length_text (line : List Octets) : (text line).length = joined (line.map List.length) := by
  induction line using List.reverseRecOn with
  | nil => rfl
  | append_singleton line token ih =>
    rw [length_text_concat, List.map_append, List.map_singleton, joined_concat, ih]
    simp only [← ih, List.length_eq_zero_iff]

theorem joined_le {short line : List Nat} (h : short <+: line) : joined short ≤ joined line := by
  obtain ⟨more, rfl⟩ := h
  induction more using List.reverseRecOn with
  | nil => rw [List.append_nil]
  | append_singleton more token ih =>
    rw [← List.append_assoc, joined_concat]
    omega

/-- What a number of octets leaves of a limit, as an `unsigned int`. -/
def budget (limit taken : Nat) : Nat := (((limit : Int) - taken) % UInt32.size).toNat

theorem budget_of_le {limit taken : Nat} (h : taken ≤ limit) (hlimit : limit < UInt32.size) :
    budget limit taken = limit - taken := by
  rw [UInt32.size] at hlimit
  rw [budget, UInt32.size]
  omega

theorem isupportBudget_toNat (suffix : Octets) :
    (isupportBudget site user suffix).toNat = budget 502 (namesCounted site user + suffix.length) := by
  have hsize : maxMessageSize.toUInt64.toNat = 512 := rfl
  have hten : (10 : UInt64).toNat = 10 := rfl
  simp only [isupportBudget, budget, UInt32.size, namesCounted, UInt64.toNat_toUInt32, UInt64.toNat_sub,
    UInt64.toNat_ofNat', hsize, hten]
  omega

theorem namesBudget_toNat : (namesBudget site user).toNat = budget 497 (namesCounted site user) := by
  have hsize : maxMessageSize.toUInt64.toNat = 512 := rfl
  have hfifteen : (15 : UInt64).toNat = 15 := rfl
  simp only [namesBudget, budget, UInt32.size, namesCounted, UInt64.toNat_toUInt32, UInt64.toNat_sub,
    UInt64.toNat_ofNat', hsize, hfifteen]
  omega

/-! ## Where lines overrun -/

/-- The counts by which RPL_ISUPPORT is cut into lines: thirteen tags, fourteen on a
line after the first, and the octets of the budget, the last space left out. -/
def isupportFull (budget : Nat) (first : Bool) (line : List Nat) (tag : Nat) : Bool :=
  (if first then 13 else 14) ≤ line.length ∨ budget < joined line + tag

/-- Tags that overrun: from where a line starts they are few enough, and they come to
501 octets or more with what else was sent, but not to more than the budget. -/
def IsupportOverruns (sent counted : Nat) (tags : List Nat) : Prop :=
  ∃ first line tag rest, Starts (isupportFull (budget 502 counted)) tags first (line ++ tag :: rest) ∧
    line.length < (if first then 13 else 14) ∧ joined line ≠ 0 ∧
      501 ≤ sent + (joined line + tag) ∧ joined line + tag ≤ budget 502 counted

/-- A nickname, in octets and in characters. -/
structure Member where
  octets : Nat
  chars : Nat

/-- The octets of members on a line. -/
def joinedMembers (line : List Member) : Nat := joined (line.map (·.octets))

/-- The counts by which RPL_NAMREPLY is cut into lines. -/
def namesFull (budget : Nat) (_first : Bool) (line : List Member) (member : Member) : Bool :=
  budget < joinedMembers line + member.chars + 2

/-- Nicknames that overrun: they come to 499 octets or more with what else was sent,
but to no more than the budget with the last of them counted by character. -/
def NamesOverrun (sent counted : Nat) (members : List Member) : Prop :=
  ∃ first line member rest, Starts (namesFull (budget 497 counted)) members first (line ++ member :: rest) ∧
    Takes (namesFull (budget 497 counted)) first line ∧ joinedMembers line ≠ 0 ∧
      499 ≤ sent + (joinedMembers line + member.octets) ∧
        joinedMembers line + member.chars + 2 ≤ budget 497 counted

/-- Lines of items that fit each by itself are within the size when no item that joins
others is one too many. -/
theorem lines_within_iff {α : Type} {full : Bool → List α → α → Bool} {octets : α → Nat} {overhead : Nat}
    {items : List α} (hsingle : ∀ x ∈ items, overhead + octets x ≤ 512) :
    (∀ line ∈ lines full (fun line => decide (joined (line.map octets) ≠ 0)) true [] items,
        overhead + joined (line.map octets) ≤ 512) ↔
      ¬ ∃ first line x rest, Starts full items first (line ++ x :: rest) ∧ Takes full first line ∧
        full first line x = false ∧ joined (line.map octets) ≠ 0 ∧
          512 ≤ overhead + (joined (line.map octets) + octets x) := by
  cases items with
  | nil =>
    apply iff_of_true
    · intro line hline
      rw [lines] at hline
      cases hline
    · rintro ⟨first, line, x, rest, hstart, -⟩
      exact absurd (List.suffix_nil.1 hstart.suffix) (by simp)
  | cons item items =>
    have hroom : overhead ≤ 512 := (Nat.le_add_right _ _).trans (hsingle item List.mem_cons_self)
    rw [forall_lines_iff_step]
    · constructor
      · rintro h ⟨first, line, x, rest, hstart, htakes, hx, hne, hover⟩
        have hfits := h first line x rest hstart (fun _ hnil => hne (by rw [hnil]; rfl)) htakes hx
        rw [List.map_append, List.map_singleton, joined_concat, if_neg hne] at hfits
        omega
      · intro h first line x rest hstart _ htakes hx
        rw [List.map_append, List.map_singleton, joined_concat]
        split_ifs with hempty
        · have := hsingle x (hstart.suffix.subset (List.mem_append_right _ List.mem_cons_self))
          omega
        · by_contra hover
          exact h ⟨first, line, x, rest, hstart, htakes, hx, hempty, by omega⟩
    · intro short line hshort hle
      have := joined_le (hshort.map octets)
      omega
    · intro line _ hdropped
      have hempty : joined (line.map octets) = 0 := not_not.1 (of_decide_eq_false hdropped)
      omega
    · exact hroom
    · intro x hx
      exact hsingle x hx

/-- Few tags within the budget go on the line that they start. -/
theorem takes_isupportFull {budget : Nat} {first : Bool} {line : List Nat} {tag : Nat}
    (hfew : line.length < if first then 13 else 14) (hle : joined line + tag ≤ budget) :
    Takes (isupportFull budget) first line ∧ isupportFull budget first line tag = false := by
  constructor
  · intro p x hinit _
    have hlength := hinit.length_le
    have hjoined := joined_le hinit
    rw [List.length_append, List.length_singleton] at hlength
    rw [joined_concat] at hjoined
    exact decide_eq_false (by omega)
  · exact decide_eq_false (by omega)

variable {site user}

theorem isupportLines_map (maxOutputLength : UInt32) (info : List Octets) :
    (isupportLines maxOutputLength info).map (List.map List.length) =
      lines (isupportFull maxOutputLength.toNat) (fun line => decide (joined (line.map id) ≠ 0)) true []
        (info.map List.length) := by
  apply lines_map
  · intro first line tag
    rw [fullISUPPORT, isupportFull, length_text, List.length_map]
    have hcounted : 13 ≤ counted first line ↔ (if first then 13 else 14) ≤ line.length := by
      cases first with
      | true => exact Iff.rfl
      | false =>
        have : counted false line = line.length - 1 := rfl
        simp only [Bool.false_eq_true, if_false]
        omega
    rw [decide_eq_decide, hcounted]
  · intro line
    rw [keepISUPPORT, decide_eq_decide, List.map_id, ← length_text, Ne, Ne, List.length_eq_zero_iff]

/-- The lines of RPL_ISUPPORT. -/
theorem isupport_within_iff {info : List Octets} (hinfo : ∀ tag ∈ info,
      size site user ⟨RPL_ISUPPORT, [tag, getLang site user .irc2_RPL_ISUPPORT]⟩ ≤ maxMessageSize.toNat) :
    (∀ reply ∈ sendISUPPORT site user info, size site user reply ≤ maxMessageSize.toNat) ↔
      ¬ IsupportOverruns (namesSent site user + (getLang site user .irc2_RPL_ISUPPORT).length)
        (namesCounted site user + (getLang site user .irc2_RPL_ISUPPORT).length) (info.map List.length) := by
  generalize hsuffix : getLang site user .irc2_RPL_ISUPPORT = suffix at *
  have hsingle : ∀ n ∈ info.map List.length, namesSent site user + suffix.length + 11 + id n ≤ 512 := by
    rw [List.forall_mem_map]
    intro tag htag
    have hfits := hinfo tag htag
    rw [size_isupport] at hfits
    exact hfits
  have hlines := @lines_within_iff Nat (isupportFull (budget 502 (namesCounted site user + suffix.length))) id
    (namesSent site user + suffix.length + 11) _ hsingle
  rw [← isupportBudget_toNat, ← isupportLines_map] at hlines
  rw [sendISUPPORT, hsuffix, isupportReplies_eq_map]
  simp only [List.forall_mem_map, size_isupport, length_text]
  simp only [List.forall_mem_map, List.map_id] at hlines
  refine hlines.trans (not_congr ?_)
  rw [IsupportOverruns, ← isupportBudget_toNat]
  constructor
  · rintro ⟨first, line, tag, rest, hstart, htakes, htag, hne, hover⟩
    have htest := not_or.1 (of_decide_eq_false htag)
    exact ⟨first, line, tag, rest, hstart, Nat.not_le.1 htest.1, hne, by simp only [id] at hover; omega,
      Nat.not_lt.1 htest.2⟩
  · rintro ⟨first, line, tag, rest, hstart, hfew, hne, hover, hle⟩
    obtain ⟨htakes, htag⟩ := takes_isupportFull hfew hle
    exact ⟨first, line, tag, rest, hstart, htakes, htag, hne, by simp only [id]; omega⟩

/-- Nothing overruns where no tags in a row come to such a number of octets. -/
theorem isupport_within_of_runs {info : List Octets} (hinfo : ∀ tag ∈ info,
      size site user ⟨RPL_ISUPPORT, [tag, getLang site user .irc2_RPL_ISUPPORT]⟩ ≤ maxMessageSize.toNat)
    (hruns : ∀ line tag, line ++ [tag] <:+: info.map List.length → line.length < 14 → joined line ≠ 0 →
      budget 502 (namesCounted site user + (getLang site user .irc2_RPL_ISUPPORT).length) < joined line + tag ∨
        namesSent site user + (getLang site user .irc2_RPL_ISUPPORT).length + (joined line + tag) < 501) :
    ∀ reply ∈ sendISUPPORT site user info, size site user reply ≤ maxMessageSize.toNat := by
  rw [isupport_within_iff hinfo]
  rintro ⟨first, line, tag, rest, hstart, hfew, hne, hover, hle⟩
  have hinfix : line ++ [tag] <:+: info.map List.length := by
    refine List.IsInfix.trans ⟨[], rest, ?_⟩ hstart.suffix.isInfix
    simp
  have hlength : line.length < 14 := by
    split_ifs at hfew <;> omega
  rcases hruns line tag hinfix hlength hne with h | h <;> omega

/-- Tags of `n` octets each. -/
def sizedTags (sizes : List Nat) : List Octets := sizes.map fun n => List.replicate n 65

theorem map_length_sizedTags (sizes : List Nat) : (sizedTags sizes).map List.length = sizes := by
  rw [sizedTags, List.map_map]
  exact (List.map_congr_left fun n _ => List.length_replicate).trans (List.map_id _)

theorem joined_eq_zero {line : List Nat} (h : ∀ n ∈ line, n = 0) : joined line = 0 := by
  induction line using List.reverseRecOn with
  | nil => rfl
  | append_singleton line token ih =>
    rw [joined_concat, ih fun n hn => h n (List.mem_append_left _ hn), h token (by simp)]
    rfl

/-- Every list of tags is safe with names that the budget counts for more than they
take, and with no others that leave room for a tag. -/
theorem isupport_always_within_iff :
    (∀ info, (∀ tag ∈ info,
        size site user ⟨RPL_ISUPPORT, [tag, getLang site user .irc2_RPL_ISUPPORT]⟩ ≤ maxMessageSize.toNat) →
      ∀ reply ∈ sendISUPPORT site user info, size site user reply ≤ maxMessageSize.toNat) ↔
      501 ≤ namesSent site user + (getLang site user .irc2_RPL_ISUPPORT).length ∨
        namesSent site user + (getLang site user .irc2_RPL_ISUPPORT).length +
          budget 502 (namesCounted site user + (getLang site user .irc2_RPL_ISUPPORT).length) < 501 := by
  generalize hsent : namesSent site user + (getLang site user .irc2_RPL_ISUPPORT).length = sent
  generalize hcounted : namesCounted site user + (getLang site user .irc2_RPL_ISUPPORT).length = counted
  have hfits : ∀ tag : Octets, size site user ⟨RPL_ISUPPORT, [tag, getLang site user .irc2_RPL_ISUPPORT]⟩ ≤
      maxMessageSize.toNat ↔ sent + tag.length ≤ 501 := fun tag => hsent ▸ fits_isupport_iff site user tag _
  constructor
  · intro h
    by_contra hroom
    have hinfo : ∀ tag ∈ sizedTags [501 - sent, 0],
        size site user ⟨RPL_ISUPPORT, [tag, getLang site user .irc2_RPL_ISUPPORT]⟩ ≤ maxMessageSize.toNat := by
      intro tag htag
      obtain ⟨n, hn, rfl⟩ := List.mem_map.1 htag
      rw [hfits, List.length_replicate]
      simp only [List.mem_cons, List.not_mem_nil, or_false] at hn
      omega
    have hno := (isupport_within_iff hinfo).1 (h _ hinfo)
    rw [hsent, hcounted, map_length_sizedTags] at hno
    have hjoined : joined [501 - sent] = 501 - sent := rfl
    exact hno ⟨true, [501 - sent], 0, [], .first, show 1 < 13 by decide, by omega, by omega, by omega⟩
  · intro hroom info hinfo
    rw [isupport_within_iff hinfo, hsent, hcounted]
    rintro ⟨first, line, tag, rest, hstart, -, hne, hover, hle⟩
    have hzero : 501 ≤ sent → joined line = 0 := fun hfull => joined_eq_zero fun n hn => by
      obtain ⟨tag, htag, rfl⟩ := List.mem_map.1 (hstart.suffix.subset (List.mem_append_left _ hn))
      have := (hfits tag).1 (hinfo tag htag)
      omega
    omega

/-- The counts of a nickname. -/
def member (site : Site) (nickname : WString) : Member := ⟨(site.delocaliseStr nickname).length, nickname.length⟩

theorem joinedMembers_map (line : List WString) :
    joinedMembers (line.map (member site)) = (text (line.map site.delocaliseStr)).length := by
  rw [joinedMembers, length_text, List.map_map, List.map_map]
  rfl

/-- The lines of RPL_NAMREPLY. -/
theorem names_within_iff {channel : Channel} (hmembers : ∀ nickname ∈ channel.members,
      size site user (nameReply site channel (site.delocaliseStr nickname)) ≤ maxMessageSize.toNat) :
    (∀ reply ∈ sendNames site user channel, size site user reply ≤ maxMessageSize.toNat) ↔
      ¬ NamesOverrun (namesSent site user + (site.delocaliseStr channel.name).length) (namesCounted site user)
        (channel.members.map (member site)) := by
  have hsingle : ∀ m ∈ channel.members.map (member site),
      namesSent site user + (site.delocaliseStr channel.name).length + 13 + m.octets ≤ 512 := by
    rw [List.forall_mem_map]
    intro nickname hnickname
    rw [member, ← size_nameReply]
    exact hmembers nickname hnickname
  have hmap : (lines (fullNames site (namesBudget site user)) (keepNames site) true [] channel.members).map
      (List.map (member site)) =
        lines (namesFull (budget 497 (namesCounted site user))) (fun line => decide (joinedMembers line ≠ 0)) true []
          (channel.members.map (member site)) := by
    apply lines_map
    · intro first line nickname
      rw [fullNames, namesFull, joinedMembers_map, namesBudget_toNat]
      rfl
    · intro line
      rw [keepNames, joinedMembers_map, decide_eq_decide, Ne, Ne, List.length_eq_zero_iff]
  have hlines := @lines_within_iff Member (namesFull (budget 497 (namesCounted site user))) (·.octets) _ _ hsingle
  have hjoined : ∀ line : List Member, joined (line.map (·.octets)) = joinedMembers line := fun _ => rfl
  simp only [hjoined, ← hmap, List.forall_mem_map, joinedMembers_map] at hlines
  rw [sendNames_eq_map]
  simp only [List.forall_mem_map, size_nameReply]
  refine hlines.trans (not_congr ?_)
  rw [NamesOverrun]
  constructor
  · rintro ⟨first, line, m, rest, hstart, htakes, hm, hne, hover⟩
    exact ⟨first, line, m, rest, hstart, htakes, hne, by omega, Nat.not_lt.1 (of_decide_eq_false hm)⟩
  · rintro ⟨first, line, m, rest, hstart, htakes, hne, hover, hle⟩
    exact ⟨first, line, m, rest, hstart, htakes, decide_eq_false (Nat.not_lt.2 hle), hne, by omega⟩

/-- Nicknames are safe when the octets that they, the names and the channel's name
take beyond their characters are three at most. -/
theorem names_within_of_margin {channel : Channel} (hmembers : ∀ nickname ∈ channel.members,
      size site user (nameReply site channel (site.delocaliseStr nickname)) ≤ maxMessageSize.toNat)
    (hwrap : namesCounted site user ≤ 497)
    (hmargin : ∀ nickname ∈ channel.members,
      namesSent site user + (site.delocaliseStr channel.name).length + (site.delocaliseStr nickname).length ≤
        namesCounted site user + nickname.length + 3) :
    ∀ reply ∈ sendNames site user channel, size site user reply ≤ maxMessageSize.toNat := by
  rw [names_within_iff hmembers]
  rintro ⟨first, line, m, rest, hstart, -, -, hover, hle⟩
  have hm := hstart.suffix.subset (List.mem_append_right _ List.mem_cons_self)
  obtain ⟨nickname, hnickname, rfl⟩ := List.mem_map.1 hm
  have := hmargin nickname hnickname
  rw [budget_of_le hwrap (by decide)] at hle
  simp only [member] at hover hle
  omega

/-! ## Both replies -/

/-- A small site. -/
def plainSite : Site := { Env.sample with listeners := [], report := fun _ _ _ _ => [], serviceName := fun _ => [] }

def plainUser : Self := ⟨0, 0, ⟨wide "pickle", wide "simon", wide "host", [], [], 0, 0, []⟩⟩

def plainChannel : Channel := ⟨wide "#kine", [wide "pickle", wide "sanc"]⟩

theorem plain_counts : namesSent plainSite plainUser = 14 ∧ namesCounted plainSite plainUser = 14 ∧
    (getLang plainSite plainUser .irc2_RPL_ISUPPORT).length = 4 := by decide

theorem sizedTags_fit {sizes : List Nat} (h : ∀ n ∈ sizes, n ≤ 483) : ∀ tag ∈ sizedTags sizes,
    size plainSite plainUser ⟨RPL_ISUPPORT, [tag, getLang plainSite plainUser .irc2_RPL_ISUPPORT]⟩ ≤
      maxMessageSize.toNat := by
  obtain ⟨hsent, -, hsuffix⟩ := plain_counts
  intro tag htag
  obtain ⟨n, hn, rfl⟩ := List.mem_map.1 htag
  have := h n hn
  rw [fits_isupport_iff, hsent, hsuffix, List.length_replicate]
  omega

theorem plainChannel_fits : ∀ nickname ∈ plainChannel.members,
    size plainSite plainUser (nameReply plainSite plainChannel (plainSite.delocaliseStr nickname)) ≤
      maxMessageSize.toNat := by decide

/-- The one way for an item to join another when there are two. -/
theorem eq_of_suffix_pair {α : Type} {a b x : α} {line rest : List α} (h : line ++ x :: rest <:+ [a, b])
    (hne : line ≠ []) : line = [a] ∧ x = b := by
  have hlength := h.length_le
  obtain ⟨y, line, rfl⟩ := List.exists_cons_of_ne_nil hne
  simp only [List.length_append, List.length_cons, List.length_nil] at hlength
  obtain rfl := List.length_eq_zero_iff.1 (show line.length = 0 by omega)
  obtain rfl := List.length_eq_zero_iff.1 (show rest.length = 0 by omega)
  obtain ⟨rfl, hx⟩ := List.cons.inj (h.eq_of_length rfl)
  exact ⟨rfl, List.singleton_inj.1 hx⟩

/-- Every line of the two replies is within the size of a message unless tags or
nicknames come to a number of octets that the budget allows and the size does not. -/
theorem within_iff (site : Site) (user : Self) (info : List Octets) (channel : Channel)
    (hinfo : ∀ tag ∈ info,
      size site user ⟨RPL_ISUPPORT, [tag, getLang site user .irc2_RPL_ISUPPORT]⟩ ≤ maxMessageSize.toNat)
    (hmembers : ∀ nickname ∈ channel.members,
      size site user (nameReply site channel (site.delocaliseStr nickname)) ≤ maxMessageSize.toNat) :
    (∀ reply ∈ sendISUPPORT site user info ++ sendNames site user channel,
        size site user reply ≤ maxMessageSize.toNat) ↔
      ¬ IsupportOverruns (namesSent site user + (getLang site user .irc2_RPL_ISUPPORT).length)
          (namesCounted site user + (getLang site user .irc2_RPL_ISUPPORT).length) (info.map List.length) ∧
        ¬ NamesOverrun (namesSent site user + (site.delocaliseStr channel.name).length) (namesCounted site user)
          (channel.members.map (member site)) := by
  rw [List.forall_mem_append, isupport_within_iff hinfo, names_within_iff hmembers]

/-- Tags of 400 and 90 octets go on two lines, and two nicknames on one. -/
theorem within_iff_plain :
    (sendISUPPORT plainSite plainUser (sizedTags [400, 90])).length = 2 ∧
    ∀ reply ∈ sendISUPPORT plainSite plainUser (sizedTags [400, 90]) ++ sendNames plainSite plainUser plainChannel,
      size plainSite plainUser reply ≤ maxMessageSize.toNat := by
  obtain ⟨hsent, hcounted, hsuffix⟩ := plain_counts
  refine ⟨by decide +kernel, (within_iff plainSite plainUser (sizedTags [400, 90]) plainChannel
    (sizedTags_fit (by decide)) plainChannel_fits).2 ⟨?_, ?_⟩⟩
  · rw [hsent, hcounted, hsuffix, map_length_sizedTags]
    rintro ⟨first, line, tag, rest, hstart, -, hne, -, hle⟩
    obtain ⟨rfl, rfl⟩ := eq_of_suffix_pair hstart.suffix fun hnil => hne (by rw [hnil]; rfl)
    exact absurd hle (by decide)
  · rw [hsent, hcounted]
    rintro ⟨first, line, m, rest, hstart, -, hne, hover, -⟩
    obtain ⟨rfl, rfl⟩ := eq_of_suffix_pair hstart.suffix fun hnil => hne (by rw [hnil]; rfl)
    exact absurd hover (by decide)

/-- Tags of 400 and 84 octets: together they are within the budget of 484, but
the line with both has 514 octets. -/
theorem overruns_plain :
    (∀ tag ∈ sizedTags [400, 84],
      size plainSite plainUser ⟨RPL_ISUPPORT, [tag, getLang plainSite plainUser .irc2_RPL_ISUPPORT]⟩ ≤
        maxMessageSize.toNat) ∧
    (∀ nickname ∈ plainChannel.members,
      size plainSite plainUser (nameReply plainSite plainChannel (plainSite.delocaliseStr nickname)) ≤
        maxMessageSize.toNat) ∧
    ¬ ∀ reply ∈ sendISUPPORT plainSite plainUser (sizedTags [400, 84]) ++ sendNames plainSite plainUser plainChannel,
        size plainSite plainUser reply ≤ maxMessageSize.toNat := by
  obtain ⟨hsent, hcounted, hsuffix⟩ := plain_counts
  have hfit := sizedTags_fit (show ∀ n ∈ [400, 84], n ≤ 483 by decide)
  refine ⟨hfit, plainChannel_fits, fun h => ?_⟩
  have hno := (isupport_within_iff hfit).1 fun reply hreply => h reply (List.mem_append_left _ hreply)
  rw [hsent, hcounted, hsuffix, map_length_sizedTags] at hno
  exact hno ⟨true, [400], 84, [], .first, by decide, by decide, by decide, by decide⟩

end LongReplies

end KineIRCd.Irc2User

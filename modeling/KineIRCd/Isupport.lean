import KineIRCd.FileLog
import KineIRCd.LanguageTexts
import KineIRCd.Messages
import KineIRCd.ReplySizes
import Mathlib.Data.List.TakeWhile
/-!
# What the server supports

RPL_ISUPPORT tells clients what the server supports: tags, of which some come from
the configuration and one from the languages that are loaded. A client that takes
the lines apart finds the tags again, and in the last one the languages.
-/
namespace KineIRCd

open LibIRC2

def EQUALS : UInt8 := 0x3D
def STAR : UInt8 := 0x2A

/-! ## The name of the network -/

namespace Config

/-- `isspace`, `iscntrl` and `isprint` in the C locale. -/
def isspace (c : UInt8) : Bool := (9 ≤ c && c ≤ 13) || c = 32
def iscntrl (c : UInt8) : Bool := c < 32 || c = 127
def isprint (c : UInt8) : Bool := 32 ≤ c && c < 127

def unfriendly (c : UInt8) : Bool := c = COMMA || c = EQUALS || isspace c || iscntrl c

/-- `varHandleNetworkName`: the name as it is set, or the error string. The loop ends at a NUL. -/
def varHandleNetworkName (value : Octets) : Except Octets Octets :=
  if value = [] then .ok []
  else
    match (value.takeWhile (· ≠ 0)).find? unfriendly with
    | some c =>
      .error (if isprint c then octets "Unfriendly character found ('" ++ c :: octets "')"
        else octets "Unfriendly character found (#" ++ decimal c.toNat ++ octets ")")
    | none => .ok value

end Config

/-! ## The tags -/

namespace Irc2User

/-- The configuration that RPL_ISUPPORT tells, beside the limits in the environment. -/
structure ChannelLimits where
  maxNameLength : UInt16
  maxChannels : UInt64

/-- `preInitInfo`, as far as there are commands for it. -/
def preInitInfo : List Octets :=
  [octets "STD=i-d", octets "FNC", octets "INVEX", octets "EXCEPTS", octets "PENALTY", octets "RFC2812", octets "IIRC",
    octets "CHARSET=UTF-8", octets "CASEMAPPING=rfc1459", octets "PREFIX=(!uohv)!.@%+"]

/-- `getLanguageDataMap()` from the first code to the last. -/
def inOrder (languages : Languages) : List (Octets × Nat) :=
  (languages.languageDataMap.entries.map fun entry => (entry.1, entry.2)).mergeSort fun x y => decide (x.1 ≤ y.1)

def getLanguageCode (languages : Languages) (language : Nat) : Octets :=
  ((languages.languageData[language]?).map (·.languageCode)).getD []

def languageInfo (maxLanguages : UInt8) (languages : Languages) : Octets :=
  (inOrder languages).foldl (fun info entry => info ++ [COMMA] ++
      (if some entry.2 = languages.defaultLanguage then [STAR] else []) ++ getLanguageCode languages entry.2)
    (octets "LANGUAGE=" ++ decimal maxLanguages.toNat)

/-- `ISupport::initInfo`. -/
def initInfo (site : Site) (limits : ChannelLimits) (networkName : Octets) (languages : Languages) : List Octets :=
  preInitInfo ++
    [octets "NICKLEN=" ++ decimal site.maxNickNameLength, octets "CHANNELLEN=" ++ decimal limits.maxNameLength.toNat,
      octets "MAXCHANNELS=" ++ decimal limits.maxChannels.toNat] ++
    (if networkName ≠ [] then [octets "NETWORK=" ++ networkName] else []) ++ [languageInfo site.maxLanguages languages]

namespace Isupport

open LongReplies

/-! ## The lines -/

variable (site : Site) (user : Self)

/-- The line of a reply. -/
def replyLine (reply : Reply) : Octets :=
  formatNumeric (site.delocaliseStr site.serverName) (site.delocaliseStr user.user.nickname) reply.numeric
    reply.parameters

/-- The tags that a client finds in a line: what stands between its nickname and the text at the end. -/
def readTags (line : Octets) : List Octets :=
  match parseLine line with
  | some message => message.parameters.tail.dropLast
  | none => []

variable {site user} {info : List Octets}

theorem readTags_line (hserver : SPACE ∉ site.delocaliseStr site.serverName)
    (hnickname : Middle (site.delocaliseStr user.user.nickname)) {line : List Octets} (hline : ∀ tag ∈ line, Middle tag)
    (hne : line ≠ []) (suffix : Octets) :
    readTags (replyLine site user ⟨Numerics.RPL_ISUPPORT, [text line, suffix]⟩) = line := by
  have hformat : replyLine site user ⟨Numerics.RPL_ISUPPORT, [text line, suffix]⟩ =
      formatNumeric (site.delocaliseStr site.serverName) (site.delocaliseStr user.user.nickname) Numerics.RPL_ISUPPORT
        (line ++ [suffix]) := by
    rw [replyLine, formatNumeric, formatNumeric, text,
      formatParameters_joined (fun tag htag => (hline tag htag).nonempty) hne]
  rw [readTags, hformat, parseLine_formatNumeric _ _ hserver hnickname hline]
  simp

/-- A client that takes the lines apart finds the tags. -/
theorem readTags_sendISUPPORT (hserver : SPACE ∉ site.delocaliseStr site.serverName)
    (hnickname : Middle (site.delocaliseStr user.user.nickname)) (hinfo : ∀ tag ∈ info, Middle tag)
    (hfirst : ∀ tag ∈ info.head?,
      tag.length ≤ (isupportBudget site user (getLang site user .irc2_RPL_ISUPPORT)).toNat) :
    ((sendISUPPORT site user info).map (replyLine site user)).flatMap readTags = info := by
  have htokens : ∀ tag ∈ info, IsToken tag := fun tag htag => ⟨(hinfo tag htag).nonempty, (hinfo tag htag).space⟩
  have hflatten : (isupportLines (isupportBudget site user (getLang site user .irc2_RPL_ISUPPORT)) info).flatten =
      info := flatten_isupportLines htokens
  have hnonempty := nil_notMem_isupportLines_iff.2 hfirst
  rw [sendISUPPORT, isupportReplies_eq_map, List.map_map, List.flatMap_map]
  conv_rhs => rw [← hflatten]
  rw [← List.flatMap_id]
  refine List.flatMap_congr fun line hline => ?_
  refine readTags_line hserver hnickname (fun tag htag => hinfo tag ?_) (fun h => hnonempty (h ▸ hline)) _
  rw [← hflatten]
  exact List.mem_flatten.2 ⟨line, hline, htag⟩

/-! ## Thirteen tags a line -/

theorem text_length {line : List Octets} (h : ∀ tag ∈ line, IsToken tag) :
    2 * line.length ≤ (text line).length + 1 := by
  induction line using List.reverseRecOn with
  | nil => exact Nat.zero_le _
  | append_singleton line tag ih =>
    have hline := fun t ht => h t (List.mem_append_left _ ht)
    have htag : 0 < tag.length := List.length_pos_iff.2 (h tag (by simp)).1
    by_cases hne : line = []
    · subst hne
      rw [List.nil_append, text_single, List.length_singleton]
      omega
    · have htext : text line ≠ [] := text_ne_nil hline hne
      have hlength := ih hline
      rw [text_concat, addDelimited, if_neg htext]
      simp only [List.length_append, List.length_cons, List.length_nil]
      omega

theorem starts_true {full : Bool → List Octets → Octets → Bool} {s : List Octets}
    (h : Filling.Starts full info true s) : s = info := by
  cases h
  rfl

section
variable {maxOutputLength : UInt32} {first second : Octets} {more : List Octets}

/-- The first tag stays on the first line, if it fits. -/
theorem starts_shorter (hfirst : first.length ≤ maxOutputLength.toNat) {b : Bool} {s : List Octets}
    (h : Filling.Starts (fullISUPPORT maxOutputLength) (first :: more) b s) (hb : b = false) :
    s.length < (first :: more).length := by
  induction h with
  | first => cases hb
  | @next b line x rest hstart hne _ hfull ih =>
    cases b with
    | false =>
      have hlonger := ih rfl
      rw [List.length_append] at hlonger
      omega
    | true =>
      have hall := starts_true hstart
      rw [← hall, List.length_append]
      refine Nat.lt_add_of_pos_left (List.length_pos_iff.2 ?_)
      rintro rfl
      obtain ⟨rfl, -⟩ := List.cons.inj hall
      have hover := of_decide_eq_true hfull
      simp only [counted, if_true, List.length_nil, show text [] = [] from rfl, Nat.zero_add] at hover
      omega

/-- No more than fifteen tags, of which the first two fit on one line, fit on two lines of thirteen. -/
theorem carries_few (suffix : Octets) (hinfo : ∀ tag ∈ first :: second :: more, IsToken tag)
    (hfew : more.length ≤ 13) (hfirst : first.length ≤ maxOutputLength.toNat)
    (htwo : first.length + second.length ≤ 25) :
    Carries (first :: second :: more)
      (isupportReplies suffix maxOutputLength (first :: second :: more) [] 0) := by
  refine (carries_iff suffix maxOutputLength _).2 ⟨hinfo, by simpa using hfirst, fun rest hrest hmany => ?_⟩
  by_contra hshort
  have hbudget : 25 ≤ maxOutputLength.toNat := by
    have htokens : ∀ tag ∈ rest.take 14, IsToken tag := fun tag htag =>
      hinfo tag (hrest.suffix.subset (List.mem_of_mem_take htag))
    have htext := text_length htokens
    rw [List.length_take, Nat.min_eq_left hmany] at htext
    omega
  have hlength := starts_shorter hfirst hrest rfl
  cases hrest with
  | @next b line x rest hstart hne _ hfull =>
    cases b with
    | false =>
      have hlonger := starts_shorter hfirst hstart rfl
      have hline := List.length_pos_iff.2 (hne rfl)
      rw [List.length_append] at hlonger
      simp only [List.length_cons] at hlonger hmany
      omega
    | true =>
      have hall := starts_true hstart
      have hcount := congrArg List.length hall
      rw [List.length_append] at hcount
      simp only [List.length_cons] at hcount hmany hlength
      obtain ⟨tag, rfl⟩ := List.length_eq_one_iff.1 (show line.length = 1 by omega)
      -- the second tag fits, too
      obtain ⟨rfl, htail⟩ := List.cons.inj hall
      obtain ⟨rfl, -⟩ := List.cons.inj htail
      have hover := of_decide_eq_true hfull
      simp only [counted, if_true, List.length_singleton, text_single] at hover
      omega

end

/-! ## The name of the network -/

/-- The name that is configured, after another line of the configuration. -/
def setNetworkName (networkName value : Octets) : Octets :=
  match Config.varHandleNetworkName value with
  | .ok name => name
  | .error _ => networkName

theorem space_notMem_networkName {values : List Octets} (hvalues : ∀ value ∈ values, 0 ∉ value) :
    SPACE ∉ values.foldl setNetworkName [] := by
  refine List.foldlRecOn (motive := (SPACE ∉ ·)) values setNetworkName List.not_mem_nil ?_
  intro name hname value hvalue
  rw [setNetworkName, Config.varHandleNetworkName]
  split_ifs with hempty
  · exact List.not_mem_nil
  · have hall : value.takeWhile (· ≠ 0) = value := List.takeWhile_eq_self_iff.2 fun c hc =>
      decide_eq_true fun h => hvalues value hvalue (h ▸ hc)
    rw [hall]
    cases hfind : value.find? Config.unfriendly with
    | some c => exact hname
    | none => exact fun hspace => absurd (List.find?_eq_none.1 hfind SPACE hspace) (by decide)

/-! ## The languages -/

/-- What a client finds in the tag for languages: how many it may have at once, and
the codes there are, each with whether it is the default. -/
def readLanguages (tag : Octets) : Option (Nat × List (Octets × Bool)) :=
  match tag.splitOn COMMA with
  | [] => none
  | first :: entries =>
    if octets "LANGUAGE=" <+: first then
      some (FileLog.number (first.drop 9), entries.map fun entry =>
        if entry.head? = some STAR then (entry.tail, true) else (entry, false))
    else none

/-- A code that a client can tell from a list of codes and from the mark of the default. -/
structure Legible (code : Octets) : Prop where
  comma : COMMA ∉ code
  star : code.head? ≠ some STAR

def entryText (languages : Languages) (entry : Octets × Nat) : Octets :=
  (if some entry.2 = languages.defaultLanguage then [STAR] else []) ++ getLanguageCode languages entry.2

/-- The codes that are told, each with whether it is the default. -/
def offer (languages : Languages) : List (Octets × Bool) :=
  (inOrder languages).map fun entry =>
    (getLanguageCode languages entry.2, decide (some entry.2 = languages.defaultLanguage))

section
variable {languages : Languages}

theorem languageInfo_eq (maxLanguages : UInt8) (languages : Languages) : languageInfo maxLanguages languages =
    [COMMA].intercalate
      ((octets "LANGUAGE=" ++ decimal maxLanguages.toNat) :: (inOrder languages).map (entryText languages)) := by
  have hfold : ∀ (entries : List (Octets × Nat)) (info : Octets),
      entries.foldl (fun info entry => info ++ [COMMA] ++
        (if some entry.2 = languages.defaultLanguage then [STAR] else []) ++ getLanguageCode languages entry.2) info =
      info ++ (entries.map (entryText languages)).flatMap (COMMA :: ·) := by
    intro entries
    induction entries with
    | nil => simp
    | cons entry entries ih =>
      intro info
      rw [List.foldl_cons, ih, List.map_cons, List.flatMap_cons, entryText]
      simp
  rw [languageInfo, hfold, intercalate_cons_eq]

theorem mem_inOrder {entry : Octets × Nat} :
    entry ∈ inOrder languages ↔ languages.languageDataMap.lookup entry.1 = some entry.2 := by
  rw [inOrder, List.mem_mergeSort, ← Option.mem_def, AList.mem_lookup_iff]
  constructor
  · intro h
    obtain ⟨⟨code, language⟩, hmem, rfl⟩ := List.mem_map.1 h
    exact hmem
  · exact fun h => List.mem_map.2 ⟨_, h, rfl⟩

/-- Each language is listed once, by its code. -/
theorem pairwise_inOrder : (inOrder languages).Pairwise fun x y => x.1 < y.1 := by
  have hsorted : (inOrder languages).Pairwise fun x y => decide (x.1 ≤ y.1) = true := by
    refine List.pairwise_mergeSort (fun x y z hxy hyz => ?_) (fun x y => ?_) _
    · exact decide_eq_true (List.le_trans (of_decide_eq_true hxy) (of_decide_eq_true hyz))
    · simpa using List.le_total x.1 y.1
  have hnodup : (inOrder languages).Pairwise fun x y => x.1 ≠ y.1 := by
    have hkeys : (languages.languageDataMap.entries.map fun entry => (entry.1, entry.2)).Pairwise
        fun x y => x.1 ≠ y.1 := by
      rw [List.pairwise_map]
      exact List.pairwise_map.1 languages.languageDataMap.nodupKeys
    exact (List.mergeSort_perm _ _).symm.pairwise hkeys fun h => h.symm
  refine (hsorted.and hnodup).imp fun {x y} h => ?_
  by_contra hnot
  exact h.2 (List.le_antisymm (of_decide_eq_true h.1) (List.not_lt.1 hnot))

/-- The marks of the default and the codes come back. -/
theorem readLanguages_languageInfo (maxLanguages : UInt8)
    (hlegible : ∀ entry ∈ inOrder languages, Legible (getLanguageCode languages entry.2)) :
    readLanguages (languageInfo maxLanguages languages) = some (maxLanguages.toNat, offer languages) := by
  have hsplit : (languageInfo maxLanguages languages).splitOn COMMA =
      (octets "LANGUAGE=" ++ decimal maxLanguages.toNat) :: (inOrder languages).map (entryText languages) := by
    rw [languageInfo_eq]
    refine List.splitOn_intercalate COMMA (List.forall_mem_cons.2 ⟨?_, ?_⟩) (by simp)
    · exact List.not_mem_append (by decide) (notMem_decimal (.inl (by decide)))
    · refine List.forall_mem_map.2 fun entry hentry => List.not_mem_append ?_ (hlegible entry hentry).comma
      split_ifs
      · decide
      · exact List.not_mem_nil
  rw [readLanguages, hsplit]
  dsimp only
  have hlimit : (octets "LANGUAGE=" ++ decimal maxLanguages.toNat).drop 9 = decimal maxLanguages.toNat :=
    List.drop_left' rfl
  rw [if_pos (List.prefix_append _ _), hlimit, FileLog.number_decimal, List.map_map, offer]
  refine congrArg (fun entries => some (maxLanguages.toNat, entries)) (List.map_congr_left fun entry hentry => ?_)
  have hstar := (hlegible entry hentry).star
  rw [Function.comp_apply, entryText]
  by_cases hdefault : some entry.2 = languages.defaultLanguage
  · simp [hdefault]
  · simp [hdefault, hstar]

/-- No other tag is taken for it: they all start with another letter. -/
theorem readLanguages_other {name : Octets} (hne : name ≠ []) (h : name.head? ≠ some 0x4C) (value : Octets) :
    readLanguages (name ++ value) = none := by
  rw [readLanguages]
  cases hsplit : (name ++ value).splitOn COMMA with
  | nil => rfl
  | cons first entries =>
    refine if_neg fun hfirst => h ?_
    obtain ⟨rest, htag⟩ : octets "LANGUAGE=" <+: name ++ value := by
      have hjoin : [COMMA].intercalate ((name ++ value).splitOn COMMA) = name ++ value := List.intercalate_splitOn COMMA
      rw [← hjoin, hsplit, intercalate_cons_eq]
      exact hfirst.trans (List.prefix_append _ _)
    obtain ⟨c, name, rfl⟩ := List.exists_cons_of_ne_nil hne
    exact (congrArg List.head? htag).symm

end

/-! ## Codes have no spaces -/

open Languages LangTags

variable {δ : Type} {outside : Outside δ}

theorem space_notMem_codeOf (entry : Entry) : SPACE ∉ FileLoad.codeOf entry := by
  intro h
  rw [FileLoad.codeOf, substr, List.drop_zero, toLower, ← List.map_take] at h
  obtain ⟨c, hc, e⟩ := List.mem_map.1 h
  have hspace : c = SPACE := by
    rw [toLowerOctet] at e
    split_ifs at e with hupper
    · -- no letter becomes a space
      exfalso
      have hlow := UInt8.le_iff_toNat_le.1 hupper.1
      have hhigh := UInt8.le_iff_toNat_le.1 hupper.2
      have hnat := congrArg UInt8.toNat e
      rw [UInt8.toNat_add] at hnat
      simp [SPACE] at hlow hhigh hnat
      omega
    · exact e
  subst hspace
  exact absurd (List.false_of_mem_take_findIdx hc) (by decide)

theorem space_notMem_code (file : FileLoad δ) : SPACE ∉ file.code outside := by
  rw [FileLoad.code]
  cases ((file.entries outside).filter fun entry => entry.tag = octets ".LANGCODE").getLast? with
  | none => exact List.not_mem_nil
  | some entry => exact space_notMem_codeOf entry

/-- A load puts nothing but the code of its file into the map. -/
theorem lookup_load {languages : Languages} {file : FileLoad δ} {code : Octets} {language : Nat}
    (h : (load outside languages file).languageDataMap.lookup code = some language) :
    languages.languageDataMap.lookup code = some language ∨ code = file.code outside := by
  by_cases hout : file.outcome outside = .loaded
  · rw [load_of_loaded hout, Languages.finish, processMaps_languageDataMap] at h
    have hcode : (file.languageData outside languages).languageCode = file.code outside :=
      FileLoad.languageData_languageCode languages
    cases hfind : (languages.addTags (file.tags outside)).findByCode
        (file.languageData outside languages).languageCode with
    | none =>
      rw [(place_new (FileLoad.toLower_languageData languages) hfind).2] at h
      by_cases hsame : code = (file.languageData outside languages).languageCode
      · exact .inr (hsame.trans hcode)
      · refine .inl ?_
        rwa [AList.lookup_insert_ne hsame, addTags_languageDataMap] at h
    | some found =>
      rw [place_old hfind] at h
      refine .inl ?_
      rwa [addTags_languageDataMap] at h
  · rw [load_of_not_loaded hout, addTags_languageDataMap] at h
    exact .inl h

/-- No code of a language that is loaded has a space in it. -/
theorem space_notMem_codes (memory : Address → List TagMapEntry) (loads : List (FileLoad δ)) {code : Octets}
    {language : Nat}
    (h : (loads.foldl (load outside) (new memory)).languageDataMap.lookup code = some language) : SPACE ∉ code := by
  induction loads using List.reverseRecOn with
  | nil => simp [Languages.new] at h
  | append_singleton loads file ih =>
    rw [List.foldl_concat] at h
    rcases lookup_load h with hold | rfl
    · exact ih hold
    · exact space_notMem_code file

/-! ## What clients are told -/

theorem middle_preInitInfo : ∀ tag ∈ preInitInfo, Middle tag := by
  have hall : preInitInfo.all (fun tag => !tag.isEmpty && !tag.contains SPACE && tag.head? != some COLON) = true := by
    decide
  intro tag htag
  have h := List.all_eq_true.1 hall tag htag
  simp only [Bool.and_eq_true, Bool.not_eq_true', List.isEmpty_eq_false_iff, bne_iff_ne, List.contains_eq_mem,
    decide_eq_false_iff_not] at h
  exact ⟨h.1.1, h.1.2, h.2⟩

/-- A tag with a value. -/
theorem middle_named {name value : Octets} (hname : Middle name) (hvalue : SPACE ∉ value) : Middle (name ++ value) where
  nonempty h := hname.nonempty (List.append_eq_nil_iff.1 h).1
  space := List.not_mem_append hname.space hvalue
  colon := by
    obtain ⟨c, name, rfl⟩ := List.exists_cons_of_ne_nil hname.nonempty
    exact hname.colon

theorem space_notMem_languageInfo {languages : Languages} (maxLanguages : UInt8)
    (hspace : ∀ entry ∈ inOrder languages, SPACE ∉ getLanguageCode languages entry.2) :
    ∃ value, languageInfo maxLanguages languages = octets "LANGUAGE=" ++ value ∧ SPACE ∉ value := by
  refine ⟨decimal maxLanguages.toNat ++ ((inOrder languages).map (entryText languages)).flatMap (COMMA :: ·), ?_, ?_⟩
  · rw [languageInfo_eq, intercalate_cons_eq, List.append_assoc]
  · refine List.not_mem_append (notMem_decimal (.inl (by decide))) fun h => ?_
    obtain ⟨text, htext, hmem⟩ := List.mem_flatMap.1 h
    obtain ⟨entry, hentry, rfl⟩ := List.mem_map.1 htext
    rcases List.mem_cons.1 hmem with h | h
    · exact absurd h (by decide)
    · refine List.not_mem_append ?_ (hspace entry hentry) h
      split_ifs
      · decide
      · exact List.not_mem_nil

section
variable (limits : ChannelLimits) {networkName : Octets} {languages : Languages}

theorem middle_initInfo (hname : SPACE ∉ networkName)
    (hspace : ∀ entry ∈ inOrder languages, SPACE ∉ getLanguageCode languages entry.2) :
    ∀ tag ∈ initInfo site limits networkName languages, Middle tag := by
  have hnumber : ∀ n, SPACE ∉ decimal n := fun n => notMem_decimal (.inl (by decide))
  obtain ⟨value, hvalue, hvalues⟩ := space_notMem_languageInfo site.maxLanguages hspace
  intro tag htag
  simp only [initInfo, List.mem_append, List.mem_cons, List.not_mem_nil, or_false] at htag
  rcases htag with ((htag | rfl | rfl | rfl) | htag) | rfl
  · exact middle_preInitInfo tag htag
  · exact middle_named ⟨by decide, by decide, by decide⟩ (hnumber _)
  · exact middle_named ⟨by decide, by decide, by decide⟩ (hnumber _)
  · exact middle_named ⟨by decide, by decide, by decide⟩ (hnumber _)
  · split_ifs at htag with hnamed
    · rw [List.mem_singleton.1 htag]
      exact middle_named ⟨by decide, by decide, by decide⟩ hname
    · cases htag
  · rw [hvalue]
    exact middle_named ⟨by decide, by decide, by decide⟩ hvalues

/-- One tag is about languages. -/
theorem filterMap_initInfo : (initInfo site limits networkName languages).filterMap readLanguages =
    (readLanguages (languageInfo site.maxLanguages languages)).toList := by
  have hother : ∀ tag ∈ preInitInfo ++
      [octets "NICKLEN=" ++ decimal site.maxNickNameLength, octets "CHANNELLEN=" ++ decimal limits.maxNameLength.toNat,
        octets "MAXCHANNELS=" ++ decimal limits.maxChannels.toNat] ++
      (if networkName ≠ [] then [octets "NETWORK=" ++ networkName] else []), readLanguages tag = none := by
    have hall : preInitInfo.all (fun tag => !tag.isEmpty && tag.head? != some 0x4C) = true := by decide
    intro tag htag
    simp only [List.mem_append, List.mem_cons, List.not_mem_nil, or_false] at htag
    rcases htag with (htag | rfl | rfl | rfl) | htag
    · have h := List.all_eq_true.1 hall tag htag
      simp only [Bool.and_eq_true, Bool.not_eq_true', List.isEmpty_eq_false_iff, bne_iff_ne] at h
      rw [← List.append_nil tag]
      exact readLanguages_other h.1 h.2 []
    · exact readLanguages_other (by decide) (by decide) _
    · exact readLanguages_other (by decide) (by decide) _
    · exact readLanguages_other (by decide) (by decide) _
    · split_ifs at htag
      · rw [List.mem_singleton.1 htag]
        exact readLanguages_other (by decide) (by decide) _
      · cases htag
  rw [initInfo, List.filterMap_append, List.filterMap_eq_nil_iff.2 hother, List.nil_append]
  cases hread : readLanguages (languageInfo site.maxLanguages languages) with
  | none => simp [hread]
  | some told => simp [hread]

end

/-- Whatever files are loaded and whatever names the network is given: a client that
takes the lines of RPL_ISUPPORT apart finds the tags of `initInfo`, in their order and
no more than thirteen on a line. It knows how many languages it may have, which ones
there are, each once and in order, and which one is the default. -/
theorem isupport_told (site : Site) (user : Self) (limits : ChannelLimits) (values : List Octets) (outside : Outside δ)
    (memory : Address → List TagMapEntry) (loads : List (FileLoad δ))
    (hfits : (tagsOf outside loads).card < UInt32.size) (hvalues : ∀ value ∈ values, 0 ∉ value)
    (hserver : SPACE ∉ site.delocaliseStr site.serverName) (hnickname : Middle (site.delocaliseStr user.user.nickname))
    (hbudget : 7 ≤ (isupportBudget site user (getLang site user .irc2_RPL_ISUPPORT)).toNat)
    (hlegible : ∀ code ∈ (loads.foldl (load outside) (new memory)).languageDataMap, Legible code) :
    let languages := loads.foldl (load outside) (new memory)
    let info := initInfo site limits (values.foldl setNetworkName []) languages
    Carries info (sendISUPPORT site user info) ∧
      ((sendISUPPORT site user info).map (replyLine site user)).flatMap readTags = info ∧
      ∃ offer, info.filterMap readLanguages = [(site.maxLanguages.toNat, offer)] ∧
        (offer.Pairwise fun x y => x.1 < y.1) ∧
        ∀ code isDefault, (code, isDefault) ∈ offer ↔
          ∃ language, languages.languageDataMap.lookup code = some language ∧
            isDefault = decide (some language = languages.defaultLanguage) := by
  intro languages info
  have hcoherent := (loads_coherent outside memory loads hfits).1
  -- a language stands under its code
  have hcode : ∀ entry ∈ inOrder languages, getLanguageCode languages entry.2 = entry.1 := by
    intro entry hentry
    obtain ⟨-, d, hd, hsame⟩ := hcoherent.codes entry.1 entry.2 (mem_inOrder.1 hentry)
    rw [getLanguageCode, hd]
    exact hsame
  have hspace : ∀ entry ∈ inOrder languages, SPACE ∉ getLanguageCode languages entry.2 := by
    intro entry hentry
    rw [hcode entry hentry]
    exact space_notMem_codes memory loads (mem_inOrder.1 hentry)
  have hlegible' : ∀ entry ∈ inOrder languages, Legible (getLanguageCode languages entry.2) := by
    intro entry hentry
    rw [hcode entry hentry]
    exact hlegible entry.1 (AList.lookup_isSome.1 (by rw [mem_inOrder.1 hentry]; rfl))
  have hmiddle : ∀ tag ∈ info, Middle tag := middle_initInfo limits (space_notMem_networkName hvalues) hspace
  have hfirst : ∀ tag ∈ info.head?,
      tag.length ≤ (isupportBudget site user (getLang site user .irc2_RPL_ISUPPORT)).toNat := by
    intro tag htag
    obtain rfl : octets "STD=i-d" = tag := Option.some_inj.1 htag
    exact hbudget
  refine ⟨?_, readTags_sendISUPPORT hserver hnickname hmiddle hfirst, offer languages, ?_, ?_, ?_⟩
  · have htokens : ∀ tag ∈ info, IsToken tag := fun tag htag => ⟨(hmiddle tag htag).nonempty, (hmiddle tag htag).space⟩
    have hinfo : info = octets "STD=i-d" :: octets "FNC" :: info.drop 2 := rfl
    have hfew : (info.drop 2).length ≤ 13 := by
      simp only [info, initInfo, preInitInfo]
      split_ifs <;> simp
    rw [hinfo] at htokens ⊢
    exact carries_few _ htokens hfew hbudget (by decide)
  · rw [filterMap_initInfo, readLanguages_languageInfo _ hlegible']
    rfl
  · refine List.pairwise_map.2 ((List.Pairwise.and_mem.1 pairwise_inOrder).imp fun {x y} h => ?_)
    rw [hcode x h.1, hcode y h.2.1]
    exact h.2.2
  · intro code isDefault
    constructor
    · intro h
      obtain ⟨entry, hentry, e⟩ := List.mem_map.1 h
      obtain ⟨rfl, rfl⟩ := Prod.mk.inj e
      exact ⟨entry.2, by rw [hcode entry hentry]; exact mem_inOrder.1 hentry, rfl⟩
    · rintro ⟨language, hlanguage, rfl⟩
      have hentry : (code, language) ∈ inOrder languages := mem_inOrder.2 hlanguage
      exact List.mem_map.2 ⟨_, hentry, by rw [hcode _ hentry]⟩

/-- English and French, on a network that could not be renamed. -/
theorem isupport_told_merged : let languages := mergedLoads.foldl (load .sample) (new fun _ => [])
    let info := initInfo plainSite ⟨40, 10⟩ ([octets "Alien", octets "A B"].foldl setNetworkName []) languages
    octets "NETWORK=Alien" ∈ info ∧
      ((sendISUPPORT plainSite plainUser info).map
        (replyLine plainSite plainUser)).flatMap readTags = info ∧
      ∃ offer, info.filterMap readLanguages = [(2, offer)] ∧ (octets "en", false) ∈ offer ∧
        (octets "fr", true) ∈ offer := by
  intro languages info
  have hkeys : languages.languageDataMap.keys = [octets "fr", octets "en"] := by decide +kernel
  have hlegible : ∀ code ∈ languages.languageDataMap, Legible code := by
    intro code hcode
    rw [AList.mem_keys, hkeys] at hcode
    rcases List.mem_cons.1 hcode with rfl | hcode
    · exact ⟨by decide, by decide⟩
    · rw [List.mem_singleton.1 hcode]
      exact ⟨by decide, by decide⟩
  have hloads : (tagsOf .sample mergedLoads).card < UInt32.size := by decide +kernel
  obtain ⟨-, htags, offer, hread, -, hoffer⟩ := isupport_told plainSite plainUser ⟨40, 10⟩
    [octets "Alien", octets "A B"] .sample (fun _ => []) mergedLoads hloads (by decide)
    (by decide) ⟨by decide, by decide, by decide⟩ (by decide) hlegible
  have hnetwork : octets "NETWORK=Alien" ∈ info := by
    refine List.mem_append_left _ (List.mem_append_right _ ?_)
    have hname : [octets "Alien", octets "A B"].foldl setNetworkName [] = octets "Alien" := by decide
    rw [hname]
    exact List.mem_singleton.2 rfl
  exact ⟨hnetwork, htags, offer, hread, (hoffer _ _).2 ⟨0, by decide +kernel, by decide +kernel⟩,
    (hoffer _ _).2 ⟨1, by decide +kernel, by decide +kernel⟩⟩

end Isupport

end Irc2User

end KineIRCd

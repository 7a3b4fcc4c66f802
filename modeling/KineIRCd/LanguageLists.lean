import KineIRCd.Daemon
import KineIRCd.Languages
import KineIRCd.Lib.Runs
import KineIRCd.RequestLimits
/-!
# The language list of a user

A user keeps pointers to the languages it reads, the null pointer for no
language among them. The functions here answer nothing when they read past the
end of the list or follow a null pointer.
-/
namespace KineIRCd.Irc2User

open LibIRC2 LibIRC2.Numerics

/-- `Languages::languageDataList_type`, with the data in place of pointers to
it. `none` is the null pointer. -/
abbrev LanguageDataList := List (Option LanguageData)

namespace LanguageDataList

/-- The languages of the list by code. -/
def codes (list : LanguageDataList) : LanguageList := list.map (Option.map (·.languageCode))

end LanguageDataList

/-- `languages()`, as far as LANGUAGE asks. -/
structure Catalogue where
  /-- `getLanguageDataMap()`, in the order of the map. -/
  languageDataMap : List LanguageData
  defaultLanguage : Option LanguageData
  findByCode : Octets → Option LanguageData
  highestTagID : UInt32

/-- A site that has the languages of a catalogue. -/
def Site.speaking (site : Site) (catalogue : Catalogue) : Site :=
  { site with
    findByCode := fun code => (catalogue.findByCode code).map (·.languageCode)
    defaultLanguage := catalogue.defaultLanguage.map (·.languageCode) }

/-- The user with a list of languages. -/
def Self.speaking (user : Self) (list : LanguageDataList) : Self :=
  { user with user := { user.user with languageList := list.codes } }

namespace LanguageLists

/-- `Languages::nullLanguageCode`. -/
def nullLanguageCode : Octets := octets "none"

/-- `Output::replacementCharacter`. -/
def replacementCharacter : Octets := octets "*"

variable (site : Site) (catalogue : Catalogue) (user : Self)

/-- `GETLANG` for a user with the list. -/
def text (list : LanguageDataList) (tag : LangTag) (parameters : List WString := []) : Octets :=
  getLang site (user.speaking list) tag parameters

/-! ## The handlers -/

def codeOrNone (entry : Option LanguageData) : Octets := (entry.map (·.languageCode)).getD nullLanguageCode

/-- The codes that `sendLanguageList` writes into `langs`. -/
def langs (list : LanguageDataList) : Octets :=
  if list = [] then nullLanguageCode else joinDelimited COMMA (list.map codeOrNone)

def sendLanguageList (list : LanguageDataList) : Option (List Reply) := do
  -- the name is that of the first entry, whatever it is
  let entry ← list.head?
  let language ← entry
  return [⟨RPL_YOURLANGUAGEIS, [langs list, text site user list .irc2_RPL_YOURLANGUAGEIS [language.languageName]]⟩]

/-- The modes LANGUAGE shows for a language, to a user whose list starts with `first`. -/
def modes (first : Option LanguageData) (language : LanguageData) : Octets :=
  let modes := (if some language = catalogue.defaultLanguage then octets "d" else []) ++
    (if language.tagCount < catalogue.highestTagID.toNat then octets "i" else []) ++
    (if some language = first then octets "S" else [])
  if modes = [] then replacementCharacter else modes

/-- The reply about one language. Its revision is shown as an `unsigned long`. -/
def listLanguage (list : LanguageDataList) (language : LanguageData) : Option Reply := do
  let first ← list.head?
  return ⟨RPL_LANGUAGE, [language.languageCode, decimal (BitVec.ofInt 64 language.fileRevision).toNat,
    if language.maintainer = [] then replacementParameter else site.delocaliseStr language.maintainer,
    modes catalogue first language,
    site.delocaliseStr (if language.languageNote = [] then language.languageName
      else language.languageName ++ wide " (" ++ language.languageNote ++ wide ")")]⟩

/-- The loop over the codes of LANGUAGE, for a user with `list`: the new list, or
`none` once the limit was hit, and the replies on the way. -/
def languageCodes (list : LanguageDataList) (langCodes : StringTokens) (languageCount : UInt8)
    (languageList : LanguageDataList) (replies : List Reply) : Option LanguageDataList × List Reply :=
  if _h : langCodes.hasMoreTokens = true then
    let code := (langCodes.nextToken COMMA).1
    let rest := (langCodes.nextToken COMMA).2
    let languageData := catalogue.findByCode code
    if languageData = none ∧ toLower code ≠ nullLanguageCode then
      languageCodes list rest languageCount languageList
        (replies ++ [⟨ERR_NOLANGUAGE, [code, text site user list .irc2_ERR_NOLANGUAGE]⟩])
    else if languageCount + 1 > site.maxLanguages then
      (none, replies ++ [⟨ERR_TOOMANYLANGUAGES,
        [decimal site.maxLanguages.toNat, text site user list .irc2_ERR_TOOMANYLANGUAGES]⟩])
    else languageCodes list rest (languageCount + 1) (languageList ++ [languageData]) replies
  else (some languageList, replies)
termination_by langCodes.unread.length
decreasing_by all_goals exact StringTokens.nextToken_length langCodes COMMA _h

/-- LANGUAGE from a user with `list`: the list afterwards, and the replies. -/
def handleLANGUAGE (list : LanguageDataList) (parameters : List Octets) :
    Option (LanguageDataList × List Reply) :=
  match parameters with
  | [] => do
    let replies ← catalogue.languageDataMap.mapM (listLanguage site catalogue list)
    return (list, replies ++ [⟨RPL_ENDOF_GENERIC,
      [octets "LANGUAGE", text site user list .irc2_RPL_ENDOF_GENERIC_LANGUAGE]⟩])
  | codes :: _ =>
    match languageCodes site catalogue user list ⟨codes⟩ 0 [] [] with
    | (some (entry :: entries), replies) =>
      -- doEventLanguageChange
      (sendLanguageList site user (entry :: entries)).map fun told => (entry :: entries, replies ++ told)
    | (_, replies) => some (list, replies)

/-- What the constructor does about languages, once it knows whether the user
could be added. -/
def construct (registered : Bool) : Option (LanguageDataList × List Reply) :=
  if registered then
    (sendLanguageList site user [catalogue.defaultLanguage]).map fun told => ([catalogue.defaultLanguage], told)
  else some ([], [])

/-! ## Telling the user -/

/-- The codes of a list in order. -/
def listCodes (list : LanguageDataList) : Octets :=
  [COMMA].intercalate (if list = [] then [nullLanguageCode] else list.map codeOrNone)

/-- A handler came to its end, and told the user no codes but those of the list. -/
def Tells (result : Option (LanguageDataList × List Reply)) : Prop :=
  ∃ list replies, result = some (list, replies) ∧
    ∀ reply ∈ replies, reply.numeric = RPL_YOURLANGUAGEIS → reply.parameters.head? = some (listCodes list)

/-- A list that `sendLanguageList` can tell: the first entry is a language, and
has a code unless it is the only one. -/
def Tellable (list : LanguageDataList) : Prop :=
  ∃ language entries, list = some language :: entries ∧ (language.languageCode = [] → entries = [])

variable {site catalogue user}

theorem not_tells_none : ¬ Tells none := by
  rintro ⟨_, _, h, -⟩
  cases h

theorem not_tellable_nil : ¬ Tellable [] := by
  rintro ⟨_, _, h, -⟩
  cases h

theorem not_tellable_none {entries : LanguageDataList} : ¬ Tellable (none :: entries) := by
  rintro ⟨_, _, h, -⟩
  cases h

theorem langs_eq_iff {language : LanguageData} {entries : LanguageDataList} :
    langs (some language :: entries) = listCodes (some language :: entries) ↔
      (language.languageCode = [] → entries = []) := by
  rw [langs, listCodes, if_neg (List.cons_ne_nil _ _), if_neg (List.cons_ne_nil _ _), joinDelimited_eq_iff]
  rw [List.map_cons, List.head?_cons, Option.some_inj, List.length_cons, List.length_map]
  rw [← Nat.succ_eq_add_one, Nat.succ_le_succ_iff, Nat.le_zero, List.length_eq_zero_iff]
  rfl

theorem tells_sendLanguageList_iff {list : LanguageDataList} {replies : List Reply}
    (hreplies : ∀ reply ∈ replies, reply.numeric ≠ RPL_YOURLANGUAGEIS) :
    Tells ((sendLanguageList site user list).map fun told => (list, replies ++ told)) ↔ Tellable list := by
  rcases list with _ | ⟨_ | language, entries⟩
  · exact iff_of_false not_tells_none not_tellable_nil
  · exact iff_of_false not_tells_none not_tellable_none
  · constructor
    · rintro ⟨_, _, heq, h⟩
      obtain ⟨rfl, rfl⟩ := Prod.mk.inj (Option.some_inj.1 heq)
      have := h _ (List.mem_append_right _ List.mem_cons_self) rfl
      exact ⟨language, entries, rfl, langs_eq_iff.1 (Option.some_inj.1 this)⟩
    · rintro ⟨_, _, heq, h⟩
      obtain ⟨hlanguage, rfl⟩ := List.cons.inj heq
      obtain rfl := Option.some_inj.1 hlanguage
      refine ⟨_, _, rfl, ?_⟩
      intro reply hmem hnumeric
      rcases List.mem_append.1 hmem with hmem | hmem
      · exact absurd hnumeric (hreplies reply hmem)
      · obtain rfl := List.mem_singleton.1 hmem
        exact congrArg some (langs_eq_iff.2 h)

end LanguageLists

/-! ## The languages a request names -/

/-- Does LANGUAGE take the code? -/
def Catalogue.accepts (catalogue : Catalogue) (code : Octets) : Bool :=
  catalogue.findByCode code ≠ none ∨ toLower code = LanguageLists.nullLanguageCode

/-- The languages that codes name, less the codes LANGUAGE does not take. -/
def Catalogue.accepted (catalogue : Catalogue) (langCodes : StringTokens) : LanguageDataList :=
  ((langCodes.tokens COMMA).filter catalogue.accepts).map catalogue.findByCode

/-- A request the limit lets through. The largest limit lets any through. -/
def Site.fits (site : Site) (catalogue : Catalogue) (codes : Octets) : Prop :=
  site.maxLanguages = 255 ∨ (catalogue.accepted ⟨codes⟩).length ≤ site.maxLanguages.toNat

namespace LanguageLists

variable {site : Site} {catalogue : Catalogue} {user : Self} {list : LanguageDataList}

theorem accepts_iff (code : Octets) :
    catalogue.accepts code = true ↔ ¬ (catalogue.findByCode code = none ∧ toLower code ≠ nullLanguageCode) := by
  rw [Catalogue.accepts, decide_eq_true_iff, not_and_or, not_not]

theorem accepted_of_more {langCodes : StringTokens} (hmore : langCodes.hasMoreTokens = true) :
    catalogue.accepted langCodes =
      (if catalogue.accepts (langCodes.nextToken COMMA).1 then [catalogue.findByCode (langCodes.nextToken COMMA).1]
        else []) ++ catalogue.accepted (langCodes.nextToken COMMA).2 := by
  rw [Catalogue.accepted, StringTokens.tokens_of_more hmore, List.filter_cons]
  split_ifs
  · rfl
  · rfl

/-- A list the loop comes to holds the languages named, after those it had. -/
theorem languageCodes_some {langCodes : StringTokens} {count : UInt8} {languageList : LanguageDataList}
    {replies : List Reply} :
    ∀ l ∈ (languageCodes site catalogue user list langCodes count languageList replies).1,
      l = languageList ++ catalogue.accepted langCodes := by
  fun_induction languageCodes site catalogue user list langCodes count languageList replies with
  | case1 langCodes count languageList replies hmore code rest data hrefused ih =>
    rwa [accepted_of_more hmore, if_neg fun haccepted => (accepts_iff _).1 haccepted hrefused, List.nil_append]
  | case2 => exact fun _ h => nomatch h
  | case3 langCodes count languageList replies hmore code rest data haccepted hwithin ih =>
    rwa [accepted_of_more hmore, if_pos ((accepts_iff _).2 haccepted), ← List.append_assoc]
  | case4 langCodes count languageList replies hdone =>
    intro l hl
    rw [Catalogue.accepted, StringTokens.tokens_of_done hdone, List.filter_nil, List.map_nil, List.append_nil]
    exact (Option.some_inj.1 hl).symm

/-- On the way it tells no list. -/
theorem languageCodes_replies {langCodes : StringTokens} {count : UInt8} {languageList : LanguageDataList}
    {replies : List Reply} (h : ∀ reply ∈ replies, reply.numeric ≠ RPL_YOURLANGUAGEIS) :
    ∀ reply ∈ (languageCodes site catalogue user list langCodes count languageList replies).2,
      reply.numeric ≠ RPL_YOURLANGUAGEIS := by
  have hconcat : ∀ {replies : List Reply} {reply : Reply}, (∀ reply ∈ replies, reply.numeric ≠ RPL_YOURLANGUAGEIS) →
      reply.numeric ≠ RPL_YOURLANGUAGEIS → ∀ r ∈ replies ++ [reply], r.numeric ≠ RPL_YOURLANGUAGEIS := by
    intro replies reply hreplies hreply r hr
    rcases List.mem_append.1 hr with hr | hr
    · exact hreplies r hr
    · obtain rfl := List.mem_singleton.1 hr
      exact hreply
  fun_induction languageCodes site catalogue user list langCodes count languageList replies with
  | case1 _ _ _ _ _ _ _ _ _ ih => exact ih (hconcat h (Nat.ne_of_beq_eq_false rfl))
  | case2 => exact hconcat h (Nat.ne_of_beq_eq_false rfl)
  | case3 _ _ _ _ _ _ _ _ _ _ ih => exact ih h
  | case4 => exact h

/-! ## By code -/

theorem maxLanguages_speaking : (site.speaking catalogue).maxLanguages = site.maxLanguages := rfl

theorem acceptedLanguages_speaking (langCodes : StringTokens) :
    acceptedLanguages (site.speaking catalogue) langCodes = (catalogue.accepted langCodes).codes := by
  have haccepts : acceptsCode (site.speaking catalogue) = catalogue.accepts := by
    funext code
    rw [acceptsCode, Catalogue.accepts]
    congr 1
    rw [Ne, Site.speaking, Option.map_eq_none_iff]
    rfl
  rw [acceptedLanguages, haccepts, LanguageDataList.codes, Catalogue.accepted, List.map_map]
  rfl

theorem sendReplies_append (replies more : List Reply) (w : World) :
    sendReplies site user (replies ++ more) w = sendReplies site user more (sendReplies site user replies w) :=
  List.foldl_append

/-- The loop is that of the handler by code, which sends the replies on the way. -/
theorem languageCodes_speaking (langCodes : StringTokens) (count : UInt8) (languageList : LanguageDataList)
    (replies : List Reply) (w : World) :
    Irc2User.languageCodes (site.speaking catalogue) (user.speaking list) langCodes count languageList.codes
        (sendReplies site user replies w) =
      ((languageCodes site catalogue user list langCodes count languageList replies).1.map (·.codes),
        sendReplies site user (languageCodes site catalogue user list langCodes count languageList replies).2 w) := by
  have hnone : ∀ code, (site.speaking catalogue).findByCode code = none ↔ catalogue.findByCode code = none := by
    intro code
    exact Option.map_eq_none_iff
  fun_induction languageCodes site catalogue user list langCodes count languageList replies with
  | case1 langCodes count languageList replies hmore code rest data hrefused ih =>
    rw [Irc2User.languageCodes, dif_pos hmore, if_pos ⟨(hnone _).2 hrefused.1, hrefused.2⟩, ← ih, sendReplies_append]
    rfl
  | case2 langCodes count languageList replies hmore code data haccepted hover =>
    rw [Irc2User.languageCodes, dif_pos hmore, if_neg fun h => haccepted ⟨(hnone _).1 h.1, h.2⟩, maxLanguages_speaking,
      if_pos hover, sendReplies_append]
    rfl
  | case3 langCodes count languageList replies hmore code rest data haccepted hwithin ih =>
    rw [Irc2User.languageCodes, dif_pos hmore, if_neg fun h => haccepted ⟨(hnone _).1 h.1, h.2⟩, maxLanguages_speaking,
      if_neg hwithin, ← ih, LanguageDataList.codes, LanguageDataList.codes, List.map_append]
    rfl
  | case4 langCodes count languageList replies hdone =>
    rw [Irc2User.languageCodes, dif_neg hdone]
    rfl

theorem newLanguageList_speaking (codes : Octets) (w : World) :
    (Irc2User.languageCodes (site.speaking catalogue) (user.speaking list) ⟨codes⟩ 0 [] w).1 =
      (languageCodes site catalogue user list ⟨codes⟩ 0 [] []).1.map (·.codes) :=
  congrArg Prod.fst (languageCodes_speaking ⟨codes⟩ 0 [] [] w)

/-- The loop ends with the languages named if the limit lets the request through. -/
theorem languageCodes_eq (codes : Octets) :
    (site.fits catalogue codes →
        (languageCodes site catalogue user list ⟨codes⟩ 0 [] []).1 = some (catalogue.accepted ⟨codes⟩)) ∧
      (¬ site.fits catalogue codes → (languageCodes site catalogue user list ⟨codes⟩ 0 [] []).1 = none) := by
  have hlength :
      (acceptedLanguages (site.speaking catalogue) ⟨codes⟩).length = (catalogue.accepted ⟨codes⟩).length := by
    rw [acceptedLanguages_speaking, LanguageDataList.codes, List.length_map]
  have hbycode := @newLanguageList_speaking site catalogue user list codes {}
  have hsome : ∀ l ∈ (languageCodes site catalogue user list ⟨codes⟩ 0 [] []).1, l = catalogue.accepted ⟨codes⟩ :=
    languageCodes_some
  have hfits :
      (languageCodes site catalogue user list ⟨codes⟩ 0 [] []).1.isSome = true ↔ site.fits catalogue codes := by
    rw [← Option.isSome_map, ← hbycode, Site.fits, ← @maxLanguages_speaking site catalogue, ← hlength]
    by_cases hmax : (site.speaking catalogue).maxLanguages = 255
    · rw [languageCodes_unlimited hmax]
      exact iff_of_true rfl (.inl hmax)
    · have hzero : (0 : UInt8) ≤ (site.speaking catalogue).maxLanguages := UInt8.le_iff_toNat_le.2 (Nat.zero_le _)
      rw [languageCodes_limited hmax hzero, UInt8.toNat_zero, Nat.zero_add, or_iff_right hmax]
      split_ifs with hle
      · exact iff_of_true rfl hle
      · exact iff_of_false nofun hle
  constructor
  · intro h
    obtain ⟨l, hl⟩ := Option.isSome_iff_exists.1 (hfits.2 h)
    rw [hl, hsome l hl]
  · intro h
    rw [← Option.not_isSome_iff_eq_none, hfits]
    exact h

/-! ## One command -/

variable (site catalogue)

/-- What a LANGUAGE request needs of a user with `list`: to show the languages
there has to be a first entry, and a new list has to be one that can be told. -/
def Careful (list : LanguageDataList) : List Octets → Prop
  | [] => list = [] → catalogue.languageDataMap = []
  | codes :: _ => site.fits catalogue codes → catalogue.accepted ⟨codes⟩ ≠ [] → Tellable (catalogue.accepted ⟨codes⟩)

variable {site catalogue}

theorem tells_of_replies {replies : List Reply} (h : ∀ reply ∈ replies, reply.numeric ≠ RPL_YOURLANGUAGEIS) :
    Tells (some (list, replies)) :=
  ⟨list, replies, rfl, fun reply hmem hnumeric => absurd hnumeric (h reply hmem)⟩

/-- With a first entry every language can be shown. -/
theorem mapM_listLanguage {first : Option LanguageData} {entries : LanguageDataList} (languages : List LanguageData) :
    ∃ replies, languages.mapM (listLanguage site catalogue (first :: entries)) = some replies ∧
      ∀ reply ∈ replies, reply.numeric = RPL_LANGUAGE := by
  induction languages with
  | nil => exact ⟨[], rfl, nofun⟩
  | cons language languages ih =>
    obtain ⟨replies, heq, hreplies⟩ := ih
    rw [List.mapM_cons, heq]
    refine ⟨_, rfl, ?_⟩
    intro reply hmem
    rcases List.mem_cons.1 hmem with rfl | hmem
    · rfl
    · exact hreplies reply hmem

/-- The languages can be shown to a user whose list has a first entry. -/
theorem tells_listing_iff :
    Tells (handleLANGUAGE site catalogue user list []) ↔ (list = [] → catalogue.languageDataMap = []) := by
  rw [handleLANGUAGE]
  cases list with
  | nil =>
    cases hmap : catalogue.languageDataMap with
    | nil =>
      refine iff_of_true (tells_of_replies ?_) fun _ => rfl
      intro reply hmem
      obtain rfl := List.mem_singleton.1 hmem
      nofun
    | cons => exact iff_of_false not_tells_none fun h => List.cons_ne_nil _ _ (h rfl)
  | cons first entries =>
    obtain ⟨replies, heq, hreplies⟩ := @mapM_listLanguage site catalogue first entries catalogue.languageDataMap
    rw [heq]
    refine iff_of_true (tells_of_replies ?_) fun h => absurd h (List.cons_ne_nil _ _)
    intro reply hmem
    rcases List.mem_append.1 hmem with hmem | hmem
    · rw [hreplies reply hmem]
      nofun
    · obtain rfl := List.mem_singleton.1 hmem
      nofun

/-- A list that is installed has to be one that can be told. -/
theorem tells_change_iff (codes : Octets) (rest : List Octets) :
    Tells (handleLANGUAGE site catalogue user list (codes :: rest)) ↔
      (site.fits catalogue codes → catalogue.accepted ⟨codes⟩ ≠ [] → Tellable (catalogue.accepted ⟨codes⟩)) := by
  have hreplies : ∀ reply ∈ (languageCodes site catalogue user list ⟨codes⟩ 0 [] []).2,
      reply.numeric ≠ RPL_YOURLANGUAGEIS := languageCodes_replies nofun
  have hlist := @languageCodes_eq site catalogue user list codes
  rw [handleLANGUAGE]
  generalize languageCodes site catalogue user list ⟨codes⟩ 0 [] [] = result at hreplies hlist ⊢
  obtain ⟨new, replies⟩ := result
  by_cases hfits : site.fits catalogue codes
  · obtain rfl : new = _ := hlist.1 hfits
    rw [forall_prop_of_true hfits]
    cases haccepted : catalogue.accepted ⟨codes⟩ with
    | nil => exact iff_of_true (tells_of_replies hreplies) fun h => absurd rfl h
    | cons entry entries =>
      rw [forall_prop_of_true (List.cons_ne_nil _ _)]
      exact tells_sendLanguageList_iff hreplies
  · obtain rfl : new = _ := hlist.2 hfits
    exact iff_of_true (tells_of_replies hreplies) fun h => absurd h hfits

theorem tells_handleLANGUAGE_iff (parameters : List Octets) :
    Tells (handleLANGUAGE site catalogue user list parameters) ↔ Careful site catalogue list parameters := by
  cases parameters with
  | nil => exact tells_listing_iff
  | cons codes rest => exact tells_change_iff codes rest

theorem tells_construct_iff (registered : Bool) :
    Tells (construct site catalogue user registered) ↔ (registered = true → catalogue.defaultLanguage ≠ none) := by
  cases registered with
  | false => exact iff_of_true (tells_of_replies nofun) nofun
  | true =>
    apply Iff.trans (@tells_sendLanguageList_iff site user [catalogue.defaultLanguage] [] nofun)
    rw [forall_prop_of_true rfl]
    constructor
    · intro h hnone
      rw [hnone] at h
      exact not_tellable_none h
    · intro hdefault
      obtain ⟨language, hlanguage⟩ := Option.ne_none_iff_exists'.1 hdefault
      exact ⟨language, [], by rw [hlanguage], fun _ => rfl⟩

/-! ## Runs -/

variable (site catalogue user)

/-- The list after a LANGUAGE request, as long as nothing went wrong. -/
def step (list : Option LanguageDataList) (parameters : List Octets) : Option LanguageDataList :=
  list.bind fun list => (handleLANGUAGE site catalogue user list parameters).map Prod.fst

/-- The list the constructor leaves. -/
def start (registered : Bool) : Option LanguageDataList := (construct site catalogue user registered).map Prod.fst

/-- The constructor and each request after it come to their ends, and tell the
user the codes of the list. -/
def TellsThroughout (registered : Bool) (requests : List (List Octets)) : Prop :=
  Tells (construct site catalogue user registered) ∧
    Runs.Along (step site catalogue user)
      (fun list parameters => ∃ l ∈ list, Tells (handleLANGUAGE site catalogue user l parameters))
      (start site catalogue user registered) requests

variable {site catalogue user}

theorem start_of_tells {registered : Bool} (h : Tells (construct site catalogue user registered)) :
    ∃ l, start site catalogue user registered = some l := by
  obtain ⟨l, replies, heq, -⟩ := h
  exact ⟨l, by rw [start, heq]; rfl⟩

theorem step_of_tells {parameters : List Octets} (h : Tells (handleLANGUAGE site catalogue user list parameters)) :
    ∃ l, step site catalogue user (some list) parameters = some l := by
  obtain ⟨l, replies, heq, -⟩ := h
  exact ⟨l, by rw [step, Option.bind_some, heq]; rfl⟩

theorem along_tells_iff {requests : List (List Octets)} :
    Runs.Along (step site catalogue user)
        (fun list parameters => ∃ l ∈ list, Tells (handleLANGUAGE site catalogue user l parameters))
        (some list) requests ↔
      Runs.Along (step site catalogue user) (fun list parameters => ∀ l ∈ list, Careful site catalogue l parameters)
        (some list) requests := by
  induction requests generalizing list with
  | nil => exact Iff.rfl
  | cons parameters requests ih =>
    have hone : (∃ l ∈ some list, Tells (handleLANGUAGE site catalogue user l parameters)) ↔
        Tells (handleLANGUAGE site catalogue user list parameters) := by
      simp only [Option.mem_some_iff, exists_eq_left']
    have hcareful :
        (∀ l ∈ some list, Careful site catalogue l parameters) ↔ Careful site catalogue list parameters := by
      simp only [Option.mem_some_iff, forall_eq']
    rw [Runs.along_cons, Runs.along_cons, hone, hcareful, ← @tells_handleLANGUAGE_iff site catalogue user]
    apply and_congr_right
    intro htells
    obtain ⟨l, hl⟩ := step_of_tells htells
    rw [hl]
    exact ih

/-- Nothing goes wrong with a user's languages if there is a default language
for a user who could be added, and every request is careful. -/
theorem tellsThroughout_iff (site : Site) (catalogue : Catalogue) (user : Self) (registered : Bool)
    (requests : List (List Octets)) :
    TellsThroughout site catalogue user registered requests ↔
      (registered = true → catalogue.defaultLanguage ≠ none) ∧
        Runs.Along (step site catalogue user) (fun list parameters => ∀ l ∈ list, Careful site catalogue l parameters)
          (start site catalogue user registered) requests := by
  rw [TellsThroughout, ← @tells_construct_iff site catalogue user]
  apply and_congr_right
  intro htells
  obtain ⟨l, hl⟩ := start_of_tells htells
  rw [hl]
  exact along_tells_iff

def english : LanguageData := { languageCode := octets "en", languageName := wide "English" }

/-- A catalogue of one language. -/
def oneLanguage : Catalogue :=
  ⟨[english], some english, fun code => if toLower code = octets "en" then some english else none, 0⟩

/-- `LANGUAGE none` asks for the null language alone. -/
theorem not_tellsThroughout_none :
    ¬ TellsThroughout manyLanguages oneLanguage ⟨0, 0, sampleUser⟩ true [[octets "none"]] := by
  rintro ⟨-, ⟨list, -, htells⟩, -⟩
  have htokens : (⟨octets "none"⟩ : StringTokens).tokens COMMA = [octets "none"] :=
    StringTokens.tokens_single (by decide) (List.cons_ne_nil _ _)
  have haccepted : oneLanguage.accepted ⟨octets "none"⟩ = [none] := by
    rw [Catalogue.accepted, htokens]
    rfl
  have hcareful := (tells_handleLANGUAGE_iff [octets "none"]).1 htells (.inl rfl)
  rw [haccepted] at hcareful
  exact not_tellable_none (hcareful (List.cons_ne_nil _ _))

/-! ## In the daemon -/

/-- A handler that comes to its end leaves the list that the daemon's user has
by code afterwards. -/
theorem languagesOf_handleLANGUAGE {list' : LanguageDataList} {replies : List Reply} {parameters : List Octets}
    {w : World} (hlist : languagesOf user.this w = some list.codes)
    (hdone : handleLANGUAGE site catalogue user list parameters = some (list', replies)) :
    languagesOf user.this (Irc2User.handleLANGUAGE (site.speaking catalogue) (user.speaking list) parameters w) =
      some list'.codes := by
  cases parameters with
  | nil =>
    obtain ⟨_, -, heq⟩ := Option.bind_eq_some_iff.1 hdone
    obtain ⟨rfl, -⟩ := Prod.mk.inj (Option.some_inj.1 heq)
    exact (languagesOf_report _ _ _ _).trans hlist
  | cons codes rest =>
    have hcodes := @languagesOf_languageCodes (site.speaking catalogue) (user.speaking list) user.this ⟨codes⟩ 0 [] w
    rw [handleLANGUAGE] at hdone
    rw [handleLANGUAGE_eq, newLanguageList, newLanguageList_speaking]
    generalize languageCodes site catalogue user list ⟨codes⟩ 0 [] [] = result at hdone ⊢
    obtain ⟨_ | _ | ⟨entry, entries⟩, replies⟩ := result
    · obtain ⟨rfl, -⟩ := Prod.mk.inj (Option.some_inj.1 hdone)
      exact hcodes.trans hlist
    · obtain ⟨rfl, -⟩ := Prod.mk.inj (Option.some_inj.1 hdone)
      exact hcodes.trans hlist
    · obtain ⟨_, -, heq⟩ := Option.map_eq_some_iff.1 hdone
      obtain ⟨rfl, -⟩ := Prod.mk.inj heq
      refine (languagesOf_report _ _ _ _).trans ((languagesOf_setLanguageList _ _).trans ?_)
      exact (congrArg (Option.map _) (hcodes.trans hlist)).trans rfl

theorem languagesOf_welcome (a : Nat) (w : World) : languagesOf a (Daemon.welcome site user w) = languagesOf a w := by
  unfold Daemon.welcome
  simp only [List.foldl_cons, List.foldl_nil, languagesOf_report, languagesOf_sendNumeric]

/-- And so does the constructor, whose user had no languages before. -/
theorem languagesOf_construct {replies : List Reply} {w : World} (hlist : languagesOf user.this w = some [])
    (hdone : construct site catalogue user
        (decide ((w.addUser site.maxNickNameLength ⟨user.this, user.user.nickname⟩).1 = .noError)) =
      some (list, replies)) :
    languagesOf user.this (Daemon.construct (site.speaking catalogue) user w) = some list.codes := by
  have hadded :
      languagesOf user.this (w.addUser site.maxNickNameLength ⟨user.this, user.user.nickname⟩).2 = some [] := by
    rw [← hlist, languagesOf, World.addUser]
    split_ifs <;> rfl
  by_cases hok : (w.addUser site.maxNickNameLength ⟨user.this, user.user.nickname⟩).1 = .noError
  · rw [decide_eq_true hok] at hdone
    obtain ⟨_, -, heq⟩ := Option.map_eq_some_iff.1 hdone
    obtain ⟨rfl, -⟩ := Prod.mk.inj heq
    refine (congrArg _ (if_pos hok)).trans ((languagesOf_welcome _ _).trans ?_)
    obtain ⟨u, hu, -⟩ := Option.map_eq_some_iff.1 hadded
    exact (languagesOf_modifyUser _ _).trans (congrArg (Option.map _) hu)
  · rw [decide_eq_false hok] at hdone
    obtain ⟨rfl, -⟩ := Prod.mk.inj (Option.some_inj.1 hdone)
    exact (congrArg _ (if_neg hok)).trans hadded

end LanguageLists

end KineIRCd.Irc2User

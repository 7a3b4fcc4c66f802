import KineIRCd.Lib.Runs
import KineIRCd.TagDictionary
/-!
# The language store

A load fills the slots of a language under the IDs of the dictionary and then
places the language in the map, merged with what was there. `Coherent` is what
every load keeps, whether it fails or not.
-/
namespace KineIRCd.Languages

open LangTags Numbering Runs Slots

variable {δ : Type} {outside : Outside δ} {file : FileLoad δ} {s : Languages} {d : LanguageData}
  {definitions : List (Octets × WString)} {tag : Octets} {S : Finset Octets}

/-! ## The slots of the language that is being read -/

/-- The slots of the language hold the last definitions of their tags, and no others. -/
structure Filled (s : Languages) (d : LanguageData) (definitions : List (Octets × WString)) : Prop where
  known : ∀ tag ∈ definitions.map Prod.fst, tag ∈ s.tagDictionary
  texts : ∀ tag tagID, s.tagDictionary.lookup tag = some tagID →
    get d.tagData (tagID.toNat - 1) = lastText definitions tag
  slots : d.tagData.length ≤ s.highestTagID.toNat
  count : d.tagCount = definitions.length
  held : held d.tagData = (definitions.map Prod.fst).toFinset.card

theorem filled_nil (s : Languages) : Filled s {} [] where
  known := by simp
  texts := by simp [lastText]
  slots := Nat.zero_le _
  count := rfl
  held := rfl

/-- Whether the slot of a tag is in use. A new tag has a slot past the end. -/
theorem Filled.slot (h : Filled s d definitions) (hn : Numbers S s) (htag : tag ∈ S) :
    (get d.tagData ((s.addTag tag).1.toNat - 1)).isSome ↔ tag ∈ definitions.map Prod.fst := by
  cases hl : s.tagDictionary.lookup tag with
  | some tagID =>
    rw [addTag_of_some hl, h.texts tag tagID hl]
    exact lastText_isSome
  | none =>
    have hlen : d.tagData.length ≤ (s.highestTagID + 1).toNat - 1 := by
      rw [hn.toNat_succ htag hl]
      exact h.slots
    rw [addTag_of_none hl, get_eq_none hlen]
    refine iff_of_false (by simp) ?_
    intro hmem
    exact AList.lookup_eq_none.1 hl (h.known tag hmem)

/-- An ID in the dictionary stands for the slot before it. -/
theorem Numbers.index (h : Numbers S s) {tagID : UInt32} (htag : s.tagDictionary.lookup tag = some tagID) :
    0 < tagID.toNat ∧ tagID.toNat ≤ s.highestTagID.toNat ∧ (tagID - 1).toNat = tagID.toNat - 1 := by
  have hbounds := h.ids.bounds tag tagID htag
  have hone : (1 : UInt32) ≤ tagID := UInt32.le_iff_toNat_le.2 hbounds.1
  refine ⟨hbounds.1, hbounds.2, ?_⟩
  rw [UInt32.toNat_sub_of_le _ _ hone]
  rfl

/-- Setting a tag that the dictionary has sets its slot, and makes room for it. -/
theorem get_setTag (h : Numbers S s) {tagID : UInt32} (htag : s.tagDictionary.lookup tag = some tagID)
    (text : WString) (i : Nat) : get (setTag d tagID text).tagData i =
      if i = tagID.toNat - 1 then some text else get d.tagData i := by
  obtain ⟨hpos, -, hindex⟩ := h.index htag
  have hlt : tagID.toNat - 1 < (grow d.tagData tagID.toNat).length := by
    rw [length_grow]
    omega
  rw [setTag, hindex, get_set hlt, get_grow]

theorem length_setTag (d : LanguageData) (tagID : UInt32) (text : WString) :
    (setTag d tagID text).tagData.length = max d.tagData.length tagID.toNat := by
  rw [setTag, List.length_set, length_grow]

theorem held_setTag (h : Numbers S s) {tagID : UInt32} (htag : s.tagDictionary.lookup tag = some tagID) (text : WString) :
    held (setTag d tagID text).tagData =
      held d.tagData + if (get d.tagData (tagID.toNat - 1)).isSome then 0 else 1 := by
  obtain ⟨hpos, -, hindex⟩ := h.index htag
  have hlt : tagID.toNat - 1 < (grow d.tagData tagID.toNat).length := by
    rw [length_grow]
    omega
  rw [setTag, hindex, held_set hlt, get_grow, held_grow]

/-- A name that comes again adds nothing to a set of names. -/
theorem card_concat (tags : List Octets) (tag : Octets) :
    (tags ++ [tag]).toFinset.card = tags.toFinset.card + if tag ∈ tags then 0 else 1 := by
  have hset : (tags ++ [tag]).toFinset = insert tag tags.toFinset := by
    ext other
    simp
  rw [hset, Finset.card_insert_eq_ite]
  by_cases h : tag ∈ tags <;> simp [h]

/-- One more definition. -/
theorem Filled.setTag (h : Filled s d definitions) (hn : Numbers S s) (htag : tag ∈ S) (text : WString) :
    Filled (s.addTag tag).2 (setTag d (s.addTag tag).1 text) (definitions ++ [(tag, text)]) := by
  have hn' := hn.addTag htag
  have hlookup : (s.addTag tag).2.tagDictionary.lookup tag = some (s.addTag tag).1 := addTag_lookup
  have hslot := h.slot hn htag
  constructor
  · intro other hother
    rw [List.map_append, List.mem_append] at hother
    rcases hother with hold | hnew
    · exact mem_addTag.2 (.inl (h.known other hold))
    · exact mem_addTag.2 (.inr (by simpa using hnew))
  · intro other otherID hother
    rw [get_setTag hn' hlookup, lastText_concat]
    by_cases heq : other = tag
    · subst heq
      rw [hlookup, Option.some_inj] at hother
      rw [if_pos (by rw [hother]), if_pos rfl]
    · have hne : otherID.toNat - 1 ≠ (s.addTag tag).1.toNat - 1 := by
        -- two tags of the dictionary do not share a slot
        intro hsame
        have hpos := (hn'.index hother).1
        have hpos' := (hn'.index hlookup).1
        have hid : otherID = (s.addTag tag).1 := UInt32.toNat_inj.1 (by omega)
        rw [hid] at hother
        exact heq (hn'.ids.injective other tag _ hother hlookup)
      rw [addTag_lookup_ne heq] at hother
      rw [if_neg hne, if_neg heq]
      exact h.texts other otherID hother
  · have hold := h.slots
    have hnew := (hn'.index hlookup).2.1
    have hle : s.highestTagID.toNat ≤ (s.addTags [tag]).highestTagID.toNat := hn.highestTagID_le (by simpa using htag)
    change s.highestTagID.toNat ≤ (s.addTag tag).2.highestTagID.toNat at hle
    rw [length_setTag]
    omega
  · rw [Languages.setTag, List.length_append, h.count]
    rfl
  · rw [held_setTag hn' hlookup, h.held, List.map_append]
    apply (congrArg (_ + ·) _).trans (card_concat _ tag).symm
    by_cases hmem : tag ∈ definitions.map Prod.fst
    · rw [if_pos (hslot.2 hmem), if_pos hmem]
    · rw [if_neg (fun hsome => hmem (hslot.1 hsome)), if_neg hmem]

theorem setControl_tagData (d : LanguageData) (entry : Entry) : (setControl d entry).tagData = d.tagData := by
  unfold setControl
  dsimp only
  split_ifs <;> rfl

theorem setControl_tagCount (d : LanguageData) (entry : Entry) : (setControl d entry).tagCount = d.tagCount := by
  unfold setControl
  dsimp only
  split_ifs <;> rfl

theorem Filled.setControl (h : Filled s d definitions) (entry : Entry) : Filled s (setControl d entry) definitions where
  known := h.known
  texts := by
    rw [setControl_tagData]
    exact h.texts
  slots := by
    rw [setControl_tagData]
    exact h.slots
  count := by rw [setControl_tagCount, h.count]
  held := by rw [setControl_tagData, h.held]

/-- After the loop, the slots of the language hold the definitions of the file. -/
theorem filled (hn : Numbers S s) (htags : ∀ tag ∈ file.tags outside, tag ∈ S) :
    Filled (s.addTags (file.tags outside)) (file.languageData outside s) (file.definitions outside) := by
  have main : ∀ entries : List Entry, (∀ tag ∈ (LangTags.definitions entries).map Prod.fst, tag ∈ S) →
      Filled (s.addTags ((LangTags.definitions entries).map Prod.fst)) (entries.foldl readEntry (s, {})).2
        (LangTags.definitions entries) := by
    intro entries hentries
    induction entries using List.reverseRecOn with
    | nil => exact filled_nil s
    | append_singleton entries entry ih =>
      rw [definitions_concat, List.map_append] at hentries
      have hold := fun tag htag => hentries tag (List.mem_append_left _ htag)
      rw [List.foldl_concat, readEntry, foldl_readEntry_languages, definitions_concat]
      cases hc : isControl entry.tag with
      | true =>
        simp only [↓reduceIte, List.append_nil]
        exact (ih hold).setControl entry
      | false =>
        have hentry := hentries entry.tag (by simp [hc])
        simp only [Bool.false_eq_true, ↓reduceIte]
        rw [List.map_append, List.map_cons, List.map_nil, addTags_concat]
        exact (ih hold).setTag (hn.addTags hold) hentry entry.text
  exact main _ htags

/-! ## After the loop -/

/-- Tag maps are all that `processMaps` writes. -/
theorem processMaps_other (s : Languages) : { s.processMaps with memory := s.memory } = s := by
  have main : ∀ (maps : List Address) (s : Languages), { maps.foldl processTagMap s with memory := s.memory } = s := by
    intro maps
    induction maps with
    | nil => exact fun _ => rfl
    | cons map maps ih =>
      intro s
      have hrest := ih (s.processTagMap map)
      have hstep : { s.processTagMap map with memory := s.memory } = s := rfl
      rw [← hrest] at hstep
      exact hstep
  exact main s.tagMaps s

@[simp] theorem processMaps_tagMaps : s.processMaps.tagMaps = s.tagMaps := (congrArg tagMaps (processMaps_other s) :)

@[simp] theorem processMaps_tagDictionary : s.processMaps.tagDictionary = s.tagDictionary :=
  (congrArg tagDictionary (processMaps_other s) :)

@[simp] theorem processMaps_highestTagID : s.processMaps.highestTagID = s.highestTagID :=
  (congrArg highestTagID (processMaps_other s) :)

@[simp] theorem processMaps_languageDataMap : s.processMaps.languageDataMap = s.languageDataMap :=
  (congrArg languageDataMap (processMaps_other s) :)

@[simp] theorem processMaps_defaultLanguage : s.processMaps.defaultLanguage = s.defaultLanguage :=
  (congrArg defaultLanguage (processMaps_other s) :)

@[simp] theorem processMaps_languageData : s.processMaps.languageData = s.languageData :=
  (congrArg languageData (processMaps_other s) :)

/-- A language that is not there yet gets a new address. -/
theorem place_new (hlower : toLower d.languageCode = d.languageCode) (h : s.findByCode d.languageCode = none) :
    s.languageDataMap.lookup d.languageCode = none ∧
      s.place d =
        (s.languageData.length,
          { s with
            languageDataMap := s.languageDataMap.insert d.languageCode s.languageData.length
            languageData := s.languageData ++ [d] }) := by
  have hnone : s.languageDataMap.lookup d.languageCode = none := by
    unfold findByCode at h
    rw [hlower] at h
    split at h
    · simp at h
    · assumption
  refine ⟨hnone, ?_⟩
  rw [place, h, Index.tryInsert_of_none hnone]

theorem place_old {language : Nat} (h : s.findByCode d.languageCode = some language) :
    s.place d = (language, { s with languageData := s.languageData.modify language (·.mergeWith d) }) := by
  rw [place, h]

theorem place_other (s : Languages) (d : LanguageData) :
    { (s.place d).2 with languageDataMap := s.languageDataMap, languageData := s.languageData } = s := by
  unfold place
  split <;> rfl

/-- No language leaves the map. -/
theorem place_extends (hlower : toLower d.languageCode = d.languageCode) :
    Extends s.languageDataMap (s.place d).2.languageDataMap := by
  cases hfind : s.findByCode d.languageCode with
  | none =>
    obtain ⟨hnone, hplace⟩ := place_new hlower hfind
    rw [hplace]
    exact extends_insert hnone
  | some found =>
    rw [place_old hfind]
    exact Extends.refl

@[simp] theorem place_tagDictionary : (s.place d).2.tagDictionary = s.tagDictionary :=
  (congrArg tagDictionary (place_other s d) :)

@[simp] theorem place_tagMaps : (s.place d).2.tagMaps = s.tagMaps := (congrArg tagMaps (place_other s d) :)

@[simp] theorem place_memory : (s.place d).2.memory = s.memory := (congrArg memory (place_other s d) :)

@[simp] theorem place_highestTagID : (s.place d).2.highestTagID = s.highestTagID :=
  (congrArg highestTagID (place_other s d) :)

/-! ## What every load keeps -/

structure Coherent (s : Languages) : Prop where
  /-- Tags are kept in upper case, and no control tag is. -/
  names : ∀ tag ∈ s.tagDictionary, toUpper tag = tag ∧ isControl tag = false
  /-- Tags and the numbers from 1 to `highestTagID` are in bijection. -/
  ids : Numbered UInt32.toNat s.tagDictionary s.highestTagID.toNat
  slots : ∀ d ∈ s.languageData, d.tagData.length ≤ s.highestTagID.toNat
  codes : ∀ code language, s.languageDataMap.lookup code = some language →
    toLower code = code ∧ ∃ d, s.languageData[language]? = some d ∧ d.languageCode = code
  default_none : s.defaultLanguage = none ↔ s.languageDataMap = ∅
  default_mem : ∀ language, s.defaultLanguage = some language → ∃ code, s.languageDataMap.lookup code = some language

namespace Coherent

theorem new (memory : Address → List TagMapEntry) : Coherent (new memory) where
  names := fun tag h => absurd h (AList.notMem_empty tag)
  ids := numbered_empty
  slots := by simp [Languages.new]
  codes := by simp [Languages.new]
  default_none := ⟨fun _ => rfl, fun _ => rfl⟩
  default_mem := by simp [Languages.new]

theorem addTags (h : Coherent s) (hn : Numbers S s) (htags : ∀ tag ∈ file.tags outside, tag ∈ S) :
    Coherent (s.addTags (file.tags outside)) where
  names := by
    intro tag htag
    rcases mem_addTags.1 htag with hold | hnew
    · exact h.names tag hold
    · exact FileLoad.mem_tags hnew
  ids := (hn.addTags htags).ids
  slots := by
    intro d hd
    rw [addTags_languageData] at hd
    exact (h.slots d hd).trans (hn.highestTagID_le htags)
  codes := by simpa using h.codes
  default_none := by simpa using h.default_none
  default_mem := by simpa using h.default_mem

/-- A language that is found is in the map. -/
theorem mem_of_findByCode (h : Coherent s) {code : Octets} {language : Nat} (hfind : s.findByCode code = some language) :
    ∃ code', s.languageDataMap.lookup code' = some language := by
  unfold findByCode at hfind
  split at hfind
  · rename_i found hfound
    rw [← hfind]
    exact ⟨_, hfound⟩
  · split at hfind
    · exact h.default_mem language hfind
    · simp at hfind

/-- Placing a language gives no language more slots than there are tags. -/
theorem place_slots (h : Coherent s) (hlower : toLower d.languageCode = d.languageCode)
    (hslots : d.tagData.length ≤ s.highestTagID.toNat) :
    ∀ d' ∈ (s.place d).2.languageData, d'.tagData.length ≤ s.highestTagID.toNat := by
  intro d' hd'
  cases hfind : s.findByCode d.languageCode with
  | none =>
    rw [(place_new hlower hfind).2] at hd'
    rcases List.mem_append.1 hd' with hold | hnew
    · exact h.slots d' hold
    · rw [List.mem_singleton.1 hnew]
      exact hslots
  | some found =>
    rw [place_old hfind] at hd'
    obtain ⟨i, hi⟩ := List.mem_iff_getElem?.1 hd'
    rw [List.getElem?_modify] at hi
    obtain ⟨d₀, hd₀, rfl⟩ := Option.map_eq_some_iff.1 hi
    have hold := h.slots d₀ (List.mem_of_getElem? hd₀)
    split_ifs
    · rw [LanguageData.mergeWith, length_overlay, length_grow]
      omega
    · exact hold

/-- Languages stand under their codes, also the one that is placed. -/
theorem place_codes (h : Coherent s) (hlower : toLower d.languageCode = d.languageCode) {code : Octets} {language : Nat}
    (hlookup : (s.place d).2.languageDataMap.lookup code = some language) :
    toLower code = code ∧ ∃ d', (s.place d).2.languageData[language]? = some d' ∧ d'.languageCode = code := by
  cases hfind : s.findByCode d.languageCode with
  | none =>
    obtain ⟨-, hplace⟩ := place_new hlower hfind
    rw [hplace] at hlookup ⊢
    by_cases hcode : code = d.languageCode
    · subst hcode
      rw [AList.lookup_insert, Option.some_inj] at hlookup
      refine ⟨hlower, d, ?_, rfl⟩
      rw [← hlookup, List.getElem?_concat_length]
    · rw [AList.lookup_insert_ne hcode] at hlookup
      obtain ⟨hlow, d', hd', hcode'⟩ := h.codes code language hlookup
      refine ⟨hlow, d', ?_, hcode'⟩
      rw [List.getElem?_append_left (List.getElem?_eq_some_iff.1 hd').1, hd']
  | some found =>
    rw [place_old hfind] at hlookup ⊢
    obtain ⟨hlow, d', hd', hcode'⟩ := h.codes code language hlookup
    refine ⟨hlow, _, by rw [List.getElem?_modify, hd']; rfl, ?_⟩
    split_ifs
    · exact hcode'
    · exact hcode'

/-- The map has the language that is placed. -/
theorem place_mem (h : Coherent s) (hlower : toLower d.languageCode = d.languageCode) :
    ∃ code, (s.place d).2.languageDataMap.lookup code = some (s.place d).1 := by
  cases hfind : s.findByCode d.languageCode with
  | none =>
    rw [(place_new hlower hfind).2]
    exact ⟨_, AList.lookup_insert _⟩
  | some found =>
    rw [place_old hfind]
    exact h.mem_of_findByCode hfind

theorem finish (h : Coherent s) (hlower : toLower d.languageCode = d.languageCode)
    (hslots : d.tagData.length ≤ s.highestTagID.toNat) (makeDefault : Bool) : Coherent (s.finish d makeDefault) := by
  have hplaced := h.place_mem hlower
  unfold Languages.finish
  constructor
  · simpa using h.names
  · simpa using h.ids
  · simpa using h.place_slots hlower hslots
  · intro code language hlookup
    rw [processMaps_languageDataMap] at hlookup
    rw [processMaps_languageData]
    exact h.place_codes hlower hlookup
  · have hne : (s.place d).2.languageDataMap ≠ ∅ := by
      obtain ⟨code, hcode⟩ := hplaced
      intro hempty
      simp [hempty] at hcode
    rw [processMaps_defaultLanguage, processMaps_languageDataMap]
    refine iff_of_false ?_ hne
    dsimp only
    split_ifs with hdefault
    · simp
    · exact fun hnone => hdefault (.inl hnone)
  · intro language hlanguage
    rw [processMaps_defaultLanguage] at hlanguage
    rw [processMaps_languageDataMap]
    dsimp only at hlanguage ⊢
    split_ifs at hlanguage with hdefault
    · rw [← Option.some.inj hlanguage]
      exact hplaced
    · obtain ⟨code, hlookup⟩ := h.default_mem language hlanguage
      exact ⟨code, place_extends hlower code language hlookup⟩

theorem load (h : Coherent s) (hn : Numbers S s) (htags : ∀ tag ∈ file.tags outside, tag ∈ S) :
    Coherent (load outside s file) := by
  have htags' := h.addTags hn htags
  by_cases hout : file.outcome outside = .loaded
  · rw [load_of_loaded hout]
    exact htags'.finish (FileLoad.toLower_languageData s) (filled hn htags).slots file.makeDefault
  · rwa [load_of_not_loaded hout]

end Coherent

@[simp] theorem finish_tagDictionary (s : Languages) (d : LanguageData) (makeDefault : Bool) :
    (s.finish d makeDefault).tagDictionary = s.tagDictionary := by simp [finish]

@[simp] theorem finish_highestTagID (s : Languages) (d : LanguageData) (makeDefault : Bool) :
    (s.finish d makeDefault).highestTagID = s.highestTagID := by simp [finish]

/-- The tags of the file are all that a load adds to the dictionary. -/
theorem load_dictionary (outside : Outside δ) (s : Languages) (file : FileLoad δ) :
    (load outside s file).tagDictionary = (s.addTags (file.tags outside)).tagDictionary ∧
      (load outside s file).highestTagID = (s.addTags (file.tags outside)).highestTagID := by
  by_cases hout : file.outcome outside = .loaded
  · rw [load_of_loaded hout]
    simp
  · rw [load_of_not_loaded hout]
    exact ⟨rfl, rfl⟩

theorem Numbers.load (h : Numbers S s) (htags : ∀ tag ∈ file.tags outside, tag ∈ S) : Numbers S (load outside s file) := by
  have hadd := h.addTags htags
  obtain ⟨hdict, htop⟩ := load_dictionary outside s file
  refine ⟨h.fits, ?_, ?_⟩
  · rw [hdict]
    exact hadd.mem
  · rw [hdict, htop]
    exact hadd.ids

/-! ## Any sequence of loads -/

/-- All tags that the files define. -/
def tagsOf (outside : Outside δ) (loads : List (FileLoad δ)) : Finset Octets :=
  (loads.flatMap fun file => file.tags outside).toFinset

theorem mem_tagsOf {loads : List (FileLoad δ)} (hfile : file ∈ loads) : ∀ tag ∈ file.tags outside, tag ∈ tagsOf outside loads := by
  intro tag htag
  exact List.mem_toFinset.2 (List.mem_flatMap.2 ⟨file, hfile, htag⟩)

/-- After any loads of files with tags in `S`. -/
theorem loads_inv (hfits : S.card < UInt32.size) (memory : Address → List TagMapEntry) {loads : List (FileLoad δ)}
    (htags : ∀ file ∈ loads, ∀ tag ∈ file.tags outside, tag ∈ S) :
    Numbers S (loads.foldl (load outside) (new memory)) ∧ Coherent (loads.foldl (load outside) (new memory)) := by
  refine run_inv (I := fun s => Numbers S s ∧ Coherent s) ?_ ⟨Numbers.new hfits memory, Coherent.new memory⟩
    (along_forall.2 htags)
  rintro s file ⟨hn, hc⟩ hfile
  exact ⟨hn.load hfile, hc.load hn hfile⟩

theorem loads_extends (loads : List (FileLoad δ)) (s : Languages) :
    Extends s.tagDictionary (loads.foldl (load outside) s).tagDictionary := by
  induction loads generalizing s with
  | nil => exact Extends.refl
  | cons file loads ih =>
    refine Extends.trans ?_ (ih (load outside s file))
    rw [(load_dictionary outside s file).1]
    exact addTags_extends

/-- Whatever is loaded, tags and IDs are in bijection, languages stand under their codes,
and the default is one of them; and an ID, once given, stays. -/
theorem loads_coherent (outside : Outside δ) (memory : Address → List TagMapEntry) (loads : List (FileLoad δ))
    (hfits : (tagsOf outside loads).card < UInt32.size) :
    Coherent (loads.foldl (load outside) (new memory)) ∧
      ∀ before after, loads = before ++ after →
        Extends (before.foldl (load outside) (new memory)).tagDictionary
          (loads.foldl (load outside) (new memory)).tagDictionary := by
  constructor
  · exact (loads_inv hfits memory fun file hfile => mem_tagsOf hfile).2
  · rintro before after rfl
    rw [List.foldl_append]
    exact loads_extends after _

/-- English, then French over it, then a file that breaks off. -/
def sampleLoads : List (FileLoad Unit) :=
  [.sample ".LANGCODE=en\nHELLO=hello\n" false, .sample ".LANGCODE=fr\nHELLO=salut\nBYE=adieu\n" true, brokenFile]

theorem loads_coherent_sample :
    Coherent (sampleLoads.foldl (load .sample) (new fun _ => [])) ∧
      ∀ before after, sampleLoads = before ++ after →
        Extends (before.foldl (load .sample) (new fun _ => [])).tagDictionary
          (sampleLoads.foldl (load .sample) (new fun _ => [])).tagDictionary :=
  loads_coherent .sample (fun _ => []) sampleLoads (by decide +kernel)

end KineIRCd.Languages

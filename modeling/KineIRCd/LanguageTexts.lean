import KineIRCd.LanguageStore
/-!
# The texts of the languages

The engine behaves like a table of texts by language and tag: a load puts the
definitions of its file over what the language held, and no other language
notices.
-/
namespace KineIRCd.Languages

open LangTags Numbering Runs Slots

variable {δ : Type} {outside : Outside δ} {file : FileLoad δ} {s : Languages} {d d' : LanguageData}
  {definitions : List (Octets × WString)} {tag : Octets} {S : Finset Octets}

/-- The text at an address for a tag in upper case. -/
def textAt (this : Languages) (language : Nat) (tag : Octets) : Option WString :=
  (this.languageData[language]?).bind fun languageData =>
    (this.tagDictionary.lookup tag).bind fun tagID => get languageData.tagData (tagID.toNat - 1)

/-- The text that a language holds for a tag, whatever its case. -/
def text (this : Languages) (code tag : Octets) : Option WString :=
  (this.languageDataMap.lookup code).bind fun language => this.textAt language (toUpper tag)

/-- The code of the default language. -/
def defaultCode (this : Languages) : Option Octets :=
  this.defaultLanguage.bind fun language => (this.languageData[language]?).map LanguageData.languageCode

theorem text_of_none {code : Octets} (h : s.languageDataMap.lookup code = none) : s.text code tag = none := by
  simp [text, h]

theorem text_of_some {code : Octets} {language : Nat} (h : s.languageDataMap.lookup code = some language)
    (hd : s.languageData[language]? = some d) : s.text code tag =
      (s.tagDictionary.lookup (toUpper tag)).bind fun tagID => get d.tagData (tagID.toNat - 1) := by
  simp [text, textAt, h, hd]

/-- New tags have no texts yet. -/
theorem textAt_addTags (h : Coherent s) (hn : Numbers S s) {tags : List Octets} (htags : ∀ tag ∈ tags, tag ∈ S)
    (language : Nat) (tag : Octets) : (s.addTags tags).textAt language tag = s.textAt language tag := by
  unfold textAt
  rw [addTags_languageData]
  cases hd : s.languageData[language]? with
  | none => rfl
  | some d =>
    rw [Option.bind_some, Option.bind_some]
    cases htag : s.tagDictionary.lookup tag with
    | some tagID => rw [addTags_extends _ tagID htag]
    | none =>
      cases htag' : (s.addTags tags).tagDictionary.lookup tag with
      | none => rfl
      | some tagID =>
        have hlt := h.ids.lt_of_new (hn.addTags htags).ids addTags_extends (fun i j => UInt32.toNat_inj.1) htag htag'
        have hlen := h.slots d (List.mem_of_getElem? hd)
        exact get_eq_none (by omega)

theorem text_addTags (h : Coherent s) (hn : Numbers S s) {tags : List Octets} (htags : ∀ tag ∈ tags, tag ∈ S)
    (code tag : Octets) : (s.addTags tags).text code tag = s.text code tag := by
  simp [text, textAt_addTags h hn htags]

/-- Apart from "i-default", a language is found exactly where the map has it. -/
theorem findByCode_eq {code : Octets} (hlower : toLower code = code) (hcode : code ≠ defaultLanguageCode) :
    s.findByCode code = s.languageDataMap.lookup code := by
  unfold findByCode
  rw [hlower, if_neg hcode]
  cases s.languageDataMap.lookup code <;> rfl

/-- What new data holds for a tag. -/
theorem Filled.bind_get (h : Filled s d definitions) (tag : Octets) :
    ((s.tagDictionary.lookup tag).bind fun tagID => get d.tagData (tagID.toNat - 1)) = lastText definitions tag := by
  cases htag : s.tagDictionary.lookup tag with
  | some tagID => exact h.texts _ tagID htag
  | none =>
    cases hlast : lastText definitions tag with
    | none => rfl
    | some text =>
      have hmem := lastText_isSome.1 (Option.isSome_iff_exists.2 ⟨text, hlast⟩)
      exact absurd (h.known _ hmem) (AList.lookup_eq_none.1 htag)

/-- A new language brings its own texts. -/
theorem text_place_new (h : Coherent s) (hfilled : Filled s d definitions)
    (hlower : toLower d.languageCode = d.languageCode) (hfind : s.findByCode d.languageCode = none) (code tag : Octets) :
    (s.place d).2.text code tag =
      if d.languageCode = code then (lastText definitions (toUpper tag)).or (s.text code tag) else s.text code tag := by
  obtain ⟨hnone, hplace⟩ := place_new hlower hfind
  rw [hplace]
  by_cases heq : d.languageCode = code
  · subst heq
    rw [if_pos rfl, text_of_none hnone, Option.or_none, ← hfilled.bind_get]
    exact text_of_some (AList.lookup_insert _) (List.getElem?_concat_length)
  · have hkeep : (s.languageDataMap.insert d.languageCode s.languageData.length).lookup code =
        s.languageDataMap.lookup code := AList.lookup_insert_ne (Ne.symm heq)
    rw [if_neg heq]
    cases hlook : s.languageDataMap.lookup code with
    | none =>
      rw [hlook] at hkeep
      rw [text_of_none hlook]
      exact text_of_none hkeep
    | some language =>
      obtain ⟨-, d', hd', -⟩ := h.codes code language hlook
      have hdata : (s.languageData ++ [d])[language]? = some d' := by
        rw [List.getElem?_append_left (List.getElem?_eq_some_iff.1 hd').1, hd']
      rw [hlook] at hkeep
      rw [text_of_some hlook hd']
      exact text_of_some hkeep hdata

/-- A language that is there keeps the texts that are not defined again. -/
theorem text_place_old (h : Coherent s) (hfilled : Filled s d definitions)
    (hlower : toLower d.languageCode = d.languageCode) (hcode : d.languageCode ≠ defaultLanguageCode) {found : Nat}
    (hfind : s.findByCode d.languageCode = some found) (code tag : Octets) :
    (s.place d).2.text code tag =
      if d.languageCode = code then (lastText definitions (toUpper tag)).or (s.text code tag) else s.text code tag := by
  have hfound := hfind
  rw [findByCode_eq hlower hcode] at hfound
  obtain ⟨-, old, hold, holdCode⟩ := h.codes _ found hfound
  rw [place_old hfind]
  cases hlook : s.languageDataMap.lookup code with
  | none =>
    have hne : d.languageCode ≠ code := by
      rintro rfl
      simp [hfound] at hlook
    rw [if_neg hne, text_of_none hlook]
    exact text_of_none hlook
  | some language =>
    obtain ⟨-, d', hd', hcode'⟩ := h.codes code language hlook
    have hdata : (s.languageData.modify found (·.mergeWith d))[language]? =
        some (if found = language then d'.mergeWith d else d') := by
      rw [List.getElem?_modify, hd']
      rfl
    have hview : { s with languageData := s.languageData.modify found (·.mergeWith d) }.text code tag =
        (s.tagDictionary.lookup (toUpper tag)).bind fun tagID =>
          get (if found = language then d'.mergeWith d else d').tagData (tagID.toNat - 1) := text_of_some hlook hdata
    rw [text_of_some hlook hd']
    refine hview.trans ?_
    by_cases heq : d.languageCode = code
    · have hsame : found = language := by
        rw [← heq, hfound, Option.some_inj] at hlook
        exact hlook
      rw [if_pos hsame, if_pos heq, ← hfilled.bind_get]
      cases s.tagDictionary.lookup (toUpper tag) with
      | none => rfl
      | some tagID =>
        change get (overlay d.tagData (grow d'.tagData d.tagData.length)) _ = _
        rw [get_overlay, get_grow]
        rfl
    · have hother : found ≠ language := by
        rintro rfl
        rw [hd', Option.some_inj] at hold
        exact heq (by rw [← holdCode, ← hold, hcode'])
      rw [if_neg hother, if_neg heq]

/-- The definitions of a file go over the texts of its language, and no other text changes. -/
theorem text_finish (h : Coherent s) (hfilled : Filled s d definitions) (hlower : toLower d.languageCode = d.languageCode)
    (hcode : d.languageCode ≠ defaultLanguageCode) (makeDefault : Bool) (code tag : Octets) :
    (s.finish d makeDefault).text code tag =
      if d.languageCode = code then (lastText definitions (toUpper tag)).or (s.text code tag) else s.text code tag := by
  have hplace : (s.finish d makeDefault).text code tag = (s.place d).2.text code tag := by
    unfold text textAt finish
    simp
  rw [hplace]
  cases hfind : s.findByCode d.languageCode with
  | none => exact text_place_new h hfilled hlower hfind code tag
  | some found => exact text_place_old h hfilled hlower hcode hfind code tag

/-- A load that succeeds. -/
theorem text_load (h : Coherent s) (hn : Numbers S s) (htags : ∀ tag ∈ file.tags outside, tag ∈ S)
    (hout : file.outcome outside = .loaded) (hcode : file.code outside ≠ defaultLanguageCode) (code tag : Octets) :
    (load outside s file).text code tag =
      if file.code outside = code then (lastText (file.definitions outside) (toUpper tag)).or (s.text code tag)
      else s.text code tag := by
  have hfinish := text_finish (h.addTags hn htags) (filled hn htags) (FileLoad.toLower_languageData s)
    (by rwa [FileLoad.languageData_languageCode]) file.makeDefault code tag
  rw [FileLoad.languageData_languageCode, text_addTags h hn htags] at hfinish
  rw [load_of_loaded hout, hfinish]

/-! ## The default language -/

/-- There is a default language exactly if it has a code. -/
theorem defaultCode_eq_none (h : Coherent s) : s.defaultCode = none ↔ s.defaultLanguage = none := by
  unfold defaultCode
  cases hdefault : s.defaultLanguage with
  | none => simp
  | some language =>
    obtain ⟨code, hlook⟩ := h.default_mem language hdefault
    obtain ⟨-, d, hd, -⟩ := h.codes code language hlook
    simp [hd]

/-- Where a language is placed, its code is found. -/
theorem place_code (h : Coherent s) (hlower : toLower d.languageCode = d.languageCode)
    (hcode : d.languageCode ≠ defaultLanguageCode) :
    ((s.place d).2.languageData[(s.place d).1]?).map LanguageData.languageCode = some d.languageCode := by
  cases hfind : s.findByCode d.languageCode with
  | none =>
    rw [(place_new hlower hfind).2, List.getElem?_concat_length]
    rfl
  | some found =>
    have hfound := hfind
    rw [findByCode_eq hlower hcode] at hfound
    obtain ⟨-, old, hold, holdCode⟩ := h.codes _ found hfound
    rw [place_old hfind, List.getElem?_modify_eq, hold]
    exact congrArg some holdCode

/-- Codes stay where they are. -/
theorem place_code_of_some {language : Nat} (hd : s.languageData[language]? = some d') :
    ((s.place d).2.languageData[language]?).map LanguageData.languageCode = some d'.languageCode := by
  unfold place
  split
  · rw [List.getElem?_append_left (List.getElem?_eq_some_iff.1 hd).1, hd]
    rfl
  · rw [List.getElem?_modify, hd]
    dsimp only [Option.map_eq_map, Option.map_some]
    split_ifs <;> rfl

theorem defaultCode_finish (h : Coherent s) (hlower : toLower d.languageCode = d.languageCode)
    (hcode : d.languageCode ≠ defaultLanguageCode) (makeDefault : Bool) :
    (s.finish d makeDefault).defaultCode =
      if makeDefault then some d.languageCode else s.defaultCode.or (some d.languageCode) := by
  have hview : (s.finish d makeDefault).defaultCode =
      (if s.defaultLanguage = none ∨ makeDefault then some (s.place d).1 else s.defaultLanguage).bind
        fun language => ((s.place d).2.languageData[language]?).map LanguageData.languageCode := by
    unfold defaultCode finish
    simp only [processMaps_defaultLanguage, processMaps_languageData]
  rw [hview]
  by_cases hdefault : makeDefault = true
  · rw [if_pos (.inr hdefault), if_pos hdefault]
    exact place_code h hlower hcode
  · rw [if_neg hdefault]
    cases hold : s.defaultLanguage with
    | none =>
      rw [(defaultCode_eq_none h).2 hold, if_pos (.inl rfl)]
      exact place_code h hlower hcode
    | some language =>
      obtain ⟨code, hlook⟩ := h.default_mem language hold
      obtain ⟨-, d', hd', -⟩ := h.codes code language hlook
      rw [if_neg (by simpa using hdefault), Option.bind_some, place_code_of_some hd']
      simp [defaultCode, hold, hd']

/-! ## Any sequence of successful loads -/

/-- The definitions for a language in all files, in the order of the loads. -/
def definitionsFor (outside : Outside δ) (loads : List (FileLoad δ)) (code : Octets) : List (Octets × WString) :=
  (loads.filter fun file => file.code outside = code).flatMap fun file => file.definitions outside

/-- The last file loaded as the default, or else the first file. -/
def defaultFile (loads : List (FileLoad δ)) : Option (FileLoad δ) :=
  (loads.filter fun file => file.makeDefault).getLast?.or loads.head?

theorem definitionsFor_concat (loads : List (FileLoad δ)) (file : FileLoad δ) (code : Octets) :
    definitionsFor outside (loads ++ [file]) code =
      definitionsFor outside loads code ++ if file.code outside = code then file.definitions outside else [] := by
  unfold definitionsFor
  by_cases h : file.code outside = code <;> simp [List.filter_append, h]

theorem defaultFile_concat (loads : List (FileLoad δ)) (file : FileLoad δ) :
    defaultFile (loads ++ [file]) = if file.makeDefault then some file else (defaultFile loads).or (some file) := by
  unfold defaultFile
  cases h : file.makeDefault with
  | true => simp [List.filter_append, h]
  | false => cases loads <;> simp [h]

section
variable {loads : List (FileLoad δ)} (hfits : S.card < UInt32.size) (memory : Address → List TagMapEntry)
  (htags : ∀ file ∈ loads, ∀ tag ∈ file.tags outside, tag ∈ S) (hout : ∀ file ∈ loads, file.outcome outside = .loaded)
  (hcode : ∀ file ∈ loads, file.code outside ≠ defaultLanguageCode)
include hfits htags hout hcode

theorem text_loads (code tag : Octets) : (loads.foldl (load outside) (new memory)).text code tag =
    lastText (definitionsFor outside loads code) (toUpper tag) := by
  induction loads using List.reverseRecOn with
  | nil => rfl
  | append_singleton loads file ih =>
    simp only [List.forall_mem_append, List.forall_mem_singleton] at htags hout hcode
    obtain ⟨hn, hc⟩ := loads_inv hfits memory htags.1
    rw [List.foldl_concat, text_load hc hn htags.2 hout.2 hcode.2, ih htags.1 hout.1 hcode.1, definitionsFor_concat]
    by_cases heq : file.code outside = code
    · rw [if_pos heq, if_pos heq, lastText_append]
    · rw [if_neg heq, if_neg heq, List.append_nil]

theorem defaultCode_loads : (loads.foldl (load outside) (new memory)).defaultCode =
    (defaultFile loads).map fun file => file.code outside := by
  induction loads using List.reverseRecOn with
  | nil => rfl
  | append_singleton loads file ih =>
    simp only [List.forall_mem_append, List.forall_mem_singleton] at htags hout hcode
    obtain ⟨hn, hc⟩ := loads_inv hfits memory htags.1
    have hsame : ∀ s : Languages, (s.addTags (file.tags outside)).defaultCode = s.defaultCode := by
      intro s
      simp [defaultCode]
    have hfinish := defaultCode_finish (hc.addTags hn htags.2)
      (FileLoad.toLower_languageData (loads.foldl (load outside) (new memory)))
      (by rw [FileLoad.languageData_languageCode]; exact hcode.2) file.makeDefault
    rw [FileLoad.languageData_languageCode, hsame, ih htags.1 hout.1 hcode.1] at hfinish
    rw [List.foldl_concat, load_of_loaded hout.2, hfinish, defaultFile_concat]
    cases file.makeDefault with
    | true => rfl
    | false => cases defaultFile loads <;> rfl

end

/-- After successful loads, every language holds the last definition of each tag over all
its files, a load has changed no text of another language, and the default language is that
of the last file loaded as the default, or else of the first. -/
theorem loads_texts (outside : Outside δ) (memory : Address → List TagMapEntry) (loads : List (FileLoad δ))
    (hloaded : Along (load outside) (fun s file => (loadFile outside file s).1 = .loaded) (new memory) loads)
    (hfits : (tagsOf outside loads).card < UInt32.size)
    (hcode : ∀ file ∈ loads, file.code outside ≠ defaultLanguageCode) :
    (∀ code tag, (loads.foldl (load outside) (new memory)).text code tag =
        lastText (definitionsFor outside loads code) (toUpper tag)) ∧
      (∀ before file after, loads = before ++ file :: after → ∀ code, code ≠ file.code outside → ∀ tag,
        ((before ++ [file]).foldl (load outside) (new memory)).text code tag =
          (before.foldl (load outside) (new memory)).text code tag) ∧
      (loads.foldl (load outside) (new memory)).defaultCode = (defaultFile loads).map fun file => file.code outside := by
  simp only [loadFile_outcome] at hloaded
  have hout : ∀ file ∈ loads, file.outcome outside = .loaded := along_forall.1 hloaded
  have htags : ∀ file ∈ loads, ∀ tag ∈ file.tags outside, tag ∈ tagsOf outside loads := fun file hfile => mem_tagsOf hfile
  refine ⟨?_, ?_, ?_⟩
  · exact text_loads hfits memory htags hout hcode
  · rintro before file after rfl code hne tag
    simp only [List.forall_mem_append, List.forall_mem_cons] at htags hout hcode
    obtain ⟨hn, hc⟩ := loads_inv hfits memory htags.1
    rw [List.foldl_concat, text_load hc hn htags.2.1 hout.2.1 hcode.2.1, if_neg (Ne.symm hne)]
  · exact defaultCode_loads hfits memory htags hout hcode

/-- English, then French, then more English that defines a tag again. -/
def mergedLoads : List (FileLoad Unit) :=
  [.sample ".LANGCODE=en\nHELLO=hello\n" false, .sample ".LANGCODE=fr\nHELLO=salut\nBYE=adieu\n" true,
    .sample ".LANGCODE=EN\nbye=goodbye\nHello=hi\n" false]

theorem loads_texts_merged :
    (∀ code tag, (mergedLoads.foldl (load .sample) (new fun _ => [])).text code tag =
        lastText (definitionsFor .sample mergedLoads code) (toUpper tag)) ∧
      (∀ before file after, mergedLoads = before ++ file :: after → ∀ code, code ≠ file.code .sample → ∀ tag,
        ((before ++ [file]).foldl (load .sample) (new fun _ => [])).text code tag =
          (before.foldl (load .sample) (new fun _ => [])).text code tag) ∧
      (mergedLoads.foldl (load .sample) (new fun _ => [])).defaultCode =
        (defaultFile mergedLoads).map fun file => file.code .sample :=
  loads_texts .sample (fun _ => []) mergedLoads
    ⟨by decide +kernel, by decide +kernel, by decide +kernel, trivial⟩ (by decide +kernel) (by decide +kernel)

end KineIRCd.Languages

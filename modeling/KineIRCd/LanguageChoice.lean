import KineIRCd.LanguageTexts
import KineIRCd.Sections
/-!
# Which language speaks

A text is looked for in the languages of a list, in order, and then in the default
language. The list holds pointers that were taken at some time, and files may have
been loaded since, over these languages and others.
-/
namespace KineIRCd.Languages

open LangTags LanguageData Numbering Runs Slots

variable {δ : Type}

/-! ## The look-ups -/

section
variable (this : Languages) (values : ServerValues) (tagID : UInt32) (parameters : ParameterList)

/-- `get` of the data at a pointer. -/
def dataGet (language : Nat) : Option WString := do (← this.languageData[language]?).get values tagID parameters

def replacementObject : WString := [replacementObjectGlyph]

/-- What the default language has to say, if it is asked. -/
def getDefault : Option WString :=
  match this.defaultLanguage with
  | none => some replacementObject
  | some defaultLanguage => do
    let tagData ← this.dataGet values tagID parameters defaultLanguage
    if tagData ≠ [] then some tagData else some replacementObject

/-- `Languages::get` for a language. -/
def getFrom (languageData : Option Nat) : Option WString :=
  match languageData with
  | none => some replacementObject
  | some language => do
    let tagData ← this.dataGet values tagID parameters language
    if tagData ≠ [] then some tagData else this.getDefault values tagID parameters

/-- The loop of `Languages::get` for a list of languages. -/
def getLoop : List (Option Nat) → Option WString
  | [] => this.getDefault values tagID parameters
  | none :: _ => some replacementObject
  | some language :: rest => do
    let tagData ← this.dataGet values tagID parameters language
    if tagData ≠ [] then some tagData else getLoop rest

/-- `Languages::get` for a list of languages. -/
def getFromList (languageDataList : List (Option Nat)) : Option WString :=
  match languageDataList with
  | [] | none :: _ => some replacementObject
  | _ => this.getLoop values tagID parameters languageDataList

end

/-! ## What they come to -/

/-- The first text that is not empty. -/
def firstText (texts : List WString) : WString := (texts.find? (· ≠ [])).getD replacementObject

/-- The texts that are asked for: those of the languages before a null pointer,
and then the default's, unless there is such a pointer or no language at all. -/
def asked (texts : Octets → WString) (defaultCode : Option Octets) : List (Option Octets) → List WString
  | [] => defaultCode.toList.map texts
  | none :: _ => []
  | some code :: codes => texts code :: asked texts defaultCode codes

/-- The text that a list of languages has to say. -/
def chosen (texts : Octets → WString) (defaultCode : Option Octets) (codes : List (Option Octets)) : WString :=
  if codes = [] then replacementObject else firstText (asked texts defaultCode codes)

theorem firstText_cons (text : WString) (texts : List WString) :
    firstText (text :: texts) = if text ≠ [] then text else firstText texts := by
  unfold firstText
  by_cases h : text = [] <;> simp [h]

section
variable {s : Languages} {values : ServerValues} {tagID : UInt32} {parameters : ParameterList} {texts : Octets → WString}
  {defaultCode : Option Octets}

/-- The pointers of a list stand for languages whose texts are known. -/
def Stands (s : Languages) (values : ServerValues) (tagID : UInt32) (parameters : ParameterList) (texts : Octets → WString)
    (language : Nat) (code : Octets) : Prop :=
  s.dataGet values tagID parameters language = some (texts code)

/-- The pointer to the default language, if there is one, stands for it. -/
def StandsDefault (s : Languages) (values : ServerValues) (tagID : UInt32) (parameters : ParameterList)
    (texts : Octets → WString) (defaultCode : Option Octets) : Prop :=
  Option.Rel (Stands s values tagID parameters texts) s.defaultLanguage defaultCode

theorem getDefault_eq (h : StandsDefault s values tagID parameters texts defaultCode) :
    s.getDefault values tagID parameters = some (firstText (defaultCode.toList.map texts)) := by
  unfold getDefault
  unfold StandsDefault at h
  generalize s.defaultLanguage = language at h
  cases h with
  | none => rfl
  | @some language code h =>
    rw [Option.toList_some, List.map_singleton, firstText_cons]
    dsimp only
    rw [show s.dataGet values tagID parameters language = some (texts code) from h, Option.bind_eq_bind, Option.bind_some]
    split_ifs <;> rfl

theorem getLoop_eq (hdefault : StandsDefault s values tagID parameters texts defaultCode) {languages : List (Option Nat)}
    {codes : List (Option Octets)} (h : List.Forall₂ (Option.Rel (Stands s values tagID parameters texts)) languages codes) :
    s.getLoop values tagID parameters languages = some (firstText (asked texts defaultCode codes)) := by
  induction h with
  | nil => exact getDefault_eq hdefault
  | cons hfirst _ ih =>
    cases hfirst with
    | none => rfl
    | @some language code hfirst =>
      rw [getLoop, asked, firstText_cons, show s.dataGet values tagID parameters language = some (texts code) from hfirst,
        Option.bind_eq_bind, Option.bind_some]
      split_ifs
      · rfl
      · exact ih

theorem getFromList_eq (hdefault : StandsDefault s values tagID parameters texts defaultCode)
    {languages : List (Option Nat)} {codes : List (Option Octets)}
    (h : List.Forall₂ (Option.Rel (Stands s values tagID parameters texts)) languages codes) :
    s.getFromList values tagID parameters languages = some (chosen texts defaultCode codes) := by
  have hloop := getLoop_eq hdefault h
  cases h with
  | nil => rfl
  | cons hfirst hrest =>
    rw [chosen, if_neg (List.cons_ne_nil _ _)]
    cases hfirst with
    | none => rfl
    | some hfirst => exact hloop

/-- One language is a list of one. -/
theorem getFrom_eq_getFromList (language : Option Nat) :
    s.getFrom values tagID parameters language = s.getFromList values tagID parameters [language] := by
  cases language <;> rfl

end

/-! ## After any loads -/

section
variable {outside : Outside δ} {s : Languages} {S : Finset Octets}

/-- The loads that succeeded. -/
def loadedOf (outside : Outside δ) (loads : List (FileLoad δ)) : List (FileLoad δ) :=
  loads.filter fun file => file.outcome outside = .loaded

theorem loadedOf_concat (loads : List (FileLoad δ)) (file : FileLoad δ) : loadedOf outside (loads ++ [file]) =
    if file.outcome outside = .loaded then loadedOf outside loads ++ [file] else loadedOf outside loads := by
  unfold loadedOf
  by_cases h : file.outcome outside = .loaded <;> simp [List.filter_append, h]

section
variable {loads : List (FileLoad δ)} (hfits : S.card < UInt32.size) (memory : Address → List TagMapEntry)
  (htags : ∀ file ∈ loads, ∀ tag ∈ file.tags outside, tag ∈ S)
  (hcode : ∀ file ∈ loads, file.outcome outside = .loaded → file.code outside ≠ defaultLanguageCode)
include hfits htags hcode

/-- A load that fails brings no text. -/
theorem text_loads_loaded (code tag : Octets) : (loads.foldl (load outside) (new memory)).text code tag =
    lastText (definitionsFor outside (loadedOf outside loads) code) (toUpper tag) := by
  induction loads using List.reverseRecOn with
  | nil => rfl
  | append_singleton loads file ih =>
    simp only [List.forall_mem_append, List.forall_mem_singleton] at htags hcode
    obtain ⟨hn, hc⟩ := loads_inv hfits memory htags.1
    rw [List.foldl_concat, loadedOf_concat]
    by_cases hout : file.outcome outside = .loaded
    · rw [if_pos hout, text_load hc hn htags.2 hout (hcode.2 hout), ih htags.1 hcode.1, definitionsFor_concat]
      split_ifs
      · rw [lastText_append]
      · rw [List.append_nil]
    · rw [if_neg hout, load_of_not_loaded hout, text_addTags hc hn htags.2]
      exact ih htags.1 hcode.1

/-- Nor does it change the default language. -/
theorem defaultCode_loads_loaded : (loads.foldl (load outside) (new memory)).defaultCode =
    (defaultFile (loadedOf outside loads)).map fun file => file.code outside := by
  induction loads using List.reverseRecOn with
  | nil => rfl
  | append_singleton loads file ih =>
    simp only [List.forall_mem_append, List.forall_mem_singleton] at htags hcode
    obtain ⟨hn, hc⟩ := loads_inv hfits memory htags.1
    have hsame : ∀ s : Languages, (s.addTags (file.tags outside)).defaultCode = s.defaultCode := by
      intro s
      simp [defaultCode]
    rw [List.foldl_concat, loadedOf_concat]
    by_cases hout : file.outcome outside = .loaded
    · have hfinish := defaultCode_finish (hc.addTags hn htags.2)
        (FileLoad.toLower_languageData (loads.foldl (load outside) (new memory)))
        (by rw [FileLoad.languageData_languageCode]; exact hcode.2 hout) file.makeDefault
      rw [FileLoad.languageData_languageCode, hsame, ih htags.1 hcode.1] at hfinish
      rw [if_pos hout, load_of_loaded hout, hfinish, defaultFile_concat]
      cases file.makeDefault with
      | true => rfl
      | false => cases defaultFile (loadedOf outside loads) <;> rfl
    · rw [if_neg hout, load_of_not_loaded hout, hsame]
      exact ih htags.1 hcode.1

end

/-- A language keeps its address. -/
theorem loads_map_extends (loads : List (FileLoad δ)) (s : Languages) :
    Extends s.languageDataMap (loads.foldl (load outside) s).languageDataMap := by
  induction loads generalizing s with
  | nil => exact Extends.refl
  | cons file loads ih =>
    refine Extends.trans ?_ (ih (load outside s file))
    by_cases hout : file.outcome outside = .loaded
    · rw [load_of_loaded hout]
      have hplace : Extends (s.addTags (file.tags outside)).languageDataMap
          ((s.addTags (file.tags outside)).place (file.languageData outside s)).2.languageDataMap :=
        place_extends (FileLoad.toLower_languageData s)
      simpa [finish] using hplace
    · rw [load_of_not_loaded hout, addTags_languageDataMap]
      exact Extends.refl

/-- What a language stores under the ID of a tag. -/
theorem stored_getTagID (hn : Numbers S s) (d : LanguageData) (tag : Octets) : d.stored (s.getTagID tag) =
    (s.tagDictionary.lookup (toUpper tag)).bind fun tagID => Slots.get d.tagData (tagID.toNat - 1) := by
  unfold getTagID
  cases htag : s.tagDictionary.lookup (toUpper tag) with
  | none => rfl
  | some tagID =>
    obtain ⟨hpos, -, hindex⟩ := hn.index htag
    have hne : tagID ≠ 0 := by
      rintro rfl
      exact absurd hpos (by decide)
    rw [Option.getD_some, stored, if_neg hne, hindex]
    rfl

/-- What a language has to say for a tag: its text, with the parameters filled in. -/
def spoken (values : ServerValues) (parameters : ParameterList) (text : Option WString) : WString :=
  (text.map (processed values parameters)).getD []

variable {values : ServerValues} {parameters : ParameterList}

theorem stands_of_lookup (hc : Coherent s) (hn : Numbers S s) (tag : Octets) {code : Octets} {language : Nat}
    (h : s.languageDataMap.lookup code = some language) :
    Stands s values (s.getTagID tag) parameters (fun code => spoken values parameters (s.text code tag)) language code := by
  obtain ⟨-, d, hd, -⟩ := hc.codes code language h
  rw [Stands, dataGet, hd, Option.bind_eq_bind, Option.bind_some, get_eq, stored_getTagID hn, ← text_of_some h hd]
  rfl

theorem standsDefault (hc : Coherent s) (hn : Numbers S s) (tag : Octets) :
    StandsDefault s values (s.getTagID tag) parameters (fun code => spoken values parameters (s.text code tag)) s.defaultCode := by
  unfold StandsDefault
  cases hdefault : s.defaultLanguage with
  | none =>
    rw [(defaultCode_eq_none hc).2 hdefault]
    exact .none
  | some language =>
    obtain ⟨code, hlook⟩ := hc.default_mem language hdefault
    obtain ⟨-, d, hd, hcode⟩ := hc.codes code language hlook
    have hdefaultCode : s.defaultCode = some code := by simp [defaultCode, hdefault, hd, hcode]
    rw [hdefaultCode]
    exact .some (stands_of_lookup hc hn tag hlook)

end

/-- A list of languages that was taken at some time, after any loads since, speaks in the
first of its languages that has something to say: the last text that any file loaded by
then gives the tag, with the parameters filled in. If none has, it is the default
language's turn, and without that, or at a null pointer, the replacement object's. -/
theorem getFromList_loads (outside : Outside δ) (memory : Address → List TagMapEntry) (values : ServerValues)
    (parameters : ParameterList) (before after : List (FileLoad δ)) (codes : List (Option Octets)) (tag : Octets)
    (hfits : (tagsOf outside (before ++ after)).card < UInt32.size)
    (hcode : ∀ file ∈ before ++ after, file.outcome outside = .loaded → file.code outside ≠ defaultLanguageCode)
    (hcodes : ∀ code, some code ∈ codes →
      ((before.foldl (load outside) (new memory)).languageDataMap.lookup code).isSome = true) :
    let s := (before ++ after).foldl (load outside) (new memory)
    let loaded := loadedOf outside (before ++ after)
    s.getFromList values (s.getTagID tag) parameters
        (codes.map fun code => code.bind (before.foldl (load outside) (new memory)).languageDataMap.lookup) =
      some (chosen (fun code => spoken values parameters (lastText (definitionsFor outside loaded code) (toUpper tag)))
        ((defaultFile loaded).map fun file => file.code outside) codes) := by
  intro s loaded
  have htags : ∀ file ∈ before ++ after, ∀ tag ∈ file.tags outside, tag ∈ tagsOf outside (before ++ after) :=
    fun file hfile => mem_tagsOf hfile
  obtain ⟨hn, hc⟩ := loads_inv hfits memory htags
  have htexts : (fun code => spoken values parameters (lastText (definitionsFor outside loaded code) (toUpper tag))) =
      fun code => spoken values parameters (s.text code tag) := by
    funext code
    rw [text_loads_loaded hfits memory htags hcode]
  rw [htexts, ← defaultCode_loads_loaded hfits memory htags hcode]
  refine getFromList_eq (standsDefault hc hn tag) ?_
  induction codes with
  | nil => exact .nil
  | cons code codes ih =>
    refine .cons ?_ (ih fun other hother => hcodes other (List.mem_cons_of_mem _ hother))
    cases code with
    | none => exact .none
    | some code =>
      obtain ⟨language, hlook⟩ := Option.isSome_iff_exists.1 (hcodes code List.mem_cons_self)
      dsimp only
      rw [Option.bind_some, hlook]
      refine .some (stands_of_lookup hc hn tag ?_)
      have hextends := @loads_map_extends δ outside after (before.foldl (load outside) (new memory))
      rw [← List.foldl_append] at hextends
      exact hextends code language hlook

/-- English, chosen before it says goodbye in a file of its own. -/
theorem getFromList_loads_goodbye :
    let s := mergedLoads.foldl (load .sample) (new fun _ => [])
    s.getFromList sampleValues (s.getTagID (octets "bye")) none [some 0] = some (wide "goodbye") := by
  have h := getFromList_loads .sample (fun _ => []) sampleValues none (mergedLoads.take 2) (mergedLoads.drop 2)
    [some (octets "en")] (octets "bye") (by decide +kernel) (by decide +kernel)
    (fun code hcode => by
      obtain rfl := Option.some_inj.1 (List.mem_singleton.1 hcode)
      decide +kernel)
  rw [List.take_append_drop] at h
  have hpointer : ((mergedLoads.take 2).foldl (load .sample) (new fun _ => [])).languageDataMap.lookup (octets "en") =
      some 0 := by decide +kernel
  rw [List.map_singleton, Option.bind_some, hpointer] at h
  exact h.trans (by decide +kernel)

end KineIRCd.Languages

import KineIRCd.LanguageStore
import KineIRCd.Substitution
/-!
# The texts of a language, section by section

The two overloads of `LanguageData::get`. One returns the text of a tag. The
other calls back with each section of the text, and follows the pointer in the
slot without looking at it: a dereferenced null pointer has no value.

Markers of sections never get into a language through a file
(`loads_munged`), so a text has one section, and the short cut of `process` and
its loop agree on it (`process_short_cut`).
-/
namespace KineIRCd

open LangTags Runs

namespace LanguageData

/-! ## Lookups -/

/-- The text that the language holds for an ID, if any. -/
def stored (this : LanguageData) (tagID : UInt32) : Option WString :=
  if tagID = 0 then none else Slots.get this.tagData (tagID - 1).toNat

/-- `get`. -/
def get (this : LanguageData) (values : ServerValues) (tagID : UInt32) (parameters : ParameterList) : Option WString :=
  if tagID ≠ 0 ∧ tagID.toNat ≤ this.tagData.length then do
    let tag ← this.tagData[(tagID - 1).toNat]?
    match tag with
    | some tag => process values tag parameters
    | none => some []
  else some []

section
variable {σ : Type} (call : σ → WString → σ × Bool) (values : ServerValues) (parameters : ParameterList)

/-- The loop of the multi-call `get`, for some rounds. The function called back has a state
of its own, and says whether it wants more. -/
def sectionLoop (tag : WString) : Nat → Nat → σ → Option (Bool × σ)
  | 0, _, _ => none
  | n + 1, startPosition, s => do
    let endPosition := findFirstOf [newLineMarkerChar.toUInt32] tag startPosition
    let text ← process values (substr tag startPosition (endPosition.getD tag.length - startPosition)) parameters
    if (call s text).2 = false then some (true, (call s text).1)
    else
      match endPosition with
      | none => some (true, (call s text).1)
      | some endPosition =>
        if tag.length ≤ endPosition then some (true, (call s text).1)
        else sectionLoop tag n (endPosition + 1) (call s text).1

/-- The multi-call `get`. -/
def getSections (this : LanguageData) (tagID : UInt32) (s : σ) : Option (Bool × σ) :=
  if tagID = 0 ∨ this.tagData.length < tagID.toNat then some (false, s)
  else do
    let slot ← this.tagData[(tagID - 1).toNat]?
    -- the slot is not looked at before the pointer in it is followed
    let tag ← slot
    sectionLoop call values parameters tag (tag.length + 1) 0 s

/-! ## What the calls are -/

/-- One call for each text, until one says that it is enough. -/
def callAll : List WString → σ → σ
  | [], s => s
  | text :: texts, s => if (call s text).2 = false then (call s text).1 else callAll texts (call s text).1

/-- A text after processing. -/
def processed (data : WString) : WString :=
  if parameterMarkerChar.toUInt32 ∈ data then fillIn values parameters data else data

/-- The sections of a text. -/
def sections (text : WString) : List WString := text.splitOn newLineMarkerChar.toUInt32

variable {call values parameters}

/-- `process` always has a value. -/
theorem process_processed (data : WString) : process values data parameters = some (processed values parameters data) := by
  unfold process processed
  split_ifs
  · exact substituted_eq
  · rfl

theorem sectionLoop_eq {tag : WString} {startPosition : Nat} (n : Nat) (s : σ) (h : tag.length - startPosition < n) :
    sectionLoop call values parameters tag n startPosition s =
      some (true, callAll call ((sections (tag.drop startPosition)).map (processed values parameters)) s) := by
  induction n generalizing startPosition s with
  | zero => omega
  | succ n ih =>
    rw [sectionLoop]
    cases hend : findFirstOf [newLineMarkerChar.toUInt32] tag startPosition with
    | none =>
      have hsections : sections (tag.drop startPosition) = [tag.drop startPosition] :=
        List.splitOn_eq_singleton fun hmem => findFirstOf_none hend _ hmem (by simp)
      have hsubstr : substr tag startPosition (tag.length - startPosition) = tag.drop startPosition := by
        rw [substr, List.take_of_length_le (by simp)]
      rw [Option.getD_none, hsubstr, process_processed, hsections, Option.bind_eq_bind, Option.bind_some]
      simp [callAll]
    | some endPosition =>
      obtain ⟨sep, hle, hlt, -, hsep, hsplit, hfirst⟩ := findFirstOf_some hend
      obtain rfl := List.mem_singleton.1 hsep
      have hsections : sections (tag.drop startPosition) =
          substr tag startPosition (endPosition - startPosition) :: sections (tag.drop (endPosition + 1)) := by
        unfold sections
        rw [hsplit]
        exact List.splitOn_append_cons_self_of_not_mem (fun hmem => hfirst _ hmem (by simp)) _
      rw [Option.getD_some, process_processed, hsections, Option.bind_eq_bind, Option.bind_some]
      dsimp only
      rw [if_neg (by omega : ¬ tag.length ≤ endPosition), ih _ (by omega), List.map_cons, callAll]
      split_ifs <;> rfl

/-- The sections of a text, put together again, are the text. -/
theorem intercalate_sections (text : WString) :
    [newLineMarkerChar.toUInt32].intercalate (sections text) = text := List.intercalate_splitOn _

end

/-! ## The two overloads -/

section
variable {this : LanguageData} {values : ServerValues} {parameters : ParameterList} {tagID : UInt32}

/-- What `tagData[tagID - 1]` is. -/
theorem slot_of_le (h0 : tagID ≠ 0) (hle : tagID.toNat ≤ this.tagData.length) :
    this.tagData[(tagID - 1).toNat]? = some (this.stored tagID) := by
  have hpos : 0 < tagID.toNat := by
    rcases Nat.eq_zero_or_pos tagID.toNat with hzero | hpos
    · exact absurd (UInt32.toNat_inj.1 hzero) h0
    · exact hpos
  have hindex : (tagID - 1).toNat = tagID.toNat - 1 := UInt32.toNat_sub_of_le _ _ (UInt32.le_iff_toNat_le.2 hpos)
  rw [stored, if_neg h0, Slots.get, List.getElem?_eq_getElem (by omega), Option.join_some]

theorem stored_of_lt (h : this.tagData.length < tagID.toNat) : this.stored tagID = none := by
  have hpos : (1 : UInt32).toNat ≤ tagID.toNat := by
    rw [UInt32.toNat_one]
    omega
  have hindex : (tagID - 1).toNat = tagID.toNat - 1 := UInt32.toNat_sub_of_le _ _ (UInt32.le_iff_toNat_le.2 hpos)
  unfold stored
  split_ifs
  · rfl
  · exact Slots.get_eq_none (by omega)

/-- The single call: the text after processing, and nothing for a tag without a text. -/
theorem get_eq : this.get values tagID parameters = some (((this.stored tagID).map (processed values parameters)).getD []) := by
  unfold get
  split_ifs with h
  · rw [slot_of_le h.1 h.2, Option.bind_eq_bind, Option.bind_some]
    cases this.stored tagID with
    | none => rfl
    | some text => exact process_processed text
  · have hnone : this.stored tagID = none := by
      by_cases h0 : tagID = 0
      · rw [stored, if_pos h0]
      · exact stored_of_lt (by
          by_contra hle
          exact h ⟨h0, by omega⟩)
    rw [hnone]
    rfl

/-- The multi-call `get` returns false for a tag without a text, and calls back with each
section of a text otherwise. -/
def Agrees (this : LanguageData) (values : ServerValues) (parameters : ParameterList) (tagID : UInt32) : Prop :=
  ∀ (σ : Type) (call : σ → WString → σ × Bool) (s : σ),
    match this.stored tagID with
    | none => this.getSections call values parameters tagID s = some (false, s)
    | some text =>
      this.getSections call values parameters tagID s =
          some (true, callAll call ((sections text).map (processed values parameters)) s) ∧
        [newLineMarkerChar.toUInt32].intercalate (sections text) = text

/-- It does so, in any state and whatever is called back, unless the ID is that of an empty slot. -/
theorem agrees_iff : this.Agrees values parameters tagID ↔
    tagID = 0 ∨ this.tagData.length < tagID.toNat ∨ (this.stored tagID).isSome := by
  by_cases hrange : tagID = 0 ∨ this.tagData.length < tagID.toNat
  · have hnone : this.stored tagID = none := by
      rcases hrange with rfl | hlt
      · rfl
      · exact stored_of_lt hlt
    refine iff_of_true ?_ (by rw [← or_assoc]; exact .inl hrange)
    intro σ call s
    rw [hnone]
    exact if_pos hrange
  · obtain ⟨h0, hle⟩ := not_or.1 hrange
    have hslot := slot_of_le h0 (Nat.le_of_not_lt hle)
    have hget : ∀ (σ : Type) (call : σ → WString → σ × Bool) (s : σ), this.getSections call values parameters tagID s =
        (this.stored tagID).bind fun tag => sectionLoop call values parameters tag (tag.length + 1) 0 s := by
      intro σ call s
      rw [getSections, if_neg hrange, hslot]
      rfl
    constructor
    · intro h
      refine .inr (.inr ?_)
      cases hstored : this.stored tagID with
      | some text => rfl
      | none =>
        -- the null pointer is followed, whoever is called back
        have hfalse := h Unit (fun s _ => (s, true)) ()
        rw [hget, hstored] at hfalse
        simp at hfalse
    · intro h σ call s
      have hsome := (h.resolve_left h0).resolve_left hle
      obtain ⟨text, htext⟩ := Option.isSome_iff_exists.1 hsome
      rw [hget, htext, Option.bind_some, sectionLoop_eq _ _ (by omega), List.drop_zero]
      exact ⟨rfl, intercalate_sections text⟩

end

end LanguageData

/-! ## What files bring into a language -/

namespace LangTags

/-- A text that went through the filter for control characters. -/
def Munged (text : WString) : Prop := ∃ raw : WString, text = raw.map munge

theorem munge_ne (c : WChar) : munge c ≠ newLineMarkerChar.toUInt32 := by
  have hmarker : newLineMarkerChar.toUInt32 = 0x85 := rfl
  rw [hmarker]
  unfold munge replacementCharacterGlyph
  grind

/-- The filter leaves no marker of a section. -/
theorem Munged.not_mem {text : WString} (h : Munged text) : newLineMarkerChar.toUInt32 ∉ text := by
  obtain ⟨raw, rfl⟩ := h
  intro hmem
  obtain ⟨c, -, hc⟩ := List.mem_map.1 hmem
  exact munge_ne c hc

end LangTags

namespace Languages
variable {δ : Type} {outside : Outside δ} {file : FileLoad δ} {s : Languages} {d d' : LanguageData}

/-- All texts of the language went through the filter. -/
def AllMunged (d : LanguageData) : Prop := ∀ text, some text ∈ d.tagData → Munged text

theorem munged_of_mem_entries {entry : Entry} (h : entry ∈ file.entries outside) : Munged entry.text := by
  obtain ⟨line, tag, data, raw, -, rfl⟩ := FileLoad.exists_of_mem_entries h
  exact ⟨raw, rfl⟩

theorem AllMunged.setTag (h : AllMunged d) (tagID : UInt32) {text : WString} (htext : Munged text) :
    AllMunged (setTag d tagID text) := by
  intro other hother
  rcases List.mem_or_eq_of_mem_set hother with hgrow | heq
  · rcases List.mem_append.1 hgrow with hmem | hnew
    · exact h other hmem
    · simp at hnew
  · obtain rfl := Option.some.inj heq
    exact htext

theorem foldl_readEntry_munged {entries : List Entry} (hentries : ∀ entry ∈ entries, Munged entry.text)
    {t : Languages × LanguageData} (h : AllMunged t.2) : AllMunged (entries.foldl readEntry t).2 := by
  induction entries generalizing t with
  | nil => exact h
  | cons entry entries ih =>
    apply ih fun entry hentry => hentries entry (List.mem_cons_of_mem _ hentry)
    unfold readEntry
    split_ifs
    · rwa [AllMunged, setControl_tagData]
    · exact h.setTag _ (hentries entry List.mem_cons_self)

/-- The language of a file. -/
theorem allMunged_languageData (file : FileLoad δ) (s : Languages) : AllMunged (file.languageData outside s) :=
  foldl_readEntry_munged (fun _ hentry => munged_of_mem_entries hentry) (fun text htext => by simp at htext)

/-- A merge puts texts of both sides together. -/
theorem AllMunged.mergeWith (h : AllMunged d) (h' : AllMunged d') : AllMunged (d.mergeWith d') := by
  intro text htext
  rcases Slots.mem_overlay htext with hnew | hold
  · exact h' text hnew
  · rcases List.mem_append.1 hold with hmem | hnone
    · exact h text hmem
    · simp at hnone

theorem finish_munged (h : ∀ d ∈ s.languageData, AllMunged d) (hd : AllMunged d) (makeDefault : Bool) :
    ∀ d' ∈ (s.finish d makeDefault).languageData, AllMunged d' := by
  intro d' hd'
  rw [finish, processMaps_languageData] at hd'
  unfold place at hd'
  split at hd'
  · rcases List.mem_append.1 hd' with hmem | hnew
    · exact h d' hmem
    · obtain rfl := List.mem_singleton.1 hnew
      exact hd
  · obtain ⟨i, hi⟩ := List.mem_iff_getElem?.1 hd'
    rw [List.getElem?_modify] at hi
    obtain ⟨old, hold, rfl⟩ := Option.map_eq_some_iff.1 hi
    have hmem := h old (List.mem_of_getElem? hold)
    split_ifs
    · exact hmem.mergeWith hd
    · exact hmem

theorem load_munged (h : ∀ d ∈ s.languageData, AllMunged d) (file : FileLoad δ) :
    ∀ d ∈ (load outside s file).languageData, AllMunged d := by
  by_cases hout : file.outcome outside = .loaded
  · rw [load_of_loaded hout]
    apply finish_munged
    · rwa [addTags_languageData]
    · exact allMunged_languageData file s
  · rwa [load_of_not_loaded hout, addTags_languageData]

/-- Whatever files are loaded over one another, all texts went through the filter. -/
theorem loads_munged (outside : Outside δ) (memory : Address → List TagMapEntry) (loads : List (FileLoad δ)) :
    ∀ d ∈ (loads.foldl (load outside) (new memory)).languageData, AllMunged d :=
  run_keeps (I := fun s : Languages => ∀ d ∈ s.languageData, AllMunged d)
    (fun s file h => load_munged h file) (fun d hd => by simp [new] at hd)

/-! ## Every state that files lead to -/

/-- The short cut of `process` agrees with its loop on every text without a parameter marker
that a file brought into a language, and on every section of it. -/
theorem process_short_cut (outside : Outside δ) (memory : Address → List TagMapEntry) (loads : List (FileLoad δ))
    (hd : d ∈ (loads.foldl (load outside) (new memory)).languageData) {text : WString} (htext : some text ∈ d.tagData)
    (hmarker : parameterMarkerChar.toUInt32 ∉ text) {segment : WString}
    (hsegment : segment = text ∨ segment ∈ LanguageData.sections text) (values : ServerValues)
    (parameters : LanguageData.ParameterList) :
    LanguageData.process values segment parameters = LanguageData.substituted values segment parameters := by
  have hnot := (loads_munged outside memory loads d hd text htext).not_mem
  have hsections : LanguageData.sections text = [text] := List.splitOn_eq_singleton hnot
  obtain rfl : segment = text := by
    rcases hsegment with heq | hmem
    · exact heq
    · rw [hsections] at hmem
      exact List.mem_singleton.1 hmem
  rw [LanguageData.process, if_neg hmarker, LanguageData.substituted_eq,
    LanguageData.fillIn_of_not_mem hmarker hnot]

/-- English has two texts, and French only the second of them. -/
def sparseLoads : List (FileLoad Unit) :=
  [.sample ".LANGCODE=en\nHELLO=hello\nBYE=bye\n" false, .sample ".LANGCODE=fr\nBYE=adieu\n" false]

/-- The French of `sparseLoads`: the slot of `HELLO` is empty. -/
def sparseFrench : LanguageData := { languageCode := octets "fr", tagCount := 1, tagData := [none, some (wide "adieu")] }

theorem sparseFrench_mem : sparseFrench ∈ (sparseLoads.foldl (load .sample) (new fun _ => [])).languageData :=
  List.mem_of_getElem? (by decide +kernel : (sparseLoads.foldl (load .sample) (new fun _ => [])).languageData[1]? =
    some sparseFrench)

theorem process_short_cut_french :
    LanguageData.process LanguageData.sampleValues (wide "adieu") none =
      LanguageData.substituted LanguageData.sampleValues (wide "adieu") none :=
  process_short_cut .sample (fun _ => []) sparseLoads sparseFrench_mem (by decide +kernel) (by decide +kernel)
    (.inl rfl) LanguageData.sampleValues none

/-- There the multi-call `get` follows the null pointer for `HELLO`. -/
theorem not_agrees_french :
    sparseFrench ∈ (sparseLoads.foldl (load .sample) (new fun _ => [])).languageData ∧
      ¬ sparseFrench.Agrees LanguageData.sampleValues none 1 := by
  refine ⟨sparseFrench_mem, fun h => ?_⟩
  have hcall := h Unit (fun s _ => (s, true)) ()
  have hnone : sparseFrench.stored 1 = none := rfl
  rw [hnone] at hcall
  exact absurd hcall (by decide +kernel)

end Languages

end KineIRCd

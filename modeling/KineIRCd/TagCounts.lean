import KineIRCd.LanguageTexts
/-!
# The tag counter

`tagCount` goes up for each line while a file is read, and for each text that
a merge brings, whether or not the slot was empty. So it is the number of texts
only as long as nothing is defined twice.
-/
namespace KineIRCd.Languages

open LangTags Numbering Runs Slots

variable {δ : Type} {outside : Outside δ} {file : FileLoad δ} {s : Languages} {d : LanguageData}
  {definitions : List (Octets × WString)} {tag : Octets} {S : Finset Octets}

/-- The counter of every language is the number of its texts, and so no more than there
are tags. -/
def Counted (s : Languages) : Prop :=
  ∀ code language, s.languageDataMap.lookup code = some language → ∀ d, s.languageData[language]? = some d →
    d.tagCount = held d.tagData ∧ d.tagCount ≤ s.highestTagID.toNat

/-- If the file loads, it defines each tag once for a language that is new, and no tag that
the language has a text for if it is there. -/
def DefinesOnce (outside : Outside δ) (s : Languages) (file : FileLoad δ) : Prop :=
  file.outcome outside = .loaded →
    match s.findByCode (file.code outside) with
    | none => (file.tags outside).Nodup
    | some language => ∀ tag ∈ file.tags outside, s.textAt language tag = none

/-! ## The counter of one language -/

theorem held_le_length (l : List (Option WString)) : held l ≤ l.length := List.countP_le_length

/-- While a language is read, each line counts and each tag has one slot. -/
theorem Filled.counted_iff (h : Filled s d definitions) :
    d.tagCount = Slots.held d.tagData ↔ (definitions.map Prod.fst).Nodup := by
  have hlength : (definitions.map Prod.fst).length = definitions.length := List.length_map Prod.fst
  rw [h.count, h.held, List.card_toFinset, ← hlength]
  constructor
  · intro hlen
    have hdedup := (List.dedup_sublist (definitions.map Prod.fst)).eq_of_length hlen.symm
    rw [← hdedup]
    exact List.nodup_dedup _
  · intro hnodup
    rw [hnodup.dedup]

/-- The slots in use are those of the tags that are defined. -/
theorem Filled.get_eq_none_iff (h : Filled s d definitions) (hn : Numbers S s) (l : List (Option WString)) :
    (∀ i, get d.tagData i = none ∨ get l i = none) ↔
      ∀ tag ∈ definitions.map Prod.fst, ∀ tagID, s.tagDictionary.lookup tag = some tagID →
        get l (tagID.toNat - 1) = none := by
  constructor
  · intro hall tag htag tagID htagID
    have hsome := lastText_isSome.2 htag
    rw [← h.texts tag tagID htagID] at hsome
    rcases hall (tagID.toNat - 1) with hnone | hnone
    · rw [hnone] at hsome
      simp at hsome
    · exact hnone
  · intro htags i
    cases hi : get d.tagData i with
    | none => exact .inl rfl
    | some text =>
      have hlt := lt_of_get hi
      obtain ⟨tag, tagID, htagID, hvalue⟩ := hn.ids.surjective (i + 1) (Nat.succ_pos i) (Nat.le_trans hlt h.slots)
      have hindex : tagID.toNat - 1 = i := by omega
      have htext := h.texts tag tagID htagID
      rw [hindex, hi] at htext
      have hnone := htags tag (lastText_isSome.1 (htext ▸ rfl)) tagID htagID
      rw [hindex] at hnone
      exact .inr hnone

/-- A merge counts every text that it brings. -/
theorem mergeWith_counted_iff (this newData : LanguageData) (h : this.tagCount = held this.tagData) :
    (this.mergeWith newData).tagCount = held (this.mergeWith newData).tagData ↔
      ∀ i, get newData.tagData i = none ∨ get this.tagData i = none := by
  have hsum := held_overlay (l := newData.tagData) (m := grow this.tagData newData.tagData.length)
  have hshared := shared_eq_zero (l := newData.tagData) (m := grow this.tagData newData.tagData.length)
  rw [held_grow] at hsum
  simp only [get_grow] at hshared
  rw [← hshared]
  unfold LanguageData.mergeWith
  dsimp only
  omega

/-! ## One load -/

/-- Languages stay as they are while their tags are numbered. -/
theorem Counted.addTags (h : Counted s) (hn : Numbers S s) {tags : List Octets} (htags : ∀ tag ∈ tags, tag ∈ S) :
    Counted (s.addTags tags) := by
  intro code language hlook d hd
  rw [addTags_languageDataMap] at hlook
  rw [addTags_languageData] at hd
  obtain ⟨hcount, hle⟩ := h code language hlook d hd
  exact ⟨hcount, hle.trans (hn.highestTagID_le htags)⟩

/-- The bound comes with the count, as no language has more slots than there are tags. -/
theorem counted_of (h : Coherent s)
    (hcount : ∀ code language, s.languageDataMap.lookup code = some language → ∀ d, s.languageData[language]? = some d →
      d.tagCount = held d.tagData) : Counted s := by
  intro code language hlook d hd
  have hd' := hcount code language hlook d hd
  refine ⟨hd', ?_⟩
  rw [hd']
  exact (held_le_length d.tagData).trans (h.slots d (List.mem_of_getElem? hd))

theorem counted_finish_new (h : Coherent s) (hc : Counted s) (hfilled : Filled s d definitions)
    (hlower : toLower d.languageCode = d.languageCode) (hfind : s.findByCode d.languageCode = none) (makeDefault : Bool) :
    Counted (s.finish d makeDefault) ↔ (definitions.map Prod.fst).Nodup := by
  have hcoherent := h.finish hlower hfilled.slots makeDefault
  obtain ⟨hnone, hplace⟩ := place_new hlower hfind
  have hmap : (s.finish d makeDefault).languageDataMap = s.languageDataMap.insert d.languageCode s.languageData.length := by
    simp [finish, hplace]
  have hdata : (s.finish d makeDefault).languageData = s.languageData ++ [d] := by simp [finish, hplace]
  rw [← hfilled.counted_iff]
  constructor
  · intro hcounted
    refine (hcounted d.languageCode s.languageData.length ?_ d ?_).1
    · rw [hmap, AList.lookup_insert]
    · rw [hdata, List.getElem?_concat_length]
  · intro hnew
    refine counted_of hcoherent ?_
    intro code language hlook d' hd'
    rw [hmap] at hlook
    rw [hdata] at hd'
    by_cases hcode : code = d.languageCode
    · rw [hcode, AList.lookup_insert, Option.some_inj] at hlook
      rw [← hlook, List.getElem?_concat_length, Option.some_inj] at hd'
      rw [← hd']
      exact hnew
    · rw [AList.lookup_insert_ne hcode] at hlook
      obtain ⟨-, old, hold, -⟩ := h.codes code language hlook
      rw [List.getElem?_append_left (List.getElem?_eq_some_iff.1 hold).1] at hd'
      exact (hc code language hlook d' hd').1

theorem counted_finish_old (h : Coherent s) (hn : Numbers S s) (hc : Counted s) (hfilled : Filled s d definitions)
    (hlower : toLower d.languageCode = d.languageCode) {found : Nat} (hfind : s.findByCode d.languageCode = some found)
    (makeDefault : Bool) :
    Counted (s.finish d makeDefault) ↔ ∀ tag ∈ definitions.map Prod.fst, s.textAt found tag = none := by
  have hcoherent := h.finish hlower hfilled.slots makeDefault
  have hmap : (s.finish d makeDefault).languageDataMap = s.languageDataMap := by simp [finish, place_old hfind]
  have hdata : (s.finish d makeDefault).languageData = s.languageData.modify found (·.mergeWith d) := by
    simp [finish, place_old hfind]
  obtain ⟨code₀, hlook₀⟩ := h.mem_of_findByCode hfind
  obtain ⟨-, old, hold, -⟩ := h.codes code₀ found hlook₀
  have htexts : (∀ tag ∈ definitions.map Prod.fst, s.textAt found tag = none) ↔
      (old.mergeWith d).tagCount = held (old.mergeWith d).tagData := by
    rw [mergeWith_counted_iff old d (hc code₀ found hlook₀ old hold).1, hfilled.get_eq_none_iff hn]
    refine forall₂_congr fun tag htag => ?_
    rw [textAt, hold, Option.bind_some]
    exact Option.bind_eq_none_iff
  rw [htexts]
  constructor
  · intro hcounted
    refine (hcounted code₀ found ?_ _ ?_).1
    · rw [hmap, hlook₀]
    · rw [hdata, List.getElem?_modify_eq, hold]
      rfl
  · intro hmerged
    refine counted_of hcoherent ?_
    intro code language hlook d' hd'
    rw [hmap] at hlook
    rw [hdata, List.getElem?_modify] at hd'
    obtain ⟨d₀, hd₀, rfl⟩ := Option.map_eq_some_iff.1 hd'
    split_ifs with hsame
    · subst hsame
      rw [hold, Option.some_inj] at hd₀
      rw [← hd₀]
      exact hmerged
    · exact (hc code language hlook d₀ hd₀).1

/-- From a state where the counters are right, they are right after a load exactly if it
defines its tags once. -/
theorem counted_load_iff (h : Coherent s) (hn : Numbers S s) (hc : Counted s)
    (htags : ∀ tag ∈ file.tags outside, tag ∈ S) : Counted (load outside s file) ↔ DefinesOnce outside s file := by
  unfold DefinesOnce
  by_cases hout : file.outcome outside = .loaded
  · have h' := h.addTags hn htags
    have hn' := hn.addTags htags
    have hc' := hc.addTags hn htags
    have hfilled := filled (s := s) hn htags
    have hfind : (s.addTags (file.tags outside)).findByCode (file.languageData outside s).languageCode =
        s.findByCode (file.code outside) := by
      rw [FileLoad.languageData_languageCode]
      simp [findByCode]
    rw [load_of_loaded hout, forall_prop_of_true hout]
    cases hfound : s.findByCode (file.code outside) with
    | none =>
      rw [hfound] at hfind
      exact counted_finish_new h' hc' hfilled (FileLoad.toLower_languageData s) hfind file.makeDefault
    | some language =>
      rw [hfound] at hfind
      rw [counted_finish_old h' hn' hc' hfilled (FileLoad.toLower_languageData s) hfind file.makeDefault]
      simp only [textAt_addTags h hn htags]
      rfl
  · rw [load_of_not_loaded hout]
    exact iff_of_true (hc.addTags hn htags) fun hloaded => absurd hloaded hout

/-! ## Any sequence of loads -/

theorem counted_new (memory : Address → List TagMapEntry) : Counted (new memory) := by
  intro code language hlook
  simp [new] at hlook

/-- Over a sequence of loads, the counters are right in every state exactly if each load
defines its tags once. -/
theorem loads_counted_iff (outside : Outside δ) (memory : Address → List TagMapEntry) (loads : List (FileLoad δ))
    (hfits : (tagsOf outside loads).card < UInt32.size) :
    Throughout (load outside) Counted (new memory) loads ↔ Along (load outside) (DefinesOnce outside) (new memory) loads := by
  refine throughout_iff_along_of (J := fun s => Numbers (tagsOf outside loads) s ∧ Coherent s)
    (R := fun _ file => ∀ tag ∈ file.tags outside, tag ∈ tagsOf outside loads) ?_ ?_
    ⟨Numbers.new hfits memory, Coherent.new memory⟩ (along_forall.2 fun file hfile => mem_tagsOf hfile)
    (counted_new memory)
  · rintro s file ⟨hn, hc⟩ htags
    exact ⟨hn.load htags, hc.load hn htags⟩
  · rintro s file ⟨hn, hc⟩ htags hcounted
    exact counted_load_iff hc hn hcounted htags

theorem loads_counted_iff_merged :
    Throughout (load .sample) Counted (new fun _ => []) mergedLoads ↔
      Along (load .sample) (DefinesOnce .sample) (new fun _ => []) mergedLoads :=
  loads_counted_iff .sample (fun _ => []) mergedLoads (by decide +kernel)

/-- A file with two lines for one tag. -/
def twiceFile : FileLoad Unit := .sample ".LANGCODE=en\nHELLO=hello\nHELLO=hi\n" false

/-- The counter says two, with one text and one tag. -/
theorem not_counted_twice :
    ¬ ∀ loads : List (FileLoad Unit), (tagsOf .sample loads).card < UInt32.size →
      Counted (loads.foldl (load .sample) (new fun _ => [])) := by
  intro h
  have hcounted := h [twiceFile] (by decide +kernel) (octets "en") 0 (by decide +kernel)
    (((load .sample (new fun _ => []) twiceFile).languageData[0]?).getD {}) (by decide +kernel)
  exact absurd hcounted.1 (by decide +kernel)

end KineIRCd.Languages

import KineIRCd.LanguageFiles
import KineIRCd.Lib.Numbering
/-!
# The tag dictionary

`addTag` is the only step that touches the dictionary. It numbers tags in the
order in which files mention them, and it takes effect at once: the tags of a
file that then fails to load stay in the dictionary.
-/
namespace KineIRCd.Languages

open LangTags Numbering

variable {δ : Type} {outside : Outside δ} {file : FileLoad δ} {s : Languages} {tag other : Octets} {tags : List Octets}
  {S : Finset Octets}

/-! ## One tag -/

theorem addTag_of_some {tagID : UInt32} (h : s.tagDictionary.lookup tag = some tagID) : s.addTag tag = (tagID, s) := by
  rw [addTag, h]

theorem addTag_of_none (h : s.tagDictionary.lookup tag = none) : s.addTag tag =
    (s.highestTagID + 1,
      { s with
        highestTagID := s.highestTagID + 1
        tagDictionary := s.tagDictionary.insert tag (s.highestTagID + 1) }) := by
  rw [addTag, h]

/-- The tag is in the dictionary afterwards, under the ID given. -/
theorem addTag_lookup : (s.addTag tag).2.tagDictionary.lookup tag = some (s.addTag tag).1 := by
  cases h : s.tagDictionary.lookup tag with
  | some tagID => rw [addTag_of_some h, h]
  | none =>
    rw [addTag_of_none h]
    exact AList.lookup_insert _

theorem addTag_lookup_ne (h : other ≠ tag) :
    (s.addTag tag).2.tagDictionary.lookup other = s.tagDictionary.lookup other := by
  cases htag : s.tagDictionary.lookup tag with
  | some tagID => rw [addTag_of_some htag]
  | none =>
    rw [addTag_of_none htag]
    exact AList.lookup_insert_ne h

theorem addTag_extends : Extends s.tagDictionary (s.addTag tag).2.tagDictionary := by
  cases h : s.tagDictionary.lookup tag with
  | some tagID =>
    rw [addTag_of_some h]
    exact Extends.refl
  | none =>
    rw [addTag_of_none h]
    exact extends_insert h

theorem mem_addTag : other ∈ (s.addTag tag).2.tagDictionary ↔ other ∈ s.tagDictionary ∨ other = tag := by
  rw [← AList.lookup_isSome, ← AList.lookup_isSome]
  by_cases h : other = tag
  · subst h
    simp [addTag_lookup]
  · simp [addTag_lookup_ne h, h]

/-- The engine apart from its dictionary is not touched. -/
theorem addTag_other (s : Languages) (tag : Octets) :
    { (s.addTag tag).2 with tagDictionary := s.tagDictionary, highestTagID := s.highestTagID } = s := by
  cases h : s.tagDictionary.lookup tag with
  | some tagID => rw [addTag_of_some h]
  | none => rw [addTag_of_none h]

/-! ## All tags of a file -/

theorem addTags_extends : Extends s.tagDictionary (s.addTags tags).tagDictionary := by
  induction tags generalizing s with
  | nil => exact Extends.refl
  | cons tag tags ih => exact addTag_extends.trans ih

theorem mem_addTags : other ∈ (s.addTags tags).tagDictionary ↔ other ∈ s.tagDictionary ∨ other ∈ tags := by
  induction tags generalizing s with
  | nil => simp [addTags]
  | cons tag tags ih =>
    change other ∈ ((s.addTag tag).2.addTags tags).tagDictionary ↔ _
    rw [ih, mem_addTag, List.mem_cons, or_assoc]

theorem addTags_other (s : Languages) (tags : List Octets) :
    { s.addTags tags with tagDictionary := s.tagDictionary, highestTagID := s.highestTagID } = s := by
  induction tags generalizing s with
  | nil => rfl
  | cons tag tags ih =>
    have hstep := addTag_other s tag
    have hrest := ih (s.addTag tag).2
    rw [← hrest] at hstep
    exact hstep

@[simp] theorem addTags_tagMaps : (s.addTags tags).tagMaps = s.tagMaps := (congrArg tagMaps (addTags_other s tags) :)

@[simp] theorem addTags_languageDataMap : (s.addTags tags).languageDataMap = s.languageDataMap :=
  (congrArg languageDataMap (addTags_other s tags) :)

@[simp] theorem addTags_defaultLanguage : (s.addTags tags).defaultLanguage = s.defaultLanguage :=
  (congrArg defaultLanguage (addTags_other s tags) :)

@[simp] theorem addTags_languageData : (s.addTags tags).languageData = s.languageData :=
  (congrArg languageData (addTags_other s tags) :)

@[simp] theorem addTags_memory : (s.addTags tags).memory = s.memory := (congrArg memory (addTags_other s tags) :)

/-- Nothing changes exactly when every tag is known already. -/
theorem addTags_eq_self : s.addTags tags = s ↔ ∀ tag ∈ tags, tag ∈ s.tagDictionary := by
  constructor
  · intro h tag htag
    rw [← h]
    exact mem_addTags.2 (.inr htag)
  · intro h
    induction tags with
    | nil => rfl
    | cons tag tags ih =>
      obtain ⟨tagID, htagID⟩ := Option.isSome_iff_exists.1 (AList.lookup_isSome.2 (h tag List.mem_cons_self))
      change (s.addTag tag).2.addTags tags = s
      rw [addTag_of_some htagID]
      exact ih fun other hother => h other (List.mem_cons_of_mem tag hother)

/-! ## The numbers -/

/-- The dictionary numbers tags of `S`, which are few enough for an ID each. -/
structure Numbers (S : Finset Octets) (s : Languages) : Prop where
  fits : S.card < UInt32.size
  mem : ∀ tag ∈ s.tagDictionary, tag ∈ S
  ids : Numbered UInt32.toNat s.tagDictionary s.highestTagID.toNat

namespace Numbers

theorem new (hS : S.card < UInt32.size) (memory : Address → List TagMapEntry) : Numbers S (Languages.new memory) where
  fits := hS
  mem := fun tag h => absurd h (AList.notMem_empty tag)
  ids := numbered_empty

/-- A new tag of `S` takes the next ID, which does not wrap round. -/
theorem toNat_succ (h : Numbers S s) (htag : tag ∈ S) (hnew : s.tagDictionary.lookup tag = none) :
    (s.highestTagID + 1).toNat = s.highestTagID.toNat + 1 := by
  have hlt := h.ids.lt_card h.mem htag hnew
  have hfits := h.fits
  rw [UInt32.toNat_add]
  exact Nat.mod_eq_of_lt (Nat.lt_of_le_of_lt hlt hfits)

theorem addTag (h : Numbers S s) (htag : tag ∈ S) : Numbers S (s.addTag tag).2 where
  fits := h.fits
  mem := by
    intro other hother
    rcases mem_addTag.1 hother with hold | rfl
    · exact h.mem other hold
    · exact htag
  ids := by
    cases hl : s.tagDictionary.lookup tag with
    | some tagID =>
      rw [addTag_of_some hl]
      exact h.ids
    | none =>
      have hsucc := h.toNat_succ htag hl
      rw [addTag_of_none hl]
      dsimp only
      rw [hsucc]
      exact h.ids.insert hl hsucc

theorem addTags (h : Numbers S s) (htags : ∀ tag ∈ tags, tag ∈ S) : Numbers S (s.addTags tags) := by
  induction tags generalizing s with
  | nil => exact h
  | cons tag tags ih =>
    exact ih (h.addTag (htags tag List.mem_cons_self)) fun other hother => htags other (List.mem_cons_of_mem tag hother)

/-- The numbers never go down. -/
theorem highestTagID_le (h : Numbers S s) (htags : ∀ tag ∈ tags, tag ∈ S) :
    s.highestTagID.toNat ≤ (s.addTags tags).highestTagID.toNat := by
  rw [← h.ids.size, ← (h.addTags htags).ids.size]
  refine List.Subperm.length_le (List.subperm_of_subset s.tagDictionary.keys_nodup ?_)
  intro tag htag
  exact AList.mem_keys.1 (mem_addTags.2 (.inl (AList.mem_keys.2 htag)))

end Numbers

/-! ## Loads that fail -/

/-- A load that fails leaves everything as it was exactly when the tags it has read
before the line that fails were all known. -/
theorem loadFile_failed_iff {errString : Octets} (h : (loadFile outside file s).1 = .failed errString) :
    (loadFile outside file s).2 = s ↔ ∀ tag ∈ file.tags outside, tag ∈ s.tagDictionary := by
  rw [loadFile_outcome] at h
  have hout : file.outcome outside ≠ .loaded := by simp [h]
  change load outside s file = s ↔ _
  rw [load_of_not_loaded hout]
  exact addTags_eq_self

/-- The last line ends inside a character. -/
def brokenFile : FileLoad Unit := ⟨some (octets "A=x\nB=" ++ [0xC3, 0x0A]), .ok (), false⟩

theorem loadFile_failed_iff_broken :
    (loadFile .sample brokenFile (new fun _ => [])).1 = .failed corruptError ∧
      ((loadFile .sample brokenFile (new fun _ => [])).2 = new (fun _ => []) ↔
        ∀ tag ∈ brokenFile.tags .sample, tag ∈ (new fun _ => []).tagDictionary) :=
  have hfailed : (loadFile .sample brokenFile (new fun _ => [])).1 = .failed corruptError := by decide +kernel
  ⟨hfailed, loadFile_failed_iff hfailed⟩

/-- A load that fails has changed the dictionary. -/
theorem not_failed_unchanged :
    ¬ ∀ (file : FileLoad Unit) (s : Languages) (errString : Octets),
      (loadFile .sample file s).1 = .failed errString → (loadFile .sample file s).2 = s := by
  intro h
  have hfailed : (loadFile .sample brokenFile (new fun _ => [])).1 = .failed corruptError := by decide +kernel
  have htop : (loadFile .sample brokenFile (new fun _ => [])).2.highestTagID = 1 := by decide +kernel
  rw [h brokenFile (new fun _ => []) corruptError hfailed] at htop
  exact absurd htop (by decide)

end KineIRCd.Languages

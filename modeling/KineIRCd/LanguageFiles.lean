import KineIRCd.Languages
/-!
# What a language file says

Nothing that `loadFile` reads in a file depends on the engine, so a file stands
for the list of its entries and the way its lines end. The loop over the lines
is a fold over the entries, and a language file is its control entries and its
definitions, in order.
-/
namespace KineIRCd

namespace LangTags

/-- The lines that define a tag: the tag and its converted text. -/
def definitions (entries : List Entry) : List (Octets × WString) :=
  (entries.filter fun entry => !isControl entry.tag).map fun entry => (entry.tag, entry.text)

/-- The text of the last line that defines the tag. -/
def lastText (definitions : List (Octets × WString)) (tag : Octets) : Option WString := definitions.reverse.lookup tag

section
variable {entries : List Entry} {entry : Entry} {defs defs' : List (Octets × WString)} {tag other : Octets} {text : WString}

theorem definitions_concat : definitions (entries ++ [entry]) =
    definitions entries ++ if isControl entry.tag then [] else [(entry.tag, entry.text)] := by
  unfold definitions
  cases h : isControl entry.tag <;> simp [h]

theorem lastText_concat : lastText (defs ++ [(tag, text)]) other = if other = tag then some text else lastText defs other := by
  rw [lastText, List.reverse_concat, List.lookup_cons]
  by_cases h : other = tag
  · simp [h]
  · have hne : (other == tag) = false := beq_false_of_ne h
    rw [hne, if_neg h]
    rfl

/-- Later lines come first. -/
theorem lastText_append : lastText (defs ++ defs') tag = (lastText defs' tag).or (lastText defs tag) := by
  rw [lastText, List.reverse_append, List.lookup_append]
  rfl

theorem lastText_isSome : (lastText defs tag).isSome ↔ tag ∈ defs.map Prod.fst := by
  induction defs using List.reverseRecOn with
  | nil => simp [lastText]
  | append_singleton defs d ih =>
    rw [lastText_concat]
    by_cases h : tag = d.1
    · simp [h]
    · simp [h, ih]

end

end LangTags

open LangTags

namespace Languages
variable {δ : Type}

/-- The entries read before the loop ends, and whether it ended well. -/
def readLines (outside : Outside δ) : Option δ → List Octets → List Entry × Option Bool
  | _, [] => ([], some true)
  | convDesc, line :: lines =>
    match splitLine outside.trim line with
    | none => readLines outside convDesc lines
    | some (tag, data) =>
      match convertChars outside.iconv .char .wchar outside.rounds convDesc (substitute data).1 [] with
      | none => ([], none)
      | some (false, _) => ([], some false)
      | some (true, convDesc, text) =>
        (⟨tag, (substitute data).2, text.map munge⟩ :: (readLines outside convDesc lines).1,
          (readLines outside convDesc lines).2)

theorem loadLines_eq (outside : Outside δ) (convDesc : Option δ) (lines : List Octets) (s : Languages × LanguageData) :
    loadLines outside convDesc lines s =
      ((readLines outside convDesc lines).2, (readLines outside convDesc lines).1.foldl readEntry s) := by
  induction lines generalizing convDesc s with
  | nil => rfl
  | cons line lines ih =>
    unfold loadLines readLines
    rcases splitLine outside.trim line with _ | ⟨tag, data⟩
    · exact ih convDesc s
    · dsimp only
      rcases convertChars outside.iconv .char .wchar outside.rounds convDesc (substitute data).1 []
        with _ | ⟨_ | _, convDesc, text⟩
      · rfl
      · rfl
      · exact ih convDesc _

/-- A line on its own. -/
theorem readLines_singleton {outside : Outside δ} {line tag data : Octets}
    (h : splitLine outside.trim line = some (tag, data)) (convDesc : Option δ) :
    readLines outside convDesc [line] =
      match convertChars outside.iconv .char .wchar outside.rounds convDesc (substitute data).1 [] with
      | none => ([], none)
      | some (false, _) => ([], some false)
      | some (true, _, text) => ([⟨tag, (substitute data).2, text.map munge⟩], some true) := by
  rw [readLines.eq_def]
  dsimp only
  rw [h]
  rfl

/-- Every entry comes from a line that was split and converted. -/
theorem exists_of_mem_readLines {outside : Outside δ} {convDesc : Option δ} {lines : List Octets} {entry : Entry}
    (h : entry ∈ (readLines outside convDesc lines).1) :
    ∃ line tag data, ∃ raw : WString, splitLine outside.trim line = some (tag, data) ∧
      entry = ⟨tag, (substitute data).2, raw.map munge⟩ := by
  induction lines generalizing convDesc with
  | nil => simp [readLines] at h
  | cons line lines ih =>
    unfold readLines at h
    split at h
    · exact ih h
    · rename_i tag data hline
      split at h
      · simp at h
      · simp at h
      · rename_i raw _
        rcases List.mem_cons.1 h with rfl | htail
        · exact ⟨line, tag, data, raw, hline, rfl⟩
        · exact ih htail

/-- Tags are read in upper case. -/
theorem toUpper_splitLine {trim : Octets → Octets} {line tag data : Octets} (h : splitLine trim line = some (tag, data)) :
    toUpper tag = tag := by
  simp only [splitLine] at h
  split at h
  · simp at h
  · obtain ⟨rfl, -⟩ := Prod.mk.inj (Option.some.inj h)
    exact toUpper_idem _

end Languages

namespace FileLoad
variable {δ : Type} (outside : Outside δ) (file : FileLoad δ)

/-- A file that can be read. -/
def sample (contents : String) (makeDefault : Bool) : FileLoad Unit := ⟨some (octets contents), .ok (), makeDefault⟩

/-- The entries that `loadFile` reads in the file, and what it comes to. -/
def read : List Entry × Outcome :=
  match file.contents with
  | none => ([], .failed Languages.openError)
  | some contents =>
    match file.convDesc with
    | .error error => ([], .failed (Languages.descriptorError error))
    | .ok convDesc =>
      match Languages.readLines outside (some convDesc) (Languages.getlines contents) with
      | (entries, none) => (entries, .converting)
      | (entries, some false) => (entries, .failed Languages.corruptError)
      | (entries, some true) => (entries, .loaded)

def entries : List Entry := (file.read outside).1

def outcome : Outcome := (file.read outside).2

def definitions : List (Octets × WString) := LangTags.definitions (file.entries outside)

/-- The tags the file defines, with every definition of each. -/
def tags : List Octets := (file.definitions outside).map Prod.fst

/-- The code in a line: its first word, in lower case. -/
def codeOf (entry : Entry) : Octets := substr (toLower entry.data) 0 (entry.data.findIdx (· = 0x20))

/-- The language of the file: what its last `.LANGCODE` line says. -/
def code : Octets :=
  (((file.entries outside).filter fun entry => entry.tag = octets ".LANGCODE").getLast?.map codeOf).getD []

/-- The data of the language, as the loop builds it. Where a text goes in it is the
engine's choice. -/
def languageData (this : Languages) : LanguageData := ((file.entries outside).foldl Languages.readEntry (this, {})).2

end FileLoad

namespace Languages
variable {δ : Type} {outside : Outside δ} {file : FileLoad δ} {this : Languages}

/-- Tags go into the dictionary one after the other. -/
def addTags (this : Languages) (tags : List Octets) : Languages := tags.foldl (fun s tag => (s.addTag tag).2) this

theorem addTags_concat (this : Languages) (tags : List Octets) (tag : Octets) :
    this.addTags (tags ++ [tag]) = ((this.addTags tags).addTag tag).2 := List.foldl_concat ..

/-! ## The loop, entry by entry -/

/-- The engine only sees the tags that entries define. -/
theorem foldl_readEntry_languages (entries : List Entry) (s : Languages × LanguageData) :
    (entries.foldl readEntry s).1 = s.1.addTags ((definitions entries).map Prod.fst) := by
  induction entries using List.reverseRecOn with
  | nil => rfl
  | append_singleton entries entry ih =>
    rw [List.foldl_concat, readEntry, definitions_concat]
    cases hc : isControl entry.tag with
    | true => simpa using ih
    | false =>
      rw [if_neg (by simp), if_neg (by simp), List.map_append, ih]
      exact (addTags_concat _ _ entry.tag).symm

/-- Only a `.LANGCODE` line changes the code. -/
theorem readEntry_languageCode (s : Languages × LanguageData) (entry : Entry) :
    (readEntry s entry).2.languageCode =
      if entry.tag = octets ".LANGCODE" then FileLoad.codeOf entry else s.2.languageCode := by
  have hcode : isControl entry.tag = true ∧ entry.tag.tail = octets "LANGCODE" ↔ entry.tag = octets ".LANGCODE" := by
    cases htag : entry.tag with
    | nil => simp [isControl, octets]
    | cons c tag => simp [isControl, octets]
  unfold readEntry
  cases hc : isControl entry.tag with
  | false =>
    have hne : entry.tag ≠ octets ".LANGCODE" := fun h => by simp [hcode.2 h] at hc
    rw [if_neg hne]
    rfl
  | true =>
    rw [if_pos rfl]
    unfold setControl
    by_cases hl : entry.tag.tail = octets "LANGCODE"
    · rw [if_pos (hcode.1 ⟨hc, hl⟩)]
      simp only [hl, ↓reduceIte]
      rfl
    · have hne : entry.tag ≠ octets ".LANGCODE" := fun h => hl (hcode.2 h).2
      rw [if_neg hne]
      simp only [hl, ↓reduceIte]
      split_ifs <;> rfl

theorem foldl_readEntry_languageCode (entries : List Entry) (s : Languages × LanguageData) :
    (entries.foldl readEntry s).2.languageCode =
      ((entries.filter fun entry => entry.tag = octets ".LANGCODE").getLast?.map FileLoad.codeOf).getD
        s.2.languageCode := by
  induction entries using List.reverseRecOn with
  | nil => rfl
  | append_singleton entries entry ih =>
    rw [List.foldl_concat, readEntry_languageCode, List.filter_append]
    by_cases h : entry.tag = octets ".LANGCODE"
    · simp [h]
    · simp [h, ih]

/-! ## A call of `loadFile` -/

/-- A call reads the entries of the file, and finishes if there is nothing wrong. -/
theorem loadFile_eq : loadFile outside file this =
    (file.outcome outside,
      match file.outcome outside with
      | .loaded => (this.addTags (file.tags outside)).finish (file.languageData outside this) file.makeDefault
      | _ => this.addTags (file.tags outside)) := by
  have htags : ((file.entries outside).foldl readEntry (this, {})).1 = this.addTags (file.tags outside) :=
    foldl_readEntry_languages _ _
  rw [← htags]
  unfold FileLoad.languageData loadFile FileLoad.outcome FileLoad.entries FileLoad.read
  rcases file.contents with _ | contents
  · rfl
  · rcases file.convDesc with error | convDesc
    · rfl
    · dsimp only
      rw [loadLines_eq]
      rcases readLines outside (some convDesc) (getlines contents) with ⟨entries, _ | _ | _⟩ <;> rfl

theorem loadFile_outcome : (loadFile outside file this).1 = file.outcome outside := by rw [loadFile_eq]

theorem load_of_loaded (h : file.outcome outside = .loaded) : load outside this file =
    (this.addTags (file.tags outside)).finish (file.languageData outside this) file.makeDefault := by
  rw [load, loadFile_eq, h]

theorem load_of_not_loaded (h : file.outcome outside ≠ .loaded) :
    load outside this file = this.addTags (file.tags outside) := by
  rw [load, loadFile_eq]
  cases hout : file.outcome outside with
  | loaded => exact absurd hout h
  | failed errString => rfl
  | converting => rfl

end Languages

namespace FileLoad
variable {δ : Type} {outside : Outside δ} {file : FileLoad δ}

theorem languageData_languageCode (this : Languages) :
    (file.languageData outside this).languageCode = file.code outside :=
  Languages.foldl_readEntry_languageCode _ _

theorem exists_of_mem_entries {entry : Entry} (h : entry ∈ file.entries outside) :
    ∃ line tag data, ∃ raw : WString, Languages.splitLine outside.trim line = some (tag, data) ∧
      entry = ⟨tag, (substitute data).2, raw.map munge⟩ := by
  revert h
  unfold entries read
  rcases file.contents with _ | contents
  · simp
  · rcases file.convDesc with error | convDesc
    · simp
    · intro h
      have hread : entry ∈ (Languages.readLines outside (some convDesc) (Languages.getlines contents)).1 := by
        revert h
        dsimp only
        rcases Languages.readLines outside (some convDesc) (Languages.getlines contents) with ⟨entries, _ | _ | _⟩ <;>
          exact id
      exact Languages.exists_of_mem_readLines hread

theorem toUpper_of_mem_entries {entry : Entry} (h : entry ∈ file.entries outside) : toUpper entry.tag = entry.tag := by
  obtain ⟨line, tag, data, raw, hline, rfl⟩ := exists_of_mem_entries h
  exact Languages.toUpper_splitLine hline

/-- Tags that a file defines are in upper case and no control tags. -/
theorem mem_tags {tag : Octets} (h : tag ∈ file.tags outside) : toUpper tag = tag ∧ isControl tag = false := by
  obtain ⟨definition, hdef, rfl⟩ := List.mem_map.1 h
  obtain ⟨entry, hentry, rfl⟩ := List.mem_map.1 hdef
  obtain ⟨hmem, hc⟩ := List.mem_filter.1 hentry
  exact ⟨toUpper_of_mem_entries hmem, by simpa using hc⟩

example : (FileLoad.sample "# greetings\n.LANGCODE=en\nhello = a\\040b%%%\n" false).definitions .sample =
    [(octets "HELLO", wide "a b%" ++ [0])] := by decide +kernel

theorem toLower_code : toLower (file.code outside) = file.code outside := by
  unfold code
  cases (((file.entries outside).filter fun entry => entry.tag = octets ".LANGCODE").getLast?) with
  | none => rfl
  | some entry =>
    change toLower (codeOf entry) = codeOf entry
    unfold codeOf substr toLower
    rw [List.drop_zero, ← List.map_take]
    exact toLower_idem _

theorem toLower_languageData (this : Languages) :
    toLower (file.languageData outside this).languageCode = (file.languageData outside this).languageCode := by
  rw [languageData_languageCode]
  exact toLower_code

end FileLoad

end KineIRCd

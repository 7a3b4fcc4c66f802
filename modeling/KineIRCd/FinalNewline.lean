import KineIRCd.LanguageStore
import KineIRCd.Lib.Lines
import Mathlib.Data.List.TakeWhile
/-!
# The last line of a language file

`loadFile` asks the stream whether it is at its end after it has read a line,
and leaves if it is. A line that ends with the file instead of a newline has
been read by then, and is lost.

`loadFile_newline_iff` compares a file with the same file and a newline after
it.
-/
namespace KineIRCd

open LangTags

/-! ## The stream -/

/-- A `std::ifstream`: what is still to be read, and the flags. -/
structure FileStream where
  unread : Octets
  eofbit : Bool := false
  failbit : Bool := false
  deriving DecidableEq

namespace FileStream

def eof (file : FileStream) : Bool := file.eofbit

def good (file : FileStream) : Bool := !file.eofbit && !file.failbit

/-- `std::getline`. It stops at the end of the file, or after a newline, which it takes out.
It fails if it takes out nothing. -/
def getline (file : FileStream) : Octets × FileStream :=
  if file.good then
    match file.unread.dropWhile (· ≠ 0x0A) with
    | [] => (file.unread, ⟨[], true, file.unread.isEmpty⟩)
    | _ :: rest => (file.unread.takeWhile (· ≠ 0x0A), { file with unread := rest })
  else ([], { file with failbit := true })

/-- The lines that the loop of `loadFile` goes on with, in some rounds. -/
def lines : Nat → FileStream → List Octets
  | 0, _ => []
  | n + 1, file =>
    let line := file.getline
    if !line.2.good || line.2.eof then [] else line.1 :: lines n line.2

theorem all_of_clean {line : Octets} (h : Lines.Clean (· == 0x0A) line) : ∀ c ∈ line, decide (c ≠ 0x0A) = true := by
  intro c hc
  simpa using h c hc

theorem getline_line {line : Octets} (h : Lines.Clean (· == 0x0A) line) (rest : Octets) :
    (⟨line ++ 0x0A :: rest, false, false⟩ : FileStream).getline = (line, ⟨rest, false, false⟩) := by
  have hdrop : (line ++ 0x0A :: rest).dropWhile (fun c => decide (c ≠ 0x0A)) = 0x0A :: rest := by
    rw [List.dropWhile_append_of_pos (all_of_clean h)]
    rfl
  have htake : (line ++ 0x0A :: rest).takeWhile (fun c => decide (c ≠ 0x0A)) = line := by
    rw [List.takeWhile_append_of_pos (all_of_clean h)]
    exact List.append_nil line
  simp only [getline, good, hdrop, htake]
  rfl

/-- At the end of the file, the end is noted with the line that is read. -/
theorem getline_last {line : Octets} (h : Lines.Clean (· == 0x0A) line) :
    (⟨line, false, false⟩ : FileStream).getline = (line, ⟨[], true, line.isEmpty⟩) := by
  have hdrop : line.dropWhile (fun c => decide (c ≠ 0x0A)) = [] := List.dropWhile_eq_nil_iff.2 (all_of_clean h)
  simp only [getline, good, hdrop]
  rfl

/-- They are those that end with a newline. -/
theorem lines_eq (n : Nat) (contents : Octets) (h : contents.length < n) :
    lines n ⟨contents, false, false⟩ = Languages.getlines contents := by
  induction n generalizing contents with
  | zero => omega
  | succ n ih =>
    rw [lines]
    by_cases hclean : Lines.Clean (· == 0x0A) contents
    · rw [getline_last hclean, Languages.getlines, List.splitOnP_eq_singleton hclean]
      rfl
    · obtain ⟨line, sep, rest, rfl, hsep, hline⟩ := Lines.exists_first_sep hclean
      obtain rfl : sep = 0x0A := by simpa using hsep
      have hlength : rest.length < n := by
        simp at h
        omega
      rw [getline_line hline, Languages.getlines, List.splitOnP_append_cons_of_forall_mem hline 0x0A rfl,
        List.dropLast_cons_of_ne_nil (List.splitOnP_ne_nil _ _)]
      exact congrArg (line :: ·) (ih rest hlength)

end FileStream

namespace Languages

/-- What follows the last newline. -/
def lastLine (contents : Octets) : Octets := Lines.rest (· == 0x0A) contents

/-- With a newline after it, what follows the last one is a line, too. -/
theorem getlines_newline (contents : Octets) : getlines (contents ++ [0x0A]) = getlines contents ++ [lastLine contents] := by
  have hsplit : (contents ++ [0x0A]).splitOnP (· == 0x0A) = contents.splitOnP (· == 0x0A) ++ [[]] :=
    List.splitOnP_append_cons contents [] rfl
  rw [getlines, hsplit, List.dropLast_concat]
  exact (List.dropLast_append_getLast _).symm

/-! ## One more line -/

section
variable {δ : Type} (outside : Outside δ)

/-- The descriptor after some lines, unless the loop ends among them. -/
def descAfter : Option δ → List Octets → Option (Option δ)
  | convDesc, [] => some convDesc
  | convDesc, line :: lines =>
    match splitLine outside.trim line with
    | none => descAfter convDesc lines
    | some (_, data) =>
      match convertChars outside.iconv .char .wchar outside.rounds convDesc (substitute data).1 [] with
      | some (true, convDesc, _) => descAfter convDesc lines
      | _ => none

/-- What a line adds to what the lines before it said. -/
theorem readLines_concat (convDesc : Option δ) (lines : List Octets) (line : Octets) :
    (descAfter outside convDesc lines = none ∧
      readLines outside convDesc (lines ++ [line]) = readLines outside convDesc lines) ∨
    (∃ convDesc', descAfter outside convDesc lines = some convDesc' ∧ (readLines outside convDesc lines).2 = some true ∧
      readLines outside convDesc (lines ++ [line]) =
        ((readLines outside convDesc lines).1 ++ (readLines outside convDesc' [line]).1,
          (readLines outside convDesc' [line]).2)) := by
  induction lines generalizing convDesc with
  | nil => exact .inr ⟨convDesc, rfl, rfl, rfl⟩
  | cons first lines ih =>
    unfold descAfter
    rw [List.cons_append, readLines.eq_def outside convDesc (first :: (lines ++ [line])),
      readLines.eq_def outside convDesc (first :: lines)]
    dsimp only
    rcases splitLine outside.trim first with _ | ⟨tag, data⟩
    · exact ih convDesc
    · dsimp only
      rcases convertChars outside.iconv .char .wchar outside.rounds convDesc (substitute data).1 []
        with _ | ⟨_ | _, convDesc', text⟩
      · exact .inl ⟨rfl, rfl⟩
      · exact .inl ⟨rfl, rfl⟩
      · rcases ih convDesc' with ⟨hnone, e⟩ | ⟨convDesc'', hsome, htrue, e⟩
        · exact .inl ⟨hnone, by dsimp only; rw [e]⟩
        · exact .inr ⟨convDesc'', hsome, htrue, by dsimp only; rw [e]; rfl⟩

end

/-- What the control lines say about a language. -/
def header (entries : List Entry) : LanguageData := (entries.filter fun entry => isControl entry.tag).foldl setControl {}

/-- A control line does not look at the texts. -/
theorem setControl_texts (d : LanguageData) (entry : Entry) (tagData : List (Option WString)) (tagCount : Nat) :
    setControl { d with tagData, tagCount } entry = { setControl d entry with tagData, tagCount } := by
  unfold setControl
  dsimp only
  split_ifs <;> rfl

/-- Apart from its texts, a language is what its control lines say. -/
theorem foldl_readEntry_header (entries : List Entry) (s : Languages) :
    ∃ tagData tagCount, (entries.foldl readEntry (s, {})).2 = { header entries with tagData, tagCount } := by
  induction entries using List.reverseRecOn with
  | nil => exact ⟨[], 0, rfl⟩
  | append_singleton entries entry ih =>
    obtain ⟨tagData, tagCount, ih⟩ := ih
    rw [List.foldl_concat, readEntry]
    cases hc : isControl entry.tag with
    | true =>
      have hheader : header (entries ++ [entry]) = setControl (header entries) entry := by
        rw [header, List.filter_append, List.foldl_append, header]
        simp [hc]
      refine ⟨tagData, tagCount, ?_⟩
      rw [if_pos rfl, hheader, ← setControl_texts, ← ih]
    | false =>
      have hheader : header (entries ++ [entry]) = header entries := by
        rw [header, List.filter_append, List.foldl_append, header]
        simp [hc]
      rw [if_neg (by simp), hheader, setTag, ih]
      exact ⟨_, _, rfl⟩

/-- Lines do not touch the languages that are there. -/
theorem readEntry_languageData (s : Languages × LanguageData) (entry : Entry) :
    (readEntry s entry).1.languageData = s.1.languageData := by
  unfold readEntry
  split_ifs
  · rfl
  · exact (congrArg languageData (addTag_other s.1 entry.tag) :)

/-- A line that defines a tag counts. -/
theorem readEntry_eq_self {s : Languages × LanguageData} {entry : Entry} (h : (readEntry s entry).2 = s.2) :
    isControl entry.tag = true ∧ setControl s.2 entry = s.2 := by
  unfold readEntry at h
  split_ifs at h with hcontrol
  · exact ⟨hcontrol, h⟩
  · have hcount := congrArg LanguageData.tagCount h
    simp [setTag] at hcount

/-- Whether a control line changes what is read of a language does not depend on the texts. -/
theorem setControl_eq_iff (d : LanguageData) (tagData : List (Option WString)) (tagCount : Nat) (entry : Entry) :
    setControl { d with tagData, tagCount } entry = { d with tagData, tagCount } ↔ setControl d entry = d := by
  rw [setControl_texts]
  constructor
  · intro h
    have hown : { setControl d entry with tagData := d.tagData, tagCount := d.tagCount } = setControl d entry :=
      (setControl_texts d entry d.tagData d.tagCount).symm
    rw [← hown]
    exact congrArg (fun e : LanguageData => { e with tagData := d.tagData, tagCount := d.tagCount }) h
  · intro h
    rw [h]

/-! ## A call of `loadFile` -/

/-- What `loadFile` makes of the lines it reads. -/
def conclude (this : Languages) (makeDefault : Bool) (read : List Entry × Option Bool) : Outcome × Languages :=
  let s := read.1.foldl readEntry (this, {})
  match read.2 with
  | none => (.converting, s.1)
  | some false => (.failed corruptError, s.1)
  | some true => (.loaded, s.1.finish s.2 makeDefault)

section
variable {δ : Type} {outside : Outside δ} {contents : Octets} {desc : δ} {makeDefault : Bool} {this s s' : Languages}
  {d d' : LanguageData}

theorem loadFile_ok : loadFile outside ⟨some contents, .ok desc, makeDefault⟩ this =
    conclude this makeDefault (readLines outside (some desc) (getlines contents)) := by
  unfold loadFile conclude
  dsimp only
  rw [loadLines_eq]
  rcases readLines outside (some desc) (getlines contents) with ⟨entries, _ | _ | _⟩ <;> rfl

theorem entries_ok : FileLoad.entries outside ⟨some contents, .ok desc, makeDefault⟩ =
    (readLines outside (some desc) (getlines contents)).1 := by
  unfold FileLoad.entries FileLoad.read
  dsimp only
  rcases readLines outside (some desc) (getlines contents) with ⟨entries, _ | _ | _⟩ <;> rfl

theorem conclude_outcome (read : List Entry × Option Bool) : (conclude this makeDefault read).1 = .loaded ↔ read.2 = some true := by
  unfold conclude
  rcases read with ⟨entries, _ | _ | _⟩ <;> simp

/-- A new language goes to the end of the list. -/
theorem finish_new (h : s.findByCode d.languageCode = none) (makeDefault : Bool) :
    (s.finish d makeDefault).languageData = s.languageData ++ [d] := by
  rw [finish, processMaps_languageData, place, h]

theorem finish_old {language : Nat} (h : s.findByCode d.languageCode = some language) (makeDefault : Bool) :
    (s.finish d makeDefault).languageData.length = s.languageData.length := by
  rw [finish, processMaps_languageData, place, h]
  exact List.length_modify ..

/-- What is read of a new language shows. -/
theorem finish_ne (h : s.findByCode d.languageCode = none) (hdata : s'.languageData = s.languageData) (hne : d ≠ d') :
    s.finish d makeDefault ≠ s'.finish d' makeDefault := by
  intro heq
  have hlanguages : (s.finish d makeDefault).languageData = (s'.finish d' makeDefault).languageData := by rw [heq]
  rw [finish_new h] at hlanguages
  cases h' : s'.findByCode d'.languageCode with
  | none =>
    rw [finish_new h', hdata, List.append_right_inj] at hlanguages
    exact hne (List.singleton_inj.1 hlanguages)
  | some language =>
    have hlength := congrArg List.length hlanguages
    rw [finish_old h', hdata, List.length_append, List.length_singleton] at hlength
    omega

/-- The line is skipped, or is a control line that says what the header says already. -/
def Idle (outside : Outside δ) (convDesc : Option δ) (header : LanguageData) (line : Octets) : Prop :=
  match splitLine outside.trim line with
  | none => True
  | some (tag, data) =>
    isControl tag = true ∧ ∃ convDesc' text,
      convertChars outside.iconv .char .wchar outside.rounds convDesc (substitute data).1 [] = some (true, convDesc', text) ∧
        setControl header ⟨tag, (substitute data).2, text.map munge⟩ = header

/-! ## The last line, on its own -/

theorem readLines_skipped {convDesc : Option δ} {line : Octets} (h : splitLine outside.trim line = none) :
    readLines outside convDesc [line] = ([], some true) := by
  rw [readLines.eq_def]
  dsimp only
  rw [h]
  rfl

theorem idle_iff {convDesc : Option δ} {line tag data : Octets} (h : splitLine outside.trim line = some (tag, data))
    (header : LanguageData) : Idle outside convDesc header line ↔
      isControl tag = true ∧ ∃ convDesc' text,
        convertChars outside.iconv .char .wchar outside.rounds convDesc (substitute data).1 [] =
            some (true, convDesc', text) ∧
          setControl header ⟨tag, (substitute data).2, text.map munge⟩ = header := by
  rw [Idle, h]

theorem readLines_converted {convDesc convDesc' : Option δ} {line tag data : Octets} {text : WString}
    (h : splitLine outside.trim line = some (tag, data))
    (hconvert : convertChars outside.iconv .char .wchar outside.rounds convDesc (substitute data).1 [] =
      some (true, convDesc', text)) :
    readLines outside convDesc [line] = ([⟨tag, (substitute data).2, text.map munge⟩], some true) := by
  rw [readLines_singleton h, hconvert]

theorem exists_of_readLines {convDesc : Option δ} {line tag data : Octets} (h : splitLine outside.trim line = some (tag, data))
    (hread : (readLines outside convDesc [line]).2 = some true) :
    ∃ convDesc' text, convertChars outside.iconv .char .wchar outside.rounds convDesc (substitute data).1 [] =
      some (true, convDesc', text) := by
  rw [readLines_singleton h] at hread
  revert hread
  rcases convertChars outside.iconv .char .wchar outside.rounds convDesc (substitute data).1 []
    with _ | ⟨_ | _, convDesc', text⟩
  · simp
  · simp
  · exact fun _ => ⟨convDesc', text, rfl⟩

/-- A line that says nothing new is not missed. -/
theorem conclude_idle {convDesc : Option δ} {entries : List Entry} {line : Octets}
    (h : Idle outside convDesc (header entries) line) :
    conclude this makeDefault (entries ++ (readLines outside convDesc [line]).1, (readLines outside convDesc [line]).2) =
      conclude this makeDefault (entries, some true) := by
  rcases hsplit : splitLine outside.trim line with _ | ⟨tag, data⟩
  · rw [readLines_skipped hsplit, List.append_nil]
  · obtain ⟨hcontrol, convDesc', text, hconvert, hheader⟩ := (idle_iff hsplit _).1 h
    rw [readLines_converted hsplit hconvert]
    have hread : readEntry (entries.foldl readEntry (this, {})) ⟨tag, (substitute data).2, text.map munge⟩ =
        entries.foldl readEntry (this, {}) := by
      obtain ⟨tagData, tagCount, hd⟩ := foldl_readEntry_header entries this
      rw [readEntry, if_pos hcontrol, hd, (setControl_eq_iff _ _ _ _).2 hheader, ← hd]
    unfold conclude
    dsimp only
    rw [List.foldl_concat, hread]

/-- Any other line is, if the language is a new one. -/
theorem conclude_ne {convDesc : Option δ} {entries : List Entry} {line : Octets}
    (h : ¬ Idle outside convDesc (header entries) line)
    (hnew : this.findByCode (entries.foldl readEntry (this, {})).2.languageCode = none) :
    conclude this makeDefault (entries, some true) ≠
      conclude this makeDefault (entries ++ (readLines outside convDesc [line]).1, (readLines outside convDesc [line]).2) := by
  intro heq
  have hloaded : (conclude this makeDefault (entries, some true)).1 = .loaded := rfl
  rw [heq, conclude_outcome] at hloaded
  rcases hsplit : splitLine outside.trim line with _ | ⟨tag, data⟩
  · rw [Idle, hsplit] at h
    exact h trivial
  · obtain ⟨convDesc', text, hconvert⟩ := exists_of_readLines hsplit hloaded
    rw [readLines_converted hsplit hconvert] at heq
    rw [idle_iff hsplit] at h
    unfold conclude at heq
    dsimp only at heq
    rw [List.foldl_concat] at heq
    have hfinish := congrArg Prod.snd heq
    dsimp only at hfinish
    refine finish_ne ?_ (readEntry_languageData _ _) ?_ hfinish
    · rw [foldl_readEntry_languages]
      simpa [findByCode] using hnew
    · -- the line shows in the language that is read
      intro hsame
      obtain ⟨hcontrol, hsame⟩ := readEntry_eq_self hsame.symm
      obtain ⟨tagData, tagCount, hd⟩ := foldl_readEntry_header entries this
      rw [hd, setControl_eq_iff] at hsame
      exact h ⟨hcontrol, convDesc', text, hconvert, hsame⟩

/-- The last line of a file, read after the others. -/
def LastLineIdle (outside : Outside δ) (convDesc : Except Octets δ) (contents : Octets) : Prop :=
  ∀ desc, convDesc = .ok desc → ∀ convDesc', descAfter outside (some desc) (getlines contents) = some convDesc' →
    Idle outside convDesc' (header (readLines outside (some desc) (getlines contents)).1) (lastLine contents)

/-- A file and the same file with one more newline come to the same in every state exactly
when the last line is not reached or says nothing new. In a state that has no language
for the file, they do not otherwise. -/
theorem loadFile_newline_iff (outside : Outside δ) (contents : Octets) (convDesc : Except Octets δ) (makeDefault : Bool) :
    ((∀ this, loadFile outside ⟨some contents, convDesc, makeDefault⟩ this =
        loadFile outside ⟨some (contents ++ [0x0A]), convDesc, makeDefault⟩ this) ↔
      LastLineIdle outside convDesc contents) ∧
    ∀ this : Languages, this.findByCode (FileLoad.code outside ⟨some contents, convDesc, makeDefault⟩) = none →
      (loadFile outside ⟨some contents, convDesc, makeDefault⟩ this =
          loadFile outside ⟨some (contents ++ [0x0A]), convDesc, makeDefault⟩ this ↔
        LastLineIdle outside convDesc contents) := by
  have hidle : LastLineIdle outside convDesc contents → ∀ this,
      loadFile outside ⟨some contents, convDesc, makeDefault⟩ this =
        loadFile outside ⟨some (contents ++ [0x0A]), convDesc, makeDefault⟩ this := by
    intro h this
    rcases convDesc with error | desc
    · rfl
    · rw [loadFile_ok, loadFile_ok, getlines_newline]
      rcases readLines_concat outside (some desc) (getlines contents) (lastLine contents) with
        ⟨-, e⟩ | ⟨convDesc', hdesc, htrue, e⟩
      · rw [e]
      · rw [e, conclude_idle (h desc rfl convDesc' hdesc), ← htrue]
  have hnew : ∀ this : Languages, this.findByCode (FileLoad.code outside ⟨some contents, convDesc, makeDefault⟩) = none →
      loadFile outside ⟨some contents, convDesc, makeDefault⟩ this =
        loadFile outside ⟨some (contents ++ [0x0A]), convDesc, makeDefault⟩ this →
      LastLineIdle outside convDesc contents := by
    intro this hcode heq desc hok convDesc' hdesc
    subst hok
    by_contra hnot
    rw [← FileLoad.languageData_languageCode this, FileLoad.languageData, entries_ok] at hcode
    rw [loadFile_ok, loadFile_ok, getlines_newline] at heq
    rcases readLines_concat outside (some desc) (getlines contents) (lastLine contents) with
      ⟨hnone, -⟩ | ⟨convDesc'', hdesc', htrue, e⟩
    · rw [hnone] at hdesc
      simp at hdesc
    · obtain rfl : convDesc' = convDesc'' := Option.some.inj (hdesc.symm.trans hdesc')
      rw [e] at heq
      have hne : conclude this makeDefault _ ≠ conclude this makeDefault _ := conclude_ne hnot hcode
      apply hne
      rw [← htrue]
      exact heq
  refine ⟨⟨fun h => ?_, hidle⟩, fun this hcode => ⟨hnew this hcode, fun h => hidle h this⟩⟩
  have hnone : (new fun _ => []).findByCode (FileLoad.code outside ⟨some contents, convDesc, makeDefault⟩) = none := by
    rw [findByCode, new, AList.lookup_empty]
    simp
  exact hnew (new fun _ => []) hnone (h (new fun _ => []))

/-- A comment at the end is not missed. -/
theorem loadFile_newline_comment :
    loadFile .sample ⟨some (octets "HELLO=hello\n# end"), .ok (), false⟩ (new fun _ => []) =
      loadFile .sample ⟨some (octets "HELLO=hello\n# end" ++ [0x0A]), .ok (), false⟩ (new fun _ => []) := by
  have hidle : LastLineIdle .sample (.ok ()) (octets "HELLO=hello\n# end") := by
    intro desc _ convDesc' _
    have hskip : splitLine (Outside.sample).trim (lastLine (octets "HELLO=hello\n# end")) = none := by decide +kernel
    rw [Idle, hskip]
    trivial
  exact ((loadFile_newline_iff .sample (octets "HELLO=hello\n# end") (.ok ()) false).2 (new fun _ => [])
    (by decide +kernel)).2 hidle

/-- A file that ends without a newline loses its second text. -/
theorem newline_matters :
    loadFile .sample (.sample ".LANGCODE=en\nHELLO=hello\nBYE=bye" false) (new fun _ => []) ≠
      loadFile .sample (.sample ".LANGCODE=en\nHELLO=hello\nBYE=bye\n" false) (new fun _ => []) := by
  intro h
  have htop := congrArg (fun r => r.2.highestTagID) h
  exact absurd htop (by decide +kernel)

end

end Languages

end KineIRCd

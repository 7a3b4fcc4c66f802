import KineIRCd.Names
/-!
# The grammars of names

What the checks of names accept, against the grammars they stand for: host
names with a dot, the characters of a nickname, the prefixes a channel name may
start with, and what channel and network names may not have after it.
-/
namespace KineIRCd

/-! ## Server names -/

namespace Server.Name

/-- Letters, digits and hyphens, at most 63 of them and from a letter on. -/
structure IsLabelStart (label : WString) : Prop where
  length : label.length ≤ 63
  first : ∀ c ∈ label.head?, isAlpha c = true
  chars : ∀ c ∈ label, isAlnum c = true ∨ c = 0x2D

/-- A label of a host name. -/
structure IsLabel (label : WString) : Prop extends IsLabelStart label where
  nonempty : label ≠ []
  last : 0x2D ∉ label.getLast?

/-- Labels with single dots between them. -/
def join (labels : List WString) : WString := [0x2E].intercalate labels

/-- A host name with a dot. -/
def IsHostName (name : WString) : Prop :=
  name.length ≤ 255 ∧ ∃ labels, 2 ≤ labels.length ∧ (∀ label ∈ labels, IsLabel label) ∧ name = join labels

/-- A name that would be a host name but for its last label, which is empty or
still ends with a hyphen. -/
def IsUnfinished (name : WString) : Prop :=
  name.length ≤ 255 ∧ ∃ labels last, labels ≠ [] ∧ (∀ label ∈ labels, IsLabel label) ∧
    IsLabelStart last ∧ (last = [] ∨ 0x2D ∈ last.getLast?) ∧ name = join (labels ++ [last])

theorem IsLabelStart.of_append {p l : WString} (h : IsLabelStart (p ++ l)) : IsLabelStart p where
  length := by
    have := h.length
    rw [List.length_append] at this
    omega
  first c hc := h.first c (by rw [List.head?_append, Option.mem_def.1 hc]; rfl)
  chars c hc := h.chars c (List.mem_append_left l hc)

theorem IsLabelStart.nil : IsLabelStart [] := ⟨Nat.zero_le _, by simp, by simp⟩

/-- One more character, under the tests of the scan. -/
theorem isLabelStart_concat {p : WString} (hp : IsLabelStart p) (c : WChar) :
    IsLabelStart (p ++ [c]) ↔
      p.length + 1 ≤ 63 ∧ (if p.length + 1 = 1 then isAlpha c = true else (isAlnum c || c = 0x2D) = true) := by
  have hletter : isAlpha c = true → isAlnum c = true := by
    unfold isAlpha isAlnum
    grind
  rcases List.eq_nil_or_concat p with rfl | ⟨q, x, rfl⟩
  · constructor
    · intro h
      exact ⟨by simp, by simpa using h.first c⟩
    · rintro ⟨-, h⟩
      have h' : isAlpha c = true := by simpa using h
      exact ⟨by simp, by simpa using h', by simpa using .inl (hletter h')⟩
  · have hlonger : (q.concat x ++ [c]).length = (q.concat x).length + 1 := List.length_append
    rw [if_neg (by simp)]
    constructor
    · intro h
      exact ⟨hlonger ▸ h.length, by simpa using h.chars c (by simp)⟩
    · rintro ⟨hlength, h⟩
      refine ⟨hlonger ▸ hlength, ?_, ?_⟩
      · intro d hd
        apply hp.first d
        cases q <;> simpa using hd
      · intro d hd
        rcases List.mem_append.1 hd with hd | hd
        · exact hp.chars d hd
        · rw [List.mem_singleton.1 hd]
          simpa using h

/-- A dot belongs to no label. -/
theorem IsLabelStart.no_dot {label : WString} (h : IsLabelStart label) : 0x2E ∉ label :=
  fun hdot => absurd (h.chars _ hdot) (by decide)

/-- What the scan asks of the labels of a text, when it has passed so many dots
before: the ones that end at a dot are labels, the last one only starts as one. -/
def Accepts : Nat → List WString → Prop
  | _, [] => False
  | dotCount, [label] => dotCount ≠ 0 ∧ IsLabelStart label
  | dotCount, label :: next :: labels => IsLabel label ∧ Accepts (dotCount + 1) (next :: labels)

theorem Accepts.isLabelStart {dotCount : Nat} {label : WString} {labels : List WString}
    (h : Accepts dotCount (label :: labels)) : IsLabelStart label := by
  cases labels with
  | nil => exact h.2
  | cons next labels => exact h.1.toIsLabelStart

theorem accepts_iff (dotCount : Nat) (parts : List WString) :
    Accepts dotCount parts ↔ ∃ labels last, parts = labels ++ [last] ∧ (∀ label ∈ labels, IsLabel label) ∧
      IsLabelStart last ∧ dotCount + labels.length ≠ 0 := by
  induction parts generalizing dotCount with
  | nil => simp [Accepts]
  | cons label parts ih =>
    cases parts with
    | nil =>
      constructor
      · rintro ⟨hdots, hlabel⟩
        exact ⟨[], label, rfl, by simp, hlabel, by simpa using hdots⟩
      · rintro ⟨labels, last, heq, -, hlast, hdots⟩
        cases labels with
        | nil =>
          obtain rfl : label = last := by simpa using heq
          exact ⟨by simpa using hdots, hlast⟩
        | cons l labels => simp at heq
    | cons next parts =>
      rw [Accepts, ih]
      constructor
      · rintro ⟨hlabel, labels, last, heq, hlabels, hlast, -⟩
        exact ⟨label :: labels, last, by rw [heq]; rfl, by simpa using ⟨hlabel, hlabels⟩, hlast, by simp⟩
      · rintro ⟨labels, last, heq, hlabels, hlast, -⟩
        cases labels with
        | nil => simp at heq
        | cons l labels =>
          obtain ⟨hl, hparts⟩ : label = l ∧ next :: parts = labels ++ [last] := by simpa using heq
          exact ⟨hlabels label (by simp [hl]), labels, last, hparts, fun l hl => hlabels l (by simp [hl]), hlast,
            by omega⟩

/-- The scan with part of a label behind it: what is left has to go on from it. -/
theorem scan_noError (cs p : WString) (previous : WChar) (dotCount : Nat) (hp : IsLabelStart p)
    (hprevious : ∀ c ∈ p.getLast?, previous = c) :
    scan cs previous dotCount p.length = .noError ↔ Accepts dotCount ((cs.splitOn 0x2E).modifyHead (p ++ ·)) := by
  induction cs generalizing p previous dotCount with
  | nil =>
    rw [List.splitOn_nil, List.modifyHead_cons, List.append_nil, scan, Accepts]
    by_cases hdots : dotCount = 0 <;> simp [hdots, hp]
  | cons c cs ih =>
    rw [List.splitOn_cons_eq_if_modifyHead, scan]
    obtain ⟨label, labels, hcs⟩ := List.exists_cons_of_ne_nil (List.splitOn_ne_nil (0x2E : WChar) cs)
    by_cases hdot : c = 0x2E
    · -- the label ends here, so it is held to all that a label is
      have hnext := ih [] c (dotCount + 1) .nil (by simp)
      rw [hcs] at hnext ⊢
      simp only [hdot, beq_self_eq_true, if_true, List.modifyHead_cons, List.append_nil, List.nil_append, Accepts,
        List.length_nil] at hnext ⊢
      rw [← hnext]
      split_ifs with hempty hhyphen
      · have hnil : p = [] := List.length_eq_zero_iff.1 hempty
        exact iff_of_false (by simp) fun h => h.1.nonempty hnil
      · obtain ⟨x, hx⟩ : ∃ x, x ∈ p.getLast? :=
          ⟨_, List.getLast?_eq_some_getLast fun hnil => hempty (by rw [hnil]; rfl)⟩
        refine iff_of_false (by simp) fun h => h.1.last ?_
        rw [← hhyphen, hprevious x hx]
        exact hx
      · refine (and_iff_right ⟨hp, fun hnil => hempty (by rw [hnil]; rfl), ?_⟩).symm
        intro hlast
        exact hhyphen (hprevious _ hlast)
    · have hne : (c == 0x2E) = false := by simpa using hdot
      have hparts : ((cs.splitOn 0x2E).modifyHead (List.cons c)).modifyHead (p ++ ·) =
          (cs.splitOn 0x2E).modifyHead ((p ++ [c]) ++ ·) := by
        rw [hcs]
        simp
      simp only [if_neg hdot, hne, Bool.false_eq_true, if_false, hparts]
      have hconcat := isLabelStart_concat hp c
      by_cases hlabel : IsLabelStart (p ++ [c])
      · have hrest := ih (p ++ [c]) c dotCount hlabel (by simp)
        rw [List.length_append, List.length_singleton] at hrest
        obtain ⟨hlength, hchar⟩ := hconcat.1 hlabel
        rw [if_neg (by omega), ← hrest]
        split_ifs at hchar ⊢ <;> rfl
      · have hrefused : ¬ Accepts dotCount ((cs.splitOn 0x2E).modifyHead ((p ++ [c]) ++ ·)) := by
          rw [hcs]
          exact fun h => hlabel h.isLabelStart.of_append
        refine iff_of_false ?_ hrefused
        split_ifs with hlength hfirst hchar hchar
        · simp
        · exact absurd (hconcat.2 ⟨by omega, by rwa [if_pos hfirst]⟩) hlabel
        · simp
        · exact absurd (hconcat.2 ⟨by omega, by rwa [if_neg hfirst]⟩) hlabel
        · simp

/-- What `checkValidity` accepts: only the last label goes without the tests for its end. -/
theorem checkValidity_noError (name : WString) :
    checkValidity name = .noError ↔ name.length ≤ 255 ∧ ∃ labels last, labels ≠ [] ∧ (∀ label ∈ labels, IsLabel label) ∧
      IsLabelStart last ∧ name = join (labels ++ [last]) := by
  have hscan := scan_noError name [] 0 0 .nil (by simp)
  have hid : (name.splitOn 0x2E).modifyHead (([] : WString) ++ ·) = name.splitOn 0x2E := by
    obtain ⟨label, labels, hname⟩ := List.exists_cons_of_ne_nil (List.splitOn_ne_nil (0x2E : WChar) name)
    rw [hname]
    simp
  rw [hid, accepts_iff, List.length_nil] at hscan
  unfold checkValidity
  split_ifs with hlength
  · exact iff_of_false (by simp) fun h => by omega
  · rw [and_iff_right (by omega), hscan]
    constructor
    · rintro ⟨labels, last, hsplit, hlabels, hlast, hdots⟩
      refine ⟨labels, last, fun hnil => hdots (by rw [hnil]; rfl), hlabels, hlast, ?_⟩
      rw [join, ← hsplit, List.intercalate_splitOn]
    · rintro ⟨labels, last, hnonempty, hlabels, hlast, hname⟩
      refine ⟨labels, last, ?_, hlabels, hlast, fun h => hnonempty (List.length_eq_zero_iff.1 (by omega))⟩
      rw [hname, join, List.splitOn_intercalate]
      · intro l hl
        rcases List.mem_append.1 hl with hl | hl
        · exact (hlabels l hl).no_dot
        · rw [List.mem_singleton.1 hl]
          exact hlast.no_dot
      · simp

/-- A host name ends the way its last label does. -/
theorem join_unique {labels labels' : List WString} {last last' : WString} (h : ∀ l ∈ labels ++ [last], 0x2E ∉ l)
    (h' : ∀ l ∈ labels' ++ [last'], 0x2E ∉ l) (heq : join (labels ++ [last]) = join (labels' ++ [last'])) :
    last = last' := by
  have hsplit := congrArg (List.splitOn 0x2E) heq
  rw [join, join, List.splitOn_intercalate _ h (by simp), List.splitOn_intercalate _ h' (by simp)] at hsplit
  simpa using congrArg List.getLast? hsplit

/-- `checkValidity` agrees with the grammar but on the unfinished names, which it accepts. -/
theorem checkValidity_iff_isHostName (name : WString) :
    (checkValidity name = .noError ↔ IsHostName name) ↔ ¬ IsUnfinished name := by
  have hends : ∀ last, IsLabel last ↔ IsLabelStart last ∧ ¬ (last = [] ∨ 0x2D ∈ last.getLast?) := fun last =>
    ⟨fun h => ⟨h.toIsLabelStart, fun hor => hor.elim h.nonempty h.last⟩,
      fun h => ⟨h.1, fun hnil => h.2 (.inl hnil), fun hlast => h.2 (.inr hlast)⟩⟩
  have hdots : ∀ {labels : List WString} {last : WString}, (∀ l ∈ labels, IsLabel l) → IsLabelStart last →
      ∀ l ∈ labels ++ [last], 0x2E ∉ l := by
    intro labels last hlabels hlast l hl
    rcases List.mem_append.1 hl with hl | hl
    · exact (hlabels l hl).no_dot
    · exact (List.mem_singleton.1 hl) ▸ hlast.no_dot
  rw [checkValidity_noError]
  constructor
  · rintro hagree ⟨hlength, labels, last, hnonempty, hlabels, hlast, hend, hname⟩
    obtain ⟨-, labels', htwo, hlabels', hname'⟩ := hagree.1 ⟨hlength, labels, last, hnonempty, hlabels, hlast, hname⟩
    obtain ⟨labels', last', rfl⟩ := (List.eq_nil_or_concat labels').resolve_left fun hnil => by simp [hnil] at htwo
    have hlast' : IsLabel last' := hlabels' last' (by simp)
    obtain rfl : last = last' := join_unique (hdots hlabels hlast)
      (hdots (fun l (hl : l ∈ labels') => hlabels' l (by simp [hl])) hlast'.toIsLabelStart)
      (hname.symm.trans (by simpa using hname'))
    exact ((hends last).1 hlast').2 hend
  · intro hfinished
    constructor
    · rintro ⟨hlength, labels, last, hnonempty, hlabels, hlast, hname⟩
      have hlabel : IsLabel last :=
        (hends last).2 ⟨hlast, fun hend => hfinished ⟨hlength, labels, last, hnonempty, hlabels, hlast, hend, hname⟩⟩
      refine ⟨hlength, labels ++ [last], ?_, ?_, hname⟩
      · have := List.length_pos_iff.2 hnonempty
        rw [List.length_append, List.length_singleton]
        omega
      · intro l hl
        rcases List.mem_append.1 hl with hl | hl
        · exact hlabels l hl
        · exact (List.mem_singleton.1 hl) ▸ hlabel
    · rintro ⟨hlength, labels, htwo, hlabels, hname⟩
      obtain ⟨labels, last, rfl⟩ := (List.eq_nil_or_concat labels).resolve_left fun hnil => by simp [hnil] at htwo
      refine ⟨hlength, labels, last, ?_, fun l hl => hlabels l (by simp [hl]), ?_, by simpa using hname⟩
      · rintro rfl
        simp at htwo
      · exact (hlabels last (by simp)).toIsLabelStart

/-- The name `irc.`, whose last label is empty. -/
theorem checkValidity_accepts_unfinished :
    checkValidity (wide "irc.") = .noError ∧ ¬ IsHostName (wide "irc.") := by
  refine ⟨by decide, ?_⟩
  rintro ⟨-, labels, htwo, hlabels, hname⟩
  have hsplit := congrArg (List.splitOn 0x2E) hname
  rw [join, List.splitOn_intercalate _ (fun l hl => (hlabels l hl).no_dot) fun hnil => by simp [hnil] at htwo] at hsplit
  have hempty : [] ∈ labels := by
    rw [← hsplit]
    decide
  exact (hlabels [] hempty).nonempty rfl

end Server.Name

/-! ## Nicknames -/

namespace Client.Name

/-- A character the grammar of nicknames has. -/
def IsGrammarChar (c : WChar) : Prop :=
  isAlnum c = true ∨ c = 0x2D ∨ (0x5B ≤ c ∧ c ≤ 0x60) ∨ (0x7B ≤ c ∧ c ≤ 0x7D) ∨ 0x7F < c

/-- The grammar of nicknames. -/
structure IsNickname (maxNickNameLength : Nat) (name : WString) : Prop where
  nonempty : name ≠ []
  length : name.length ≤ maxNickNameLength
  first : ∀ c ∈ name.head?, isDigit c = false ∧ c ≠ 0x2D
  chars : ∀ c ∈ name, IsGrammarChar c

/-- The mask of `checkValidity` finds the characters above 7 bits that have bit 7 set. -/
theorem isNameChar_iff (c : WChar) : isNameChar c = true ↔ IsGrammarChar c ∧ (0x7F < c → c &&& 0x80 ≠ 0) := by
  have hmask : c &&& 0x80 ≠ 0 → 0x7F < c := by
    intro h
    by_contra hle
    have hsmall : c.toNat < 128 := by
      have hle : c.toNat ≤ 127 := by simpa [UInt32.lt_iff_toNat_lt] using hle
      omega
    apply h
    apply UInt32.toNat_inj.1
    apply Nat.eq_of_testBit_eq
    intro i
    rw [UInt32.toNat_and, Nat.testBit_and, show (0x80 : UInt32).toNat = Nat.pow 2 7 from rfl]
    by_cases hi : i = 7
    · rw [hi, Nat.testBit_lt_two_pow hsmall]
      rfl
    · rw [show (Nat.pow 2 7).testBit i = false from Nat.testBit_two_pow_of_ne (Ne.symm hi), Bool.and_false]
      simp
  have hascii : isAlnum c = true → ¬ 0x7F < c := by
    unfold isAlnum isDigit
    grind
  unfold isNameChar isSpecialChar IsGrammarChar
  grind

/-- A name of the grammar with a character that the mask misses. -/
def HasMissedChar (maxNickNameLength : Nat) (name : WString) : Prop :=
  IsNickname maxNickNameLength name ∧ ∃ c ∈ name, 0x7F < c ∧ c &&& 0x80 = 0

/-- What `checkValidity` accepts. -/
theorem checkValidity_noError (maxNickNameLength : Nat) (name : WString) :
    checkValidity maxNickNameLength name = .noError ↔
      name = [] ∨ (IsNickname maxNickNameLength name ∧ ¬ HasMissedChar maxNickNameLength name) := by
  cases name with
  | nil => exact iff_of_true (checkValidity_nil maxNickNameLength) (.inl rfl)
  | cons c cs =>
    have hchars : (c :: cs).all isNameChar = true ↔
        (∀ d ∈ c :: cs, IsGrammarChar d) ∧ ¬ ∃ d ∈ c :: cs, 0x7F < d ∧ d &&& 0x80 = 0 := by
      rw [List.all_eq_true]
      constructor
      · intro h
        refine ⟨fun d hd => ((isNameChar_iff d).1 (h d hd)).1, ?_⟩
        rintro ⟨d, hd, hhigh, hmask⟩
        exact ((isNameChar_iff d).1 (h d hd)).2 hhigh hmask
      · rintro ⟨hgrammar, hmask⟩ d hd
        exact (isNameChar_iff d).2 ⟨hgrammar d hd, fun hhigh hzero => hmask ⟨d, hd, hhigh, hzero⟩⟩
    unfold checkValidity
    rw [List.getD_cons_zero]
    constructor
    · intro h
      split_ifs at h with hlength hfirst hall
      obtain ⟨hgrammar, hmask⟩ := hchars.1 hall
      refine .inr ⟨⟨by simp, by omega, ?_, hgrammar⟩, fun hmissed => hmask hmissed.2⟩
      simpa using hfirst
    · rintro (hnil | ⟨hname, hmissed⟩)
      · cases hnil
      · rw [if_neg (by have := hname.length; omega), if_neg (by simpa using hname.first c),
          if_pos (hchars.2 ⟨hname.chars, fun hmask => hmissed ⟨hname, hmask⟩⟩)]

/-- `checkValidity` agrees with the grammar but on the empty name, which it
accepts, and on names with a missed character, which it refuses. -/
theorem checkValidity_iff_isNickname (maxNickNameLength : Nat) (name : WString) :
    (checkValidity maxNickNameLength name = .noError ↔ IsNickname maxNickNameLength name) ↔
      name ≠ [] ∧ ¬ HasMissedChar maxNickNameLength name := by
  rw [checkValidity_noError]
  constructor
  · intro h
    refine ⟨?_, ?_⟩
    · rintro rfl
      exact (h.1 (.inl rfl)).nonempty rfl
    · intro hmissed
      rcases h.2 hmissed.1 with rfl | hname
      · exact hmissed.1.nonempty rfl
      · exact hname.2 hmissed
  · rintro ⟨hnonempty, hmissed⟩
    exact ⟨fun h => (h.resolve_left hnonempty).1, fun h => .inr ⟨h, hmissed⟩⟩

/-- U+0100 is above 7 bits and is refused; the empty name is accepted. -/
theorem checkValidity_departs : checkValidity 9 [0x100] ≠ .noError ∧ IsNickname 9 [0x100] ∧
    checkValidity 9 [] = .noError ∧ ¬ IsNickname 9 [] := by
  refine ⟨by decide, ⟨by decide, by decide, ?_, ?_⟩, rfl, fun h => h.nonempty rfl⟩
  · rintro c ⟨⟩
    decide
  · intro c hc
    obtain rfl := List.mem_singleton.1 hc
    exact .inr (.inr (.inr (.inr (by decide))))

end Client.Name

/-! ## Channel names -/

namespace Channel.Name

variable {limits : Limits} {name : WString}

/-- The check returns, and complains about the prefix exactly when it is in no table. -/
def ChecksPrefix (limits : Limits) (name : WString) : Prop :=
  ∃ rounds e, checkValidity limits rounds name = some e ∧
    (e = .channelNameNonstandardPrefix ↔
      name.length ≤ limits.maxChannelNameLength ∧ ∀ c ∈ name.head?, c ∉ limits.standardChannelTypePrefixes)

/-- Past the length check, a name that does not start with the first prefix of
the table is looked up for ever. -/
theorem checkValidity_diverges (hzero : 0 ∉ limits.standardChannelTypePrefixes)
    (hlength : name.length ≤ limits.maxChannelNameLength) (hprefixes : limits.standardChannelTypePrefixes ≠ [])
    (hfirst : name.head? ≠ limits.standardChannelTypePrefixes.head?) (rounds : Nat) :
    checkValidity limits rounds name = none := by
  obtain ⟨p, ps, htable⟩ := List.exists_cons_of_ne_nil hprefixes
  rw [htable] at hzero hfirst
  have hp : p ≠ 0 := fun h => hzero (by simp [h])
  have hne : name.getD 0 0 ≠ p := by
    cases name with
    | nil => exact Ne.symm hp
    | cons c cs => simpa using hfirst
  rw [checkValidity, if_neg (by omega), Option.map_eq_none_iff, htable]
  induction rounds with
  | zero => rfl
  | succ rounds ih => rw [findPrefix, List.getD_cons_zero, if_neg hp, if_neg hne, ih]

/-- The first prefix of the table is found at once. -/
theorem checkValidity_first (hzero : 0 ∉ limits.standardChannelTypePrefixes)
    (hlength : name.length ≤ limits.maxChannelNameLength) (hprefixes : limits.standardChannelTypePrefixes ≠ [])
    (hfirst : name.head? = limits.standardChannelTypePrefixes.head?) :
    ∃ e, checkValidity limits 1 name = some e ∧ e ≠ .channelNameNonstandardPrefix := by
  obtain ⟨p, ps, htable⟩ := List.exists_cons_of_ne_nil hprefixes
  rw [htable] at hzero hfirst
  have hp : p ≠ 0 := fun h => hzero (by simp [h])
  obtain ⟨cs, rfl⟩ : ∃ cs, name = p :: cs := ⟨name.tail, (List.cons_head?_tail hfirst).symm⟩
  rw [checkValidity, if_neg (by omega), htable, findPrefix, List.getD_cons_zero, List.getD_cons_zero, if_neg hp,
    if_pos rfl]
  refine ⟨_, rfl, ?_⟩
  beta_reduce
  rw [List.getD_cons_zero, if_neg hp]
  split_ifs
  · split
    · split_ifs <;> simp
    · simp
  · simp
  · simp

/-- The loop does what it is for exactly when it never has to move. -/
theorem checksPrefix_iff (limits : Limits) (name : WString) (hprefixes : limits.standardChannelTypePrefixes ≠ [])
    (hzero : 0 ∉ limits.standardChannelTypePrefixes) :
    ChecksPrefix limits name ↔ limits.maxChannelNameLength < name.length ∨
      name.head? = limits.standardChannelTypePrefixes.head? := by
  by_cases hlength : name.length ≤ limits.maxChannelNameLength
  · rw [or_iff_right (by omega)]
    constructor
    · rintro ⟨rounds, e, he, -⟩
      by_contra hfirst
      rw [checkValidity_diverges hzero hlength hprefixes hfirst] at he
      cases he
    · intro hfirst
      obtain ⟨e, he, hstandard⟩ := checkValidity_first hzero hlength hprefixes hfirst
      refine ⟨1, e, he, iff_of_false hstandard ?_⟩
      rintro ⟨-, hnone⟩
      obtain ⟨p, ps, htable⟩ := List.exists_cons_of_ne_nil hprefixes
      rw [htable] at hfirst hnone
      exact hnone p (by rw [hfirst]; rfl) (by simp)
  · refine iff_of_true ⟨0, .nameTooLong, ?_, ?_⟩ (.inl (by omega))
    · rw [checkValidity, if_pos (by omega)]
    · exact iff_of_false (by simp) fun h => hlength h.1

/-- The prefixes of the source. -/
def standardLimits : Limits := ⟨9, 50, true, wide "&#!+.~"⟩

theorem checksPrefix_ampersand : wide "&#!+.~" ≠ [] ∧ 0 ∉ wide "&#!+.~" ∧
    (ChecksPrefix standardLimits (wide "&kine") ↔ 50 < (wide "&kine").length ∨
      (wide "&kine").head? = (wide "&#!+.~").head?) :=
  ⟨by decide, by decide, checksPrefix_iff standardLimits (wide "&kine") (by decide) (by decide)⟩

/-- `#` is the second prefix. -/
theorem not_checksPrefix_hash : ¬ ChecksPrefix standardLimits (wide "#kine") := by
  rintro ⟨rounds, e, he, -⟩
  have hnone := @checkValidity_diverges standardLimits (wide "#kine") (by decide) (by decide) (by decide) (by decide)
    rounds
  rw [hnone] at he
  cases he

/-! ## Characters that names may not have -/

/-- What may not come after the first character. -/
def forbidden (limits : Limits) : WString := badChars ++ if limits.allowMaskLikeNames then [] else maskChars

def IsClean (limits : Limits) (name : WString) : Prop := ∀ c ∈ name.drop 1, c ∉ forbidden limits

/-- The first character is a prefix of the table, which ends at a NUL. -/
def HasPrefix (limits : Limits) (name : WString) : Prop :=
  ∃ c ∈ name.head?, c ∈ cString limits.standardChannelTypePrefixes

/-- The first character is the first prefix of the table. -/
def HasFirstPrefix (limits : Limits) (name : WString) : Prop :=
  ∃ c ∈ name.head?, c ∈ (cString limits.standardChannelTypePrefixes).head?

def IsAccepted (limits : Limits) (name : WString) : Prop :=
  ∃ rounds, checkValidity limits rounds name = some .noError

/-- Accepted names are clean, and clean names with a prefix are accepted. -/
structure KeepsOut (limits : Limits) (name : WString) : Prop where
  clean : IsAccepted limits name → IsClean limits name
  accepted : name.length ≤ limits.maxChannelNameLength → HasPrefix limits name → IsClean limits name →
    IsAccepted limits name

/-- The sets start with a NUL, so what is searched for is nothing at all. -/
theorem findFirstOf_badChars (name : WString) :
    findFirstOf (cString badChars) name 1 = none ∧ findFirstOf (cString (badChars ++ maskChars)) name 1 = none := by
  have hnone : ∀ s : WString, findFirstOf [] s 1 = none := by
    intro s
    simp [findFirstOf]
  exact ⟨hnone name, hnone name⟩

/-- Past the length check and the table, every name is accepted. -/
theorem checkValidity_eq (limits : Limits) (rounds : Nat) (name : WString) :
    checkValidity limits rounds name =
      if name.length > limits.maxChannelNameLength then some .nameTooLong
      else (findPrefix limits.standardChannelTypePrefixes (name.getD 0 0) 0 rounds).map fun position =>
        if limits.standardChannelTypePrefixes.getD position 0 = 0 then .channelNameNonstandardPrefix else .noError := by
  obtain ⟨hbad, hmask⟩ := findFirstOf_badChars name
  simp [checkValidity, hbad, hmask]

theorem hasFirstPrefix_iff : HasFirstPrefix limits name ↔
    limits.standardChannelTypePrefixes.getD 0 0 ≠ 0 ∧ name.getD 0 0 = limits.standardChannelTypePrefixes.getD 0 0 := by
  unfold HasFirstPrefix cString
  rcases limits.standardChannelTypePrefixes with _ | ⟨p, ps⟩
  · simp
  · rcases name with _ | ⟨c, cs⟩ <;> by_cases hp : p = 0 <;> simp [hp, eq_comm]

/-- The loop over the table ends where it starts, or not at all. -/
theorem findPrefix_some {prefixes : WString} {first : WChar} {rounds position : Nat}
    (h : findPrefix prefixes first 0 rounds = some position) :
    position = 0 ∧ (prefixes.getD 0 0 = 0 ∨ first = prefixes.getD 0 0) := by
  induction rounds with
  | zero => cases h
  | succ rounds ih =>
    rw [findPrefix] at h
    split_ifs at h with hend hprefix
    · exact ⟨(Option.some_inj.1 h).symm, .inl hend⟩
    · exact ⟨(Option.some_inj.1 h).symm, .inr hprefix⟩
    · exact ih h

/-- A name is accepted when it starts with the first prefix, whatever comes after it. -/
theorem isAccepted_iff :
    IsAccepted limits name ↔ name.length ≤ limits.maxChannelNameLength ∧ HasFirstPrefix limits name := by
  rw [hasFirstPrefix_iff]
  constructor
  · rintro ⟨rounds, h⟩
    rw [checkValidity_eq] at h
    split_ifs at h with hlength
    · cases h
    · obtain ⟨position, hposition, herror⟩ := Option.map_eq_some_iff.1 h
      obtain ⟨rfl, hwhere⟩ := findPrefix_some hposition
      have hend : limits.standardChannelTypePrefixes.getD 0 0 ≠ 0 := by
        intro hend
        rw [if_pos hend] at herror
        cases herror
      exact ⟨Nat.not_lt.1 hlength, hend, hwhere.resolve_left hend⟩
  · rintro ⟨hlength, hend, hprefix⟩
    refine ⟨1, ?_⟩
    rw [checkValidity_eq, if_neg (Nat.not_lt.2 hlength), findPrefix, if_neg hend, if_pos hprefix, Option.map_some,
      if_neg hend]

theorem keepsOut_iff (limits : Limits) (name : WString) :
    KeepsOut limits name ↔ (name.length ≤ limits.maxChannelNameLength → HasPrefix limits name →
      (HasFirstPrefix limits name ↔ IsClean limits name)) := by
  have hhas : HasFirstPrefix limits name → HasPrefix limits name := by
    rintro ⟨c, hc, hfirst⟩
    exact ⟨c, hc, List.mem_of_mem_head? hfirst⟩
  constructor
  · rintro ⟨hclean, haccepted⟩ hlength hprefix
    exact ⟨fun hfirst => hclean (isAccepted_iff.2 ⟨hlength, hfirst⟩),
      fun h => (isAccepted_iff.1 (haccepted hlength hprefix h)).2⟩
  · intro h
    constructor
    · intro haccepted
      obtain ⟨hlength, hfirst⟩ := isAccepted_iff.1 haccepted
      exact (h hlength (hhas hfirst)).1 hfirst
    · intro hlength hprefix hclean
      exact isAccepted_iff.2 ⟨hlength, (h hlength hprefix).2 hclean⟩

end Channel.Name

namespace Network.Name

def IsClean (name : WString) : Prop := ∀ c ∈ name.drop 1, c ∉ badChars

/-- No name is refused. -/
theorem checkValidity_noError (name : WString) : checkValidity name = .noError := by
  have hempty : cString badChars = [] := rfl
  simp [checkValidity, hempty, findFirstOf]

end Network.Name

/-- The checks keep the characters out only where there are none to keep out, and
turn clean channel names away for a prefix that is not the first of the table. -/
theorem checkValidity_keepsOut_iff (limits : Limits) (channel network : WString) :
    (Channel.Name.KeepsOut limits channel ↔ (channel.length ≤ limits.maxChannelNameLength →
      Channel.Name.HasPrefix limits channel →
        (Channel.Name.HasFirstPrefix limits channel ↔ Channel.Name.IsClean limits channel))) ∧
    ((Network.Name.checkValidity network = .noError → Network.Name.IsClean network) ↔ Network.Name.IsClean network) :=
  ⟨Channel.Name.keepsOut_iff limits channel, imp_iff_right (Network.Name.checkValidity_noError network)⟩

/-- Both kinds of name may have a space. -/
theorem checkValidity_lets_spaces_in : ¬ Channel.Name.KeepsOut Channel.Name.standardLimits (wide "&a b") ∧
    ¬ (Network.Name.checkValidity (wide "a b") = .noError → Network.Name.IsClean (wide "a b")) := by
  constructor
  · intro h
    have haccepted : Channel.Name.IsAccepted Channel.Name.standardLimits (wide "&a b") := ⟨1, by decide⟩
    exact h.clean haccepted 0x20 (by decide) (by decide)
  · intro h
    exact h (by decide) 0x20 (by decide) (by decide)

end KineIRCd

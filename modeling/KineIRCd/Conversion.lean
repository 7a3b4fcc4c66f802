import KineIRCd.Utf8
/-!
# What `convertChars` comes to

`iconv()` as POSIX has it reads whole characters and writes whole characters,
and stops before one that does not fit. Under that, a run of the loop is the
reading of its input, whatever the refills of the buffer: it returns with the
conversion, or fails at an incomplete sequence (`convertLoop_read`). At an
invalid sequence it does neither. The loop empties the buffer and calls again
with the same input (`convertLoop_invalid`).
-/
namespace KineIRCd

open Reading

variable {δ α β : Type}

/-- Strings of the type are the octets of their characters, one after the other. -/
structure CharType.Lawful (T : CharType α) : Prop where
  octets_nil : T.octets [] = []
  octets_append : ∀ s t, T.octets (s ++ t) = T.octets s ++ T.octets t
  chars_octets : ∀ s, T.chars (T.octets s) = s

theorem CharType.char_lawful : CharType.char.Lawful := ⟨rfl, fun _ _ => rfl, fun _ => rfl⟩

theorem wcharsOf_wcharOctets (c : WChar) (rest : Octets) : wcharsOf (wcharOctets c ++ rest) = c :: wcharsOf rest := by
  have hc : c.toUInt8.toUInt32 ||| (c >>> 8).toUInt8.toUInt32 <<< 8 ||| (c >>> 16).toUInt8.toUInt32 <<< 16 |||
      (c >>> 24).toUInt8.toUInt32 <<< 24 = c := by
    apply UInt32.toBitVec_inj.1
    apply BitVec.eq_of_getLsbD_eq
    intro i hi
    simp only [UInt32.toBitVec_or, UInt32.toBitVec_shiftLeft, UInt8.toBitVec_toUInt32, UInt32.toBitVec_toUInt8,
      UInt32.toBitVec_shiftRight, UInt32.toBitVec_ofNat, BitVec.reduceMod, BitVec.shiftLeft_eq', BitVec.ushiftRight_eq',
      BitVec.toNat_ofNat, BitVec.getLsbD_or, BitVec.getLsbD_shiftLeft, BitVec.getLsbD_setWidth,
      BitVec.getLsbD_ushiftRight]
    -- the bit comes from the octet that it is in
    simp [hi]
    grind
  simp only [wcharOctets, List.cons_append, List.nil_append, wcharsOf, hc]

theorem CharType.wchar_lawful : CharType.wchar.Lawful where
  octets_nil := rfl
  octets_append s t := by simp [CharType.wchar]
  chars_octets s := by
    induction s with
    | nil => rfl
    | cons c s ih =>
      have hcons : CharType.wchar.octets (c :: s) = wcharOctets c ++ CharType.wchar.octets s := rfl
      rw [hcons]
      exact (wcharsOf_wcharOctets c _).trans (congrArg (c :: ·) ih)

/-- A call of `iconv()` according to POSIX. It takes whole characters, writes them as far as
there is room, and leaves the input where it stops. -/
structure IconvCall.Posix (outT : CharType β) (reader : Reader δ UInt8 β) (s : δ) (input : Octets) (room : Nat)
    (call : IconvCall δ) (output : List β) : Prop where
  takes : reader.Takes s input call.desc call.unread output
  written : call.written = outT.octets output
  fits : call.written.length ≤ room
  none : call.errno = none → call.unread = []
  invalid : call.errno = some .EILSEQ → call.unread ≠ [] ∧ reader.next call.desc call.unread = .invalid
  incomplete : call.errno = some .EINVAL → call.unread ≠ [] ∧ reader.next call.desc call.unread = .incomplete
  /-- Any character fits into an empty buffer. -/
  full : call.errno = some .E2BIG → room = ICONV_BUFFER_SIZE → call.unread.length < input.length
  other : call.errno ≠ some .other

/-- `iconv()` according to POSIX, where `reader` tells the characters of its descriptors. -/
structure Iconv.Posix (iconv : Iconv δ) (outT : CharType β) (reader : Reader δ UInt8 β) : Prop where
  convert : ∀ s input room, ∃ output, (iconv.convert s input room).Posix outT reader s input room output
  reset : ∀ s, ∃ output, (iconv.reset s ICONV_BUFFER_SIZE).2 = outT.octets output

section
variable {iconv : Iconv δ} {outT : CharType β} {reader : Reader δ UInt8 β} {s : δ} {input : Octets}

/-! ## The loop -/

/-- One round, with whole characters in the buffer: it returns, or goes on with an empty
buffer. With an empty one to begin with it takes up some of the input, unless what is left
is invalid. -/
theorem convertLoop_round (h : iconv.Posix outT reader) (hT : outT.Lawful) (s : δ) (input : Octets) (rounds : Nat)
    (first output : List β) :
    ((reader.read s input).1 = .done ∧ convertLoop iconv outT (rounds + 1) s input (outT.octets first) output =
      some (true, (reader.read s input).2.1, output ++ (first ++ (reader.read s input).2.2))) ∨
    ((reader.read s input).1 = .incomplete ∧
      ∃ s' read, convertLoop iconv outT (rounds + 1) s input (outT.octets first) output = some (false, s', read)) ∨
    ∃ s' rest chars, reader.Takes s input s' rest chars ∧
      ((reader.read s' rest).1 ≠ .invalid → first = [] → rest.length < input.length) ∧
      convertLoop iconv outT (rounds + 1) s input (outT.octets first) output =
        convertLoop iconv outT rounds s' rest (outT.octets []) (output ++ (first ++ chars)) := by
  obtain ⟨chars, hcall⟩ := h.convert s input (ICONV_BUFFER_SIZE - (outT.octets first).length)
  have hempty (hfirst : first = []) : ICONV_BUFFER_SIZE - (outT.octets first).length = ICONV_BUFFER_SIZE := by
    rw [hfirst, hT.octets_nil]
    rfl
  rw [convertLoop, hT.octets_nil]
  generalize iconv.convert s input (ICONV_BUFFER_SIZE - (outT.octets first).length) = call at hcall ⊢
  have hchars : outT.chars (outT.octets first ++ call.written) = first ++ chars := by
    rw [hcall.written, ← hT.octets_append, hT.chars_octets]
  rw [hchars]
  cases herrno : call.errno with
  | none =>
    refine .inl ?_
    rw [hcall.takes.read_eq, hcall.none herrno, Reader.read_nil, List.append_nil]
    exact ⟨rfl, rfl⟩
  | some errno =>
    cases errno with
    | E2BIG => exact .inr (.inr ⟨_, _, _, hcall.takes, fun _ hfirst => hcall.full herrno (hempty hfirst), rfl⟩)
    | EILSEQ =>
      obtain ⟨hne, hnext⟩ := hcall.invalid herrno
      refine .inr (.inr ⟨_, _, _, hcall.takes, fun hvalid => ?_, rfl⟩)
      exact absurd (congrArg Prod.fst (Reader.read_invalid hne hnext)) hvalid
    | EINVAL =>
      obtain ⟨hne, hnext⟩ := hcall.incomplete herrno
      rw [hcall.takes.read_eq, Reader.read_incomplete hne hnext]
      exact .inr (.inl ⟨rfl, _, _, rfl⟩)
    | other => exact absurd herrno hcall.other

/-- At an invalid sequence the loop does not get on. -/
theorem convertLoop_invalid (h : iconv.Posix outT reader) (hT : outT.Lawful) (hread : (reader.read s input).1 = .invalid)
    (rounds : Nat) (first output : List β) : convertLoop iconv outT rounds s input (outT.octets first) output = none := by
  induction rounds generalizing s input first output with
  | zero => rfl
  | succ rounds ih =>
    rcases convertLoop_round h hT s input rounds first output with ⟨hdone, -⟩ | ⟨hincomplete, -⟩ |
      ⟨s', rest, chars, htakes, -, hloop⟩
    · cases hread.symm.trans hdone
    · cases hread.symm.trans hincomplete
    · rw [htakes.read_eq] at hread
      rw [hloop, ih hread]

/-- Without one, the loop returns what is read, whatever the refills of the buffer. Every
round but the first starts with an empty buffer. -/
theorem convertLoop_read (h : iconv.Posix outT reader) (hT : outT.Lawful) (hread : (reader.read s input).1 ≠ .invalid)
    {rounds : Nat} {first : List β} (hrounds : input.length + min first.length 1 < rounds) (output : List β) :
    ((reader.read s input).1 = .done ∧ convertLoop iconv outT rounds s input (outT.octets first) output =
      some (true, (reader.read s input).2.1, output ++ (first ++ (reader.read s input).2.2))) ∨
    ((reader.read s input).1 = .incomplete ∧
      ∃ s' read, convertLoop iconv outT rounds s input (outT.octets first) output = some (false, s', read)) := by
  induction rounds generalizing s input first output with
  | zero => omega
  | succ rounds ih =>
    rcases convertLoop_round h hT s input rounds first output with hdone | hincomplete |
      ⟨s', rest, chars, htakes, hprogress, hloop⟩
    · exact .inl hdone
    · exact .inr hincomplete
    · have hle := htakes.length_le
      rw [htakes.read_eq] at hread ⊢
      have hlt : rest.length + min 0 1 < rounds := by
        cases first with
        | nil =>
          have hless := hprogress hread rfl
          omega
        | cons c first =>
          rw [List.length_cons] at hrounds
          omega
      have hagain := @ih _ _ hread [] hlt (output ++ (first ++ chars))
      rw [hloop]
      simpa only [List.append_assoc, List.nil_append] using hagain

/-- More rounds make no difference to a loop that has returned. -/
theorem convertLoop_mono {rounds rounds' : Nat} (hle : rounds ≤ rounds') {buffer : Octets} {output : List β}
    {result : Bool × δ × List β} (h : convertLoop iconv outT rounds s input buffer output = some result) :
    convertLoop iconv outT rounds' s input buffer output = some result := by
  induction rounds generalizing rounds' s input buffer output with
  | zero => cases h
  | succ rounds ih =>
    obtain ⟨rounds', rfl⟩ := Nat.exists_eq_add_one.2 (Nat.zero_lt_of_lt hle)
    rw [convertLoop] at h ⊢
    cases herrno : (iconv.convert s input (ICONV_BUFFER_SIZE - buffer.length)).errno with
    | none =>
      rw [herrno] at h
      exact h
    | some errno =>
      rw [herrno] at h
      cases errno with
      | E2BIG => exact ih (by omega) h
      | EILSEQ => exact ih (by omega) h
      | EINVAL => exact h
      | other => exact h

/-! ## The conversion -/

/-- How the octets read once the descriptor is in its initial state. `(iconv_t)(-1)` reads
nothing. -/
def ending (iconv : Iconv δ) (reader : Reader δ UInt8 β) (convDesc : Option δ) (octets : Octets) : Ending :=
  match convDesc with
  | none => .incomplete
  | some desc => (reader.read (iconv.reset desc ICONV_BUFFER_SIZE).1 octets).1

/-- What the octets convert to: what takes the descriptor back to its initial state, and
the characters read. -/
def conversion (iconv : Iconv δ) (outT : CharType β) (reader : Reader δ UInt8 β) (desc : δ) (octets : Octets) : List β :=
  outT.chars (iconv.reset desc ICONV_BUFFER_SIZE).2 ++ (reader.read (iconv.reset desc ICONV_BUFFER_SIZE).1 octets).2.2

/-- `Protocol::Output::delocaliseStr`, which does not ask whether the conversion failed. -/
def delocaliseStr (iconv : Iconv δ) (rounds : Nat) (outputCharConvDesc : Option δ) (input : WString) :
    Option (Option δ × Octets) :=
  (convertChars iconv .wchar .char rounds outputCharConvDesc input []).map Prod.snd

/-- `Protocol::Input::localiseStr`, likewise. -/
def localiseStr (iconv : Iconv δ) (rounds : Nat) (inputCharConvDesc : Option δ) (input : Octets) :
    Option (Option δ × WString) :=
  (convertChars iconv .char .wchar rounds inputCharConvDesc input []).map Prod.snd

section
variable (h : iconv.Posix outT reader) (hT : outT.Lawful) (inT : CharType α)
include h hT

theorem convertChars_read {desc : δ} {input : List α} (hread : ending iconv reader (some desc) (inT.octets input) ≠ .invalid)
    (output : List β) : ∃ rounds₀, ∀ rounds, rounds₀ < rounds →
      (ending iconv reader (some desc) (inT.octets input) = .done ∧ ∃ s',
        convertChars iconv inT outT rounds (some desc) input output =
          some (true, s', output ++ conversion iconv outT reader desc (inT.octets input))) ∨
      (ending iconv reader (some desc) (inT.octets input) = .incomplete ∧ ∃ s' read,
        convertChars iconv inT outT rounds (some desc) input output = some (false, s', read)) := by
  obtain ⟨first, hfirst⟩ := h.reset desc
  refine ⟨(inT.octets input).length + min first.length 1, fun rounds hrounds => ?_⟩
  have hloop := convertLoop_read h hT hread hrounds output
  rw [← hfirst] at hloop
  rcases hloop with ⟨hdone, hloop⟩ | ⟨hincomplete, s', read, hloop⟩
  · refine .inl ⟨hdone, some (reader.read (iconv.reset desc ICONV_BUFFER_SIZE).1 (inT.octets input)).2.1, ?_⟩
    rw [convertChars, hloop, conversion, hfirst, hT.chars_octets]
    rfl
  · exact .inr ⟨hincomplete, some s', read, by rw [convertChars, hloop]; rfl⟩

theorem convertChars_returns (convDesc : Option δ) (input : List α) (output : List β) :
    (∃ rounds result, convertChars iconv inT outT rounds convDesc input output = some result) ↔
      ending iconv reader convDesc (inT.octets input) ≠ .invalid := by
  cases convDesc with
  | none =>
    constructor
    · intro _ hending
      cases hending
    · intro _
      exact ⟨0, _, rfl⟩
  | some desc =>
    constructor
    · rintro ⟨rounds, result, hresult⟩ hinvalid
      obtain ⟨first, hfirst⟩ := h.reset desc
      rw [convertChars, hfirst, convertLoop_invalid h hT hinvalid] at hresult
      cases hresult
    · intro hread
      obtain ⟨rounds₀, hrounds⟩ := convertChars_read h hT inT hread output
      rcases hrounds (rounds₀ + 1) (Nat.lt_succ_self _) with ⟨-, s', hresult⟩ | ⟨-, s', read, hresult⟩
      · exact ⟨_, _, hresult⟩
      · exact ⟨_, _, hresult⟩

/-- It succeeds only at the end of the input. -/
theorem convertChars_true {desc : δ} {input : List α} {output : List β} {rounds : Nat} {convDesc : Option δ} {read : List β}
    (hresult : convertChars iconv inT outT rounds (some desc) input output = some (true, convDesc, read)) :
    ending iconv reader (some desc) (inT.octets input) = .done ∧
      read = output ++ conversion iconv outT reader desc (inT.octets input) := by
  have hending := (convertChars_returns h hT inT (some desc) input output).1 ⟨rounds, _, hresult⟩
  obtain ⟨rounds₀, hrounds⟩ := convertChars_read h hT inT hending output
  have hmore : convertChars iconv inT outT (rounds + rounds₀ + 1) (some desc) input output = some (true, convDesc, read) := by
    obtain ⟨left, hleft, hmap⟩ := Option.map_eq_some_iff.1 hresult
    rw [convertChars, convertLoop_mono (by omega) hleft, Option.map_some, hmap]
  rcases hrounds (rounds + rounds₀ + 1) (by omega) with ⟨hdone, _, hread⟩ | ⟨-, _, _, hread⟩
  · rw [hmore] at hread
    cases hread
    exact ⟨hdone, rfl⟩
  · rw [hmore] at hread
    cases hread

end

/-- A conversion returns unless it comes to a sequence that is invalid for its descriptor,
and so do the strings of a protocol. -/
theorem conversion_returns_iff :
    (∀ {iconv : Iconv δ} {outT : CharType β} {reader : Reader δ UInt8 β}, iconv.Posix outT reader → outT.Lawful →
      ∀ (inT : CharType α) (convDesc : Option δ) (input : List α) (output : List β),
        (∃ rounds result, convertChars iconv inT outT rounds convDesc input output = some result) ↔
          ending iconv reader convDesc (inT.octets input) ≠ .invalid) ∧
    (∀ {iconv : Iconv δ} {reader : Reader δ UInt8 WChar}, iconv.Posix .wchar reader → ∀ (convDesc : Option δ) (input : Octets),
      (∃ rounds result, localiseStr iconv rounds convDesc input = some result) ↔ ending iconv reader convDesc input ≠ .invalid) ∧
    (∀ {iconv : Iconv δ} {reader : Reader δ UInt8 UInt8}, iconv.Posix .char reader → ∀ (convDesc : Option δ) (input : WString),
      (∃ rounds result, delocaliseStr iconv rounds convDesc input = some result) ↔
        ending iconv reader convDesc (CharType.wchar.octets input) ≠ .invalid) := by
  refine ⟨fun h hT => convertChars_returns h hT, fun h convDesc input => ?_, fun h convDesc input => ?_⟩
  · refine Iff.trans ?_ (convertChars_returns h CharType.wchar_lawful .char convDesc input [])
    simp only [localiseStr, Option.map_eq_some_iff]
    grind
  · refine Iff.trans ?_ (convertChars_returns h CharType.char_lawful .wchar convDesc input [])
    simp only [delocaliseStr, Option.map_eq_some_iff]
    grind

/-- A conversion of what can be converted is complete, however often the buffer is
refilled. -/
theorem convertChars_complete (h : iconv.Posix outT reader) (hT : outT.Lawful) (inT : CharType α) {desc : δ}
    {input : List α} (hread : ending iconv reader (some desc) (inT.octets input) = .done) (output : List β) :
    ∃ rounds₀, ∀ rounds, rounds₀ < rounds → ∃ s', convertChars iconv inT outT rounds (some desc) input output =
      some (true, s', output ++ conversion iconv outT reader desc (inT.octets input)) := by
  obtain ⟨rounds₀, hrounds⟩ := convertChars_read h hT inT (by rw [hread]; decide) output
  refine ⟨rounds₀, fun rounds hlt => ?_⟩
  rcases hrounds rounds hlt with ⟨-, hresult⟩ | ⟨hincomplete, -⟩
  · exact hresult
  · rw [hread] at hincomplete
    cases hincomplete

end

/-! ## A descriptor for a reader -/

/-- A call of `iconv()` for a reader: it goes on while there is room. -/
def Iconv.callOf (outT : CharType β) (reader : Reader δ UInt8 β) : Nat → δ → Octets → Nat → IconvCall δ
  | 0, s, input, _ => ⟨none, s, input, []⟩
  | n + 1, s, input, room =>
    if input.isEmpty then ⟨none, s, input, []⟩
    else
      match reader.next s input with
      | .invalid => ⟨some .EILSEQ, s, input, []⟩
      | .incomplete => ⟨some .EINVAL, s, input, []⟩
      | .char s' rest output =>
        if room < (outT.octets output).length then ⟨some .E2BIG, s, input, []⟩
        else
          let after := Iconv.callOf outT reader n s' rest (room - (outT.octets output).length)
          { after with written := outT.octets output ++ after.written }

theorem Iconv.callOf_posix {outT : CharType β} {reader : Reader δ UInt8 β} (hT : outT.Lawful)
    (hsize : ∀ {s input s' rest output}, reader.next s input = .char s' rest output →
      (outT.octets output).length ≤ ICONV_BUFFER_SIZE)
    {n : Nat} {s : δ} {input : Octets} {room : Nat} (hn : input.length ≤ n) :
    ∃ output, (Iconv.callOf outT reader n s input room).Posix outT reader s input room output := by
  induction n generalizing s input room with
  | zero =>
    obtain rfl := List.length_eq_zero_iff.1 (Nat.le_zero.1 hn)
    exact ⟨[], .none s [], hT.octets_nil.symm, Nat.zero_le _, fun _ => rfl, nofun, nofun, nofun, nofun⟩
  | succ n ih =>
    rw [Iconv.callOf]
    split_ifs with hempty
    · exact ⟨[], .none s input, hT.octets_nil.symm, Nat.zero_le _, fun _ => List.isEmpty_iff.1 hempty, nofun, nofun, nofun, nofun⟩
    · have hne : input ≠ [] := fun h => hempty (List.isEmpty_iff.2 h)
      cases hnext : reader.next s input with
      | invalid =>
        exact ⟨[], .none s input, hT.octets_nil.symm, Nat.zero_le _, nofun, fun _ => ⟨hne, hnext⟩, nofun, nofun, nofun⟩
      | incomplete =>
        exact ⟨[], .none s input, hT.octets_nil.symm, Nat.zero_le _, nofun, nofun, fun _ => ⟨hne, hnext⟩, nofun, nofun⟩
      | char s' rest output =>
        have hshorter := reader.shorter hnext
        have hfits := hsize hnext
        dsimp only
        split_ifs with hfull
        · refine ⟨[], .none s input, hT.octets_nil.symm, Nat.zero_le _, nofun, nofun, nofun, fun _ hbuffer => ?_, nofun⟩
          omega
        · obtain ⟨more, hcall⟩ := @ih s' rest (room - (outT.octets output).length) (by omega)
          refine ⟨output ++ more, .char hnext hcall.takes, ?_, ?_, hcall.none, hcall.invalid, hcall.incomplete,
            fun _ _ => ?_, hcall.other⟩
          · rw [hT.octets_append, ← hcall.written]
          · have hwritten := hcall.fits
            rw [List.length_append]
            omega
          · exact Nat.lt_of_le_of_lt hcall.takes.length_le hshorter

/-! ### UTF-8 to wide characters -/

/-- The sample descriptor is the one for its reader. -/
theorem utf8Loop_eq (n : Nat) (input : Octets) (room : Nat) (written : Octets) :
    utf8Loop n input room written =
      { Iconv.callOf .wchar (utf8Reader Unit) n () input room with
        written := written ++ (Iconv.callOf .wchar (utf8Reader Unit) n () input room).written } := by
  induction n generalizing input room written with
  | zero => simp [utf8Loop, Iconv.callOf]
  | succ n ih =>
    rw [utf8Loop, Iconv.callOf]
    by_cases hempty : input.isEmpty
    · simp [hempty]
    · rw [if_neg hempty, if_neg hempty]
      cases hchar : utf8Char input with
      | error errno => rcases utf8Char_errno hchar with rfl | rfl <;> simp [utf8Reader, hchar]
      | ok read =>
        obtain ⟨c, rest⟩ := read
        have hnext : (utf8Reader Unit).next () input = .char () rest [c] := utf8Reader_next hchar
        have hoctets : CharType.wchar.octets [c] = wcharOctets c := by simp [CharType.wchar]
        have hlength : (wcharOctets c).length = 4 := rfl
        simp only [hnext, hoctets, hlength]
        by_cases hroom : room < 4
        · simp [hroom]
        · simp [hroom, ih]

theorem Iconv.utf8_posix : Iconv.utf8.Posix .wchar (utf8Reader Unit) where
  convert s input room := by
    have hsize {s : Unit} {input : Octets} {s' : Unit} {rest : Octets} {output : WString}
        (hnext : (utf8Reader Unit).next s input = .char s' rest output) :
        (CharType.wchar.octets output).length ≤ ICONV_BUFFER_SIZE := by
      simp only [utf8Reader] at hnext
      split at hnext
      · cases hnext
      · cases hnext
      · cases hnext
        show 4 ≤ 2048
        decide
    have hcall : Iconv.utf8.convert s input room = Iconv.callOf .wchar (utf8Reader Unit) input.length () input room := by
      exact utf8Loop_eq _ _ _ _
    rw [hcall]
    exact Iconv.callOf_posix CharType.wchar_lawful hsize (Nat.le_refl _)
  reset s := ⟨[], rfl⟩

/-! ### Wide characters to octets -/

/-- The reader of wide characters, for the character set of the first 256. -/
def wideReader : Reader Unit UInt8 UInt8 where
  next _ input :=
    match input with
    | a :: b :: c :: d :: rest => if b = 0 ∧ c = 0 ∧ d = 0 then .char () rest [a] else .invalid
    | _ => .incomplete
  shorter := by
    intro s input s' rest output h
    split at h
    · split_ifs at h
      cases h
      simp only [List.length_cons]
      omega
    · cases h

/-- A descriptor from the characters of the machine to the first 256 of them. -/
def Iconv.latin1 : Iconv Unit where
  reset _ _ := ((), [])
  convert _ input room := Iconv.callOf .char wideReader input.length () input room

theorem Iconv.latin1_posix : Iconv.latin1.Posix .char wideReader where
  convert s input room := by
    refine Iconv.callOf_posix CharType.char_lawful ?_ (Nat.le_refl _)
    intro s input s' rest output hnext
    simp only [wideReader] at hnext
    split at hnext
    · split_ifs at hnext
      cases hnext
      show 1 ≤ 2048
      decide
    · cases hnext
  reset s := ⟨[], rfl⟩

/-! ## Runs -/

theorem conversion_returns_samples :
    (∃ rounds result, convertChars Iconv.utf8 .char .wchar rounds (some ()) (octets "hello") [] = some result) ∧
    (∃ rounds result, localiseStr Iconv.utf8 rounds (some ()) (octets "hello") = some result) ∧
    (∃ rounds result, delocaliseStr Iconv.latin1 rounds (some ()) (wide "hello") = some result) := by
  refine ⟨?_, ?_, ?_⟩
  · refine ((@conversion_returns_iff Unit UInt8 WChar).1 Iconv.utf8_posix CharType.wchar_lawful .char _ _ _).2 ?_
    decide +kernel
  · refine ((@conversion_returns_iff Unit UInt8 WChar).2.1 Iconv.utf8_posix _ _).2 ?_
    decide +kernel
  · refine ((@conversion_returns_iff Unit UInt8 WChar).2.2 Iconv.latin1_posix _ _).2 ?_
    decide +kernel

/-- One octet from a client is enough: the server is in the loop from then on. -/
theorem localiseStr_stuck : Iconv.utf8.Posix .wchar (utf8Reader Unit) ∧
    ¬ ∃ rounds result, localiseStr Iconv.utf8 rounds (some ()) [0xFF] = some result := by
  refine ⟨Iconv.utf8_posix, ?_⟩
  rintro ⟨rounds, result, hresult⟩
  have hinvalid : ((utf8Reader Unit).read () [0xFF]).1 = .invalid := by decide +kernel
  have hstuck : convertLoop Iconv.utf8 .wchar rounds () [0xFF] [] [] = none :=
    convertLoop_invalid Iconv.utf8_posix CharType.wchar_lawful hinvalid rounds [] []
  obtain ⟨returned, hreturned, -⟩ := Option.map_eq_some_iff.1 hresult
  obtain ⟨left, hleft, -⟩ := Option.map_eq_some_iff.1 hreturned
  cases hstuck.symm.trans hleft

/-- Six hundred letters take more than one buffer of wide characters. -/
theorem convertChars_complete_samples :
    (∃ rounds₀, ∀ rounds, rounds₀ < rounds → ∃ s',
      convertChars Iconv.utf8 .char .wchar rounds (some ()) (List.replicate 600 0x61) [0x62] =
        some (true, s', [0x62] ++ conversion Iconv.utf8 .wchar (utf8Reader Unit) () (List.replicate 600 0x61))) ∧
    (∃ rounds₀, ∀ rounds, rounds₀ < rounds → ∃ s',
      convertChars Iconv.latin1 .wchar .char rounds (some ()) (List.replicate 600 0x61) [0x62] =
        some (true, s', [0x62] ++ conversion Iconv.latin1 .char wideReader () (CharType.wchar.octets (List.replicate 600 0x61)))) := by
  constructor
  · apply convertChars_complete Iconv.utf8_posix CharType.wchar_lawful .char
    decide +kernel
  · apply convertChars_complete Iconv.latin1_posix CharType.char_lawful .wchar
    decide +kernel

end KineIRCd

import KineIRCd.Lib.Templates
import KineIRCd.Logger
/-!
# Log lines

What the file logger writes for a line, by the format of its configuration, and
what the documentation of the format says.
-/
namespace KineIRCd

open Logger Templates

/-- A broken-down time as `gmtime()` and `localtime()` fill it in, with the year
from 1900 on. -/
structure Tm where
  tm_sec : Nat
  tm_min : Nat
  tm_hour : Nat
  tm_mday : Nat
  tm_mon : Nat
  tm_year : Nat
  tm_wday : Nat
  tm_yday : Nat
  sec_lt : tm_sec < 62
  min_lt : tm_min < 60
  hour_lt : tm_hour < 24
  mday_pos : 0 < tm_mday
  mday_lt : tm_mday < 32
  mon_lt : tm_mon < 12
  wday_lt : tm_wday < 7
  yday_lt : tm_yday < 366

def Tm.year (time : Tm) : Nat := time.tm_year + 1900

/-- `std::ofstream`: what has been written to it, and its fill character. -/
structure OFStream where
  written : Octets
  fill : UInt8

namespace OFStream

def put (text : Octets) (file : OFStream) : OFStream := { file with written := file.written ++ text }

def setfill (fill : UInt8) (file : OFStream) : OFStream := { file with fill }

/-- A text filled up on the left to a width. -/
def padded (width : Nat) (fill : UInt8) (text : Octets) : Octets := List.replicate (width - text.length) fill ++ text

/-- A number after `std::setw`, which holds for that number only. -/
def putw (width n : Nat) (file : OFStream) : OFStream := file.put (padded width file.fill (decimal n))

end OFStream

/-- `FileLog`, with what its configuration says. -/
structure FileLog where
  format : Octets
  utc : Bool
  /-- `logFile.good()`. -/
  ok : Bool
  logFile : OFStream

/-- What `logLine` takes from the system: the time of the daemon, and what breaks
it up. -/
structure Clock where
  seconds : Nat
  gmtime : Nat → Tm
  localtime : Nat → Tm

namespace FileLog

open OFStream

section
variable (beyond : MaskMapper) (str : Octets) (mask : UInt32) (seconds : Nat) (currentTime : Tm)

/-- The entry of the mask. `beyond` is what lies behind the table. -/
def mapper : MaskMapper := (getMaskMapper maskTable beyond (.mask mask)).value

/-- The hour as `%I`, `%l` and `%r` have it. -/
def clockHour (hour : Nat) : Nat := if hour < 12 then hour + 1 else hour - 12

/-- The `switch` of `logLine`. -/
def convert (specifier : UInt8) (logFile : OFStream) : OFStream :=
  match Char.ofUInt8 specifier with
  | '!' => logFile.put [(mapper beyond mask).character]
  | '#' => logFile.put (mapper beyond mask).name
  | '@' => logFile.put (mapper beyond mask).nameUpper
  | '$' => logFile.put str
  | '%' => logFile.put (octets "%")
  | 'C' => logFile.put (decimal ((currentTime.tm_year + 1900) / 100))
  | 'd' => logFile.setfill 0x30 |>.putw 2 currentTime.tm_mday
  | 'e' => logFile.setfill 0x20 |>.putw 2 currentTime.tm_mday
  | 'H' => logFile.setfill 0x30 |>.putw 2 currentTime.tm_hour
  | 'I' => logFile.setfill 0x30 |>.putw 2 (clockHour currentTime.tm_hour)
  | 'j' => logFile.setfill 0x30 |>.putw 3 currentTime.tm_yday
  | 'k' => logFile.setfill 0x20 |>.putw 2 currentTime.tm_hour
  | 'l' => logFile.setfill 0x20 |>.putw 2 (clockHour currentTime.tm_hour)
  | 'm' => logFile.setfill 0x30 |>.putw 2 (currentTime.tm_mon + 1)
  | 'M' => logFile.setfill 0x30 |>.putw 2 currentTime.tm_min
  | 'n' => logFile.put [0x0A]
  | 'p' => logFile.put (if currentTime.tm_hour < 12 then octets "AM" else octets "PM")
  | 'P' => logFile.put (if currentTime.tm_hour < 12 then octets "am" else octets "pm")
  | 'r' => logFile.setfill 0x30 |>.putw 2 (clockHour currentTime.tm_hour) |>.put (octets ":") |>.putw 2 currentTime.tm_min
      |>.put (octets ":") |>.putw 2 currentTime.tm_sec |>.put (octets " ")
      |>.put (if currentTime.tm_hour < 12 then octets "AM" else octets "PM")
  | 'R' => logFile.setfill 0x30 |>.putw 2 currentTime.tm_hour |>.put (octets ":") |>.putw 2 currentTime.tm_min
  | 's' => logFile.put (decimal seconds)
  | 'S' => logFile.setfill 0x30 |>.putw 2 currentTime.tm_sec
  | 't' => logFile.put [0x09]
  | 'T' => logFile.setfill 0x30 |>.putw 2 currentTime.tm_hour |>.put (octets ":") |>.putw 2 currentTime.tm_min
      |>.put (octets ":") |>.putw 2 currentTime.tm_sec
  | 'u' => logFile.put (decimal (currentTime.tm_wday + 1))
  | 'w' => logFile.put (decimal currentTime.tm_wday)
  | 'y' => logFile.setfill 0x30 |>.putw 2 (currentTime.tm_year % 100)
  | 'Y' => logFile.put (decimal (currentTime.tm_year + 1900))
  | _ => logFile

/-- The loop of `logLine` over what is left of the format. -/
def process : Octets → OFStream → OFStream
  | [], logFile => logFile
  | [c], logFile => if c = 0x25 then logFile else logFile.put [c]
  | c :: next :: rest, logFile =>
    if c = 0x25 then process rest (convert beyond str mask seconds currentTime next logFile)
    else process (next :: rest) (logFile.put [c])

end

def currentTime (clock : Clock) (this : FileLog) : Tm :=
  if this.utc then clock.gmtime clock.seconds else clock.localtime clock.seconds

/-- `FileLog::logLine`. -/
def logLine (beyond : MaskMapper) (clock : Clock) (str : Octets) (mask : UInt32) (this : FileLog) : FileLog :=
  if this.ok then
    { this with
      logFile := process beyond str mask clock.seconds (this.currentTime clock) this.format this.logFile }
  else this

/-! ## The documentation -/

section
variable (entry : MaskMapper) (str : Octets) (seconds : Nat) (currentTime : Tm)

/-- The hour of a 12-hour clock: 12 at noon and at midnight. -/
def hour12 (hour : Nat) : Nat := if hour % 12 = 0 then 12 else hour % 12

/-- `AM` or `PM`. -/
def meridiem (hour : Nat) : Octets := if hour < 12 then octets "AM" else octets "PM"

/-- The specifiers that are not put together from others. -/
def documentedField (specifier : UInt8) : Octets :=
  match Char.ofUInt8 specifier with
  | '$' => str
  | '!' => [entry.character]
  | '#' => entry.name
  | '@' => toUpper entry.name
  | '%' => octets "%"
  | 'C' => padded 2 0x30 (decimal (currentTime.year / 100))
  | 'd' => padded 2 0x30 (decimal currentTime.tm_mday)
  | 'e' => padded 2 0x20 (decimal currentTime.tm_mday)
  | 'H' => padded 2 0x30 (decimal currentTime.tm_hour)
  | 'I' => padded 2 0x30 (decimal (hour12 currentTime.tm_hour))
  | 'j' => padded 3 0x30 (decimal (currentTime.tm_yday + 1))
  | 'k' => padded 2 0x20 (decimal currentTime.tm_hour)
  | 'l' => padded 2 0x20 (decimal (hour12 currentTime.tm_hour))
  | 'm' => padded 2 0x30 (decimal (currentTime.tm_mon + 1))
  | 'M' => padded 2 0x30 (decimal currentTime.tm_min)
  | 'n' => [0x0A]
  | 'p' => meridiem currentTime.tm_hour
  | 'P' => toLower (meridiem currentTime.tm_hour)
  | 's' => decimal seconds
  | 'S' => padded 2 0x30 (decimal currentTime.tm_sec)
  | 't' => [0x09]
  | 'u' => decimal (currentTime.tm_wday + 1)
  | 'w' => decimal currentTime.tm_wday
  | 'y' => padded 2 0x30 (decimal (currentTime.year % 100))
  | 'Y' => decimal currentTime.year
  | _ => []

/-- What a specifier stands for. -/
def documented (specifier : UInt8) : Octets :=
  match Char.ofUInt8 specifier with
  | 'r' => expand 0x25 (documentedField entry str seconds currentTime) (octets "%I:%M:%S %p")
  | 'R' => expand 0x25 (documentedField entry str seconds currentTime) (octets "%H:%M")
  | 'T' => expand 0x25 (documentedField entry str seconds currentTime) (octets "%H:%M:%S")
  | _ => documentedField entry str seconds currentTime specifier

end

/-! ## What a specifier writes -/

section
variable (beyond : MaskMapper) (str : Octets) (mask : UInt32) (seconds : Nat) (currentTime : Tm)

/-- What a specifier writes to an empty file. -/
def text (specifier : UInt8) : Octets := (convert beyond str mask seconds currentTime specifier ⟨[], 0⟩).written

/-- The fill character left by one specifier is not used by the next. -/
theorem written_convert (specifier : UInt8) (logFile : OFStream) :
    (convert beyond str mask seconds currentTime specifier logFile).written =
      logFile.written ++ text beyond str mask seconds currentTime specifier := by
  unfold text convert
  split <;> simp [put, putw, setfill]

theorem written_process (format : Octets) (logFile : OFStream) :
    (process beyond str mask seconds currentTime format logFile).written =
      logFile.written ++ expand 0x25 (text beyond str mask seconds currentTime) format := by
  fun_induction process beyond str mask seconds currentTime format logFile with
  | case1 => simp [expand]
  | case2 logFile => simp [expand]
  | case3 c logFile hc => simp [expand, hc, put]
  | case4 next rest logFile ih =>
    rw [ih, written_convert, expand, if_pos rfl, List.append_assoc]
  | case5 c next rest logFile hc ih =>
    rw [ih, expand, if_neg hc]
    simp [put]

end

/-! ## What it should write -/

theorem length_decimal_le_iff {n width : Nat} (h : 0 < width) : (decimal n).length ≤ width ↔ n < 10 ^ width := by
  rw [← Nat.length_repr_le_iff h, decimal, octets, List.length_map, String.length_toList]
  rfl

theorem length_padded (fill : UInt8) {width n : Nat} (hpos : 0 < width) (h : n < 10 ^ width) :
    (padded width fill (decimal n)).length = width := by
  have hle := (length_decimal_le_iff hpos).2 h
  rw [padded, List.length_append, List.length_replicate]
  omega

theorem padded_of_le {width : Nat} {text : Octets} (fill : UInt8) (h : width ≤ text.length) :
    padded width fill text = text := by
  rw [padded, Nat.sub_eq_zero_of_le h, List.replicate_zero, List.nil_append]

/-- The number that a text of digits tells, where anything below `0` counts as 0. -/
def number (text : Octets) : Nat := Nat.ofDigitChars 10 (text.map Char.ofUInt8) 0

theorem ofUInt8_ofNat {c : Char} (h : c.toNat < 0x100) : Char.ofUInt8 (UInt8.ofNat c.toNat) = c := by
  apply Char.toNat_inj.1
  show (UInt8.ofNat c.toNat).toUInt32.toNat = c.toNat
  rw [UInt8.toNat_toUInt32, UInt8.toNat_ofNat']
  exact Nat.mod_eq_of_lt h

theorem number_decimal (n : Nat) : number (decimal n) = n := by
  have hdigits : (decimal n).map Char.ofUInt8 = Nat.toDigits 10 n := by
    rw [decimal, octets, List.map_map, show (toString n).toList = Nat.toDigits 10 n from Nat.toList_repr]
    refine (List.map_congr_left fun c hc => ?_).trans (List.map_id _)
    have hdigit := Nat.isDigit_of_mem_toDigits (by decide) (by decide) hc
    exact ofUInt8_ofNat (Nat.lt_of_le_of_lt (Char.isDigit_iff_toNat.1 hdigit).2 (by decide))
  rw [number, hdigits, Nat.ofDigitChars_ten_toDigits]

theorem number_padded {fill : UInt8} (hfill : fill ≤ 0x30) (width : Nat) (text : Octets) :
    number (padded width fill text) = number text := by
  have hnone : (Char.ofUInt8 fill).toNat - '0'.toNat = 0 :=
    Nat.sub_eq_zero_of_le (UInt8.le_iff_toNat_le.1 hfill)
  unfold number padded
  rw [List.map_append, List.map_replicate]
  induction width - text.length with
  | zero => rfl
  | succ n ih =>
    rw [List.replicate_succ, List.cons_append, Nat.ofDigitChars_cons, hnone]
    exact ih

theorem padded_inj {fill : UInt8} (hfill : fill ≤ 0x30) {width m n : Nat} :
    padded width fill (decimal m) = padded width fill (decimal n) ↔ m = n := by
  constructor
  · intro h
    have hnumber := congrArg number h
    rwa [number_padded hfill, number_padded hfill, number_decimal, number_decimal] at hnumber
  · rintro rfl
    rfl

/-- The two clocks agree from 13 o'clock on. -/
theorem clockHour_iff {hour : Nat} (h : hour < 24) : clockHour hour = hour12 hour ↔ 13 ≤ hour := by
  unfold clockHour hour12
  split_ifs <;> omega

/-- Specifiers of the entry of the mask. -/
def IsMask (specifier : UInt8) : Prop := Char.ofUInt8 specifier ∈ ['!', '#', '@']

/-- `%j` is never right, and the hours of a 12-hour clock are from 13 o'clock on. -/
def RightAt (hour : Nat) (specifier : UInt8) : Prop :=
  Char.ofUInt8 specifier ≠ 'j' ∧ (Char.ofUInt8 specifier ∈ ['I', 'l', 'r'] → 13 ≤ hour)

section
variable {beyond entry : MaskMapper} {str : Octets} {mask : UInt32} {seconds : Nat} {currentTime : Tm} {specifier : UInt8}

/-- The century has its two digits by itself. -/
theorem padded_century (time : Tm) : padded 2 0x30 (decimal (time.year / 100)) = decimal (time.year / 100) := by
  apply padded_of_le
  by_contra h
  have hsmall := (@length_decimal_le_iff (time.year / 100) 1 Nat.one_pos).1 (by omega)
  have : 1900 ≤ time.year := Nat.le_add_left _ _
  omega

theorem year_mod (time : Tm) : time.year % 100 = time.tm_year % 100 := by
  rw [Tm.year]
  omega

theorem toLower_meridiem (hour : Nat) : toLower (meridiem hour) = if hour < 12 then octets "am" else octets "pm" := by
  unfold meridiem
  split_ifs <;> decide

theorem expand_clock (f : UInt8 → Octets) : expand 0x25 f (octets "%I:%M:%S %p") =
    f 0x49 ++ octets ":" ++ f 0x4D ++ octets ":" ++ f 0x53 ++ octets " " ++ f 0x70 := by
  simp [octets, expand]

theorem expand_time (f : UInt8 → Octets) : expand 0x25 f (octets "%H:%M") = f 0x48 ++ octets ":" ++ f 0x4D := by
  simp [octets, expand]

theorem expand_fullTime (f : UInt8 → Octets) :
    expand 0x25 f (octets "%H:%M:%S") = f 0x48 ++ octets ":" ++ f 0x4D ++ octets ":" ++ f 0x53 := by
  simp [octets, expand]

theorem documentedField_hour : documentedField entry str seconds currentTime 0x48 =
    padded 2 0x30 (decimal currentTime.tm_hour) := rfl

theorem documentedField_min : documentedField entry str seconds currentTime 0x4D =
    padded 2 0x30 (decimal currentTime.tm_min) := rfl

theorem documentedField_sec : documentedField entry str seconds currentTime 0x53 =
    padded 2 0x30 (decimal currentTime.tm_sec) := rfl

theorem documentedField_meridiem :
    documentedField entry str seconds currentTime 0x70 = meridiem currentTime.tm_hour := rfl

theorem documentedField_hour12 : documentedField entry str seconds currentTime 0x49 =
    padded 2 0x30 (decimal (hour12 currentTime.tm_hour)) := rfl

/-- Most specifiers write what they should. -/
theorem text_documented (h : Char.ofUInt8 specifier ∉ ['!', '#', '@', 'I', 'j', 'l', 'r']) :
    text beyond str mask seconds currentTime specifier = documented entry str seconds currentTime specifier := by
  unfold text convert documented
  generalize hc : Char.ofUInt8 specifier = c at h ⊢
  split
  case h_6 => -- %C
    show _ = documentedField entry str seconds currentTime specifier
    rw [documentedField, hc]
    exact (padded_century currentTime).symm
  case h_18 => -- %P
    show _ = documentedField entry str seconds currentTime specifier
    rw [documentedField, hc]
    exact (toLower_meridiem _).symm
  case h_20 => -- %R
    show _ = expand 0x25 (documentedField entry str seconds currentTime) (octets "%H:%M")
    rw [expand_time, documentedField_hour, documentedField_min]
    simp [put, putw, setfill]
  case h_24 => -- %T
    show _ = expand 0x25 (documentedField entry str seconds currentTime) (octets "%H:%M:%S")
    rw [expand_fullTime, documentedField_hour, documentedField_min, documentedField_sec]
    simp [put, putw, setfill]
  case h_27 => -- %y
    show _ = documentedField entry str seconds currentTime specifier
    rw [documentedField, hc, year_mod]
    simp [put, putw, setfill]
  all_goals first
    | exact absurd h (by decide)
    | simp [documentedField, hc, put, putw, setfill, meridiem, Tm.year]

theorem length_clockHour (fill : UInt8) (time : Tm) : (padded 2 fill (decimal (clockHour time.tm_hour))).length =
    (padded 2 fill (decimal (hour12 time.tm_hour))).length := by
  have hlt := time.hour_lt
  have hclock : clockHour time.tm_hour < 10 ^ 2 := by
    unfold clockHour
    split_ifs <;> omega
  have hhour12 : hour12 time.tm_hour < 10 ^ 2 := by
    unfold hour12
    split_ifs <;> omega
  rw [length_padded fill (by decide) hclock, length_padded fill (by decide) hhour12]

theorem length_yday (time : Tm) :
    (padded 3 0x30 (decimal time.tm_yday)).length = (padded 3 0x30 (decimal (time.tm_yday + 1))).length := by
  have hlt := time.yday_lt
  rw [length_padded _ (by decide) (show time.tm_yday < 10 ^ 3 by omega),
    length_padded _ (by decide) (show time.tm_yday + 1 < 10 ^ 3 by omega)]

/-- A specifier that is not of the entry writes something as long as what it
should, and differs from it in the day of the year or in the hour. -/
theorem text_split (h : ¬ IsMask specifier) : ∃ written right rest,
    text beyond str mask seconds currentTime specifier = written ++ rest ∧
    documented entry str seconds currentTime specifier = right ++ rest ∧
    written.length = right.length ∧ (written = right ↔ RightAt currentTime.tm_hour specifier) := by
  have hhour := currentTime.hour_lt
  by_cases hmost : Char.ofUInt8 specifier ∈ ['I', 'j', 'l', 'r']
  · simp only [List.mem_cons, List.not_mem_nil, or_false] at hmost
    rcases hmost with hc | hc | hc | hc
    · refine ⟨_, _, [], ?_, ?_, length_clockHour 0x30 currentTime, ?_⟩
      · simp [text, convert, hc, put, putw, setfill]
      · simp [documented, documentedField, hc]
      · rw [padded_inj (by decide), clockHour_iff hhour]
        simp [RightAt, hc]
    · refine ⟨_, _, [], ?_, ?_, length_yday currentTime, ?_⟩
      · simp [text, convert, hc, put, putw, setfill]
      · simp [documented, documentedField, hc]
      · rw [padded_inj (by decide)]
        exact iff_of_false (Nat.ne_of_lt (Nat.lt_succ_self _)) fun hright => hright.1 hc
    · refine ⟨_, _, [], ?_, ?_, length_clockHour 0x20 currentTime, ?_⟩
      · simp [text, convert, hc, put, putw, setfill]
      · simp [documented, documentedField, hc]
      · rw [padded_inj (by decide), clockHour_iff hhour]
        simp [RightAt, hc]
    · refine ⟨_, _, octets ":" ++ padded 2 0x30 (decimal currentTime.tm_min) ++ octets ":" ++
        padded 2 0x30 (decimal currentTime.tm_sec) ++ octets " " ++ meridiem currentTime.tm_hour, ?_, ?_,
        length_clockHour 0x30 currentTime, ?_⟩
      · simp [text, convert, hc, put, putw, setfill, meridiem]
      · simp [documented, hc, expand_clock, documentedField_hour12, documentedField_min, documentedField_sec,
          documentedField_meridiem]
      · rw [padded_inj (by decide), clockHour_iff hhour]
        simp [RightAt, hc]
  · have hword : Char.ofUInt8 specifier ∉ ['!', '#', '@', 'I', 'j', 'l', 'r'] := by
      unfold IsMask at h
      simp_all
    refine ⟨[], [], _, rfl, (text_documented hword).symm, rfl, iff_of_true rfl ⟨?_, ?_⟩⟩
    · intro hc
      exact hmost (by rw [hc]; decide)
    · intro hc
      exact absurd hc (by simp_all)

theorem length_text (h : ¬ IsMask specifier) : (text beyond str mask seconds currentTime specifier).length =
    (documented entry str seconds currentTime specifier).length := by
  obtain ⟨written, right, rest, htext, hdocumented, hlength, -⟩ :=
    @text_split beyond entry str mask seconds currentTime specifier h
  rw [htext, hdocumented, List.length_append, List.length_append, hlength]

theorem text_iff (h : ¬ IsMask specifier) :
    text beyond str mask seconds currentTime specifier = documented entry str seconds currentTime specifier ↔
      RightAt currentTime.tm_hour specifier := by
  obtain ⟨written, right, rest, htext, hdocumented, -, hiff⟩ :=
    @text_split beyond entry str mask seconds currentTime specifier h
  rw [htext, hdocumented, List.append_left_inj, hiff]

/-! ### The entry of the mask -/

/-- What a specifier of the entry reads of it. -/
def field (entry : MaskMapper) (specifier : UInt8) : Octets :=
  match Char.ofUInt8 specifier with
  | '!' => [entry.character]
  | '#' => entry.name
  | _ => entry.nameUpper

theorem eq_of_isMask (h : IsMask specifier) :
    Char.ofUInt8 specifier = '!' ∨ Char.ofUInt8 specifier = '#' ∨ Char.ofUInt8 specifier = '@' := by
  simpa [IsMask] using h

theorem text_mask (h : IsMask specifier) :
    text beyond str mask seconds currentTime specifier = field (mapper beyond mask) specifier := by
  rcases eq_of_isMask h with hc | hc | hc <;> simp [text, convert, field, hc, put]

theorem documented_mask (hentry : entry ∈ maskTable) (h : IsMask specifier) :
    documented entry str seconds currentTime specifier = field entry specifier := by
  rcases eq_of_isMask h with hc | hc | hc <;> simp [documented, documentedField, field, hc, nameUpper_eq entry hentry]

/-- No two categories share a mask. -/
theorem mask_inj : ∀ entry ∈ maskTable, ∀ other ∈ maskTable, other.mask = entry.mask → other = entry := by
  decide +kernel

theorem mapper_entry (hentry : entry ∈ maskTable) (hbeyond : beyond.mask ≠ entry.mask) :
    mapper beyond entry.mask = entry := by
  obtain ⟨hmem, hmask⟩ := @getMaskMapper_found maskTable beyond (.mask entry.mask) (decide_eq_false hbeyond)
    ⟨entry, hentry, decide_eq_true rfl⟩
  exact mask_inj entry hentry _ hmem (of_decide_eq_true hmask)

/-- Another entry with the same mask, different in everything else. -/
def scrambled (entry : MaskMapper) : MaskMapper :=
  ⟨entry.mask, entry.character + 1, entry.name.map (· + 1), entry.nameUpper.map (· + 1)⟩

theorem mapper_scrambled (entry : MaskMapper) : mapper (scrambled entry) entry.mask = scrambled entry :=
  getMaskMapper_beyond (decide_eq_true rfl) (List.cons_ne_nil _ _)

theorem length_field_scrambled (entry : MaskMapper) (specifier : UInt8) :
    (field (scrambled entry) specifier).length = (field entry specifier).length := by
  unfold field scrambled
  split <;> simp

theorem field_ne_nil : ∀ entry ∈ maskTable, entry.name ≠ [] ∧ entry.nameUpper ≠ [] := by decide +kernel

theorem map_succ_ne {text : Octets} (h : text ≠ []) : text.map (· + 1) ≠ text := by
  obtain ⟨c, text, rfl⟩ := List.exists_cons_of_ne_nil h
  intro heq
  have hc : c + 1 = c := (List.cons.inj heq).1
  grind

theorem field_scrambled_ne (hentry : entry ∈ maskTable) (specifier : UInt8) :
    field (scrambled entry) specifier ≠ field entry specifier := by
  obtain ⟨hname, hupper⟩ := field_ne_nil entry hentry
  unfold field scrambled
  split
  · exact map_succ_ne (List.cons_ne_nil entry.character [])
  · exact map_succ_ne hname
  · exact map_succ_ne hupper

end

/-! ## Lines -/

/-- What a line adds to the file is the format with its specifiers replaced. -/
def Follows (beyond : MaskMapper) (clock : Clock) (str : Octets) (entry : MaskMapper) (this : FileLog) : Prop :=
  (logLine beyond clock str entry.mask this).logFile.written =
    this.logFile.written ++ expand 0x25 (documented entry str clock.seconds (this.currentTime clock)) this.format

variable {clock : Clock} {str : Octets} {entry beyond : MaskMapper} {this : FileLog}

theorem follows_iff_expand (hok : this.ok = true) : Follows beyond clock str entry this ↔
    expand 0x25 (text beyond str entry.mask clock.seconds (this.currentTime clock)) this.format =
      expand 0x25 (documented entry str clock.seconds (this.currentTime clock)) this.format := by
  rw [Follows, logLine, if_pos hok, written_process, List.append_right_inj]

/-- Specifier by specifier, when those of the entry write as much as they should. -/
theorem follows_iff (hok : this.ok = true) (hlength : ∀ c, IsMask c →
      (text beyond str entry.mask clock.seconds (this.currentTime clock) c).length =
        (documented entry str clock.seconds (this.currentTime clock) c).length) :
    Follows beyond clock str entry this ↔ ∀ c ∈ specifiers 0x25 this.format,
      text beyond str entry.mask clock.seconds (this.currentTime clock) c =
        documented entry str clock.seconds (this.currentTime clock) c := by
  rw [follows_iff_expand hok, expand_inj]
  intro c
  by_cases hc : IsMask c
  · exact hlength c hc
  · exact length_text hc

theorem rightAt_of_isMask {hour : Nat} {c : UInt8} (h : IsMask c) : RightAt hour c := by
  constructor
  · intro hc
    rw [IsMask, hc] at h
    exact absurd h (by decide)
  · intro hc
    rcases eq_of_isMask h with h | h | h <;> rw [h] at hc <;> exact absurd hc (by decide)

/-- With another mask behind the table, the specifiers of the entry are right. -/
theorem follows_of_beyond (hok : this.ok = true) (hentry : entry ∈ maskTable) (hbeyond : beyond.mask ≠ entry.mask) :
    Follows beyond clock str entry this ↔
      ∀ c ∈ specifiers 0x25 this.format, RightAt (this.currentTime clock).tm_hour c := by
  have hmask : ∀ c, IsMask c → text beyond str entry.mask clock.seconds (this.currentTime clock) c =
      documented entry str clock.seconds (this.currentTime clock) c := by
    intro c hc
    rw [text_mask hc, mapper_entry hentry hbeyond, documented_mask hentry hc]
  rw [follows_iff hok fun c hc => congrArg List.length (hmask c hc)]
  refine forall₂_congr fun c _ => ?_
  by_cases hc : IsMask c
  · exact iff_of_true (hmask c hc) (rightAt_of_isMask hc)
  · exact text_iff hc

/-- Whatever lies behind the table, a line follows the format when this has no day
of the year, nothing of the entry, and no 12-hour clock before 13 o'clock. -/
theorem logLine_follows_iff (clock : Clock) (str : Octets) (this : FileLog) (hok : this.ok = true) (entry : MaskMapper)
    (hentry : entry ∈ maskTable) :
    ((∀ beyond, Follows beyond clock str entry this) ↔ ∀ c ∈ specifiers 0x25 this.format,
      ¬ IsMask c ∧ RightAt (this.currentTime clock).tm_hour c) ∧
    ∀ beyond : MaskMapper, beyond.mask ≠ entry.mask → (Follows beyond clock str entry this ↔
      ∀ c ∈ specifiers 0x25 this.format, RightAt (this.currentTime clock).tm_hour c) := by
  refine ⟨?_, fun beyond => follows_of_beyond hok hentry⟩
  constructor
  · intro h c hc
    have hscrambled : ∀ c, IsMask c →
        (text (scrambled entry) str entry.mask clock.seconds (this.currentTime clock) c).length =
          (documented entry str clock.seconds (this.currentTime clock) c).length := by
      intro c hc
      rw [text_mask hc, mapper_scrambled, documented_mask hentry hc, length_field_scrambled]
    have heq := (follows_iff hok hscrambled).1 (h (scrambled entry)) c hc
    have hmask : ¬ IsMask c := by
      intro hmask
      rw [text_mask hmask, mapper_scrambled, documented_mask hentry hmask] at heq
      exact field_scrambled_ne hentry c heq
    exact ⟨hmask, (text_iff hmask).1 heq⟩
  · intro h beyond
    rw [follows_iff_expand hok]
    apply expand_congr
    intro c hc
    obtain ⟨hmask, hright⟩ := h c hc
    exact (text_iff hmask).2 hright

/-- Noon on the first day of a year. -/
def noon : Tm := ⟨0, 0, 12, 1, 0, 104, 4, 0, by decide, by decide, by decide, by decide, by decide, by decide, by decide,
  by decide⟩

/-- A log with a format, and nothing in its file. -/
def sampleLog (format : String) : FileLog := ⟨octets format, true, true, ⟨[], 0x20⟩⟩

def sampleClock : Clock := ⟨1072958400, fun _ => noon, fun _ => noon⟩

theorem logLine_follows_time : (sampleLog "%H:%M %$%n").ok = true ∧ maskTable[18] ∈ maskTable ∧
    ((∀ beyond, Follows beyond sampleClock (octets "hello") maskTable[18] (sampleLog "%H:%M %$%n")) ↔
      ∀ c ∈ specifiers 0x25 (sampleLog "%H:%M %$%n").format,
        ¬ IsMask c ∧ RightAt ((sampleLog "%H:%M %$%n").currentTime sampleClock).tm_hour c) :=
  ⟨rfl, List.getElem_mem _,
    (logLine_follows_iff sampleClock (octets "hello") (sampleLog "%H:%M %$%n") rfl maskTable[18] (List.getElem_mem _)).1⟩

/-- Noon is 0 o'clock, and the first day of the year is day 0. -/
theorem not_follows_noon :
    (logLine ⟨0, 0, [], []⟩ sampleClock [] maskTable[18].mask (sampleLog "%I %j")).logFile.written = octets "00 000" ∧
      ¬ Follows ⟨0, 0, [], []⟩ sampleClock [] maskTable[18] (sampleLog "%I %j") := by
  refine ⟨by decide +kernel, ?_⟩
  unfold Follows
  decide +kernel

end FileLog

end KineIRCd

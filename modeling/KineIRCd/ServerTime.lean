import KineIRCd.FileLog
import KineIRCd.Messages
import KineIRCd.ReplySizes
import KineIRCd.UserAccesses
/-!
# The server's time

TIME answers with the time as numbers and as people read it, and both times with
the server's zone: a sign, hours and minutes east of Greenwich. The C library
counts its zones to the west, and the zone of a server west of Greenwich comes out
with a sign too many.
-/
namespace KineIRCd

namespace LibIRC2.Numerics

def RPL_TIME : Nat := 391
def RPL_TIMEONSERVERIS : Nat := 679

end LibIRC2.Numerics

namespace Irc2User

open Accesses FileLog LibIRC2 LibIRC2.Numerics LongReplies OFStream

/-- What TIME takes from the C library and the language files: `localtime()`,
`timezone`, the fraction of the second of `daemon().getTime()`, and the text of
RPL_TIMEONSERVERIS. -/
structure ServerTime where
  localtime : Nat → Tm
  timezone : Int
  nanoseconds : Nat
  text : LanguageList → WString

/-- The decimal digits of a `long`. -/
def signedDecimal (n : Int) : Octets := octets (toString n)

/-- The sign of the zone. -/
def zoneSign (timezone : Int) : UInt8 := if timezone > 0 then 0x2D else 0x2B

/-- Two digits, filled up with zeros. -/
def zoneHours (timezone : Int) : Octets := padded 2 0x30 (signedDecimal ((-timezone).tdiv 3600))

def zoneMinutes (timezone : Int) : Octets := padded 2 0x30 (signedDecimal (((-timezone).tmod 3600).tdiv 60))

/-- In New York. -/
example : zoneSign 18000 :: zoneHours 18000 = octets "--5" := by decide

def months : List Octets :=
  [octets "January", octets "February", octets "March", octets "April", octets "May", octets "June", octets "July",
    octets "August", octets "September", octets "October", octets "November", octets "December"]

def days : List Octets :=
  [octets "Sunday", octets "Monday", octets "Tuesday", octets "Wednesday", octets "Thursday", octets "Friday",
    octets "Saturday"]

variable (site : Site) (time : ServerTime) (self : Self) (w : World)

/-- The data of `sendTimeOnServer`. -/
def timeData : Octets :=
  decimal w.time ++ SPACE :: decimal time.nanoseconds ++
    SPACE :: zoneSign time.timezone :: zoneHours time.timezone ++ zoneMinutes time.timezone ++
    SPACE :: replacementParameter

def sendTimeOnServer : Octets :=
  numericLine site self RPL_TIMEONSERVERIS [timeData time w, site.delocaliseStr (time.text self.user.languageList)]

/-- The text of `doTIME`. -/
def timeText (timezone : Int) (currentTime : Tm) : Octets :=
  days.getD currentTime.tm_wday [] ++ SPACE :: months.getD currentTime.tm_mon [] ++
    SPACE :: decimal currentTime.tm_mday ++ SPACE :: decimal currentTime.year ++ octets " -- " ++
    padded 2 0x30 (decimal currentTime.tm_hour) ++ COLON :: padded 2 0x30 (decimal currentTime.tm_min) ++
    SPACE :: zoneSign timezone :: zoneHours timezone ++ COLON :: zoneMinutes timezone

def doTIME : List Octets :=
  [sendTimeOnServer site time self w,
    numericLine site self RPL_TIME [site.delocaliseStr site.serverName, timeText time.timezone (time.localtime w.time)]]

/-! ## Reading it -/

namespace ServerTime

/-- Two digits. -/
def readField (field : Octets) : Option Nat :=
  if field.length = 2 ∧ field.all (fun c => 48 ≤ c ∧ c ≤ 57) = true then some (number field) else none

/-- The minutes east of Greenwich. -/
def readZone (sign : UInt8) (hours minutes : Octets) : Option Int :=
  match readField hours, readField minutes with
  | some h, some m =>
    if sign = 0x2B then some (h * 60 + m) else if sign = 0x2D then some (-(h * 60 + m)) else none
  | _, _ => none

/-- A zone whose hours and minutes stand together in four digits. -/
def readJoined (sign : UInt8) (zone : Octets) : Option Int :=
  if zone.length = 4 then readZone sign (zone.take 2) (zone.drop 2) else none

/-- A time as a client understands it. -/
structure Understood where
  seconds : Nat
  nanoseconds : Nat
  east : Int
  deriving DecidableEq

/-- RPL_TIMEONSERVERIS. -/
def readTimeOnServer (line : Octets) : Option Understood :=
  match parseLine line with
  | some ⟨_, _, [_, seconds, nanoseconds, sign :: zone, _, _]⟩ =>
    (readJoined sign zone).map fun east => ⟨number seconds, number nanoseconds, east⟩
  | _ => none

/-- The date and the time of day, and the minutes east of Greenwich. -/
structure Date where
  wday : Nat
  mon : Nat
  mday : Nat
  year : Nat
  hour : Nat
  min : Nat
  east : Int
  deriving DecidableEq

/-- The text of RPL_TIME. -/
def readTimeText (text : Octets) : Option Date :=
  match text.splitOn SPACE with
  | [day, month, mday, year, _, clock, sign :: zone] =>
    match clock.splitOn COLON, zone.splitOn COLON with
    | [hour, minute], [hours, minutes] =>
      match readField hour, readField minute, readZone sign hours minutes with
      | some hour, some min, some east =>
        some ⟨days.idxOf day, months.idxOf month, number mday, number year, hour, min, east⟩
      | _, _, _ => none
    | _, _ => none
  | _ => none

def readTime (line : Octets) : Option Date :=
  match parseLine line with
  | some ⟨_, _, [_, _, text]⟩ => readTimeText text
  | _ => none

/-! ## Two digits -/

theorem signedDecimal_ofNat (n : Nat) : signedDecimal n = decimal n := rfl

theorem signedDecimal_neg {n : Int} (h : n < 0) : signedDecimal n = 0x2D :: decimal n.natAbs := by
  obtain ⟨m, rfl⟩ := Int.eq_negSucc_of_lt_zero h
  have hrepr : toString (Int.negSucc m) = "-" ++ toString (m + 1) := rfl
  rw [signedDecimal, hrepr, octets, String.toList_append, List.map_append]
  rfl

theorem readField_iff {field : Octets} {n : Nat} :
    readField field = some n ↔ (field.length = 2 ∧ ∀ c ∈ field, 48 ≤ c ∧ c ≤ 57) ∧ number field = n := by
  rw [readField]
  simp only [List.all_eq_true, decide_eq_true_eq]
  split_ifs with h
  · rw [Option.some_inj, and_iff_right h]
  · exact iff_of_false nofun fun hread => h hread.1

theorem mem_padded {width : Nat} {text : Octets} (h : ∀ c ∈ text, 48 ≤ c ∧ c ≤ 57) :
    ∀ c ∈ padded width 0x30 text, 48 ≤ c ∧ c ≤ 57 := by
  intro c hc
  rcases List.mem_append.1 hc with hc | hc
  · rw [List.eq_of_mem_replicate hc]
    decide
  · exact h c hc

/-- A number comes back when it has no sign and at most two digits. -/
theorem readField_padded {n : Int} {m : Nat} :
    readField (padded 2 0x30 (signedDecimal n)) = some m ↔ n = m ∧ m < 100 := by
  rw [readField_iff]
  rcases Int.lt_or_le n 0 with hn | hn
  · refine iff_of_false (fun h => ?_) fun h => ?_
    · have hsign : (0x2D : UInt8) ∈ padded 2 0x30 (signedDecimal n) := by
        rw [signedDecimal_neg hn]
        exact List.mem_append_right _ List.mem_cons_self
      exact absurd (h.1.2 _ hsign).1 (by decide)
    · omega
  · obtain ⟨k, rfl⟩ := Int.eq_ofNat_of_zero_le hn
    rw [signedDecimal_ofNat, number_padded (by decide), number_decimal, Int.natCast_inj]
    constructor
    · rintro ⟨⟨hlength, -⟩, rfl⟩
      refine ⟨rfl, (length_decimal_le_iff (by decide : 0 < 2)).1 ?_⟩
      have hle : (decimal k).length ≤ (padded 2 0x30 (decimal k)).length := by simp [padded]
      omega
    · rintro ⟨rfl, hm⟩
      exact ⟨⟨length_padded 0x30 (by decide) hm, mem_padded fun c => mem_decimal⟩, rfl⟩

theorem length_padded_signed (n : Int) : 2 ≤ (padded 2 0x30 (signedDecimal n)).length := by
  simp only [padded, List.length_append, List.length_replicate]
  omega

/-! ## The zone -/

theorem readZone_isSome {sign : UInt8} {hours minutes : Octets} {zone : Int}
    (h : readZone sign hours minutes = some zone) : hours.length = 2 ∧ minutes.length = 2 := by
  rw [readZone] at h
  split at h
  · next hh hm => exact ⟨(readField_iff.1 hh).1.1, (readField_iff.1 hm).1.1⟩
  · cases h

/-- Hours and minutes of two digits or more stay apart without a colon. -/
theorem readJoined_append {sign : UInt8} {hours minutes : Octets} (hhours : 2 ≤ hours.length)
    (hminutes : 2 ≤ minutes.length) : readJoined sign (hours ++ minutes) = readZone sign hours minutes := by
  rw [readJoined, List.length_append]
  split_ifs with h
  · rw [List.take_left' (by omega), List.drop_left' (by omega)]
  · refine (Option.eq_none_iff_forall_ne_some.2 fun zone hzone => ?_).symm
    obtain ⟨hh, hm⟩ := readZone_isSome hzone
    omega

theorem readZone_eq_some {sign : UInt8} {hours minutes : Octets} {zone : Int} :
    readZone sign hours minutes = some zone ↔ ∃ h m, readField hours = some h ∧ readField minutes = some m ∧
      (sign = 0x2B ∧ zone = h * 60 + m ∨ sign = 0x2D ∧ zone = -(h * 60 + m)) := by
  rw [readZone]
  cases readField hours <;> cases readField minutes <;> simp only [reduceCtorEq, false_and, exists_false,
    and_false, Option.some_inj]
  split_ifs with hplus hminus
  · simp [hplus, eq_comm]
  · simp [hminus, eq_comm]
  · simp [hplus, hminus]

theorem tdiv_neg_of_pos {n d : Int} (h : 0 ≤ n) : (-n).tdiv d = -(n / d) := by
  rw [Int.neg_tdiv, Int.tdiv_eq_ediv_of_nonneg h]

theorem tmod_neg_of_pos {n d : Int} (h : 0 ≤ n) : (-n).tmod d = -(n % d) := by
  rw [Int.neg_tmod, Int.tmod_eq_emod_of_nonneg h]

/-- The zones that the two replies can tell. -/
def Told (timezone : Int) : Prop := -360000 < timezone ∧ timezone < 60

instance (timezone : Int) : Decidable (Told timezone) := inferInstanceAs (Decidable (_ ∧ _))

/-- A zone that can be read has no second sign and no third digit, and is the one it says. -/
theorem readZone_eq_some_iff {timezone zone : Int} :
    readZone (zoneSign timezone) (zoneHours timezone) (zoneMinutes timezone) = some zone ↔
      Told timezone ∧ zone = (-timezone).tdiv 60 := by
  simp only [readZone_eq_some, zoneHours, zoneMinutes, readField_padded, Told]
  rcases Int.lt_or_le 0 timezone with hwest | heast
  · have hsign : zoneSign timezone = 0x2D := if_pos hwest
    rw [tdiv_neg_of_pos hwest.le, tdiv_neg_of_pos hwest.le, tmod_neg_of_pos hwest.le,
      tdiv_neg_of_pos (Int.emod_nonneg _ (by decide)), hsign]
    constructor
    · rintro ⟨h, m, ⟨hh, -⟩, ⟨hm, -⟩, ⟨hplus, -⟩ | ⟨-, hzone⟩⟩
      · exact absurd hplus (by decide)
      · omega
    · rintro ⟨h, rfl⟩
      exact ⟨0, 0, ⟨by omega, by decide⟩, ⟨by omega, by decide⟩, .inr ⟨rfl, by omega⟩⟩
  · have hsign : zoneSign timezone = 0x2B := if_neg (not_lt.2 heast)
    have hnonneg : 0 ≤ -timezone := by omega
    rw [Int.tdiv_eq_ediv_of_nonneg hnonneg, Int.tdiv_eq_ediv_of_nonneg hnonneg, Int.tmod_eq_emod_of_nonneg hnonneg,
      Int.tdiv_eq_ediv_of_nonneg (Int.emod_nonneg _ (by decide)), hsign]
    constructor
    · rintro ⟨h, m, ⟨hh, hlt⟩, ⟨hm, -⟩, ⟨-, hzone⟩ | ⟨hminus, -⟩⟩
      · omega
      · exact absurd hminus (by decide)
    · rintro ⟨h, rfl⟩
      refine ⟨(-timezone / 3600).toNat, (-timezone % 3600 / 60).toNat, ⟨?_, ?_⟩, ⟨?_, ?_⟩, .inl ⟨rfl, ?_⟩⟩ <;> omega

theorem readZone_zone (timezone : Int) : readZone (zoneSign timezone) (zoneHours timezone) (zoneMinutes timezone) =
    if Told timezone then some ((-timezone).tdiv 60) else none := by
  split_ifs with h
  · exact readZone_eq_some_iff.2 ⟨h, rfl⟩
  · exact Option.eq_none_iff_forall_ne_some.2 fun zone hzone => h (readZone_eq_some_iff.1 hzone).1

/-! ## The replies -/

section

variable {site : Site} {self : Self}

theorem mem_signedDecimal {n : Int} {c : UInt8} (h : c ∈ signedDecimal n) : c = 0x2D ∨ 48 ≤ c ∧ c ≤ 57 := by
  rcases Int.lt_or_le n 0 with hn | hn
  · rw [signedDecimal_neg hn] at h
    exact (List.mem_cons.1 h).imp_right mem_decimal
  · obtain ⟨k, rfl⟩ := Int.eq_ofNat_of_zero_le hn
    exact .inr (mem_decimal h)

theorem notMem_signedDecimal {c : UInt8} (hsign : c ≠ 0x2D) (hdigit : c < 48 ∨ 57 < c) (n : Int) :
    c ∉ signedDecimal n := by
  intro h
  obtain ⟨hlow, hhigh⟩ := (mem_signedDecimal h).resolve_left hsign
  rcases hdigit with hdigit | hdigit
  · exact absurd hlow (UInt8.not_le.2 hdigit)
  · exact absurd hhigh (UInt8.not_le.2 hdigit)

theorem notMem_padded {c : UInt8} (hfill : c ≠ 0x30) {text : Octets} (h : c ∉ text) : c ∉ padded 2 0x30 text :=
  List.not_mem_append (fun hmem => hfill (List.eq_of_mem_replicate hmem)) h

/-- The spaces and the colons of a time are around its numbers. -/
theorem delimiter_notMem {c : UInt8} (h : c = SPACE ∨ c = COLON) (n : Nat) (timezone : Int) :
    c ∉ decimal n ∧ c ∉ padded 2 0x30 (decimal n) ∧ c ∉ zoneHours timezone ∧ c ∉ zoneMinutes timezone := by
  have hfill : c ≠ 0x30 := by rcases h with rfl | rfl <;> decide
  have hsign : c ≠ 0x2D := by rcases h with rfl | rfl <;> decide
  have hdigit : c < 48 ∨ 57 < c := by rcases h with rfl | rfl <;> decide
  exact ⟨notMem_decimal hdigit, notMem_padded hfill (notMem_decimal hdigit),
    notMem_padded hfill (notMem_signedDecimal hsign hdigit _),
    notMem_padded hfill (notMem_signedDecimal hsign hdigit _)⟩

theorem delimiter_ne_zoneSign {c : UInt8} (h : c = SPACE ∨ c = COLON) (timezone : Int) : c ≠ zoneSign timezone := by
  rw [zoneSign]
  rcases h with rfl | rfl <;> split_ifs <;> decide

theorem middle_decimal (n : Nat) : Middle (decimal n) where
  nonempty := by simp [decimal, octets]
  space := notMem_decimal (.inl (by decide))
  colon h := absurd (List.mem_of_mem_head? h) (notMem_decimal (.inr (by decide)))

theorem readTimeOnServer_sendTimeOnServer (time : ServerTime) (w : World)
    (hserver : SPACE ∉ site.delocaliseStr site.serverName)
    (hnickname : Middle (site.delocaliseStr self.user.nickname)) :
    readTimeOnServer (sendTimeOnServer site time self w) =
      (readZone (zoneSign time.timezone) (zoneHours time.timezone) (zoneMinutes time.timezone)).map fun east =>
        ⟨w.time, time.nanoseconds, east⟩ := by
  let line := [decimal w.time, decimal time.nanoseconds,
    zoneSign time.timezone :: (zoneHours time.timezone ++ zoneMinutes time.timezone), replacementParameter]
  have hspace := delimiter_notMem (.inl rfl) 0 time.timezone
  have hzone : Middle (zoneSign time.timezone :: (zoneHours time.timezone ++ zoneMinutes time.timezone)) :=
    ⟨by simp, List.not_mem_cons_of_ne_of_not_mem (delimiter_ne_zoneSign (.inl rfl) _)
      (List.not_mem_append hspace.2.2.1 hspace.2.2.2), fun h =>
      delimiter_ne_zoneSign (.inr rfl) time.timezone (Option.some_inj.1 h).symm⟩
  have hmiddle : ∀ p ∈ line, Middle p := by
    simpa [line, middle_decimal, hzone] using (⟨by decide, by decide, by decide⟩ : Middle replacementParameter)
  have hdata : timeData time w = joinDelimited SPACE line := by
    rw [joinDelimited_eq _ fun h => (hmiddle _ h).nonempty rfl]
    simp [timeData, line, List.intercalate]
  have hparse := parseLine_formatNumeric RPL_TIMEONSERVERIS (site.delocaliseStr (time.text self.user.languageList))
    hserver hnickname hmiddle
  rw [formatNumeric, ← formatParameters_joined (fun p hp => (hmiddle p hp).nonempty) (by simp [line]), ← hdata]
    at hparse
  rw [readTimeOnServer, sendTimeOnServer, numericLine, formatNumeric, hparse]
  simp only [line, List.cons_append, List.nil_append, number_decimal]
  rw [zoneHours, zoneMinutes, readJoined_append (length_padded_signed _) (length_padded_signed _)]

/-! ## The text -/

theorem received_append {front rest : Octets} (hne : rest ≠ []) (hspace : SPACE ∉ rest) :
    received (front ++ rest) = front ++ rest := by
  rw [received_eq_self_iff]
  rintro ⟨t, htext, -⟩
  obtain ⟨init, c, rfl⟩ := (List.eq_nil_or_concat' rest).resolve_left hne
  rw [← List.append_assoc] at htext
  obtain rfl := List.singleton_inj.1 (List.append_inj' htext rfl).2
  exact hspace (List.mem_append_right _ List.mem_cons_self)

theorem splitOn_pair {d : UInt8} {first second : Octets} (hfirst : d ∉ first) (hsecond : d ∉ second) :
    (first ++ d :: second).splitOn d = [first, second] := by
  rw [List.splitOn_append_cons_self_of_not_mem hfirst, List.splitOn_eq_singleton hsecond]

theorem space_notMem_name {names : List Octets} (hnames : names.all (fun name => SPACE ∉ name) = true) {i : Nat}
    (h : i < names.length) : SPACE ∉ names.getD i [] := by
  rw [List.getD_eq_getElem _ _ h]
  exact of_decide_eq_true (List.all_eq_true.1 hnames _ (List.getElem_mem h))

theorem idxOf_getD {names : List Octets} (hnames : names.Nodup) {i : Nat} (h : i < names.length) :
    names.idxOf (names.getD i []) = i := by
  rw [List.getD_eq_getElem _ _ h]
  exact hnames.idxOf_getElem i h

theorem readTimeText_timeText (timezone : Int) (currentTime : Tm) : readTimeText (timeText timezone currentTime) =
    (readZone (zoneSign timezone) (zoneHours timezone) (zoneMinutes timezone)).map fun east =>
      ⟨currentTime.tm_wday, currentTime.tm_mon, currentTime.tm_mday, currentTime.year, currentTime.tm_hour,
        currentTime.tm_min, east⟩ := by
  let hour := padded 2 0x30 (decimal currentTime.tm_hour)
  let minute := padded 2 0x30 (decimal currentTime.tm_min)
  let words := [days.getD currentTime.tm_wday [], months.getD currentTime.tm_mon [],
    decimal currentTime.tm_mday, decimal currentTime.year, octets "--", hour ++ COLON :: minute,
    zoneSign timezone :: (zoneHours timezone ++ COLON :: zoneMinutes timezone)]
  have hspace := delimiter_notMem (.inl rfl)
  have hcolon := delimiter_notMem (.inr rfl)
  have hwday : currentTime.tm_wday < days.length := currentTime.wday_lt
  have hmon : currentTime.tm_mon < months.length := currentTime.mon_lt
  have hwords : ∀ word ∈ words, SPACE ∉ word := by
    simp only [words, List.forall_mem_cons]
    refine ⟨space_notMem_name (by decide) hwday, space_notMem_name (by decide) hmon, (hspace _ 0).1, (hspace _ 0).1,
      by decide, ?_, ?_, fun word hword => absurd hword List.not_mem_nil⟩
    · exact List.not_mem_append (hspace _ 0).2.1 (List.not_mem_cons_of_ne_of_not_mem (by decide) (hspace _ 0).2.1)
    · exact List.not_mem_cons_of_ne_of_not_mem (delimiter_ne_zoneSign (.inl rfl) _) (List.not_mem_append
        (hspace 0 _).2.2.1 (List.not_mem_cons_of_ne_of_not_mem (by decide) (hspace 0 _).2.2.2))
  have htext : timeText timezone currentTime = [SPACE].intercalate words := by
    have hdashes : octets " -- " = SPACE :: octets "--" ++ [SPACE] := by decide
    simp [timeText, words, List.intercalate, hour, minute, hdashes]
  have hread : ∀ {n : Nat}, n < 100 → readField (padded 2 0x30 (decimal n)) = some n := fun {n} hn => by
    rw [← signedDecimal_ofNat]
    exact readField_padded.2 ⟨rfl, hn⟩
  have hlt : currentTime.tm_hour < 100 ∧ currentTime.tm_min < 100 :=
    ⟨currentTime.hour_lt.trans (by decide), currentTime.min_lt.trans (by decide)⟩
  rw [readTimeText, htext, List.splitOn_intercalate SPACE hwords (by simp [words])]
  simp only [words]
  rw [splitOn_pair (hcolon _ 0).2.1 (hcolon _ 0).2.1, splitOn_pair (hcolon 0 _).2.2.1 (hcolon 0 _).2.2.2]
  simp only [hread hlt.1, hread hlt.2, number_decimal, idxOf_getD (by decide) hwday,
    idxOf_getD (by decide) hmon]
  cases readZone (zoneSign timezone) (zoneHours timezone) (zoneMinutes timezone) <;> rfl

end

/-- TIME answers with two lines. A client reads the seconds, the date, the time of day
and the minutes east of Greenwich off them just as they are, unless the server is a
minute or more to the west: there it finds no zone on either. -/
theorem time_told (site : Site) (answers : Answers) (time : ServerTime) (self : Self) (w : World)
    (hserver : Middle (site.delocaliseStr site.serverName))
    (hnickname : Middle (site.delocaliseStr self.user.nickname)) :
    let currentTime := time.localtime w.time
    let east := (-time.timezone).tdiv 60
    ∃ first second,
      (handleTIME site { answers with doTIME := Irc2User.doTIME site time self } self [] w).value = [first, second] ∧
      readTimeOnServer first =
        (if Told time.timezone then some ⟨w.time, time.nanoseconds, east⟩ else none) ∧
      readTime second =
        (if Told time.timezone then
          some ⟨currentTime.tm_wday, currentTime.tm_mon, currentTime.tm_mday, currentTime.year, currentTime.tm_hour,
            currentTime.tm_min, east⟩
        else none) := by
  intro currentTime east
  refine ⟨_, _, rfl, ?_, ?_⟩
  · rw [readTimeOnServer_sendTimeOnServer time w hserver.space hnickname, readZone_zone]
    split_ifs <;> rfl
  · have hparse := parseLine_formatNumeric RPL_TIME (timeText time.timezone currentTime) hserver.space hnickname
      (List.forall_mem_singleton.2 hserver)
    have hreceived : received (timeText time.timezone currentTime) = timeText time.timezone currentTime := by
      have hspace : SPACE ∉ COLON :: zoneMinutes time.timezone :=
        List.not_mem_cons_of_ne_of_not_mem (by decide) (delimiter_notMem (.inl rfl) 0 time.timezone).2.2.2
      exact received_append (List.cons_ne_nil _ _) hspace
    rw [List.singleton_append] at hparse
    rw [readTime, numericLine, hparse, hreceived]
    simp only [List.cons_append, List.nil_append, readTimeText_timeText, readZone_zone]
    split_ifs <;> rfl

/-- Mumbai, where it is always noon of the first day of 2004. -/
def mumbai : ServerTime := ⟨fun _ => noon, -19800, 5, fun _ => []⟩

theorem time_told_mumbai : let w : World := { time := 1072938600 }
    ∃ first second,
      (handleTIME plainSite { Answers.silent with doTIME := Irc2User.doTIME plainSite mumbai plainUser } plainUser []
        w).value = [first, second] ∧
      readTimeOnServer first = some ⟨1072938600, 5, 330⟩ ∧ readTime second = some ⟨4, 0, 1, 2004, 12, 0, 330⟩ := by
  intro w
  obtain ⟨first, second, hlines, hfirst, hsecond⟩ := time_told plainSite Answers.silent mumbai plainUser w
    ⟨by decide, by decide, by decide⟩ ⟨by decide, by decide, by decide⟩
  exact ⟨first, second, hlines, hfirst, hsecond⟩

end ServerTime

end Irc2User

end KineIRCd

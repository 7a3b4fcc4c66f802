import KineIRCd.World
import Mathlib.Data.List.TakeWhile
/-!
# Staff status

A staff status is the first word of a text, in upper case and cut to a length.
Nothing in the daemon gives a user one, so the users of the other modules do
without.
-/
namespace KineIRCd.Irc2User

/-- What a `const char*` parameter passes on: the text up to the first NUL. -/
def charString (text : Octets) : Octets := text.takeWhile (· ≠ 0)

/-- A user who may be on the staff. `Denizen` is who may change that. -/
structure StaffUser (Denizen : Type) extends User where
  staffStatus : Octets := []
  /-- The calls of `doEventStaffStatusChange`, in order. -/
  staffStatusChanges : List Denizen := []

namespace StaffUser
variable {Denizen : Type}

def maxStaffStatusLength : Nat := 32

/-- The delimiters. The literal starts with a NUL. -/
def naughtyChars : Octets := 0 :: octets "!\"#$%&'()*+,-./\\:;<=>?@[\\]^`\x7b|\x7d~"

def doEventStaffStatusChange (changer : Denizen) (this : StaffUser Denizen) : StaffUser Denizen :=
  { this with staffStatusChanges := this.staffStatusChanges ++ [changer] }

def setStaffOff (changer : Denizen) (this : StaffUser Denizen) : Error × StaffUser Denizen :=
  (.noError, { this with staffStatus := [] }.doEventStaffStatusChange changer)

def changeStaffStatus (changer : Denizen) (status : Octets) (this : StaffUser Denizen) : Error × StaffUser Denizen :=
  if status ≠ [] then
    let length :=
      match findFirstOf (charString naughtyChars) status 0 with
      | some position => min maxStaffStatusLength position
      | none => maxStaffStatusLength -- npos is the largest size
    (.noError, { this with staffStatus := toUpper (substr status 0 length) }.doEventStaffStatusChange changer)
  else setStaffOff changer this

/-! ## The word of a status -/

/-- The text up to the first delimiter. -/
def word (status : Octets) : Octets := status.takeWhile (· ∉ naughtyChars)

/-- The status becomes the word, and a text without one takes the status away. -/
structure SetsWord (changer : Denizen) (status : Octets) (this : StaffUser Denizen) : Prop where
  upper : toUpper (changeStaffStatus changer status this).2.staffStatus =
    (changeStaffStatus changer status this).2.staffStatus
  length : (changeStaffStatus changer status this).2.staffStatus.length ≤ maxStaffStatusLength
  clean : ∀ c ∈ (changeStaffStatus changer status this).2.staffStatus, c ∉ naughtyChars
  word : (changeStaffStatus changer status this).2.staffStatus = (toUpper (word status)).take maxStaffStatusLength
  off : StaffUser.word status = [] → changeStaffStatus changer status this = setStaffOff changer this

/-- Nothing is searched for, so only the length cuts the text. -/
theorem changeStaffStatus_eq (changer : Denizen) (status : Octets) (this : StaffUser Denizen) :
    changeStaffStatus changer status this =
      (.noError, { this with staffStatus := toUpper (status.take maxStaffStatusLength) }.doEventStaffStatusChange
        changer) := by
  have hempty : charString naughtyChars = [] := rfl
  have hnone : findFirstOf ([] : Octets) status 0 = none := by simp [findFirstOf]
  unfold changeStaffStatus
  split_ifs with h
  · rw [hempty, hnone]
    rfl
  · obtain rfl := not_not.1 h
    rfl

theorem staffStatus_changeStaffStatus (changer : Denizen) (status : Octets) (this : StaffUser Denizen) :
    (changeStaffStatus changer status this).2.staffStatus = toUpper (status.take maxStaffStatusLength) := by
  rw [changeStaffStatus_eq]
  rfl

/-- A delimiter is no letter, and no letter becomes one. -/
theorem toUpperOctet_mem_naughtyChars (c : UInt8) : toUpperOctet c ∈ naughtyChars ↔ c ∈ naughtyChars := by
  have hlower : ∀ d ∈ naughtyChars, ¬ (97 ≤ d ∧ d ≤ 122) := by decide +kernel
  have hupper : ∀ d ∈ naughtyChars, ¬ (65 ≤ d ∧ d ≤ 90) := by decide +kernel
  unfold toUpperOctet
  split_ifs with hc
  · apply iff_of_false
    · intro h
      exact hupper _ h (by grind)
    · exact fun h => hlower c h hc
  · rfl

/-- The status is the word exactly when no delimiter comes before the cut. -/
theorem setsWord_iff (changer : Denizen) (status : Octets) (this : StaffUser Denizen) :
    SetsWord changer status this ↔ ∀ c ∈ status.take maxStaffStatusLength, c ∉ naughtyChars := by
  constructor
  · intro h c hc hnaughty
    have hmem : toUpperOctet c ∈ (changeStaffStatus changer status this).2.staffStatus := by
      rw [staffStatus_changeStaffStatus]
      exact List.mem_map_of_mem hc
    exact h.clean _ hmem ((toUpperOctet_mem_naughtyChars c).2 hnaughty)
  · intro h
    have hword : (word status).take maxStaffStatusLength = status.take maxStaffStatusLength := by
      rw [word, List.take_takeWhile]
      exact List.takeWhile_eq_self_iff.2 fun c hc => decide_eq_true (h c hc)
    constructor
    · rw [staffStatus_changeStaffStatus, toUpper_idem]
    · rw [staffStatus_changeStaffStatus, toUpper, List.length_map]
      exact List.length_take_le _ _
    · intro c hc
      rw [staffStatus_changeStaffStatus] at hc
      obtain ⟨d, hd, rfl⟩ := List.mem_map.1 hc
      exact fun hnaughty => h d hd ((toUpperOctet_mem_naughtyChars d).1 hnaughty)
    · rw [staffStatus_changeStaffStatus, ← hword, toUpper, toUpper, List.map_take]
    · intro hnone
      rw [hnone, List.take_nil] at hword
      obtain rfl : status = [] := (List.take_eq_nil_iff.1 hword.symm).resolve_left (by decide)
      rfl

/-- The delimiter and what follows it stay. -/
theorem not_setsWord_hyphen :
    ¬ SetsWord () (octets "head-admin") ⟨⟨wide "pickle", [], [], [], [], 0, 0, []⟩, [], []⟩ := by
  intro h
  exact h.clean 0x2D (by decide) (by decide)

end StaffUser

end KineIRCd.Irc2User

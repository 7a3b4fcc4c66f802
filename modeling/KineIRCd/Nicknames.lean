import KineIRCd.Registry
import Mathlib.Data.List.Induction
/-!
# Nickname changes

`changeUserNickname` moves a user's entry by an erase and an insert, and does
not look whether the new key is taken. The insert then does nothing, and the
user has left the registry while the call reports success.
-/
namespace KineIRCd.Nicknames

/-- The registry, and the nickname each user object has. -/
structure Directory where
  registry : Registry
  nickname : Nat → WString

/-- A call on the registry, for the user at an address. A successful change of
nickname is followed by the user taking the new one. -/
inductive Op where
  | addUser (user : Nat)
  | removeUser (user : Nat)
  | changeUserNickname (user : Nat) (newNickname : WString)

namespace Directory

def entity (d : Directory) (user : Nat) : Entity := ⟨user, d.nickname user⟩

variable (maxNickNameLength : Nat)

def change (d : Directory) (user : Nat) (newNickname : WString) : Error × Registry :=
  d.registry.changeUserNickname maxNickNameLength (d.entity user) newNickname

def step (d : Directory) : Op → Directory
  | .addUser u => { d with registry := (d.registry.addUser maxNickNameLength (d.entity u)).2 }
  | .removeUser u => { d with registry := (d.registry.removeUser (d.entity u)).2 }
  | .changeUserNickname u n =>
    { registry := (d.change maxNickNameLength u n).2
      nickname :=
        if (d.change maxNickNameLength u n).1 = .noError then Function.update d.nickname u n else d.nickname }

/-- The directory after some calls on an empty registry. -/
def run (nickname : Nat → WString) (ops : List Op) : Directory := ops.foldl (step maxNickNameLength) ⟨{}, nickname⟩

def Registered (d : Directory) (user : Nat) : Prop := ∃ k, d.registry.users.lookup k = some user

/-- A successful change moves the user's entry and no other, and a failed one
changes nothing. -/
def ConsistentChange (d : Directory) (user : Nat) (newNickname : WString) : Prop :=
  let (error, registry) := d.change maxNickNameLength user newNickname
  if error = .noError then
    registry.findUser newNickname = some user ∧
    (IRCtoLower newNickname ≠ IRCtoLower (d.nickname user) → registry.findUser (d.nickname user) = none) ∧
    (∀ v, v ≠ user → d.Registered v → registry.findUser (d.nickname v) = some v) ∧
    Index.size registry.users = Index.size d.registry.users
  else registry = d.registry

variable {maxNickNameLength} {d : Directory} {user : Nat} {newNickname : WString}

/-! ## Every entry stands under its user's nickname -/

/-- The key each user belongs under. -/
def key (d : Directory) (user : Nat) : WString := IRCtoLower (d.nickname user)

def Sound (d : Directory) : Prop := Index.Sound d.key d.registry.users

theorem Sound.findUser (h : d.Sound) (hu : d.Registered user) : d.registry.findUser (d.nickname user) = some user := by
  obtain ⟨k, hk⟩ := hu
  rw [← h k user hk] at hk
  exact hk

theorem sound_step (h : d.Sound) (op : Op) : (d.step maxNickNameLength op).Sound := by
  cases op with
  | addUser u =>
    rcases Registry.addUser_cases maxNickNameLength d.registry (d.entity u) with
      ⟨-, -, e⟩ | ⟨-, _, -, e⟩
    · simp only [step, e]
      exact Index.Sound.insert (show Index.Sound d.key d.registry.users from h)
    · simpa only [step, e] using h
  | removeUser u =>
    rcases Registry.removeUser_cases d.registry (d.entity u) with ⟨_, -, e⟩ | ⟨-, e⟩
    · simp only [step, e]
      exact Index.Sound.erase (show Index.Sound d.key d.registry.users from h)
    · simpa only [step, e] using h
  | changeUserNickname u n =>
    rcases Registry.changeUserNickname_cases maxNickNameLength d.registry (d.entity u) n with ⟨hsame, e⟩ | ⟨-, _, he, e⟩ | ⟨-, -, -, e⟩
    · -- the key stays the same, so the entry does
      simp only [step, change, e, if_true]
      apply Index.Sound.congr h
      intro k i _
      by_cases hi : i = u
      · subst hi; simpa [key, entity] using hsame
      · simp [key, Function.update_of_ne hi]
    · simpa only [step, change, e, if_neg he] using h
    · let key' := fun i => IRCtoLower (Function.update d.nickname u n i)
      have hkey : ∀ j, j ≠ u → key' j = d.key j := fun j hj => by simp [key', key, Function.update_of_ne hj]
      have hrename := Index.Sound.rename h u hkey
      rw [show key' u = IRCtoLower n by simp [key']] at hrename
      simp only [step, change, e, if_true]
      exact hrename

theorem sound_run (nickname : Nat → WString) (ops : List Op) : (run maxNickNameLength nickname ops).Sound := by
  unfold run
  induction ops using List.reverseRecOn with
  | nil => exact Index.sound_empty
  | append_singleton ops op ih => rw [List.foldl_append]; exact sound_step ih op

/-! ## Changes -/

/-- When the new key is free, the entry moves there and no other is touched. -/
theorem consistent_of_free (h : d.Sound) (hu : d.Registered user) (hfree : d.registry.findUser newNickname = none)
    (hne : IRCtoLower newNickname ≠ d.key user)
    (e : d.change maxNickNameLength user newNickname =
      (.noError, { d.registry with
        users := Index.tryInsert (IRCtoLower newNickname) user (d.registry.users.erase (d.key user)) })) :
    d.ConsistentChange maxNickNameLength user newNickname := by
  have hold : d.registry.users.lookup (d.key user) = some user := h.findUser hu
  have hnew : (d.registry.users.erase (d.key user)).lookup (IRCtoLower newNickname) = none := by
    rw [AList.lookup_erase_ne hne]; exact hfree
  simp only [ConsistentChange, e, if_true, Registry.findUser, findEntity, Index.tryInsert_of_none hnew]
  refine ⟨AList.lookup_insert _, ?_, ?_, ?_⟩
  · intro _
    rw [show IRCtoLower (d.nickname user) = d.key user from rfl, AList.lookup_insert_ne hne.symm]
    exact AList.lookup_erase _ _
  · intro v hv hreg
    have hkey : d.registry.users.lookup (d.key v) = some v := h.findUser hreg
    have hv' : d.key v ≠ d.key user := fun e => hv (by rw [e, hold, Option.some_inj] at hkey; exact hkey.symm)
    have hv'' : d.key v ≠ IRCtoLower newNickname := fun e => by
      rw [e] at hkey; exact absurd (hkey.symm.trans hfree) (by simp)
    rw [show IRCtoLower (d.nickname v) = d.key v from rfl, AList.lookup_insert_ne hv'', AList.lookup_erase_ne hv', hkey]
  · rw [Index.size_insert hnew, Index.size_erase hold]

/-- When the new key is taken, the user is no longer found under it. -/
theorem not_consistent_of_taken {i : Nat} (h : d.Sound) (htaken : d.registry.findUser newNickname = some i)
    (hne : IRCtoLower newNickname ≠ d.key user)
    (e : d.change maxNickNameLength user newNickname =
      (.noError, { d.registry with
        users := Index.tryInsert (IRCtoLower newNickname) user (d.registry.users.erase (d.key user)) })) :
    ¬ d.ConsistentChange maxNickNameLength user newNickname := by
  have hnew : (d.registry.users.erase (d.key user)).lookup (IRCtoLower newNickname) = some i := by
    rw [AList.lookup_erase_ne hne]; exact htaken
  have hi : i ≠ user := fun hi => hne (by rw [← h _ i htaken, hi])
  simp only [ConsistentChange, e, if_true, Registry.findUser, findEntity, Index.tryInsert_of_some hnew]
  rintro ⟨hfound, -⟩
  rw [hnew, Option.some_inj] at hfound
  exact hi hfound

/-- Over every registry the calls can reach, a registered user's change is
consistent exactly when the new name folds to the old one, is invalid, or folds
to a key that is free. -/
theorem changeUserNickname_consistent_iff (nickname : Nat → WString) (ops : List Op) (user : Nat)
    (newNickname : WString) (hu : (run maxNickNameLength nickname ops).Registered user) :
    (run maxNickNameLength nickname ops).ConsistentChange maxNickNameLength user newNickname ↔
      IRCtoLower newNickname = (run maxNickNameLength nickname ops).key user ∨
      Client.Name.checkValidity maxNickNameLength newNickname ≠ .noError ∨
      (run maxNickNameLength nickname ops).registry.findUser newNickname = none := by
  have h : (run maxNickNameLength nickname ops).Sound := sound_run nickname ops
  generalize run maxNickNameLength nickname ops = d at *
  have hold : d.registry.findUser (d.nickname user) = some user := h.findUser hu
  rcases Registry.changeUserNickname_cases maxNickNameLength d.registry (d.entity user) newNickname with ⟨hsame, e⟩ | ⟨hbad, err, herr, e⟩ | ⟨hne, -, hv, e⟩
  · refine iff_of_true ?_ (.inl hsame)
    have hnew : d.registry.findUser newNickname = some user := by
      rw [Registry.findUser, findEntity, hsame]; exact hold
    simp only [ConsistentChange, change, e, if_true]
    exact ⟨hnew, fun hne => absurd hsame hne, fun v _ hv => h.findUser hv, trivial⟩
  · refine iff_of_true ?_ (.inr (.inl (hbad.resolve_left ?_)))
    · simp only [ConsistentChange, change, e, if_neg herr]
    · rw [show (d.entity user).name = d.nickname user from rfl, hold]; simp
  · cases htaken : d.registry.findUser newNickname with
    | none => exact iff_of_true (consistent_of_free h hu htaken hne e) (.inr (.inr rfl))
    | some i =>
      apply iff_of_false (not_consistent_of_taken h htaken hne e)
      rintro (hsame | hbad | hnone)
      · exact hne hsame
      · exact hbad hv
      · simp at hnone

/-- The first user is named `pickle`, every other `sanc`. -/
def twoUsers (user : Nat) : WString := if user = 0 then wide "pickle" else wide "sanc"

/-- One user is `pickle`, another is `sanc`, and the first asks for `PICKLE2`. -/
theorem changeUserNickname_consistent_pickle2 :
    (run 9 twoUsers [.addUser 0, .addUser 1]).ConsistentChange 9 0 (wide "PICKLE2") :=
  (changeUserNickname_consistent_iff twoUsers [.addUser 0, .addUser 1] 0 (wide "PICKLE2")
    ⟨wide "pickle", by decide⟩).2 (.inr (.inr (by decide)))

/-- Asking for the other's nickname succeeds, and the user is in the registry no more. -/
theorem not_consistent_pickle_sanc :
    ((run 9 twoUsers [.addUser 0, .addUser 1]).change 9 0 (wide "SANC")).1 = .noError ∧
      ¬ (run 9 twoUsers [.addUser 0, .addUser 1]).ConsistentChange 9 0 (wide "SANC") := by
  refine ⟨by decide, ?_⟩
  intro h
  have hfound : ((run 9 twoUsers [.addUser 0, .addUser 1]).change 9 0 (wide "SANC")).2.findUser (wide "SANC") = some 0 :=
    h.1
  exact absurd hfound (by decide)

end Directory

end KineIRCd.Nicknames

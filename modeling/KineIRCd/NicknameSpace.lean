import KineIRCd.Lib.Runs
import KineIRCd.Nicknames
/-!
# One nickname space

Users and services are kept in two lists, and each operation looks for a free
name in its own list only. They share one space of nicknames as long as every
name that comes into one list is free in the other.
-/
namespace KineIRCd.NicknameSpace

open Nicknames (Directory)

/-- A call on the registry, for a user or for a service. -/
inductive Op where
  | user (op : Nicknames.Op)
  | addService (service : Nat)
  | removeService (service : Nat)

/-- The client that a name leads to. -/
inductive Holder where
  | user (address : Nat)
  | service (address : Nat)
  deriving DecidableEq

def Holder.address : Holder → Nat
  | .user a => a
  | .service a => a

/-- `MyNetwork::findClient`, which looks for a user first. -/
def findClient (r : Registry) (name : WString) : Option Holder :=
  ((r.findUser name).map Holder.user).orElse (fun _ => (r.findService name).map Holder.service)

/-- The same with the lists the other way round. -/
def findClientServiceFirst (r : Registry) (name : WString) : Option Holder :=
  ((r.findService name).map Holder.service).orElse (fun _ => (r.findUser name).map Holder.user)

theorem findClient_address (r : Registry) (name : WString) :
    (findClient r name).map Holder.address = r.findClient name := by
  unfold findClient Registry.findClient
  cases r.findUser name <;> cases r.findService name <;> rfl

variable (maxNickNameLength : Nat) (serviceName : Nat → WString)

/-- The directory after a call. The services' names are what they were created with. -/
def step (d : Directory) : Op → Directory
  | .user op => d.step maxNickNameLength op
  | .addService s =>
    { d with registry := (d.registry.addService maxNickNameLength ⟨s, serviceName s⟩).2 }
  | .removeService s => { d with registry := (d.registry.removeService ⟨s, serviceName s⟩).2 }

def RegisteredService (d : Directory) (service : Nat) : Prop := ∃ k, d.registry.services.lookup k = some service

/-- No registered user and service have the same folded nickname, and every
name leads to the same client in either order of search. -/
structure Shared (d : Directory) : Prop where
  distinct : ∀ u s, d.Registered u → RegisteredService d s → IRCtoLower (d.nickname u) ≠ IRCtoLower (serviceName s)
  findClient : ∀ name, findClient d.registry name = findClientServiceFirst d.registry name

/-- What the call would put into one list is free in the other. -/
def FreeInOther (d : Directory) : Op → Prop
  | .user (.addUser u) =>
    Client.Name.checkValidity maxNickNameLength (d.nickname u) = .noError → d.registry.findService (d.nickname u) = none
  | .user (.removeUser _) => True
  | .user (.changeUserNickname u n) =>
    IRCtoLower n ≠ IRCtoLower (d.nickname u) → d.registry.findUser (d.nickname u) ≠ none →
      Client.Name.checkValidity maxNickNameLength n = .noError → d.registry.findService n = none
  | .addService s =>
    Client.Name.checkValidity maxNickNameLength (serviceName s) = .noError → d.registry.findUser (serviceName s) = none
  | .removeService _ => True

/-- Every entry stands under its client's nickname, in both lists. -/
structure Sound (d : Directory) : Prop where
  users : d.Sound
  services : Index.Sound (fun s => IRCtoLower (serviceName s)) d.registry.services

variable {maxNickNameLength serviceName} {d : Directory}

/-- Sharing the space is the two lists having no key in common. -/
theorem shared_iff (h : Sound serviceName d) :
    Shared serviceName d ↔ Index.Apart d.registry.users d.registry.services := by
  constructor
  · intro hs k
    by_contra hboth
    rw [not_or, ← Ne, ← Ne, Option.ne_none_iff_exists', Option.ne_none_iff_exists'] at hboth
    obtain ⟨⟨u, hu⟩, s, hservice⟩ := hboth
    apply hs.distinct u s ⟨k, hu⟩ ⟨k, hservice⟩
    exact (h.users k u hu).trans (h.services k s hservice).symm
  · intro ha
    constructor
    · rintro u s ⟨k, hu⟩ ⟨k', hservice⟩ hsame
      obtain rfl : k = k' := by
        rw [← h.users k u hu, ← h.services k' s hservice]
        exact hsame
      rcases ha k with hnone | hnone
      · rw [hnone] at hu
        simp at hu
      · rw [hnone] at hservice
        simp at hservice
    · intro name
      unfold findClient findClientServiceFirst
      rcases ha (IRCtoLower name) with hnone | hnone
      · rw [Registry.findUser, findEntity, hnone]
        cases d.registry.findService name <;> rfl
      · rw [Registry.findService, findEntity, hnone]
        cases d.registry.findUser name <;> rfl

/-- Calls for users leave the services alone. -/
theorem services_step (op : Nicknames.Op) :
    (d.step maxNickNameLength op).registry.services = d.registry.services := by
  cases op with
  | addUser u => rfl
  | removeUser u => rfl
  | changeUserNickname u n =>
    rcases Registry.changeUserNickname_cases maxNickNameLength d.registry (d.entity u) n with
      ⟨-, e⟩ | ⟨-, _, -, e⟩ | ⟨-, -, -, e⟩ <;> simp only [Directory.step, Directory.change, e]

theorem sound_step (h : Sound serviceName d) (op : Op) :
    Sound serviceName (step maxNickNameLength serviceName d op) := by
  cases op with
  | user op =>
    refine ⟨Directory.sound_step h.users op, ?_⟩
    rw [step, services_step]
    exact h.services
  | addService s =>
    refine ⟨h.users, ?_⟩
    rcases addEntity_cases (Client.Name.checkValidity maxNickNameLength) d.registry.services ⟨s, serviceName s⟩ with
      ⟨-, -, e⟩ | ⟨-, _, -, e⟩
    · simp only [step, Registry.addService, e]
      exact h.services.insert
    · simp only [step, Registry.addService, e]
      exact h.services
  | removeService s =>
    refine ⟨h.users, ?_⟩
    rcases removeEntity_cases d.registry.services ⟨s, serviceName s⟩ with ⟨_, -, e⟩ | ⟨-, e⟩
    · simp only [step, Registry.removeService, e]
      exact h.services.erase
    · simp only [step, Registry.removeService, e]
      exact h.services

/-- Adding to one of two lists without a common key keeps them so exactly when a
valid name is free in the other. -/
theorem apart_addEntity_iff {checkValidity : WString → Error} {list other : Entities} {entity : Entity}
    (h : Index.Apart list other) :
    Index.Apart (addEntity checkValidity list entity).2 other ↔
      (checkValidity entity.name = .noError → findEntity other entity.name = none) := by
  rcases addEntity_cases checkValidity list entity with ⟨hv, -, e⟩ | ⟨hbad, _, -, e⟩
  · rw [e, h.insert_iff]
    simp [hv, findEntity]
  · rw [e]
    apply iff_of_true h
    intro hv
    exact (h _).resolve_left (hbad.resolve_left (not_not.2 hv))

theorem apart_removeEntity {list other : Entities} {entity : Entity} (h : Index.Apart list other) :
    Index.Apart (removeEntity list entity).2 other := by
  rcases removeEntity_cases list entity with ⟨_, -, e⟩ | ⟨-, e⟩
  · rw [e]
    exact h.erase
  · rw [e]
    exact h

theorem apart_change_iff (h : Index.Apart d.registry.users d.registry.services) (u : Nat) (n : WString) :
    Index.Apart (d.change maxNickNameLength u n).2.users d.registry.services ↔
      FreeInOther maxNickNameLength serviceName d (.user (.changeUserNickname u n)) := by
  unfold FreeInOther Directory.change
  rcases Registry.changeUserNickname_cases maxNickNameLength d.registry (d.entity u) n with
    ⟨hsame, e⟩ | ⟨hbad, _, -, e⟩ | ⟨hne, ⟨i, hi⟩, hv, e⟩
  · rw [e]
    apply iff_of_true h
    intro hne
    exact absurd hsame hne
  · rw [e]
    apply iff_of_true h
    intro _ hfound hv
    rcases hbad with hnone | hbad
    · exact absurd hnone hfound
    · exact absurd hv hbad
  · have hfound : d.registry.findUser (d.nickname u) ≠ none := by
      rw [show d.registry.findUser (d.nickname u) = some i from hi]
      simp
    rw [e, h.erase.tryInsert_iff]
    constructor
    · intro hfree _ _ _
      exact hfree
    · intro hfree
      exact hfree hne hfound hv

/-- One call, from a directory whose lists have no key in common. -/
theorem apart_step_iff (h : Index.Apart d.registry.users d.registry.services) (op : Op) :
    Index.Apart (step maxNickNameLength serviceName d op).registry.users
        (step maxNickNameLength serviceName d op).registry.services ↔
      FreeInOther maxNickNameLength serviceName d op := by
  cases op with
  | user op =>
    rw [step, services_step]
    cases op with
    | addUser u => exact apart_addEntity_iff h
    | removeUser u => exact iff_of_true (apart_removeEntity h) trivial
    | changeUserNickname u n => exact apart_change_iff h u n
  | addService s =>
    rw [Index.apart_comm]
    exact apart_addEntity_iff h.symm
  | removeService s => exact iff_of_true (apart_removeEntity h.symm).symm trivial

/-- In a run of calls users and services share one nickname space in every state
exactly when each name that comes into one list is free in the other. -/
theorem shared_run_iff (maxNickNameLength : Nat) (nickname serviceName : Nat → WString) (ops : List Op) :
    Runs.Throughout (step maxNickNameLength serviceName) (Shared serviceName) ⟨{}, nickname⟩ ops ↔
      Runs.Along (step maxNickNameLength serviceName) (FreeInOther maxNickNameLength serviceName) ⟨{}, nickname⟩ ops := by
  have hsound : Sound serviceName ⟨{}, nickname⟩ := ⟨Index.sound_empty, Index.sound_empty⟩
  apply Runs.throughout_iff_along (J := Sound serviceName)
  · intro d op h
    exact sound_step h op
  · intro d op h hi
    rw [shared_iff (sound_step h op), apart_step_iff ((shared_iff h).1 hi)]
  · exact hsound
  · exact (shared_iff hsound).2 Index.apart_empty

/-- A user and a service may both be called `pickle`, and each list takes its own. -/
theorem not_shared_pickle :
    ¬ Runs.Throughout (step 9 (fun _ => wide "PICKLE")) (Shared (fun _ => wide "PICKLE")) ⟨{}, fun _ => wide "pickle"⟩
      [.user (.addUser 0), .addService 0] := by
  rintro ⟨-, -, hshared⟩
  apply hshared.distinct 0 0
  · exact ⟨wide "pickle", by decide⟩
  · exact ⟨wide "pickle", by decide⟩
  · decide

end KineIRCd.NicknameSpace

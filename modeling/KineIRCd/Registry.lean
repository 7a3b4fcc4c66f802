import KineIRCd.Lib.Index
import KineIRCd.Names
/-!
# The registry

Maps from folded names to the objects added under them. The registry holds
references only: the object's name is read when it is added or removed, and a
removal takes out whatever stands under that name.
-/
namespace KineIRCd

/-- An object the registry can refer to: its address, and its name at the time
of the call. -/
structure Entity where
  address : Nat
  name : WString
  deriving DecidableEq

/-- One of the entity lists, keyed by the folded name. -/
abbrev Entities := AList (fun _ : WString => Nat)

def findEntity (list : Entities) (name : WString) : Option Nat := list.lookup (IRCtoLower name)

def addEntity (checkValidity : WString → Error) (list : Entities) (entity : Entity) : Error × Entities :=
  if checkValidity entity.name ≠ .noError then (checkValidity entity.name, list)
  else if findEntity list entity.name = none then
    (.noError, Index.tryInsert (IRCtoLower entity.name) entity.address list)
  else (.entityExists, list)

def removeEntity (list : Entities) (entity : Entity) : Error × Entities :=
  if (list.lookup (IRCtoLower entity.name)).isSome then (.noError, list.erase (IRCtoLower entity.name))
  else (.unregisteredEntity, list)

section Entities
variable (checkValidity : WString → Error) (list : Entities) (entity : Entity)

/-- A valid name whose folded form is free is added, and any other is refused. -/
theorem addEntity_cases :
    (checkValidity entity.name = .noError ∧ findEntity list entity.name = none ∧
      addEntity checkValidity list entity = (.noError, list.insert (IRCtoLower entity.name) entity.address)) ∨
    ((checkValidity entity.name ≠ .noError ∨ findEntity list entity.name ≠ none) ∧
      ∃ e, e ≠ .noError ∧ addEntity checkValidity list entity = (e, list)) := by
  unfold addEntity
  by_cases hv : checkValidity entity.name = .noError
  · rw [if_neg (not_not.2 hv)]
    by_cases hfree : findEntity list entity.name = none
    · rw [if_pos hfree, Index.tryInsert_of_none hfree]
      exact .inl ⟨hv, hfree, rfl⟩
    · rw [if_neg hfree]
      exact .inr ⟨.inr hfree, _, by simp, rfl⟩
  · rw [if_pos hv]
    exact .inr ⟨.inl hv, _, hv, rfl⟩

/-- A removal takes out what stands under the name, whichever object it is. -/
theorem removeEntity_cases :
    (∃ i, findEntity list entity.name = some i ∧
      removeEntity list entity = (.noError, list.erase (IRCtoLower entity.name))) ∨
    (findEntity list entity.name = none ∧ removeEntity list entity = (.unregisteredEntity, list)) := by
  unfold removeEntity
  cases h : list.lookup (IRCtoLower entity.name) with
  | none => exact .inr ⟨h, rfl⟩
  | some i => exact .inl ⟨i, h, rfl⟩

end Entities

/-- `Internal::Registry`. -/
structure Registry where
  users : Entities := ∅
  services : Entities := ∅
  servers : Entities := ∅
  networks : Entities := ∅
  channels : Entities := ∅

namespace Registry

def findUser (r : Registry) (name : WString) : Option Nat := findEntity r.users name
def findService (r : Registry) (name : WString) : Option Nat := findEntity r.services name

/-- `MyNetwork::findClient`. -/
def findClient (r : Registry) (name : WString) : Option Nat := (r.findUser name).orElse (fun _ => r.findService name)

section Operations
variable (maxNickNameLength : Nat)

def addUser (r : Registry) (user : Entity) : Error × Registry :=
  let result := addEntity (Client.Name.checkValidity maxNickNameLength) r.users user
  (result.1, { r with users := result.2 })

def removeUser (r : Registry) (user : Entity) : Error × Registry :=
  let result := removeEntity r.users user
  (result.1, { r with users := result.2 })

def changeUserNickname (r : Registry) (user : Entity) (newNickname : WString) : Error × Registry :=
  if IRCtoLower newNickname = IRCtoLower user.name then (.noError, r)
  else if (r.users.lookup (IRCtoLower user.name)).isSome then
    if Client.Name.checkValidity maxNickNameLength newNickname ≠ .noError then
      (Client.Name.checkValidity maxNickNameLength newNickname, r)
    else
      (.noError, { r with
        users := Index.tryInsert (IRCtoLower newNickname) user.address (r.users.erase (IRCtoLower user.name)) })
  else (.unregisteredEntity, r)

def addService (r : Registry) (service : Entity) : Error × Registry :=
  let result := addEntity (Client.Name.checkValidity maxNickNameLength) r.services service
  (result.1, { r with services := result.2 })

def removeService (r : Registry) (service : Entity) : Error × Registry :=
  let result := removeEntity r.services service
  (result.1, { r with services := result.2 })

def addServer (r : Registry) (server : Entity) : Error × Registry :=
  let result := addEntity Server.Name.checkValidity r.servers server
  (result.1, { r with servers := result.2 })

def removeServer (r : Registry) (server : Entity) : Error × Registry :=
  let result := removeEntity r.servers server
  (result.1, { r with servers := result.2 })

def addNetwork (r : Registry) (network : Entity) : Error × Registry :=
  let result := addEntity Network.Name.checkValidity r.networks network
  (result.1, { r with networks := result.2 })

def removeNetwork (r : Registry) (network : Entity) : Error × Registry :=
  let result := removeEntity r.networks network
  (result.1, { r with networks := result.2 })

/-- `none` when the check of the name has not returned after so many rounds. -/
def addChannel (limits : Limits) (rounds : Nat) (r : Registry) (channel : Entity) : Option (Error × Registry) :=
  (Channel.Name.checkValidity limits rounds channel.name).map fun validity =>
    let result := addEntity (fun _ => validity) r.channels channel
    (result.1, { r with channels := result.2 })

def removeChannel (r : Registry) (channel : Entity) : Error × Registry :=
  let result := removeEntity r.channels channel
  (result.1, { r with channels := result.2 })

/-! ## What the operations do -/

variable (r : Registry) (user : Entity)

/-- `addUser` adds a valid name whose folded form is free, and refuses any other. -/
theorem addUser_cases :
    (Client.Name.checkValidity maxNickNameLength user.name = .noError ∧ r.findUser user.name = none ∧
      r.addUser maxNickNameLength user =
        (.noError, { r with users := r.users.insert (IRCtoLower user.name) user.address })) ∨
    ((Client.Name.checkValidity maxNickNameLength user.name ≠ .noError ∨ r.findUser user.name ≠ none) ∧
      ∃ e, e ≠ .noError ∧ r.addUser maxNickNameLength user = (e, r)) := by
  unfold addUser findUser
  rcases addEntity_cases (Client.Name.checkValidity maxNickNameLength) r.users user with ⟨hv, hfree, h⟩ | ⟨hbad, e, he, h⟩
  · exact .inl ⟨hv, hfree, by rw [h]⟩
  · exact .inr ⟨hbad, e, he, by rw [h]⟩

/-- `removeUser` takes out what stands under the name, whichever user it is. -/
theorem removeUser_cases :
    (∃ i, r.findUser user.name = some i ∧
      r.removeUser user = (.noError, { r with users := r.users.erase (IRCtoLower user.name) })) ∨
    (r.findUser user.name = none ∧ r.removeUser user = (.unregisteredEntity, r)) := by
  unfold removeUser findUser
  rcases removeEntity_cases r.users user with ⟨i, hi, h⟩ | ⟨hnone, h⟩
  · exact .inl ⟨i, hi, by rw [h]⟩
  · exact .inr ⟨hnone, by rw [h]⟩

/-- A change of nickname under another key erases the old entry, and inserts
the new one unless its key is taken. -/
theorem changeUserNickname_cases (newNickname : WString) :
    (IRCtoLower newNickname = IRCtoLower user.name ∧
      r.changeUserNickname maxNickNameLength user newNickname = (.noError, r)) ∨
    ((r.findUser user.name = none ∨ Client.Name.checkValidity maxNickNameLength newNickname ≠ .noError) ∧
      ∃ e, e ≠ .noError ∧ r.changeUserNickname maxNickNameLength user newNickname = (e, r)) ∨
    (IRCtoLower newNickname ≠ IRCtoLower user.name ∧ (∃ i, r.findUser user.name = some i) ∧
      Client.Name.checkValidity maxNickNameLength newNickname = .noError ∧
      r.changeUserNickname maxNickNameLength user newNickname =
        (.noError, { r with
          users := Index.tryInsert (IRCtoLower newNickname) user.address (r.users.erase (IRCtoLower user.name)) })) := by
  unfold changeUserNickname findUser findEntity
  by_cases hsame : IRCtoLower newNickname = IRCtoLower user.name
  · exact .inl ⟨hsame, if_pos hsame⟩
  · simp only [if_neg hsame]
    cases hfind : r.users.lookup (IRCtoLower user.name) with
    | none => exact .inr (.inl ⟨.inl rfl, .unregisteredEntity, by simp, rfl⟩)
    | some i =>
      by_cases hv : Client.Name.checkValidity maxNickNameLength newNickname = .noError
      · exact .inr (.inr ⟨hsame, ⟨i, rfl⟩, hv, by simp [hv]⟩)
      · exact .inr (.inl ⟨.inr hv, _, hv, by simp [hv]⟩)

end Operations

/-! ## The five lists alike -/

/-- What the registry keeps a list of. -/
inductive Kind where
  | user | service | server | network | channel
  deriving DecidableEq

def list (r : Registry) : Kind → Entities
  | .user => r.users
  | .service => r.services
  | .server => r.servers
  | .network => r.networks
  | .channel => r.channels

def setList (r : Registry) (kind : Kind) (list : Entities) : Registry :=
  match kind with
  | .user => { r with users := list }
  | .service => { r with services := list }
  | .server => { r with servers := list }
  | .network => { r with networks := list }
  | .channel => { r with channels := list }

section Kinds
variable (limits : Limits) (rounds : Nat) (r : Registry) (kind : Kind) (entity : Entity)

/-- `entity.getName().checkValidity()`, with `none` when it has not returned. -/
def checkValidity (name : WString) : Option Error :=
  match kind with
  | .user | .service => some (Client.Name.checkValidity limits.maxNickNameLength name)
  | .server => some (Server.Name.checkValidity name)
  | .network => some (Network.Name.checkValidity name)
  | .channel => Channel.Name.checkValidity limits rounds name

/-- `addUser`, `addService`, `addServer`, `addNetwork` or `addChannel`. -/
def add : Option (Error × Registry) :=
  match kind with
  | .user => some (r.addUser limits.maxNickNameLength entity)
  | .service => some (r.addService limits.maxNickNameLength entity)
  | .server => some (r.addServer entity)
  | .network => some (r.addNetwork entity)
  | .channel => r.addChannel limits rounds entity

/-- `removeUser`, `removeService`, `removeServer`, `removeNetwork` or `removeChannel`. -/
def remove : Error × Registry :=
  match kind with
  | .user => r.removeUser entity
  | .service => r.removeService entity
  | .server => r.removeServer entity
  | .network => r.removeNetwork entity
  | .channel => r.removeChannel entity

theorem list_setList (l : Entities) : (r.setList kind l).list = Function.update r.list kind l := by
  funext k
  cases kind <;> cases k <;> rfl

@[simp] theorem setList_list : r.setList kind (r.list kind) = r := by cases kind <;> rfl

theorem add_eq : r.add limits rounds kind entity =
    (checkValidity limits rounds kind entity.name).map fun validity =>
      ((addEntity (fun _ => validity) (r.list kind) entity).1,
        r.setList kind (addEntity (fun _ => validity) (r.list kind) entity).2) := by
  cases kind <;> rfl

theorem remove_eq : r.remove kind entity =
    ((removeEntity (r.list kind) entity).1, r.setList kind (removeEntity (r.list kind) entity).2) := by
  cases kind <;> rfl

variable {limits rounds r kind entity} {e : Error} {r' : Registry}

/-- Adding puts the entity under its folded name, which was free, or is refused. -/
theorem add_cases (h : r.add limits rounds kind entity = some (e, r')) :
    (e = .noError ∧ findEntity (r.list kind) entity.name = none ∧
      r'.list = Function.update r.list kind ((r.list kind).insert (IRCtoLower entity.name) entity.address)) ∨
    (e ≠ .noError ∧ r' = r) := by
  rw [add_eq, Option.map_eq_some_iff] at h
  obtain ⟨validity, -, h⟩ := h
  rcases addEntity_cases (fun _ => validity) (r.list kind) entity with ⟨-, hfree, hadd⟩ | ⟨-, e', he', hadd⟩
  · rw [hadd, Prod.mk.injEq] at h
    obtain ⟨rfl, rfl⟩ := h
    exact .inl ⟨rfl, hfree, list_setList _ _ _⟩
  · rw [hadd, Prod.mk.injEq, setList_list] at h
    obtain ⟨rfl, rfl⟩ := h
    exact .inr ⟨he', rfl⟩

/-- Removing takes out what stands under the folded name, whichever entity it is. -/
theorem remove_cases (h : r.remove kind entity = (e, r')) :
    (e = .noError ∧ (∃ i, findEntity (r.list kind) entity.name = some i) ∧
      r'.list = Function.update r.list kind ((r.list kind).erase (IRCtoLower entity.name))) ∨
    (e = .unregisteredEntity ∧ findEntity (r.list kind) entity.name = none ∧ r' = r) := by
  rw [remove_eq] at h
  rcases removeEntity_cases (r.list kind) entity with ⟨i, hi, hrem⟩ | ⟨hnone, hrem⟩
  · rw [hrem, Prod.mk.injEq] at h
    obtain ⟨rfl, rfl⟩ := h
    exact .inl ⟨rfl, ⟨i, hi⟩, list_setList _ _ _⟩
  · rw [hrem, Prod.mk.injEq, setList_list] at h
    obtain ⟨rfl, rfl⟩ := h
    exact .inr ⟨rfl, hnone, rfl⟩

end Kinds

end Registry

end KineIRCd

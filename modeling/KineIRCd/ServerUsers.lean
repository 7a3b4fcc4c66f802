import KineIRCd.World
/-!
# The users of a server

`Server::addUser` and what its documentation promises. The registry knows one
reason to refuse a valid name, that some user stands under its folded form, and
calls it `ENTITY_EXISTS`. The documentation keeps that result for a user that is
registered already and has another one, `NAME_IS_IN_USE`, for a name that some
other client has.

`addUser_meets_iff` says when the two come to the same.
-/
namespace KineIRCd.Server

/-- A `User`: the object with its name, and the server it says it is connected to. -/
structure User where
  entity : Entity
  server : Nat
  deriving DecidableEq

/-- What `addUser` works on: the registry, and the user counts of the server and of the network. -/
structure Registered where
  registry : Registry
  userCount : PeakCount
  networkUserCount : PeakCount

/-- `addUser`, on the server at `this`. -/
def addUser (maxNickNameLength this : Nat) (user : User) (s : Registered) : Error × Registered :=
  if user.server ≠ this then (.serversDontMatch, s)
  else
    let result := s.registry.addUser maxNickNameLength user.entity
    if result.1 = .noError then
      (result.1, ⟨result.2, s.userCount.increment, s.networkUserCount.increment⟩)
    else (result.1, { s with registry := result.2 })

/-- For a user of this server, it is what the protocols call. -/
theorem addUser_local (maxNickNameLength this : Nat) (user : Entity) (w : World) :
    w.addUser maxNickNameLength user =
      let result := addUser maxNickNameLength this ⟨user, this⟩ ⟨w.registry, w.serverUserCount, w.networkUserCount⟩
      (result.1, { w with
        registry := result.2.registry
        serverUserCount := result.2.userCount
        networkUserCount := result.2.networkUserCount }) := by
  unfold World.addUser addUser
  rw [if_neg (by simp : ¬ this ≠ this)]
  dsimp only
  split_ifs <;> rfl

/-! ## The contract -/

/-- This very instance is in the registry, under whatever name. -/
def IsRegistered (registry : Registry) (user : User) : Prop :=
  ∃ name, registry.users.lookup name = some user.entity.address

/-- Another client on the network has the name, up to case. -/
def NameTaken (registry : Registry) (user : User) : Prop :=
  (∃ other, registry.findUser user.entity.name = some other ∧ other ≠ user.entity.address) ∨
    (registry.findService user.entity.name).isSome

open Classical in
/-- The result that the documentation of `addUser` gives. -/
noncomputable def documented (maxNickNameLength this : Nat) (user : User) (registry : Registry) : Error :=
  if user.server ≠ this then .serversDontMatch
  else if Client.Name.checkValidity maxNickNameLength user.entity.name ≠ .noError then
    Client.Name.checkValidity maxNickNameLength user.entity.name
  else if IsRegistered registry user then .entityExists
  else if NameTaken registry user then .nameIsInUse
  else .noError

/-- The user is found by its name, nobody else is lost or found, and both counts have gone up. -/
structure Added (user : User) (s s' : Registered) : Prop where
  found : s'.registry.findUser user.entity.name = some user.entity.address
  users : ∀ name, IRCtoLower name ≠ IRCtoLower user.entity.name → s'.registry.findUser name = s.registry.findUser name
  others : { s'.registry with users := s.registry.users } = s.registry
  userCount : s'.userCount.count = s.userCount.count + 1
  networkUserCount : s'.networkUserCount.count = s.networkUserCount.count + 1

/-- A call does what the documentation says. -/
structure MeetsContract (maxNickNameLength this : Nat) (user : User) (s : Registered) : Prop where
  result : (addUser maxNickNameLength this user s).1 = documented maxNickNameLength this user s.registry
  refused : (addUser maxNickNameLength this user s).1 ≠ .noError → (addUser maxNickNameLength this user s).2 = s
  added : (addUser maxNickNameLength this user s).1 = .noError → Added user s (addUser maxNickNameLength this user s).2

section
variable (maxNickNameLength this : Nat) (user : User) (s : Registered)

/-- What a call can come to: a refusal that changes nothing, or a new entry where there was
none. -/
theorem addUser_cases :
    (user.server ≠ this ∧ addUser maxNickNameLength this user s = (.serversDontMatch, s)) ∨
    (user.server = this ∧ Client.Name.checkValidity maxNickNameLength user.entity.name ≠ .noError ∧
      addUser maxNickNameLength this user s = (Client.Name.checkValidity maxNickNameLength user.entity.name, s)) ∨
    (user.server = this ∧ Client.Name.checkValidity maxNickNameLength user.entity.name = .noError ∧
      (s.registry.findUser user.entity.name).isSome ∧ addUser maxNickNameLength this user s = (.entityExists, s)) ∨
    (user.server = this ∧ Client.Name.checkValidity maxNickNameLength user.entity.name = .noError ∧
      s.registry.findUser user.entity.name = none ∧
      addUser maxNickNameLength this user s = (.noError,
        ⟨{ s.registry with users := s.registry.users.insert (IRCtoLower user.entity.name) user.entity.address },
          s.userCount.increment, s.networkUserCount.increment⟩)) := by
  by_cases hserver : user.server = this
  · unfold addUser Registry.addUser addEntity
    rw [if_neg (not_not.2 hserver)]
    by_cases hvalid : Client.Name.checkValidity maxNickNameLength user.entity.name = .noError
    · rw [if_neg (not_not.2 hvalid)]
      cases hfind : s.registry.findUser user.entity.name with
      | none =>
        have hfree : findEntity s.registry.users user.entity.name = none := hfind
        refine .inr (.inr (.inr ⟨hserver, hvalid, rfl, ?_⟩))
        rw [if_pos hfree, Index.tryInsert_of_none hfree]
        rfl
      | some other =>
        have htaken : findEntity s.registry.users user.entity.name ≠ none := by
          intro hnone
          rw [Registry.findUser, hnone] at hfind
          simp at hfind
        refine .inr (.inr (.inl ⟨hserver, hvalid, rfl, ?_⟩))
        rw [if_neg htaken]
        rfl
    · rw [if_pos hvalid]
      refine .inr (.inl ⟨hserver, hvalid, ?_⟩)
      dsimp only
      rw [if_neg hvalid]
  · exact .inl ⟨hserver, if_pos hserver⟩

variable {maxNickNameLength this user s}

/-- A refusal changes nothing. -/
theorem addUser_refused (h : (addUser maxNickNameLength this user s).1 ≠ .noError) :
    (addUser maxNickNameLength this user s).2 = s := by
  rcases addUser_cases maxNickNameLength this user s with
    ⟨-, hcall⟩ | ⟨-, -, hcall⟩ | ⟨-, -, -, hcall⟩ | ⟨-, -, -, hcall⟩
  · rw [hcall]
  · rw [hcall]
  · rw [hcall]
  · rw [hcall] at h
    exact absurd rfl h

/-- A success adds the user and counts it. -/
theorem addUser_added (h : (addUser maxNickNameLength this user s).1 = .noError) :
    Added user s (addUser maxNickNameLength this user s).2 := by
  rcases addUser_cases maxNickNameLength this user s with
    ⟨-, hcall⟩ | ⟨-, hvalid, hcall⟩ | ⟨-, -, -, hcall⟩ | ⟨-, -, -, hcall⟩
  · simp [hcall] at h
  · rw [hcall] at h
    exact absurd h hvalid
  · simp [hcall] at h
  · rw [hcall]
    constructor
    · exact AList.lookup_insert _
    · intro name hname
      exact AList.lookup_insert_ne hname
    · rfl
    · rfl
    · rfl

theorem documented_of_valid (hserver : user.server = this)
    (hvalid : Client.Name.checkValidity maxNickNameLength user.entity.name = .noError) :
    (documented maxNickNameLength this user s.registry = .entityExists ↔ IsRegistered s.registry user) ∧
      (documented maxNickNameLength this user s.registry = .noError ↔
        ¬ IsRegistered s.registry user ∧ ¬ NameTaken s.registry user) := by
  unfold documented
  rw [if_neg (not_not.2 hserver), if_neg (not_not.2 hvalid)]
  by_cases hregistered : IsRegistered s.registry user
  · simp [hregistered]
  · by_cases htaken : NameTaken s.registry user
    · simp [hregistered, htaken]
    · simp [hregistered, htaken]

/-- For a valid name on the right server, a call does what is documented if the user is
registered and its name is held, or it is not and no client has the name. -/
theorem addUser_meets_iff (maxNickNameLength this : Nat) (user : User) (s : Registered) :
    MeetsContract maxNickNameLength this user s ↔
      user.server ≠ this ∨ Client.Name.checkValidity maxNickNameLength user.entity.name ≠ .noError ∨
        (IsRegistered s.registry user ∧ (s.registry.findUser user.entity.name).isSome) ∨
        (¬ IsRegistered s.registry user ∧ s.registry.findUser user.entity.name = none ∧
          s.registry.findService user.entity.name = none) := by
  have hmeets : MeetsContract maxNickNameLength this user s ↔
      (addUser maxNickNameLength this user s).1 = documented maxNickNameLength this user s.registry :=
    ⟨fun h => h.result, fun h => ⟨h, addUser_refused, addUser_added⟩⟩
  rw [hmeets]
  rcases addUser_cases maxNickNameLength this user s with
    ⟨hserver, hcall⟩ | ⟨hserver, hvalid, hcall⟩ | ⟨hserver, hvalid, hsome, hcall⟩ | ⟨hserver, hvalid, hnone, hcall⟩
  · refine iff_of_true ?_ (.inl hserver)
    rw [hcall, documented, if_pos hserver]
  · refine iff_of_true ?_ (.inr (.inl hvalid))
    rw [hcall, documented, if_neg (not_not.2 hserver), if_pos hvalid]
  · rw [hcall, eq_comm, (documented_of_valid hserver hvalid).1]
    have hne : s.registry.findUser user.entity.name ≠ none := Option.isSome_iff_ne_none.1 hsome
    simp [hserver, hvalid, hsome, hne]
  · rw [hcall, eq_comm, (documented_of_valid hserver hvalid).2]
    simp [hserver, hvalid, hnone, NameTaken]

/-- A user called "alice", and the registry after it was added. -/
def sampleRegistered : Registered :=
  (addUser 9 0 ⟨⟨1, wide "alice"⟩, 0⟩ ⟨{}, {}, {}⟩).2

/-- Another user who wants the nickname is told that it is registered already. -/
theorem not_meets_sample : ¬ MeetsContract 9 0 ⟨⟨2, wide "Alice"⟩, 0⟩ sampleRegistered := by
  intro h
  have hresult := h.result
  have hcode : (addUser 9 0 ⟨⟨2, wide "Alice"⟩, 0⟩ sampleRegistered).1 = .entityExists := by decide +kernel
  have hvalid : Client.Name.checkValidity 9 (wide "Alice") = .noError := by decide +kernel
  have hregistered := (documented_of_valid rfl hvalid).1.1 (hcode ▸ hresult).symm
  obtain ⟨name, hname⟩ := hregistered
  have hlookup : sampleRegistered.registry.users.lookup name = some 1 ∨
      sampleRegistered.registry.users.lookup name = none := by
    have husers : sampleRegistered.registry.users = AList.insert (wide "alice") 1 ∅ := AList.ext (by decide +kernel)
    rw [husers]
    by_cases hkey : name = wide "alice"
    · subst hkey
      exact .inl (AList.lookup_insert _)
    · rw [AList.lookup_insert_ne hkey]
      exact .inr (AList.lookup_empty name)
  rcases hlookup with h1 | h0
  · rw [h1] at hname
    simp at hname
  · rw [h0] at hname
    simp at hname

end

end KineIRCd.Server

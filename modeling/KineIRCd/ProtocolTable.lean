import KineIRCd.Lib.Index
import KineIRCd.Text
/-!
# The protocol table

`Daemon::registerProtocol` and `Daemon::findProtocol` go by the key of a
`ProtocolInfo::Description`. The key is a member of a union and has no octets
of its own: it is read from where the type was written, and it is what the
constructor writes last. So a description is kept here as the octets of its
storage.

`findProtocol_registered`: every lookup finds the object that was registered
first.
-/
namespace KineIRCd.ProtocolTable

/-! ## Storage -/

/-- The octets of an unsigned value, the low one first. -/
def octetsOf : Nat → Nat → Octets
  | 0, _ => []
  | n + 1, value => UInt8.ofNat value :: octetsOf n (value / 256)

/-- The value that octets hold. -/
def valueOf (octets : Octets) : Nat := octets.foldr (fun c value => c.toNat + 256 * value) 0

def store (offset : Nat) (value storage : Octets) : Octets :=
  storage.take offset ++ value ++ storage.drop (offset + value.length)

def fetch (offset n : Nat) (storage : Octets) : Octets := (storage.drop offset).take n

theorem length_octetsOf (n value : Nat) : (octetsOf n value).length = n := by
  induction n generalizing value with
  | zero => rfl
  | succ n ih => rw [octetsOf, List.length_cons, ih]

theorem valueOf_octetsOf_zero (n : Nat) : valueOf (octetsOf n 0) = 0 := by
  induction n with
  | zero => rfl
  | succ n ih =>
    change (0 : UInt8).toNat + 256 * valueOf (octetsOf n 0) = 0
    rw [ih]
    rfl

/-- What was stored last is there. -/
theorem fetch_store (value storage : Octets) : fetch 0 value.length (store 0 value storage) = value := by
  simp [fetch, store]

/-! ## Descriptions -/

/-- `ProtocolInfo::Type`. -/
inductive ProtocolType where
  | registrarExtension
  | primary
  | network
  | server
  | service
  | user
  deriving DecidableEq

/-- The enumeration starts at 1. -/
def ProtocolType.value : ProtocolType → Nat
  | .registrarExtension => 1
  | .primary => 2
  | .network => 3
  | .server => 4
  | .service => 5
  | .user => 6

/-- A `const char*`, with the characters found there. -/
structure CString where
  address : Nat
  text : Octets
  deriving DecidableEq

/-- The sizes of the members of a description. -/
def enumSize : Nat := 4

section
variable (pointerSize : Nat)

/-- `name` comes after `type`, where a pointer may lie. -/
def nameOffset : Nat := (enumSize + pointerSize - 1) / pointerSize * pointerSize

/-- The constructor of `ProtocolInfo::Description`, in storage that held something else.
`key` lies over `type` and is initialised last. -/
def description (type : ProtocolType) (name : CString) (raw : Octets) : Octets :=
  let withType := store 0 (octetsOf enumSize type.value) raw
  let withName := store (nameOffset pointerSize) (octetsOf pointerSize name.address) withType
  store 0 (octetsOf pointerSize 0) withName

/-- `Description::key`, as an address. -/
def key (storage : Octets) : Nat := valueOf (fetch 0 pointerSize storage)

/-- Neither the type nor the name is left in the key. -/
theorem key_description (type : ProtocolType) (name : CString) (raw : Octets) :
    key pointerSize (description pointerSize type name raw) = 0 := by
  have hfetch := fetch_store (octetsOf pointerSize 0)
    (store (nameOffset pointerSize) (octetsOf pointerSize name.address) (store 0 (octetsOf enumSize type.value) raw))
  rw [length_octetsOf] at hfetch
  rw [key, description, hfetch]
  exact valueOf_octetsOf_zero pointerSize

/-! ## The table -/

/-- An object of the class `ProtocolInfo`, by its address. `raw` is what its storage held
before. -/
structure ProtocolInfo where
  address : Nat
  type : ProtocolType
  name : CString
  raw : Octets
  deriving DecidableEq

def ProtocolInfo.description (info : ProtocolInfo) : Octets :=
  ProtocolTable.description pointerSize info.type info.name info.raw

/-- `protocols_type`: the pointers are compared, not the texts. -/
abbrev Protocols := AList (fun _ : Nat => ProtocolInfo)

/-- `Daemon::registerProtocol`. -/
def registerProtocol (info : ProtocolInfo) (protocols : Protocols) : Bool × Protocols :=
  if (protocols.lookup (key pointerSize (info.description pointerSize))).isSome then (false, protocols)
  else (true, protocols.insert (key pointerSize (info.description pointerSize)) info)

/-- `Daemon::findProtocol`. The description is built on the stack, over `raw`. -/
def findProtocol (type : ProtocolType) (name : CString) (raw : Octets) (protocols : Protocols) : Option ProtocolInfo :=
  protocols.lookup (key pointerSize (description pointerSize type name raw))

/-- A sequence of calls: their results and the table after them. -/
def registerAll : List ProtocolInfo → Protocols → List Bool × Protocols
  | [], protocols => ([], protocols)
  | info :: infos, protocols =>
    let call := registerProtocol pointerSize info protocols
    let calls := registerAll infos call.2
    (call.1 :: calls.1, calls.2)

/-! ## What the table holds -/

variable {pointerSize} {info : ProtocolInfo} {infos : List ProtocolInfo} {protocols : Protocols} {type : ProtocolType}
  {name : CString} {raw : Octets}

theorem findProtocol_eq : findProtocol pointerSize type name raw protocols = protocols.lookup 0 := by
  rw [findProtocol, key_description]

/-- A table with an object in it takes no other. -/
theorem registerProtocol_of_some {first : ProtocolInfo} (h : protocols.lookup 0 = some first) :
    registerProtocol pointerSize info protocols = (false, protocols) := by
  rw [registerProtocol, ProtocolInfo.description, key_description, h]
  rfl

theorem registerProtocol_of_none (h : protocols.lookup 0 = none) :
    registerProtocol pointerSize info protocols = (true, protocols.insert 0 info) := by
  rw [registerProtocol, ProtocolInfo.description, key_description, h]
  rfl

theorem registerAll_of_some {first : ProtocolInfo} (h : protocols.lookup 0 = some first) :
    registerAll pointerSize infos protocols = (List.replicate infos.length false, protocols) := by
  induction infos with
  | nil => rfl
  | cons info infos ih =>
    rw [registerAll, registerProtocol_of_some h, ih]
    rfl

/-- Only the first call of all puts something into the table. -/
theorem registerAll_cons : registerAll pointerSize (info :: infos) ∅ =
    (true :: List.replicate infos.length false, AList.insert 0 info ∅) := by
  have hfirst : (AList.insert 0 info ∅ : Protocols).lookup 0 = some info := AList.lookup_insert _
  rw [registerAll, registerProtocol_of_none (AList.lookup_empty 0), registerAll_of_some hfirst]

/-- Every lookup finds the object registered first, whatever its type and name. -/
theorem findProtocol_registered :
    findProtocol pointerSize type name raw (registerAll pointerSize infos ∅).2 = infos.head? := by
  rw [findProtocol_eq]
  cases infos with
  | nil => rfl
  | cons info infos =>
    rw [registerAll_cons]
    exact AList.lookup_insert _

/-! ## A table keyed by type and name -/

/-- The type and the name of an object, by content. -/
def ProtocolInfo.pair (info : ProtocolInfo) : ProtocolType × Octets := (info.type, info.name.text)

/-- After the calls the table is one keyed by type and name. -/
structure KeyedByContent (pointerSize : Nat) (infos : List ProtocolInfo) : Prop where
  registers : ∀ result ∈ (registerAll pointerSize infos ∅).1, result = true
  finds : ∀ type name raw, findProtocol pointerSize type name raw (registerAll pointerSize infos ∅).2 =
    infos.find? fun info => info.pair = (type, name.text)
  refuses : ∀ info ∈ infos, ∀ again : ProtocolInfo, again.pair = info.pair →
    registerProtocol pointerSize again (registerAll pointerSize infos ∅).2 = (false, (registerAll pointerSize infos ∅).2)

/-- A lookup is right if nothing is registered or the first object is the one looked for. -/
theorem findProtocol_right_iff :
    findProtocol pointerSize type name raw (registerAll pointerSize infos ∅).2 =
        infos.find? (fun info => info.pair = (type, name.text)) ↔
      ∀ first ∈ infos.head?, first.pair = (type, name.text) := by
  rw [findProtocol_registered]
  cases infos with
  | nil => simp
  | cons first infos =>
    constructor
    · intro h first' hfirst
      obtain rfl : first = first' := by simpa using hfirst
      simpa using List.find?_some h.symm
    · intro h
      have hpair := h first rfl
      simp [hpair]

/-- Every call but the first is refused. -/
theorem registers_iff : (∀ result ∈ (registerAll pointerSize infos ∅).1, result = true) ↔ infos.length ≤ 1 := by
  cases infos with
  | nil => simp [registerAll]
  | cons first infos =>
    rw [registerAll_cons]
    cases infos <;> simp

/-- An object whose pair is taken is refused, as is any other. -/
theorem registerProtocol_again (h : info ∈ infos) (again : ProtocolInfo) :
    registerProtocol pointerSize again (registerAll pointerSize infos ∅).2 =
      (false, (registerAll pointerSize infos ∅).2) := by
  cases infos with
  | nil => simp at h
  | cons first infos =>
    have hfirst : (AList.insert 0 first ∅ : Protocols).lookup 0 = some first := AList.lookup_insert _
    rw [registerAll_cons, registerProtocol_of_some hfirst]

/-- The table is what it is meant to be only as long as nothing is registered: a lookup for
a longer name finds the first object all the same. -/
theorem keyedByContent_iff (pointerSize : Nat) (infos : List ProtocolInfo) :
    KeyedByContent pointerSize infos ↔ infos = [] := by
  constructor
  · intro h
    cases infos with
    | nil => rfl
    | cons first infos =>
      have hpair := findProtocol_right_iff.1 (h.finds first.type ⟨0, 0 :: first.name.text⟩ []) first rfl
      have hlength := congrArg (fun pair => pair.2.length) hpair
      simp [ProtocolInfo.pair] at hlength
  · rintro rfl
    exact ⟨registers_iff.2 (by simp), fun type name raw => findProtocol_right_iff.2 (by simp),
      fun info h again _ => registerProtocol_again h again⟩

/-- The primary protocol of the registrar module and the user protocol, on a machine with
64-bit pointers. -/
def sampleInfos : List ProtocolInfo :=
  [⟨0x1000, .primary, ⟨0x2000, octets "IRC/2"⟩, []⟩, ⟨0x1100, .user, ⟨0x2100, octets "IRC/2"⟩, []⟩]

/-- The second of the two is refused. -/
theorem sampleInfos_not_keyed : (sampleInfos.map ProtocolInfo.pair).Nodup ∧ ¬ KeyedByContent 8 sampleInfos :=
  ⟨by decide +kernel, fun h => absurd (h.registers false (by decide +kernel)) (by decide)⟩

end

end KineIRCd.ProtocolTable

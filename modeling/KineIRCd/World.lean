import KineIRCd.OutputStream
import KineIRCd.Registrar
import Mathlib.Data.Finset.Basic
/-!
# The state of the daemon

Connections and protocol objects live at addresses, and refer to each other and
from the registry by address. An address is never used twice, so one that
refers to a deleted object finds nothing.
-/
namespace KineIRCd

/-! ## Objects -/

namespace Irc2User

/-- `mod_irc2user::User`, with what it inherits from `Kine::User`. -/
structure User where
  nickname : WString
  username : WString
  hostname : WString
  description : WString
  awayMessage : WString := []
  awaySince : Nat := 0
  lastAwake : Nat := 0
  languageList : LanguageList := []
  deriving DecidableEq

/-- `mod_irc2user::Protocol`. Its user is part of the object. -/
structure Protocol where
  inputQueue : Octets
  outputQueue : Octets
  user : User
  deriving DecidableEq

end Irc2User

/-- The two kinds of protocol object. -/
inductive ProtocolBody where
  | registrar (p : Irc2Registrar.Protocol)
  | user (p : Irc2User.Protocol)
  deriving DecidableEq

/-- `Kine::Protocol::Base`: a protocol object, with the connection it was made for. -/
structure ProtocolBase where
  connection : Nat
  body : ProtocolBody
  deriving DecidableEq

namespace ProtocolBase

def inputQueue (p : ProtocolBase) : Octets :=
  match p.body with
  | .registrar r => r.inputQueue
  | .user u => u.inputQueue

def outputQueue (p : ProtocolBase) : Octets :=
  match p.body with
  | .registrar r => r.outputQueue
  | .user u => u.outputQueue

def setInputQueue (q : Octets) (p : ProtocolBase) : ProtocolBase :=
  match p.body with
  | .registrar r => { p with body := .registrar { r with inputQueue := q } }
  | .user u => { p with body := .user { u with inputQueue := q } }

def setOutputQueue (q : Octets) (p : ProtocolBase) : ProtocolBase :=
  match p.body with
  | .registrar r => { p with body := .registrar { r with outputQueue := q } }
  | .user u => { p with body := .user { u with outputQueue := q } }

def outputLine (line : Octets) (p : ProtocolBase) : ProtocolBase :=
  p.setOutputQueue (Clbp.outputLine Clbp.EOL_CR_LF p.outputQueue line)

def moreOutput (p : ProtocolBase) : Bool := Clbp.moreOutput p.outputQueue

/-- The user that is part of the object, if it is a user's protocol. -/
def user? (p : ProtocolBase) : Option Irc2User.User :=
  match p.body with
  | .registrar _ => none
  | .user u => some u.user

def modifyUser (f : Irc2User.User → Irc2User.User) (p : ProtocolBase) : ProtocolBase :=
  match p.body with
  | .registrar _ => p
  | .user u => { p with body := .user { u with user := f u.user } }

end ProtocolBase

/-- `Kine::Connection`, which refers to its protocol by address. -/
structure Connection where
  fd : Nat
  remoteAddress : Octets
  protocol : Nat
  connected : Bool := true
  sentBytes : UInt64 := 0
  receivedBytes : UInt64 := 0
  lastSpoke : Nat := 0
  deriving DecidableEq

/-- `AIS::Util::PeakCount<unsigned int>`. -/
structure PeakCount where
  count : UInt32 := 0
  peak : UInt32 := 0
  deriving DecidableEq

def PeakCount.increment (p : PeakCount) : PeakCount := { count := p.count + 1, peak := max p.peak (p.count + 1) }
def PeakCount.decrement (p : PeakCount) : PeakCount := { p with count := p.count - 1 }

/-! ## Events

The daemon keeps no such record: it serves the statements about runs, and no
function reads it. What an event says holds right before it happens. -/

inductive Event where
  /-- A connection was accepted. Did a live one use its descriptor? -/
  | accept (fd : Nat) (inUse : Bool)
  /-- `goodbye` was called on a connection. -/
  | goodbye (connection : Nat)
  /-- A protocol parsed a line. Had goodbye been said on its connection before
  the chunk, and before the line? Was there a use for the line, and was it put
  to one? -/
  | line (protocol : Nat) (text : Octets) (goodbyeBeforeChunk goodbyeBefore hasUse acted : Bool)
  /-- The registrar at `registrar` made the user protocol at `created` and gave
  it its input queue. Was the nickname valid and free? Was the user of the
  protocol it replaced in the registry? How many users were? -/
  | create (registrar created : Nat) (inputQueue : Octets) (valid free replacedHeld : Bool) (users : Nat)
  /-- The user of a protocol quit. Was there an entry under its nickname, and
  what did the counters say? -/
  | quit (protocol : Nat) (held : Bool) (networkCount serverCount : UInt32)
  /-- A user's protocol was given a message to send. Was its connection the
  sender's own? Is it the protocol of that connection, and had it output already? -/
  | deliver (receiver : Nat) (own attached pending : Bool)
  /-- A connection was deleted. Was its protocol's user in the registry? -/
  | destroy (connection : Nat) (held : Bool)
  deriving DecidableEq

/-! ## The world -/

structure World where
  connections : List Nat := []
  connection : Nat → Option Connection := fun _ => none
  protocol : Nat → Option ProtocolBase := fun _ => none
  /-- The number of objects allocated so far. The next one gets this address. -/
  allocated : Nat := 0
  registry : Registry := {}
  networkUserCount : PeakCount := {}
  serverUserCount : PeakCount := {}
  inFDSET : Finset Nat := ∅
  outFDSET : Finset Nat := ∅
  maxDescriptors : Nat := 0
  receivedBytes : UInt64 := 0
  rand : Nat := 0
  time : Nat := 0
  log : List Event := []

namespace World

def record (e : Event) (w : World) : World := { w with log := w.log ++ [e] }

def modifyConnection (c : Nat) (f : Connection → Connection) (w : World) : World :=
  { w with connection := Function.update w.connection c ((w.connection c).map f) }

def modifyProtocol (a : Nat) (f : ProtocolBase → ProtocolBase) (w : World) : World :=
  { w with protocol := Function.update w.protocol a ((w.protocol a).map f) }

/-- Queue a line on the protocol at an address. -/
def outputLine (a : Nat) (line : Octets) (w : World) : World := w.modifyProtocol a (·.outputLine line)

/-- `Connection::goodbye`. -/
def goodbye (c : Nat) (w : World) : World :=
  (w.modifyConnection c fun c => { c with connected := false }).record (.goodbye c)

def isConnected (w : World) (c : Nat) : Bool := (w.connection c).any (·.connected)

/-- Has `goodbye` been called on the connection? -/
def saidGoodbye (w : World) (c : Nat) : Bool := decide (.goodbye c ∈ w.log)

/-- Does a live connection use the descriptor? -/
def inUse (w : World) (fd : Nat) : Bool := w.connections.any fun c => (w.connection c).any fun conn => decide (conn.fd = fd)

/-- Does the protocol at an address have output to send? -/
def pending (w : World) (a : Nat) : Bool := (w.protocol a).any (·.moreOutput)

/-- Is the protocol at `a` the one its connection refers to? -/
def attached (w : World) (a : Nat) : Bool :=
  (w.protocol a).any fun p => (w.connection p.connection).any fun c => decide (c.protocol = a)

/-- Is there a registry entry that refers to the user at `a`? -/
def held (w : World) (a : Nat) : Bool := w.registry.users.keys.any fun k => decide (w.registry.users.lookup k = some a)

/-- Put a new object at the next address. -/
def allocate (p : ProtocolBase) (w : World) : World :=
  { w with protocol := Function.update w.protocol w.allocated (some p), allocated := w.allocated + 1 }

/-- `Server::addUser`. A local user's server is always this one. -/
def addUser (maxNickNameLength : Nat) (user : Entity) (w : World) : Error × World :=
  let result := w.registry.addUser maxNickNameLength user
  if result.1 = .noError then
    (result.1, { w with
      registry := result.2
      serverUserCount := w.serverUserCount.increment
      networkUserCount := w.networkUserCount.increment })
  else (result.1, { w with registry := result.2 })

/-- `User::quit`. The counters go down whether or not the user is found. -/
def quit (user : Entity) (w : World) : World :=
  record (.quit user.address (w.registry.findUser user.name).isSome w.networkUserCount.count w.serverUserCount.count)
    { w with
      -- before anyone looks for the user
      serverUserCount := w.serverUserCount.decrement
      networkUserCount := w.networkUserCount.decrement
      registry := (w.registry.removeUser user).2 }

/-- A message for the user of the protocol at `receiver`, from one on `connection`. -/
def deliver (connection receiver : Nat) (line : Octets) (w : World) : World :=
  (w.outputLine receiver line).record
    (.deliver receiver ((w.protocol receiver).any fun p => decide (p.connection = connection)) (w.attached receiver)
      (w.pending receiver))

end World

end KineIRCd

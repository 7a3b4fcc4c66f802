import KineIRCd.Irc2User
/-!
# The daemon's loop

`Daemon::run` waits in `select()`, accepts connections, and then goes through
the connections: one that can be read hands what it read to its protocol, one
that can be written sends a block of what its protocol has queued.
-/
namespace KineIRCd.Daemon

open Irc2User (Site Self)
open LibIRC2 LibIRC2.Numerics

variable (site : Site)

/-! ## The hand-over -/

/-- The lines the user protocol's constructor queues for a registered user. -/
def welcome (self : Self) (w : World) : World :=
  let u := self.user
  let text (tag : LangTag) (parameters : List WString) := Irc2User.getLang site self tag parameters
  let server := site.delocaliseStr site.serverName
  let w := Irc2User.sendNumeric site self RPL_WELCOME [text .irc2_RPL_WELCOME [u.nickname, u.username, u.hostname]] w
  let w := Irc2User.sendNumeric site self RPL_YOURHOST
    [text .irc2_RPL_YOURHOST [site.serverName, toWideStr site.version]] w
  let w := Irc2User.sendNumeric site self RPL_CREATED [text .irc2_RPL_CREATED [toWideStr site.buildTimeFull]] w
  let w := Irc2User.sendNumeric site self RPL_MYINFO [server, site.version, octets "umodes", octets "cmodes",
    octets "cparammodes", octets "uparammodes", octets "smodes", octets "sparammodes"] w
  -- sendISUPPORT, sendLanguageList, sendTimeOnServer, doLUSERS and doMOTD
  [octets "ISUPPORT", octets "LANGUAGE", octets "TIME", octets "LUSERS", octets "MOTD"].foldl
    (fun w command => Irc2User.report site self command [] w) w

/-- The body of `mod_irc2user::Protocol`'s constructor. A user who cannot be
added is not welcomed, and nobody is told. -/
def construct (self : Self) (w : World) : World :=
  let added := w.addUser site.maxNickNameLength ⟨self.this, self.user.nickname⟩
  if added.1 = .noError then
    let user := { self.user with languageList := [site.defaultLanguage] }
    welcome site { self with user } (Irc2User.modifyUser self (fun _ => user) added.2)
  else added.2

/-- What a hand-over records. -/
def createEvent (registrar connection : Nat) (name : WString) (inputQueue : Octets) (w : World) : Event :=
  .create registrar w.allocated inputQueue (decide (Client.Name.checkValidity site.maxNickNameLength name = .noError))
    (w.registry.findUser name).isNone ((w.connection connection).any fun c => w.held c.protocol)
    (Index.size w.registry.users)

/-- `createProtocol` for a user, and `setProtocol` with what it made. -/
def createProtocol (registrar connection : Nat) (registrant : Irc2Registrar.Registrant)
    (inputQueue outputQueue : Octets) (w : World) : World :=
  let created := w.allocated
  let user : Irc2User.User :=
    { nickname := registrant.name
      username := registrant.username
      hostname := toWideStr (((w.connection connection).map (·.remoteAddress)).getD [])
      description := registrant.description
      lastAwake := w.time }
  let w := w.record (createEvent site registrar connection registrant.name inputQueue w)
  let w := w.allocate ⟨connection, .user { inputQueue, outputQueue, user }⟩
  let w := construct site ⟨created, connection, user⟩ w
  w.modifyConnection connection fun c => { c with protocol := created }

/-! ## Lines -/

/-- The registrar at `this` parses a message. Deleting a registrar that hands
over is modelled as leaving it where it is: its `handleInput` goes on with it. -/
def registrarMessage (this connection : Nat) (r : Irc2Registrar.Protocol) (m : Message) (w : World) : World × Bool :=
  let result := Irc2Registrar.Session.parseMessage site.toEnv w.registry m
    { this := r, connected := w.isConnected connection, rand := w.rand }
  let s := result.1
  let acted := decide (s.this.registrantData ≠ r.registrantData ∨ s.this.registrationType ≠ r.registrationType) ||
    s.trace.any fun | .create _ => true | _ => false
  let w := w.modifyProtocol this fun p => { p with body := .registrar s.this }
  let w := { w with rand := s.rand }
  let w := if s.connected then w else w.goodbye connection
  if result.2 then
    -- the queue is what it was before the line: the loop has yet to clear it
    (createProtocol site this connection s.this.registrantData s.this.inputQueue s.this.outputQueue w, acted)
  else (w, acted)

/-- The message handler of the protocol at `this`. -/
def protocolMessage (this : Nat) (p : ProtocolBase) (m : Message) (w : World) : World × Bool :=
  match p.body with
  | .registrar r => registrarMessage site this p.connection r m w
  | .user u => Irc2User.parseMessage site ⟨this, p.connection, u.user⟩ m w

/-- Is there a use for the message? A registrar has one for the commands of its
table, and for any other when the registration is complete already. -/
def hasUse (p : ProtocolBase) (m : Message) : Bool :=
  match p.body with
  | .registrar r => (Irc2Registrar.Session.commandTable.lookup m.command).isSome ||
      (Irc2Registrar.Session.findCompletion site.toEnv { this := r }).2.isSome
  | .user u => Irc2User.handles u.user m

/-- `parseLine` of the protocol at `this`, in a chunk before which goodbye had
been said or not. -/
def parseLine (this : Nat) (goodbyeBeforeChunk : Bool) (line : Octets) (w : World) : World :=
  match w.protocol this with
  | none => w
  | some p =>
    match LibIRC2.parseLine line with
    -- a line without a command is dropped
    | none => w.record (.line this line goodbyeBeforeChunk (w.saidGoodbye p.connection) false false)
    | some m =>
      let result := protocolMessage site this p m w
      result.1.record (.line this line goodbyeBeforeChunk (w.saidGoodbye p.connection) (hasUse site p m) result.2)

/-- The input half of the protocol at `this`. -/
def input (this : Nat) (goodbyeBeforeChunk : Bool) : Clbp.Input World where
  inputQueue w := ((w.protocol this).map (·.inputQueue)).getD []
  setInputQueue q w := w.modifyProtocol this (·.setInputQueue q)
  parseLine line w := parseLine site this goodbyeBeforeChunk line w

/-! ## Connections -/

/-- `FD_SET` for a connection whose protocol has output. -/
def wake (c : Nat) (w : World) : World :=
  match w.connection c with
  | none => w
  | some conn => if w.pending conn.protocol then { w with outFDSET := insert conn.fd w.outFDSET } else w

/-- What is counted of a line that was read. `addReceivedBytes` takes its length as
an `unsigned int`, which cuts nothing off: a read is no longer than a block. -/
def receive (c : Nat) (line : Octets) (w : World) : World :=
  { w.modifyConnection c (fun conn => { conn with
      receivedBytes := conn.receivedBytes + UInt64.ofNat line.length, lastSpoke := w.time }) with
    receivedBytes := w.receivedBytes + UInt64.ofNat line.length }

/-- `Connection::handleInput`, with what the socket reads, or `none` if that fails. -/
def handleInput (c : Nat) (read : Option Octets) (w : World) : Bool × World :=
  match w.connection c with
  | none => (false, w)
  | some conn =>
    if !conn.connected then (false, w)
    else match read with
      | none => (false, w)
      | some line =>
        -- a socket that is okay may have nothing to read
        let w := if line = [] then w else (input site conn.protocol (w.saidGoodbye c)).handleInput line (receive c line w)
        (true, wake c w)

/-- `Connection::sendOutput`, with what the socket's `write` answers. -/
def sendOutput (c written : Nat) (w : World) : World :=
  match w.connection c with
  | none => w
  | some conn =>
    match w.protocol conn.protocol with
    | none => w
    | some p =>
      let out := Outgoing.sendOutput site.readBlockSize written ⟨p.outputQueue, conn.sentBytes⟩
      let w := w.modifyProtocol conn.protocol (·.setOutputQueue out.outputQueue)
      let w := w.modifyConnection c fun conn => { conn with sentBytes := out.sentBytes }
      if Clbp.moreOutput out.outputQueue then w else { w with outFDSET := w.outFDSET.erase conn.fd }

/-- What `accept` gives: a socket and whether it is okay. -/
structure Accepted where
  fd : Nat
  remoteAddress : Octets
  isOkay : Bool := true

/-- `Daemon::newConnection`. -/
def newConnection (flags : ListenerFlags) (accepted : Option Accepted) (w : World) : World :=
  match accepted with
  | none => w
  | some socket =>
    let c := w.allocated
    let conn : Connection :=
      { fd := socket.fd, remoteAddress := socket.remoteAddress, protocol := c + 1, connected := socket.isOkay
        lastSpoke := w.time }
    { w.record (.accept socket.fd (w.inUse socket.fd)) with
      inFDSET := insert socket.fd w.inFDSET
      maxDescriptors := if socket.fd ≥ w.maxDescriptors then socket.fd + 1 else w.maxDescriptors
      connection := Function.update w.connection c (some conn)
      protocol := Function.update w.protocol (c + 1) (some ⟨c, .registrar { listener := flags }⟩)
      allocated := w.allocated + 2
      connections := c :: w.connections }

/-- A connection whose `handleInput` failed goes, and its protocol with it. -/
def destroy (c : Nat) (w : World) : World :=
  match w.connection c with
  | none => w
  | some conn =>
    { w.record (.destroy c (w.held conn.protocol)) with
      inFDSET := w.inFDSET.erase conn.fd
      outFDSET := w.outFDSET.erase conn.fd
      protocol := Function.update w.protocol conn.protocol none
      connection := Function.update w.connection c none
      connections := w.connections.erase c }

/-! ## The loop -/

/-- What the system reports in one pass, by descriptor. -/
structure Pass where
  time : Nat := 0
  readable : Nat → Bool := fun _ => false
  writable : Nat → Bool := fun _ => false
  accept : Nat → Option Accepted := fun _ => none
  read : Nat → Option Octets := fun _ => none
  written : Nat → Nat := fun _ => 0

variable (p : Pass)

/-- `sendOutput`, if the descriptor is reported writable. -/
def sendIfWritable (c : Nat) (w : World) : World :=
  match w.connection c with
  | none => w
  | some conn => if p.writable conn.fd then sendOutput site c (p.written conn.fd) w else w

/-- The loop over the connections. It ends after one that was deleted. -/
def serve : List Nat → World → World
  | [], w => w
  | c :: cs, w =>
    match w.connection c with
    | none => serve cs w
    | some conn =>
      -- a failed read deletes the connection and breaks the loop
      if p.readable conn.fd then
        let result := handleInput site c (p.read conn.fd) w
        if result.1 then serve cs (sendIfWritable site p c result.2) else destroy c result.2
      else serve cs (sendIfWritable site p c w)

def acceptAll (w : World) : World :=
  site.listeners.foldl
    (fun w listener => if p.readable listener.1 then newConnection listener.2 (p.accept listener.1) w else w) w

/-- One pass of `Daemon::run` after `select()` returned. -/
def pass (w : World) (p : Pass) : World :=
  let w := acceptAll site p { w with time := p.time }
  serve site p w.connections w

/-- The state `Daemon::run` enters its loop with. -/
def start : World :=
  site.listeners.foldl
    (fun w listener => { w with
      inFDSET := insert listener.1 w.inFDSET
      maxDescriptors := if listener.1 ≥ w.maxDescriptors then listener.1 + 1 else w.maxDescriptors })
    { inFDSET := {0} }

def run (passes : List Pass) : World := passes.foldl (pass site) (start site)

/-- A step of a pass. -/
inductive Action where
  | setTime (t : Nat)
  | newConnection (flags : ListenerFlags) (accepted : Option Accepted)
  | handleInput (c : Nat) (read : Option Octets)
  | sendOutput (c written : Nat)
  | destroy (c : Nat)

def act (w : World) : Action → World
  | .setTime t => { w with time := t }
  | .newConnection flags accepted => newConnection flags accepted w
  | .handleInput c read => (handleInput site c read w).2
  | .sendOutput c written => sendOutput site c written w
  | .destroy c => destroy c w

/-- The state after any steps, in any order. -/
def reach (actions : List Action) : World := actions.foldl (act site) (start site)

/-! ## Clients to try

The listener is on descriptor 3, and the commands that only report say nothing. -/

def sampleSite : Site :=
  { Env.sample with listeners := [(3, .all)], report := fun _ _ _ _ => [], serviceName := fun _ => [] }

def connects (fd : Nat) : Pass where
  readable l := l = 3
  accept _ := some { fd, remoteAddress := octets "localhost" }

def sends (fd : Nat) (data : Octets) : Pass where
  readable d := d = fd
  read _ := some data

/-- The read on the descriptor fails. -/
def drops (fd : Nat) : Pass where
  readable d := d = fd

/-- The descriptor takes a whole block. -/
def takes (fd : Nat) : Pass where
  writable d := d = fd
  written _ := sampleSite.readBlockSize

/-- A client connects and registers, and answers the anti-spoof ping. -/
def registers (fd : Nat) (nickname pong : String) : List Pass :=
  [connects fd, sends fd (octets "NICK " ++ octets nickname ++ octets "\r\n"),
    sends fd (octets "PONG " ++ octets pong ++ octets "\r\n"), sends fd (octets "USER user 0 host :name\r\n")]

/-- The same, as steps. -/
def accepts (fd : Nat) : Action := .newConnection .all (some { fd, remoteAddress := octets "localhost" })

def types (c : Nat) (data : String) : Action := .handleInput c (some (octets data))

end KineIRCd.Daemon

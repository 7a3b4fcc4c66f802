import KineIRCd.FileLog
import KineIRCd.Lib.Runs
import Mathlib.Data.List.Sort
import Mathlib.Logic.Function.Basic
/-!
# Who logs what

Modules are loaded one by one and started together. A module that logs registers
a logger with the daemon when it is started, and takes it back when it goes. The
daemon passes every message on to all loggers, and each drops what its mask does
not enable.
-/
namespace KineIRCd

open Logger Templates

/-- `Logger::Mask::type`, with its entry of the table. -/
abbrev Logger.Category := { entry : MaskMapper // entry ∈ maskTable }

namespace Logging

def Housekeeping : Category := ⟨maskTable[20], List.getElem_mem _⟩

def Warning : Category := ⟨maskTable[18], List.getElem_mem _⟩

/-- A call of `Daemon::log`, and the time of the daemon then. -/
structure Message where
  str : Octets
  category : Category
  clock : Clock

/-! ## Loggers -/

/-- The modules that make a logger, and any other, with what their configuration
says about it. -/
inductive Kind where
  | filelog (filename format : Octets) (utc : Bool)
  | syslog
  | channellog
  /-- Nothing to do with logs. Does it start? -/
  | other (starts : Bool)
  deriving DecidableEq

/-- What a logger has written: to its file, or to the system's log by priority. -/
inductive Sink where
  | fileLog (log : FileLog)
  | syslog (lines : List (Nat × Octets))
  | channelLog

/-- `Kine::Logger`. -/
structure LoggerObject where
  logMask : UInt32
  sink : Sink

def LOG_ERR : Nat := 3
def LOG_NOTICE : Nat := 5
def LOG_INFO : Nat := 6
def LOG_DEBUG : Nat := 7

/-- The priorities of `logger.def`. -/
def syslogpri : List Nat :=
  [LOG_DEBUG, LOG_ERR, LOG_NOTICE, LOG_ERR, LOG_NOTICE, LOG_NOTICE, LOG_INFO, LOG_INFO, LOG_INFO, LOG_INFO, LOG_NOTICE,
   LOG_INFO, LOG_INFO, LOG_NOTICE, LOG_NOTICE, LOG_INFO, LOG_INFO, LOG_NOTICE, LOG_INFO, LOG_NOTICE, LOG_NOTICE]

/-- The `switch` of `Syslog::logLine`. -/
def priority (mask : UInt32) : Nat := (((maskTable.map (·.mask)).zip syslogpri).lookup mask).getD 0

variable (beyond : MaskMapper)

/-- The `logLine` of each kind of logger. -/
def Sink.logLine (m : Message) : Sink → Sink
  | fileLog log => fileLog (log.logLine beyond m.clock m.str m.category.1.mask)
  -- `c_str()` ends at the first NUL
  | syslog lines => syslog (lines ++ [(priority m.category.1.mask, m.str.takeWhile (· ≠ 0))])
  | channelLog => channelLog

/-- `Logger::log`. -/
def LoggerObject.log (logger : LoggerObject) (m : Message) : LoggerObject :=
  if Enabled m.category.1 logger.logMask then { logger with sink := logger.sink.logLine beyond m } else logger

/-! ## Modules -/

/-- A module with its `Info`, and the values of each LOGMASK of its configuration. -/
structure Module where
  nameShort : Octets
  versionMajor : UInt8
  versionMinor : UInt8
  /-- `UNIQUE_INSTANCE`. -/
  unique : Bool := false
  kind : Kind
  logMasks : List (List Octets) := []

namespace Module

def makeVersionString (m : Module) : Octets :=
  m.nameShort ++ octets "-" ++ decimal m.versionMajor.toNat ++ octets "." ++ decimal m.versionMinor.toNat

/-- Each LOGMASK of the configuration replaces the mask. -/
def getLogMask (m : Module) : UInt32 := m.logMasks.foldl (fun _ values => (varHandleLogMask values).2) Mask.Nothing

/-- The logger a module makes. `opens` says which files can be opened. -/
def logger (opens : Octets → Bool) (m : Module) : Option LoggerObject :=
  match m.kind with
  | .filelog filename format utc => some ⟨m.getLogMask, .fileLog ⟨format, utc, opens filename, ⟨[], 0x20⟩⟩⟩
  | .syslog => some ⟨m.getLogMask, .syslog []⟩
  | .channellog => some ⟨m.getLogMask, .channelLog⟩
  | .other _ => none

end Module

/-- `ModuleDescriptor`: a module that is loaded, and the address of its logger. -/
structure ModuleDescriptor extends Module where
  logger : Option Nat := none

structure State where
  modules : List ModuleDescriptor := []
  /-- `Daemon::loggers`, a set of addresses. -/
  loggers : List Nat := []
  logger : Nat → Option LoggerObject := fun _ => none
  allocated : Nat := 0
  /-- Every message so far, for the statements only. -/
  messages : List Message := []

namespace State

/-- `Daemon::registerLogger`. -/
def registerLogger (a : Nat) (s : State) : Bool × State :=
  if a ∈ s.loggers then (false, s) else (true, { s with loggers := s.loggers.orderedInsert (· ≤ ·) a })

/-- `Daemon::deregisterLogger`. -/
def deregisterLogger (a : Nat) (s : State) : Bool × State :=
  (decide (a ∈ s.loggers), { s with loggers := s.loggers.erase a })

/-- Pass a message on to one logger. -/
def logLine (m : Message) (s : State) (a : Nat) : State :=
  { s with logger := Function.update s.logger a ((s.logger a).map (·.log beyond m)) }

/-- `Daemon::log`. -/
def log (m : Message) (s : State) : State :=
  { s.loggers.foldl (logLine beyond m) s with messages := s.messages ++ [m] }

/-- `ModuleList::loadModule`, with what loading the file came to. -/
def loadModule (loaded : Except Octets Module) (s : State) : Except Octets Unit × State :=
  match loaded with
  | .error errString => (.error errString, s)
  | .ok m =>
    if m.unique ∧ s.modules.any fun d => d.nameShort = m.nameShort then
      (.error (m.makeVersionString ++ octets " can only be loaded once"), s)
    else (.ok (), { s with modules := s.modules ++ [{ m with }] })

end State

namespace ModuleDescriptor

/-- The `start` of a module. -/
def start (opens : Octets → Bool) (d : ModuleDescriptor) (s : State) : (Bool × ModuleDescriptor) × State :=
  match d.toModule.logger opens with
  | some object =>
    let a := s.allocated
    let registered := { s with
      logger := Function.update s.logger a (some object), allocated := s.allocated + 1 }.registerLogger a
    ((registered.1, { d with logger := some a }), registered.2)
  | none => ((decide (d.kind = .other true), d), s)

/-- What `~ModuleDescriptor` does with the module. The `lt_dlclose()` before it, on
the file that has the code of the module, is left out. -/
def destroy (d : ModuleDescriptor) (s : State) : State :=
  match d.logger with
  | none => s
  | some a => { (s.deregisterLogger a).2 with logger := Function.update s.logger a none }

/-- What is logged when a module was started, or not. -/
def report (d : ModuleDescriptor) (clock : Clock) (started : Bool) : Message :=
  if started then ⟨octets "Started module " ++ d.makeVersionString, Housekeeping, clock⟩
  else ⟨octets "Unable to start module " ++ d.makeVersionString, Warning, clock⟩

end ModuleDescriptor

namespace State

/-- The loop of `ModuleList::startAll`. -/
def startEach (clock : Clock) (opens : Octets → Bool) : List ModuleDescriptor → State → List ModuleDescriptor × State
  | [], s => ([], s)
  | d :: ds, s =>
    let started := d.start opens s
    let rest := startEach clock opens ds (started.2.log beyond (d.report clock started.1.1))
    (started.1.2 :: rest.1, rest.2)

def startAll (clock : Clock) (opens : Octets → Bool) (s : State) : State :=
  let started := startEach beyond clock opens s.modules s
  { started.2 with modules := started.1 }

/-- `ModuleList::stopAll`. -/
def stopAll (s : State) : State := { s.modules.foldl (fun s d => d.destroy s) s with modules := [] }

end State

/-- Something that loads, starts or stops modules, or logs. -/
inductive Op where
  | loadModule (loaded : Except Octets Module)
  | startAll (clock : Clock) (opens : Octets → Bool)
  | log (m : Message)
  | stopAll

def step (s : State) : Op → State
  | .loadModule loaded => (s.loadModule loaded).2
  | .startAll clock opens => s.startAll beyond clock opens
  | .log m => s.log beyond m
  | .stopAll => s.stopAll

def run (ops : List Op) : State := ops.foldl (step beyond) {}

/-! ## What a logger hears -/

/-- The logger has heard every message from the `n`th on. -/
structure Hears (s : State) (a : Nat) (object : LoggerObject) (n : Nat) : Prop where
  registered : a ∈ s.loggers
  le_length : n ≤ s.messages.length
  logger : s.logger a = some ((s.messages.drop n).foldl (LoggerObject.log beyond) object)

/-- Loggers are registered once, and while they exist. -/
structure Registered (s : State) : Prop where
  nodup : s.loggers.Nodup
  lt : ∀ a ∈ s.loggers, a < s.allocated

variable (Started : Clock → (Octets → Bool) → Prop)

/-- The logger of a module has heard every message from the one on that says
that the module was started, at one of the times `Started`, with the file that
could or could not be opened then. -/
def Serves (s : State) (d : ModuleDescriptor) : Prop :=
  ∀ a, d.logger = some a → ∃ opens object n clock, Started clock opens ∧ d.toModule.logger opens = some object ∧
    Hears beyond s a object n ∧ s.messages[n]? = some (d.report clock true)

section
variable {beyond Started} {s : State}

theorem foldl_logLine {loggers : List Nat} (hnodup : loggers.Nodup) (m : Message) (s : State) :
    loggers.foldl (State.logLine beyond m) s =
      { s with logger := fun a => if a ∈ loggers then (s.logger a).map (·.log beyond m) else s.logger a } := by
  induction loggers generalizing s with
  | nil => rfl
  | cons first loggers ih =>
    obtain ⟨hfirst, hnodup⟩ := List.nodup_cons.1 hnodup
    rw [List.foldl_cons, ih hnodup, State.logLine]
    congr 1
    funext a
    dsimp only
    by_cases ha : a = first
    · subst ha
      rw [if_neg hfirst, if_pos List.mem_cons_self, Function.update_self]
    · simp only [List.mem_cons, ha, false_or, Function.update_of_ne ha]

theorem log_eq (h : Registered s) (m : Message) : s.log beyond m =
    { s with
      logger := fun a => if a ∈ s.loggers then (s.logger a).map (·.log beyond m) else s.logger a
      messages := s.messages ++ [m] } := by
  rw [State.log, foldl_logLine h.nodup]

theorem registered_log (h : Registered s) (m : Message) : Registered (s.log beyond m) := by
  rw [log_eq h]
  exact ⟨h.nodup, h.lt⟩

theorem Hears.log (h : Registered s) {a n : Nat} {object : LoggerObject} (ha : Hears beyond s a object n) (m : Message) :
    Hears beyond (s.log beyond m) a object n := by
  rw [log_eq h]
  refine ⟨ha.registered, ha.le_length.trans (by simp), ?_⟩
  dsimp only
  rw [if_pos ha.registered, ha.logger, List.drop_append_of_le_length ha.le_length, List.foldl_append]
  rfl

theorem Serves.log (h : Registered s) {d : ModuleDescriptor} (hd : Serves beyond Started s d) (m : Message) :
    Serves beyond Started (s.log beyond m) d := by
  intro a ha
  obtain ⟨opens, object, n, clock, hstarted, hobject, hhears, hreport⟩ := hd a ha
  refine ⟨opens, object, n, clock, hstarted, hobject, hhears.log h m, ?_⟩
  rw [log_eq h]
  exact (List.getElem?_append_left (List.getElem?_eq_some_iff.1 hreport).1).trans hreport

theorem Serves.congr {d : ModuleDescriptor} {s' : State} (hd : Serves beyond Started s d) (hloggers : s'.loggers = s.loggers)
    (hlogger : s'.logger = s.logger) (hmessages : s'.messages = s.messages) : Serves beyond Started s' d := by
  intro a ha
  obtain ⟨opens, object, n, clock, hstarted, hobject, ⟨hmem, hlength, hheard⟩, hreport⟩ := hd a ha
  exact ⟨opens, object, n, clock, hstarted, hobject, ⟨hloggers ▸ hmem, hmessages ▸ hlength, by rw [hlogger, hmessages, hheard]⟩,
    hmessages ▸ hreport⟩

/-! ### Starting and stopping -/

section
variable (opens : Octets → Bool) (d : ModuleDescriptor)

/-- A logger is made at an address that is not in use, so it can be registered. -/
theorem start_eq (h : Registered s) {object : LoggerObject} (hobject : d.toModule.logger opens = some object) :
    d.start opens s = ((true, { d with logger := some s.allocated }),
      { s with
        logger := Function.update s.logger s.allocated (some object)
        allocated := s.allocated + 1
        loggers := s.loggers.orderedInsert (· ≤ ·) s.allocated }) := by
  have hfresh : s.allocated ∉ s.loggers := fun hmem => Nat.lt_irrefl _ (h.lt _ hmem)
  simp only [ModuleDescriptor.start, hobject, State.registerLogger, if_neg hfresh]

theorem start_none (hobject : d.toModule.logger opens = none) :
    d.start opens s = ((decide (d.kind = .other true), d), s) := by
  simp only [ModuleDescriptor.start, hobject]

theorem registered_start (h : Registered s) : Registered (d.start opens s).2 := by
  cases hobject : d.toModule.logger opens with
  | none =>
    rw [start_none opens d hobject]
    exact h
  | some object =>
    rw [start_eq opens d h hobject]
    refine ⟨?_, fun a ha => ?_⟩
    · rw [(List.perm_orderedInsert (· ≤ ·) s.allocated s.loggers).nodup_iff]
      exact List.nodup_cons.2 ⟨fun hmem => Nat.lt_irrefl _ (h.lt _ hmem), h.nodup⟩
    · rcases (List.mem_orderedInsert (· ≤ ·)).1 ha with rfl | ha
      · exact Nat.lt_succ_self _
      · exact Nat.lt_succ_of_lt (h.lt a ha)

theorem Serves.start (h : Registered s) {other : ModuleDescriptor} (hother : Serves beyond Started s other) :
    Serves beyond Started (d.start opens s).2 other := by
  cases hobject : d.toModule.logger opens with
  | none =>
    rw [start_none opens d hobject]
    exact hother
  | some object =>
    rw [start_eq opens d h hobject]
    intro a ha
    obtain ⟨opens', object', n, clock, hstarted, hobject', hhears, hreport⟩ := hother a ha
    refine ⟨opens', object', n, clock, hstarted, hobject', ⟨?_, hhears.le_length, ?_⟩, hreport⟩
    · exact (List.mem_orderedInsert (· ≤ ·)).2 (.inr hhears.registered)
    · have hne : a ≠ s.allocated := (h.lt a hhears.registered).ne
      exact (Function.update_of_ne hne _ _).trans hhears.logger

/-- The first message that a logger hears is about the module that made it. -/
theorem serves_report (h : Registered s) (hd : Serves beyond Started s d) {clock : Clock}
    (hstarted : Started clock opens) :
    Serves beyond Started ((d.start opens s).2.log beyond (d.report clock (d.start opens s).1.1))
      (d.start opens s).1.2 := by
  have hlog := @log_eq beyond _ (registered_start opens d h) (d.report clock (d.start opens s).1.1)
  cases hobject : d.toModule.logger opens with
  | none =>
    have hstart := start_none (s := s) opens d hobject
    rw [hstart]
    exact hd.log h _
  | some object =>
    rw [hlog, start_eq opens d h hobject]
    intro a ha
    obtain rfl : s.allocated = a := Option.some_inj.1 ha
    have hmem : s.allocated ∈ s.loggers.orderedInsert (· ≤ ·) s.allocated :=
      (List.mem_orderedInsert (· ≤ ·)).2 (.inl rfl)
    refine ⟨opens, object, s.messages.length, clock, hstarted, hobject, ⟨hmem, by simp, ?_⟩, by simp; rfl⟩
    dsimp only
    rw [if_pos hmem, Function.update_self, List.drop_left]
    rfl

end

/-- Starting modules leaves the loggers of others to go on. -/
theorem startEach_serves {clock : Clock} {opens : Octets → Bool} (hstarted : Started clock opens)
    (ds : List ModuleDescriptor) (h : Registered s) (hds : ∀ d ∈ ds, Serves beyond Started s d) :
    Registered (State.startEach beyond clock opens ds s).2 ∧
      (∀ d ∈ (State.startEach beyond clock opens ds s).1,
        Serves beyond Started (State.startEach beyond clock opens ds s).2 d) ∧
      ∀ d, Serves beyond Started s d → Serves beyond Started (State.startEach beyond clock opens ds s).2 d := by
  induction ds generalizing s with
  | nil => exact ⟨h, by simp [State.startEach], fun _ hd => hd⟩
  | cons d ds ih =>
    have hstart := registered_start opens d h
    have hkeep : ∀ other, Serves beyond Started s other →
        Serves beyond Started ((d.start opens s).2.log beyond (d.report clock (d.start opens s).1.1)) other :=
      fun other hother => (hother.start opens d h).log hstart _
    obtain ⟨hregistered, hserves, hothers⟩ := ih (registered_log hstart (d.report clock (d.start opens s).1.1))
      fun other hother => hkeep other (hds other (List.mem_cons_of_mem _ hother))
    refine ⟨hregistered, ?_, fun other hother => hothers other (hkeep other hother)⟩
    rintro other (_ | ⟨_, hother⟩)
    · exact hothers _ (serves_report opens d h (hds d List.mem_cons_self) hstarted)
    · exact hserves other hother

theorem registered_destroy (h : Registered s) (d : ModuleDescriptor) : Registered (d.destroy s) := by
  unfold ModuleDescriptor.destroy
  split
  · exact h
  · exact ⟨h.nodup.erase _, fun a ha => h.lt a (List.mem_of_mem_erase ha)⟩

end

/-- What holds of the loggers in every state. -/
structure Serving (s : State) : Prop where
  registered : Registered s
  serves : ∀ d ∈ s.modules, Serves beyond Started s d

variable {beyond Started} in
theorem serving_step {s : State} (h : Serving beyond Started s) {op : Op}
    (hop : ∀ clock opens, op = .startAll clock opens → Started clock opens) :
    Serving beyond Started (step beyond s op) := by
  obtain ⟨hregistered, hserves⟩ := h
  cases op with
  | loadModule loaded =>
    simp only [step, State.loadModule]
    split
    · exact ⟨hregistered, hserves⟩
    · split_ifs
      · exact ⟨hregistered, hserves⟩
      · refine ⟨⟨hregistered.nodup, hregistered.lt⟩, fun d hd => ?_⟩
        rcases List.mem_append.1 hd with hd | hd
        · exact (hserves d hd).congr rfl rfl rfl
        · -- it has no logger yet
          obtain rfl := List.mem_singleton.1 hd
          intro a ha
          cases ha
  | startAll clock opens =>
    obtain ⟨hregistered', hserves', -⟩ := startEach_serves (hop clock opens rfl) s.modules hregistered hserves
    exact ⟨⟨hregistered'.nodup, hregistered'.lt⟩, fun d hd => (hserves' d hd).congr rfl rfl rfl⟩
  | log m =>
    have hmodules : (s.log beyond m).modules = s.modules := by rw [log_eq hregistered]
    exact ⟨registered_log hregistered m, fun d hd => (hserves d (hmodules ▸ hd)).log hregistered m⟩
  | stopAll =>
    have hdestroyed : Registered (s.modules.foldl (fun s d => d.destroy s) s) :=
      List.foldlRecOn (motive := Registered) _ _ hregistered fun s hs d _ => registered_destroy hs d
    exact ⟨⟨hdestroyed.nodup, hdestroyed.lt⟩, fun d hd => nomatch hd⟩

theorem serving_run (ops : List Op) :
    Serving beyond (fun clock opens => .startAll clock opens ∈ ops) (run beyond ops) := by
  refine Runs.run_inv (P := fun _ op => op ∈ ops) (fun _ op h hop => ?_) ⟨⟨List.nodup_nil, by simp⟩, by simp⟩
    (Runs.along_forall.2 fun _ hop => hop)
  exact serving_step h fun _ _ hstart => hstart ▸ hop

/-! ## What it writes -/

/-- Is the category wanted? The last word of the last LOGMASK that names it says so. -/
def Module.Wants (m : Module) (category : Category) : Prop :=
  ∃ values ∈ m.logMasks.getLast?, values = [] ∨ ∃ word ∈ (values.filter (names category.1)).getLast?, isOn word = true

theorem Module.wants_iff (m : Module) (category : Category) : m.Wants category ↔ Enabled category.1 m.getLogMask := by
  obtain ⟨entry, hentry⟩ := category
  have hlast : m.getLogMask = ((m.logMasks.getLast?.map fun values => (varHandleLogMask values).2)).getD Mask.Nothing := by
    unfold Module.getLogMask
    induction m.logMasks using List.reverseRecOn with
    | nil => rfl
    | append_singleton lines values ih => simp
  unfold Module.Wants
  rw [hlast]
  cases m.logMasks.getLast? with
  | none =>
    refine iff_of_false (by simp) (not_not.2 ?_)
    exact UInt32.zero_and
  | some values => simpa using (enabled_iff hentry values).symm

instance (m : Module) (category : Category) : Decidable (m.Wants category) :=
  decidable_of_iff' _ (m.wants_iff category)

/-- What the file logger writes for a message. -/
def line (format : Octets) (utc : Bool) (m : Message) : Octets :=
  expand 0x25 (FileLog.text beyond m.str m.category.1.mask m.clock.seconds
    (if utc then m.clock.gmtime m.clock.seconds else m.clock.localtime m.clock.seconds)) format

/-- What the system's logger is given for one. -/
def entry (m : Message) : Nat × Octets := (priority m.category.1.mask, m.str.takeWhile (· ≠ 0))

theorem foldl_log (heard : List Message) (object : LoggerObject) : heard.foldl (LoggerObject.log beyond) object =
    { object with
      sink := (heard.filter fun m => Enabled m.category.1 object.logMask).foldl (fun sink m => sink.logLine beyond m)
        object.sink } := by
  induction heard generalizing object with
  | nil => rfl
  | cons m heard ih =>
    rw [List.foldl_cons, ih, LoggerObject.log]
    by_cases hm : Enabled m.category.1 object.logMask
    · rw [if_pos hm, List.filter_cons_of_pos (by simpa using hm), List.foldl_cons]
    · rw [if_neg hm, List.filter_cons_of_neg (by simpa using hm)]

theorem foldl_fileLog (wanted : List Message) (log : FileLog) : ∃ fill,
    wanted.foldl (fun sink m => Sink.logLine beyond m sink) (.fileLog log) =
      .fileLog { log with
        logFile := ⟨log.logFile.written ++ if log.ok then wanted.flatMap (line beyond log.format log.utc) else [], fill⟩ } := by
  induction wanted generalizing log with
  | nil => exact ⟨log.logFile.fill, by simp⟩
  | cons m wanted ih =>
    rw [List.foldl_cons, Sink.logLine, FileLog.logLine]
    by_cases hok : log.ok = true
    · obtain ⟨fill, e⟩ := ih { log with
        logFile := FileLog.process beyond m.str m.category.1.mask m.clock.seconds (log.currentTime m.clock) log.format
          log.logFile }
      refine ⟨fill, ?_⟩
      rw [if_pos hok, e, FileLog.written_process]
      simp [hok, line, FileLog.currentTime]
    · obtain ⟨fill, e⟩ := ih log
      refine ⟨fill, ?_⟩
      rw [if_neg hok, e]
      simp [hok]

theorem foldl_syslog (wanted : List Message) (lines : List (Nat × Octets)) :
    wanted.foldl (fun sink m => Sink.logLine beyond m sink) (.syslog lines) = .syslog (lines ++ wanted.map entry) := by
  induction wanted generalizing lines with
  | nil => simp
  | cons m wanted ih => rw [List.foldl_cons, Sink.logLine, ih, List.map_cons, List.append_assoc]; rfl

/-- The logger `object` of a module has written what the module wants of `heard`, if
its file could be opened. -/
def Wrote (opens : Octets → Bool) (m : Module) (heard : List Message) (object : LoggerObject) : Prop :=
  match m.kind with
  | .filelog filename format utc => ∃ fill, object = ⟨m.getLogMask, .fileLog ⟨format, utc, opens filename,
      ⟨if opens filename then (heard.filter fun x => m.Wants x.category).flatMap (line beyond format utc) else [], fill⟩⟩⟩
  | .syslog => object = ⟨m.getLogMask, .syslog ((heard.filter fun x => m.Wants x.category).map entry)⟩
  | .channellog => object = ⟨m.getLogMask, .channelLog⟩
  | .other _ => False

theorem wrote_foldl {m : Module} {opens : Octets → Bool} {object : LoggerObject} (h : m.logger opens = some object)
    (heard : List Message) : Wrote beyond opens m heard (heard.foldl (LoggerObject.log beyond) object) := by
  have hwants : (fun x : Message => decide (Enabled x.category.1 m.getLogMask)) = fun x => decide (m.Wants x.category) :=
    funext fun x => decide_eq_decide.2 (m.wants_iff x.category).symm
  rw [foldl_log]
  unfold Wrote
  unfold Module.logger at h
  cases hkind : m.kind with
  | filelog filename format utc =>
    rw [hkind] at h
    obtain rfl := Option.some_inj.1 h
    obtain ⟨fill, e⟩ := foldl_fileLog beyond (heard.filter fun x => Enabled x.category.1 m.getLogMask)
      ⟨format, utc, opens filename, ⟨[], 0x20⟩⟩
    refine ⟨fill, ?_⟩
    dsimp only
    rw [e, hwants, List.nil_append]
  | syslog =>
    rw [hkind] at h
    obtain rfl := Option.some_inj.1 h
    dsimp only
    rw [foldl_syslog, hwants, List.nil_append]
  | channellog =>
    rw [hkind] at h
    obtain rfl := Option.some_inj.1 h
    dsimp only
    congr 1
    exact List.foldlRecOn (motive := fun sink => sink = Sink.channelLog) _ _ rfl fun sink hsink m _ => by rw [hsink]; rfl
  | other starts =>
    rw [hkind] at h
    cases h

/-- Whatever is loaded, started, logged and stopped, in any order: the logger of
every module there is has written what the module wants of all messages since it
was started, each of them once and in order, the one about its own start included.
A file that could not be opened when it was started has nothing in it. -/
theorem logger_wrote (beyond : MaskMapper) (ops : List Op) (d : ModuleDescriptor) (a : Nat)
    (hd : d ∈ (run beyond ops).modules) (ha : d.logger = some a) : ∃ n clock opens object,
      .startAll clock opens ∈ ops ∧ (run beyond ops).messages[n]? = some (d.report clock true) ∧
        a ∈ (run beyond ops).loggers ∧ (run beyond ops).logger a = some object ∧
          Wrote beyond opens d.toModule ((run beyond ops).messages.drop n) object := by
  obtain ⟨opens, object, n, clock, hstarted, hobject, hhears, hreport⟩ := (serving_run beyond ops).serves d hd a ha
  exact ⟨n, clock, opens, _, hstarted, hreport, hhears.registered, hhears.logger, wrote_foldl beyond hobject _⟩

/-- Two logs, one of which is told of warnings only in the end. -/
def twoLogs : List Op :=
  [.loadModule (.ok ⟨octets "FileLog", 0, 1, false, .filelog (octets "all") (octets "%! %$%n") true, [[]]⟩),
    .loadModule (.ok ⟨octets "FileLog", 0, 1, false, .filelog (octets "warnings") (octets "%$%n") true,
      [[octets "all"], [octets "warning"]]⟩),
    .startAll FileLog.sampleClock fun _ => true, .log ⟨octets "gone", Warning, FileLog.sampleClock⟩]

theorem logger_wrote_twoLogs : ∃ d ∈ (run ⟨0, 0, [], []⟩ twoLogs).modules, ∃ n clock opens object,
    .startAll clock opens ∈ twoLogs ∧ (run ⟨0, 0, [], []⟩ twoLogs).messages[n]? = some (d.report clock true) ∧
      1 ∈ (run ⟨0, 0, [], []⟩ twoLogs).loggers ∧ (run ⟨0, 0, [], []⟩ twoLogs).logger 1 = some object ∧
        Wrote ⟨0, 0, [], []⟩ opens d.toModule ((run ⟨0, 0, [], []⟩ twoLogs).messages.drop n) object := by
  have hsecond : (run ⟨0, 0, [], []⟩ twoLogs).modules[1]?.map (·.logger) = some (some 1) := by decide +kernel
  obtain ⟨d, hd, hlogger⟩ := Option.map_eq_some_iff.1 hsecond
  have hmem := List.mem_of_getElem? hd
  exact ⟨d, hmem, logger_wrote ⟨0, 0, [], []⟩ twoLogs d 1 hmem hlogger⟩

end Logging

end KineIRCd

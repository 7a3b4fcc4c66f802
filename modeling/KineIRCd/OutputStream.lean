import KineIRCd.Clbp
import KineIRCd.Lib.Runs
/-!
# The output stream

`Connection::sendOutput` withdraws a block from the protocol's queue and hands
it to the socket, which may take only the front of it. `withdrawOutput` has
already dropped the whole block by then, so what the socket refuses is lost.
-/
namespace KineIRCd

open Clbp

/-- The part of a `Connection` its output passes: the queue of its protocol
and the octets counted as sent. -/
structure Outgoing where
  outputQueue : Octets
  sentBytes : UInt64
  deriving DecidableEq

/-- What `sendOutput` offers to the socket. -/
def Outgoing.offered (readBlockSize : Nat) (o : Outgoing) : Octets := (withdrawOutput readBlockSize o.outputQueue).1

/-- `Connection::sendOutput`, with the number of octets the socket's `write`
answers. -/
def Outgoing.sendOutput (readBlockSize written : Nat) (o : Outgoing) : Outgoing :=
  { outputQueue := (withdrawOutput readBlockSize o.outputQueue).2
    sentBytes := o.sentBytes + UInt64.ofNat written }

namespace OutputStream

/-- One call on the connection. `written` is the socket's answer. -/
inductive Op where
  | outputRaw (message : Octets)
  | outputLine (message : Octets)
  | sendOutput (written : Nat)
  deriving DecidableEq

/-- A connection with the history of its output: everything output so far, and
what of it the socket accepted. -/
structure Stream where
  out : Outgoing
  output : Octets
  accepted : Octets
  deriving DecidableEq

def Stream.new : Stream := ⟨⟨[], 0⟩, [], []⟩

variable (readBlockSize : Nat) (eolChars : Octets)

def step (s : Stream) : Op → Stream
  | .outputRaw m =>
    { s with out := { s.out with outputQueue := outputRaw s.out.outputQueue m }, output := s.output ++ m }
  | .outputLine m =>
    { s with
      out := { s.out with outputQueue := outputLine eolChars s.out.outputQueue m }
      output := s.output ++ m ++ eolChars }
  | .sendOutput k =>
    { s with
      out := s.out.sendOutput readBlockSize k
      accepted := s.accepted ++ (s.out.offered readBlockSize).take k }

def run (s : Stream) (ops : List Op) : Stream := ops.foldl (step readBlockSize eolChars) s

/-- A write's answer stands in the relation `R` to the length it was offered. -/
def Written (R : Nat → Nat → Prop) (s : Stream) : Op → Prop
  | .sendOutput k => R k (s.out.offered readBlockSize).length
  | _ => True

/-- Every write of a run answers so. -/
def AllWritten (R : Nat → Nat → Prop) (s : Stream) (ops : List Op) : Prop :=
  Runs.Along (step readBlockSize eolChars) (Written readBlockSize R) s ops

/-- The octets written in total. -/
def totalWritten : List Op → Nat
  | [] => 0
  | .sendOutput k :: ops => k + totalWritten ops
  | _ :: ops => totalWritten ops

/-- Accepted and queued octets make up the output. -/
def Unbroken (s : Stream) : Prop := s.accepted ++ s.out.outputQueue = s.output

/-- The stream is unbroken, and the count is right. -/
structure Conserved (s : Stream) : Prop where
  stream : Unbroken s
  count : s.out.sentBytes.toNat = s.accepted.length

variable {readBlockSize eolChars} {s : Stream} {op : Op} {ops : List Op}

@[simp] theorem run_nil : run readBlockSize eolChars s [] = s := rfl

@[simp] theorem run_cons :
    run readBlockSize eolChars s (op :: ops) = run readBlockSize eolChars (step readBlockSize eolChars s op) ops := rfl

/-! ## The stream -/

theorem offered_append (readBlockSize : Nat) (o : Outgoing) (k : Nat) :
    o.offered readBlockSize ++ (o.sendOutput readBlockSize k).outputQueue = o.outputQueue :=
  withdrawOutput_split readBlockSize o.outputQueue

/-- A step whose write takes the whole block keeps the stream together. -/
theorem unbroken_step (h : Unbroken s) (hw : Written readBlockSize (· = ·) s op) :
    Unbroken (step readBlockSize eolChars s op) := by
  unfold Unbroken at h ⊢
  cases op with
  | outputRaw m => simp [step, outputRaw, ← h]
  | outputLine m => simp [step, outputLine, outputRaw, ← h]
  | sendOutput k =>
    have hk : k = (s.out.offered readBlockSize).length := hw
    simp only [step, hk, List.take_length, List.append_assoc]
    rw [offered_append, h]

/-- The octets neither accepted nor queued any more. -/
def lost (s : Stream) : Int := s.output.length - s.accepted.length - s.out.outputQueue.length

/-- What a write leaves of the block it was offered. -/
def shortfall (readBlockSize : Nat) (s : Stream) : Op → Nat
  | .sendOutput k => (s.out.offered readBlockSize).length - k
  | _ => 0

/-- A write loses what it leaves of the block, and nothing brings that back. -/
theorem lost_step (ha : Written readBlockSize (· ≤ ·) s op) :
    lost (step readBlockSize eolChars s op) = lost s + shortfall readBlockSize s op := by
  cases op with
  | outputRaw m => simp [lost, step, outputRaw, shortfall]; omega
  | outputLine m => simp [lost, step, outputLine, outputRaw, shortfall]; omega
  | sendOutput k =>
    have hk : k ≤ (s.out.offered readBlockSize).length := ha
    have hlen := congrArg List.length (offered_append readBlockSize s.out k)
    simp only [List.length_append] at hlen
    simp only [lost, step, shortfall, List.length_append, List.length_take]
    omega

theorem lost_run (ha : AllWritten readBlockSize eolChars (· ≤ ·) s ops) :
    lost s ≤ lost (run readBlockSize eolChars s ops) := by
  refine Runs.run_inv (I := fun s' => lost s ≤ lost s') ?_ (Int.le_refl _) ha
  intro s' op hle hw
  rw [lost_step hw]
  omega

/-- If nothing is lost at the end, every write took its whole block. -/
theorem whole_of_lost (ha : AllWritten readBlockSize eolChars (· ≤ ·) s ops) (h0 : 0 ≤ lost s)
    (h : lost (run readBlockSize eolChars s ops) = 0) : AllWritten readBlockSize eolChars (· = ·) s ops := by
  induction ops generalizing s with
  | nil => trivial
  | cons op ops ih =>
    have hstep : lost (step readBlockSize eolChars s op) = lost s + shortfall readBlockSize s op := lost_step ha.1
    have hrest : lost (step readBlockSize eolChars s op) ≤ 0 := h ▸ lost_run ha.2
    refine ⟨?_, ih ha.2 (by omega) h⟩
    cases op with
    | sendOutput k =>
      have hk : k ≤ (s.out.offered readBlockSize).length := ha.1
      simp only [shortfall] at hstep
      show k = (s.out.offered readBlockSize).length
      omega
    | _ => trivial

/-! ## The count -/

theorem run_accepted (ha : AllWritten readBlockSize eolChars (· ≤ ·) s ops) :
    (run readBlockSize eolChars s ops).accepted.length = s.accepted.length + totalWritten ops := by
  induction ops generalizing s with
  | nil => rfl
  | cons op ops ih =>
    rw [run_cons, ih ha.2]
    cases op with
    | sendOutput k =>
      have hk : k ≤ (s.out.offered readBlockSize).length := ha.1
      simp only [step, totalWritten, List.length_append, List.length_take]
      omega
    | _ => rfl

theorem run_sentBytes : (run readBlockSize eolChars s ops).out.sentBytes =
    s.out.sentBytes + UInt64.ofNat (totalWritten ops) := by
  induction ops generalizing s with
  | nil => simp [totalWritten]
  | cons op ops ih =>
    rw [run_cons, ih]
    cases op with
    | sendOutput k => simp [step, Outgoing.sendOutput, totalWritten, UInt64.ofNat_add, UInt64.add_assoc]
    | _ => rfl

/-- The output is conserved exactly when no write is short, as long as the
64-bit count has not wrapped. -/
theorem conserved_iff (ops : List Op) (h : AllWritten readBlockSize eolChars (· ≤ ·) .new ops) :
    Conserved (run readBlockSize eolChars .new ops) ↔
      AllWritten readBlockSize eolChars (· = ·) .new ops ∧ totalWritten ops < UInt64.size := by
  have hcount : (run readBlockSize eolChars .new ops).out.sentBytes.toNat = totalWritten ops % UInt64.size := by
    rw [run_sentBytes]
    simp [Stream.new]
  have haccepted : (run readBlockSize eolChars .new ops).accepted.length = totalWritten ops := by
    rw [run_accepted h]
    simp [Stream.new]
  constructor
  · intro hc
    refine ⟨whole_of_lost h (by simp [lost, Stream.new]) ?_, ?_⟩
    · have hlen := congrArg List.length hc.stream
      rw [List.length_append] at hlen
      unfold lost
      omega
    · have hmod := Nat.mod_lt (totalWritten ops) (show UInt64.size > 0 by decide)
      have := hc.count
      omega
  · rintro ⟨hwhole, hlt⟩
    exact ⟨Runs.run_inv (fun s op => unbroken_step) (show Unbroken .new from rfl) hwhole, by
      rw [hcount, haccepted, Nat.mod_eq_of_lt hlt]⟩

theorem conserved_iff_ping :
    Conserved (run 4 EOL_CR_LF .new [.outputLine (octets "PING"), .sendOutput 4, .sendOutput 2]) ↔
      AllWritten 4 EOL_CR_LF (· = ·) .new [.outputLine (octets "PING"), .sendOutput 4, .sendOutput 2] ∧
        totalWritten [.outputLine (octets "PING"), .sendOutput 4, .sendOutput 2] < UInt64.size :=
  conserved_iff _ ⟨trivial, show 4 ≤ _ by decide, show 2 ≤ _ by decide, trivial⟩

/-- A socket that takes three octets of six: the other three are gone. -/
theorem not_conserved_of_short_write :
    AllWritten 4096 EOL_CR_LF (· ≤ ·) .new [.outputLine (octets "PING"), .sendOutput 3] ∧
      ¬ Conserved (run 4096 EOL_CR_LF .new [.outputLine (octets "PING"), .sendOutput 3]) :=
  ⟨⟨trivial, show 3 ≤ _ by decide, trivial⟩, fun h => absurd h.stream (by unfold Unbroken; decide)⟩

end OutputStream

end KineIRCd

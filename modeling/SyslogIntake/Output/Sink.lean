import SyslogIntake.Journal
import SyslogIntake.Output.Medium
import SyslogIntake.Output.Record

/-!
# The output

Records wait in a queue of limited length.  A single writer collects them from there and
flushes what it has collected to a medium, each record as its body and a line feed.  A
sender who finds the queue full waits until the writer has made room.  When the medium has
no room left the writer stops, and from then on nobody can send.

**Results.**

* `account_collect` : collecting changes neither the records nor their order;
* `account_flush` : flushing changes neither, as long as everything fits;
* `account_enqueue` : a record that is sent comes last.
-/

namespace SyslogIntake

def Record.line (record : Record) : Octets :=
  record.body ++ [Octets.lineFeed]

/-- A queue of records, a writer, and what it writes to. -/
structure Sink where
  path : String
  capacity : Nat
  queue : List Record
  collected : List Record
  medium : Medium
  stopped : Option Fault
  deriving DecidableEq, Repr

namespace Sink

/-- The length of the queue that nobody chose. -/
def defaultCapacity : Nat := 1024

/-- What is reported when a medium has no room left. -/
def noRoomReport : String := "No space left on device (os error 28)"

/-- An output at a path; its queue has room for at least one record. -/
def openAt (tree : FileTree) (path : String) (capacity : Nat) : Except Fault Sink :=
  match tree.openForAppending path with
  | .error problem => .error (.output path problem.report)
  | .ok node => .ok ⟨path, max 1 capacity, [], [], .ofNode node, none⟩

def hasRoom (s : Sink) : Bool :=
  s.queue.length < s.capacity

/-- Whether the writer is at work. -/
def isRunning (s : Sink) : Bool :=
  s.stopped.isNone

def enqueue (record : Record) (s : Sink) : Sink :=
  { s with queue := s.queue ++ [record] }

/-- Let the writer take all records off the queue. -/
def collect (s : Sink) : Sink :=
  { s with queue := [], collected := s.collected ++ s.queue }

/-- What the writer has collected, as it is written. -/
def pending (s : Sink) : Octets :=
  s.collected.flatMap Record.line

/-- Let the writer write what it has collected; without room for all of it the writer stops. -/
def flush (s : Sink) : Sink :=
  { s with
    collected := []
    medium := s.medium.write s.pending
    stopped := if s.medium.fits s.pending then s.stopped else some (.io noRoomReport) }

/-- Let the writer do all its work. -/
def settle (s : Sink) : Sink :=
  if s.isRunning then s.collect.flush else s

/-- Make room in the queue: what was collected is flushed, and the queue collected. -/
def makeRoom (s : Sink) : Sink :=
  if s.collected.isEmpty then s.collect
  else if s.flush.isRunning then s.flush.collect
  else s.flush

/-- The output after the sender of a record had to wait, if necessary. -/
def ready (s : Sink) : Sink :=
  if s.isRunning ∧ !s.hasRoom then s.makeRoom else s

/-- Send a record: whether the output took it, and the output after that. -/
def send (record : Record) (s : Sink) : Bool × Sink :=
  if s.ready.isRunning then (true, s.ready.enqueue record) else (false, s.ready)

/-- What the writer says when it stops. -/
def stopEntry (s : Sink) (fault : Fault) : Entry :=
  ⟨.error, "Output writer for " ++ s.path ++ " stopped: " ++ fault.message⟩

/-- What the writer says between two states of the output. -/
def news (before after : Sink) : List Entry :=
  match before.stopped, after.stopped with
  | none, some fault => [after.stopEntry fault]
  | _, _ => []

/-- What is on the medium, and what has been sent on top of it. -/
def account (s : Sink) : Octets :=
  s.medium.text ++ (s.collected ++ s.queue).flatMap Record.line

/-- Collecting changes neither the records nor their order. -/
theorem account_collect
    (s : Sink) :
    s.collect.account = s.account := by
  simp [collect, account]

/-- Flushing changes neither, as long as everything fits. -/
theorem account_flush
    {s : Sink}
    (h : s.medium.fits s.pending = true) :
    s.flush.account = s.account := by
  have hwrite := Medium.write_of_fits h
  simp only [flush, account, hwrite]
  simp [pending]

/-- A record that is sent comes last. -/
theorem account_enqueue
    (record : Record)
    (s : Sink) :
    (s.enqueue record).account = s.account ++ record.line := by
  simp [enqueue, account]

end Sink
end SyslogIntake

import SyslogIntake.Server.Service

/-!
# Traffic

Any number of connections send their records through clones of one output, while its writer takes
them off the queue and writes them.  A connection decodes a message, waits until the queue has room
for its record, and is counted once the record is in the queue; it may be over, or be aborted,
wherever it waits.  The writer takes records until it finds the queue empty, then it flushes what
it holds, and waits for more.  What it holds reaches the medium in portions of any size.  When a
write fails the writer stops for good.  The events of all of them come in any order; one that is
not possible where they are changes nothing.

**Results.**

* `run_append` : a course of events and another one behind it.
-/

namespace SyslogIntake

/-- Take the first record off the queue. -/
def Sink.takeOne (s : Sink) : Sink :=
  { s with queue := s.queue.tail, collected := s.collected ++ s.queue.take 1 }

/-- The writer stops in the middle of what it has collected: so many octets were written. -/
def Sink.halt (written : Nat) (report : String) (s : Sink) : Sink :=
  { s with
    collected := []
    medium := s.medium.write (s.pending.take written)
    stopped := some (.io report) }

/-- What a connection is about that sends records; at all of these but `sent` it may be waiting. -/
inductive Sender.Stage
  | reading
  | sending (record : Record)
  | sent
  | refused
  | gone
  deriving DecidableEq, Repr

/-- A connection that sends records: those that it has decoded, and those that were taken. -/
structure Sender where
  decoded : List Record
  accepted : List Record
  stage : Sender.Stage
  deriving DecidableEq, Repr

namespace Sender

/-- A connection that has not sent anything yet. -/
def start : Sender :=
  ⟨[], [], .reading⟩

def sending? (s : Sender) : Option Record :=
  match s.stage with
  | .sending record => some record
  | .reading | .sent | .refused | .gone => none

/-- The next message has been decoded. -/
def decode (record : Record) (s : Sender) : Sender :=
  match s.stage with
  | .reading => ⟨s.decoded ++ [record], s.accepted, .sending record⟩
  | .sending _ | .sent | .refused | .gone => s

def accept (record : Record) (s : Sender) : Sender :=
  ⟨s.decoded, s.accepted ++ [record], .sent⟩

/-- The record was counted, and the next message is waited for. -/
def goOn (s : Sender) : Sender :=
  { s with stage := .reading }

/-- The record was not taken, for the writer has stopped. -/
def refuse (s : Sender) : Sender :=
  { s with stage := .refused }

/-- The connection is over, or it is aborted where it waits. -/
def leave (s : Sender) : Sender :=
  match s.stage with
  | .sent => s
  | .reading | .sending _ | .refused | .gone => { s with stage := .gone }

/-- A record was taken and not counted yet. -/
def isUncounted (s : Sender) : Bool :=
  s.stage == .sent

end Sender

/-- What the writer of an output is about. -/
inductive Writer
  | waiting
  | taking
  | flushing
  | closing
  | finished
  deriving DecidableEq, Repr

/-- An output, its writer and everything that sends through it. -/
structure Traffic where
  service : Service
  writer : Writer
  /-- The octets of what was collected that have reached the medium. -/
  spilled : Nat
  /-- The records that the writer has taken off the queue so far. -/
  received : List Record
  senders : List Sender
  /-- The clones of the output that no connection sends through. -/
  spare : Nat
  /-- The records that were put into the queue so far, and by whom. -/
  log : List (Nat × Record)
  deriving DecidableEq, Repr

namespace Traffic

/-- An output that was just opened; nobody sends through it yet. -/
def start (sink : Sink) : Traffic :=
  ⟨.start sink, .waiting, 0, [], [], 1, []⟩

def sink (t : Traffic) : Sink :=
  t.service.sink

def withSink (sink : Sink) (t : Traffic) : Traffic :=
  { t with service := ⟨sink, t.service.counters⟩ }

/-- What the medium holds. -/
def text (t : Traffic) : Octets :=
  (t.sink.medium.write (t.sink.pending.take t.spilled)).text

/-- Every clone of the output is gone. -/
def Abandoned (t : Traffic) : Prop :=
  t.spare = 0 ∧ ∀ s ∈ t.senders, s.stage = .gone

instance (t : Traffic) : Decidable t.Abandoned :=
  inferInstanceAs (Decidable (_ ∧ _))

/-- What one of the connections is about changes. -/
def change (id : Nat) (f : Sender → Sender) (t : Traffic) : Traffic :=
  { t with senders := t.senders.modify id f }

def sending? (id : Nat) (t : Traffic) : Option Record :=
  t.senders[id]?.bind Sender.sending?

/-- A connection comes in, and gets a clone of the output. -/
def join (t : Traffic) : Traffic :=
  if t.spare = 0 then t else { t with senders := t.senders ++ [.start] }

def copy (t : Traffic) : Traffic :=
  if t.spare = 0 then t else { t with spare := t.spare + 1 }

/-- One clone less that nobody sends through. -/
def drop (t : Traffic) : Traffic :=
  { t with spare := t.spare - 1 }

def accept (id : Nat) (record : Record) (t : Traffic) : Traffic :=
  { (t.withSink (t.sink.enqueue record)).change id (.accept record) with
    log := t.log ++ [(id, record)] }

/-- A connection tries to send; as long as the queue has no room for its record, it waits. -/
def send (id : Nat) (t : Traffic) : Traffic :=
  match t.sending? id with
  | none => t
  | some record =>
      if t.sink.isRunning then
        if t.sink.hasRoom then t.accept id record else t
      else
        t.change id .refuse

/-- The record that a connection has sent is counted. -/
def count (id : Nat) (t : Traffic) : Traffic :=
  if t.senders[id]?.any Sender.isUncounted then
    { t.change id .goOn with
      service := ⟨t.sink, t.service.counters.countRecord⟩ }
  else t

/-- The writer takes a record off the queue. -/
def take (t : Traffic) : Traffic :=
  if (t.writer = .waiting ∨ t.writer = .taking) ∧ t.sink.queue ≠ [] then
    { t.withSink t.sink.takeOne with
      writer := .taking
      received := t.received ++ t.sink.queue.take 1 }
  else t

/-- The writer finds the queue empty, and begins to flush. -/
def drain (t : Traffic) : Traffic :=
  if t.writer = .taking ∧ t.sink.queue = [] then { t with writer := .flushing } else t

/-- The writer waits for nobody, and begins to flush for the last time. -/
def finish (t : Traffic) : Traffic :=
  if t.writer = .waiting ∧ t.sink.queue = [] ∧ t.Abandoned then { t with writer := .closing }
  else t

/-- Some octets of what was collected reach the medium. -/
def spill (n : Nat) (t : Traffic) : Traffic :=
  if t.spilled + n ≤ t.sink.pending.length ∧
      t.sink.medium.fits (t.sink.pending.take (t.spilled + n)) then
    { t with spilled := t.spilled + n }
  else t

/-- Everything that was collected has been flushed. -/
def flushed (next : Writer) (t : Traffic) : Traffic :=
  if t.spilled = t.sink.pending.length then
    { t.withSink t.sink.flush with
      writer := next
      spilled := 0 }
  else t

/-- A flush is over: the writer waits for more, or it has finished. -/
def settle (t : Traffic) : Traffic :=
  match t.writer with
  | .flushing => t.flushed .waiting
  | .closing => t.flushed .finished
  | .waiting | .taking | .finished => t

/-- A write fails after some more octets; the writer stops. -/
def fail (n : Nat) (report : String) (t : Traffic) : Traffic :=
  match t.writer with
  | .taking | .flushing | .closing =>
      { t.withSink (t.sink.halt (t.spilled + n) report) with spilled := 0 }
  | .waiting | .finished => t

/-- What the connections and those who hold the output do. -/
inductive Call
  | join
  | copy
  | drop
  | decode (id : Nat) (record : Record)
  | send (id : Nat)
  | count (id : Nat)
  | leave (id : Nat)
  deriving DecidableEq, Repr

/-- What the writer does. -/
inductive Work
  | take
  | drain
  | finish
  | spill (n : Nat)
  | settle
  | fail (n : Nat) (report : String)
  deriving DecidableEq, Repr

/-- Something happens. -/
inductive Event
  | call (what : Call)
  | work (what : Work)
  deriving DecidableEq, Repr

/-- A connection goes on, or somebody who holds the output does. -/
def obey (t : Traffic) : Call → Traffic
  | .join => t.join
  | .copy => t.copy
  | .drop => t.drop
  | .decode id record => t.change id (.decode record)
  | .send id => t.send id
  | .count id => t.count id
  | .leave id => t.change id .leave

def write (t : Traffic) : Work → Traffic
  | .take => t.take
  | .drain => t.drain
  | .finish => t.finish
  | .spill n => t.spill n
  | .settle => t.settle
  | .fail n report => t.fail n report

/-- One event; a writer that has stopped does nothing any more. -/
def step (t : Traffic) : Event → Traffic
  | .call what => t.obey what
  | .work what => if t.sink.isRunning then t.write what else t

def run (t : Traffic) (events : List Event) : Traffic :=
  events.foldl step t

theorem run_append
    (t : Traffic)
    (events more : List Event) :
    t.run (events ++ more) = (t.run events).run more :=
  List.foldl_append

end Traffic
end SyslogIntake

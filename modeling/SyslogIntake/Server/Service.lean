import SyslogIntake.Connection.Detector
import SyslogIntake.Output.Sink
import SyslogIntake.Server.Counters

/-!
# Serving a connection

A connection is taken through its stages, and then its messages go to the output one by
one until there are no more or something fails.  A failure ends this connection only.  While a
connection waits, the writer of the output does its work.  Only the first message has a limit
of time.

**Results.**

* `Serving.close_closed` : a connection that is over is counted as closed, however it ended;
* `Serving.close_stage` : a connection that fails is left in the last stage.
-/

namespace SyslogIntake

/-- What connections share: the output and the counters. -/
structure Service where
  sink : Sink
  counters : Counters
  deriving DecidableEq, Repr

namespace Service

def start (sink : Sink) : Service :=
  ⟨sink, .zero⟩

end Service

/-- How far a connection is: it is over, or it waits for a message, perhaps up to a limit. -/
inductive Progress (σ : Type)
  | closed
  | failed (fault : Fault)
  | waiting (limit : Option Nat) (search : Framing.Search) (stream : Lookahead (Channel σ))

namespace Progress

def isOver {σ : Type} : Progress σ → Bool
  | .closed | .failed _ => true
  | .waiting _ _ _ => false

/-- What becomes of a connection that waits until its limit is reached. -/
def lapse {σ : Type} : Progress σ → Progress σ
  | .waiting (some _) _ _ => .failed (.late .firstMessage)
  | progress => progress

end Progress

/-- A message handed to the output: the connection as it was then, and whether it was taken. -/
structure Handover where
  frame : Frame
  connection : Connection
  taken : Bool
  deriving DecidableEq, Repr

def Handover.record (handover : Handover) : Record :=
  .ofFrame handover.frame handover.connection

/-- A connection while it is served: when something was last heard, the journal, and what was
handed to the output. -/
structure Serving where
  connection : Connection
  service : Service
  time : Nat
  journal : List Entry
  handed : List Handover
  deriving DecidableEq, Repr

namespace Serving

variable {σ : Type} [ByteStream σ]

/-- Begin to serve a connection. -/
def start (service : Service) (connection : Connection) (time : Nat) : Serving :=
  ⟨connection, service, time, [], []⟩

/-- Put the output in place of the one before, with what the writer says about it. -/
def withSink (sink : Sink) (s : Serving) : Serving :=
  { s with
    service := ⟨sink, s.service.counters⟩
    journal := s.journal ++ Sink.news s.service.sink sink }

def count (change : Counters → Counters) (s : Serving) : Serving :=
  { s with service := ⟨s.service.sink, change s.service.counters⟩ }

def note (entries : List Entry) (s : Serving) : Serving :=
  { s with journal := s.journal ++ entries }

/-- Go on at a point in time; if time has passed, the writer has done its work. -/
def goOn (time : Nat) (s : Serving) : Serving :=
  if s.time < time then
    { s.withSink s.service.sink.settle with time }
  else
    s

/-- The connection as it is when a frame has come. -/
def onFrame (frame : Frame) (c : Connection) : Connection :=
  { c.advance .streaming with framing := some frame.mode }

/-- Remember a message that was handed to the output. -/
def remember (handover : Handover) (s : Serving) : Serving :=
  { s with handed := s.handed ++ [handover] }

/-- Hand a frame on to the output. -/
def deliver (frame : Frame) (s : Serving) : Except Fault Unit × Serving :=
  let connection := onFrame frame s.connection
  match s.service.sink.send (.ofFrame frame connection) with
  | (true, sink) =>
      let s := { s with connection }.remember ⟨frame, connection, true⟩
      (.ok (), (s.withSink sink).count .countRecord)
  | (false, sink) =>
      let s := { s with connection }.remember ⟨frame, connection, false⟩
      (.error .writerStopped, s.withSink sink)

/-- Hear from a stream, and of the lines that were dropped. -/
def hear (time : Nat) (search : Framing.Search) (s : Serving) : Serving :=
  (s.goOn time).note (search.notices.map Framing.Notice.entry)

/-- Hand on the messages of a stream; the limit is for the first one only. -/
def stream (limit : Option Nat) (search : Framing.Search) (octets : Lookahead (Channel σ))
    (s : Serving) : Progress σ × Serving :=
  match _h : search.attempt limit octets with
  | ⟨.frame frame, found, rest⟩ =>
      match (s.hear (ByteStream.now rest) found).deliver frame with
      | (.error fault, s) => (.failed fault, s)
      | (.ok _, s) => stream none (.start found.framer) rest s
  | ⟨.ended, found, rest⟩ => (.closed, s.hear (ByteStream.now rest) found)
  | ⟨.fault fault, found, rest⟩ => (.failed fault, s.hear (ByteStream.now rest) found)
  | ⟨.late, found, rest⟩ =>
      (.waiting limit { found with notices := [] } rest, s.hear (ByteStream.now rest) found)
termination_by octets.backlog
decreasing_by exact Framing.Search.attempt_frame_backlog _h

/-- Count what the stages of a connection have found. -/
def countFindings (s : Serving) : Serving :=
  s.count fun counters =>
    (counters.countHeader s.connection.proxy.isSome).countSession s.connection.isTls

/-- Hand on the messages behind the stages. -/
def begin (d : Detector) (reader : Reader (Channel σ)) (s : Serving) : Progress σ × Serving :=
  let s := (s.goOn (ByteStream.now reader.stream)).countFindings
  s.stream (some (ByteStream.after d.dataTimeout reader.stream)) (.start reader.framer)
    reader.stream

/-- Take a connection through its stages, and hand on its messages. -/
def run (d : Detector) (octets : σ) (s : Serving) : Progress σ × Serving :=
  match d.detect octets s.connection with
  | (.fault fault time, connection) => (.failed fault, { s with connection }.goOn time)
  | (.reader reader, connection) =>
      let (progress, s) := { s with connection }.begin d reader
      (progress.lapse, s)

/-- The line about a connection that failed. -/
def failureEntry (c : Connection) (stage : Stage) (fault : Fault) : Entry :=
  ⟨.warn,
    "Connection " ++ Numeral.decimal c.id ++ " from " ++ c.peer.text ++ " " ++
      (if fault.blamesPeer then "rejected" else "failed") ++ " in " ++ stage.word ++ ": " ++
      fault.message⟩

/-- Close a connection that is over. -/
def close : Progress σ → Serving → Serving
  | .waiting _ _ _, s => s
  | .closed, s => s.count .countClosed
  | .failed fault, s =>
      let (stage, connection) := s.connection.fail
      (({ s with connection }.count .countFailed).note
        [failureEntry s.connection stage fault]).count .countClosed

omit [ByteStream σ] in
/-- A connection that is over is counted as closed, however it ended. -/
theorem close_closed
    {progress : Progress σ}
    (h : progress.isOver = true)
    (s : Serving) :
    (s.close progress).service.counters.closed = s.service.counters.closed + 1 := by
  cases progress with
  | closed =>
      rfl
  | failed fault =>
      rfl
  | waiting limit search stream =>
      cases h

omit [ByteStream σ] in
/-- A connection that fails is left in the last stage. -/
theorem close_stage
    (fault : Fault)
    (s : Serving) :
    (s.close (σ := σ) (.failed fault)).connection.stage = .failed := by
  by_cases h : s.connection.stage = .failed <;>
    simp [close, note, count, Connection.fail, Connection.enter, h]

end Serving

namespace Service

variable {σ : Type} [ByteStream σ]

/-- Serve a connection from its beginning to its end. -/
def serve (service : Service) (d : Detector) (octets : σ) (c : Connection) : Serving :=
  let (progress, s) := (Serving.start service c (ByteStream.now octets)).run d octets
  s.close progress

end Service
end SyslogIntake

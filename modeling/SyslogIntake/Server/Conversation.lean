import SyslogIntake.Server.Service
import SyslogIntake.Stream.Wire

/-!
# Conversations

A conversation is a connection whose octets arrive while it is served.  Whatever is heard is
dealt with at once, as far as it goes; then the conversation waits for more, perhaps until a
point in time.  The stages look again at all that was heard since the beginning, for they
change nothing around them, while the messages go on where they were.  Times are counted from
the beginning of the connection.

**Results.**

* `settle_closed` : a conversation that does not go on is counted as closed.
-/

namespace SyslogIntake

/-- What is heard of a connection. -/
inductive Heard
  | octets (text : Octets)
  | nothing
  | ended
  | fault (report : String)
  deriving DecidableEq, Repr

namespace Heard

/-- What arrived on the wire. -/
def arrived : Heard → List Segment
  | .octets text => Wire.chunk text
  | .nothing | .ended => []
  | .fault report => [.fault report]

/-- What follows on the wire: silence, unless there will be nothing more. -/
def following : Heard → List Segment
  | .octets _ | .nothing => [.silence]
  | .ended | .fault _ => []

end Heard

/-- Where a conversation is: in the stages, or between two messages. -/
inductive Standing
  | stages (heard : List Segment)
  | messages (search : Framing.Search) (stream : Lookahead (Channel Wire))

/-- A connection that goes on; if nothing is heard before the deadline, it is over. -/
structure Conversation where
  connection : Connection
  time : Nat
  deadline : Option Nat
  standing : Standing

namespace Conversation

def start (connection : Connection) : Conversation :=
  ⟨connection, 0, some 0, .stages []⟩

/-- The wire of a stream of messages, on which something else is now heard. -/
def rewire (time : Nat) (segments : List Segment) (stream : Lookahead (Channel Wire)) :
    Lookahead (Channel Wire) :=
  let raw := stream.inner.raw
  let wire : Wire := { raw.inner with segments, clock := time }
  { stream with inner := stream.inner.withRaw { raw with inner := wire } }

/-- Go on with a connection that waits, or close one that is over. -/
def settle (time : Nat) (progress : Progress Wire) (s : Serving) :
    Serving × Option Conversation :=
  match progress with
  | .waiting none search stream =>
      (s, some ⟨s.connection, time, none, .messages search stream⟩)
  | .waiting (some limit) search stream =>
      if limit ≤ time then (s.close (Progress.waiting (some limit) search stream).lapse, none)
      else (s, some ⟨s.connection, time, some limit, .messages search stream⟩)
  | progress => (s.close progress, none)

/-- Look at everything that was heard in the stages; a fault may still lie in the future. -/
def look (d : Detector) (time : Nat) (taken : List Segment) (following : List Segment)
    (s : Serving) : Serving × Option Conversation :=
  match d.detect (Wire.ofSegments (taken ++ following)) s.connection with
  | (.fault fault due, connection) =>
      if due ≤ time then
        settle time (.failed fault) ({ s with connection }.goOn due)
      else
        (s, some ⟨s.connection, time, some due, .stages taken⟩)
  | (.reader reader, connection) =>
      let (progress, s) := { s with connection }.begin d reader
      settle time progress s

/-- What a conversation comes to when something is heard. -/
def hear (d : Detector) (time : Nat) (heard : Heard) (service : Service) (c : Conversation) :
    Serving × Option Conversation :=
  let s := Serving.start service c.connection c.time
  match c.standing with
  | .stages taken =>
      look d time (taken ++ .pause (time - c.time) :: heard.arrived) heard.following s
  | .messages search stream =>
      let (progress, s) :=
        s.stream c.deadline search (rewire time (heard.arrived ++ heard.following) stream)
      settle time progress s

/-- A conversation that does not go on is counted as closed. -/
theorem settle_closed
    {time : Nat}
    {progress : Progress Wire}
    {s after : Serving}
    (h : settle time progress s = (after, none)) :
    after.service.counters.closed = s.service.counters.closed + 1 := by
  unfold settle at h
  split at h
  · simp at h
  · split at h
    · simp only [Prod.mk.injEq, and_true] at h
      rw [← h]
      exact Serving.close_closed rfl s
    · simp at h
  · rename_i hnone hsome
    simp only [Prod.mk.injEq, and_true] at h
    rw [← h]
    refine Serving.close_closed ?_ s
    cases progress with
    | closed =>
        rfl
    | failed fault =>
        rfl
    | waiting limit search stream =>
        cases limit with
        | none =>
            exact absurd rfl (hnone search stream)
        | some limit =>
            exact absurd rfl (hsome limit search stream)

end Conversation
end SyslogIntake

import SyslogIntake.Stream.Basic

/-!
# Wires

A wire is a connection given in advance: what arrives on it and when.  Octets arrive
in pieces, and one read takes from one piece only.  An empty piece ends the stream for
one read.  A pause begins when a read reaches it and is not begun again by the next
one; silence never ends.  Behind its last segment a wire is at its end.

**Results.**

* `cut_flatten` : cutting a text into pieces keeps its octets;
* `read_backlog` : what a read delivers is no longer on the wire.
-/

namespace SyslogIntake

/-- What arrives on a wire. -/
inductive Segment
  | octets (text : Octets)
  | pause (milliseconds : Nat)
  | fault (report : String)
  | silence
  deriving DecidableEq, Repr

/-- The octets of a segment. -/
def Segment.size : Segment → Nat
  | .octets text => text.length
  | _ => 0

/-- A connection given in advance, its time, and what was sent to its peer. -/
structure Wire where
  segments : List Segment
  clock : Nat
  sent : List Sent
  deriving DecidableEq, Repr

namespace Wire

/-- The largest piece in which octets arrive. -/
def pieceSize : Nat := 4096

/-- Cut a text into pieces; only the empty text gives an empty piece. -/
def cut (text : Octets) : List Octets :=
  if _h : pieceSize < text.length then
    text.take pieceSize :: cut (text.drop pieceSize)
  else
    [text]
termination_by text.length
decreasing_by
  simp only [List.length_drop]
  have hp : 0 < pieceSize := by decide
  omega

/-- The segments of a text that is sent at once. -/
def chunk (text : Octets) : List Segment :=
  (cut text).map .octets

def ofSegments (segments : List Segment) : Wire :=
  ⟨segments, 0, []⟩

/-- Whether a point in time is not beyond a limit. -/
def within (time : Nat) : Option Nat → Bool
  | none => true
  | some limit => time ≤ limit

/-- The time at which a read that is late is given up. -/
def giveUp (clock : Nat) : Option Nat → Nat
  | none => clock
  | some limit => max clock limit

/--
Read from segments at a given time: what the read brings, the segments that are left
and the time after it.
-/
def readFrom (want : Nat) (limit : Option Nat) : Nat → List Segment →
    Delivery × List Segment × Nat
  | clock, [] => (.octets [], [], clock)
  | clock, .octets [] :: rest => (.octets [], rest, clock)
  | clock, .octets (b :: text) :: rest =>
      if text.length < want then (.octets (b :: text), rest, clock)
      else
        (.octets ((b :: text).take want), .octets ((b :: text).drop want) :: rest, clock)
  | clock, .pause length :: rest =>
      if within (clock + length) limit then readFrom want limit (clock + length) rest
      else
        (.late, .pause (clock + length - giveUp clock limit) :: rest, giveUp clock limit)
  | clock, .fault report :: rest => (.failed report, rest, clock)
  | clock, .silence :: rest => (.late, .silence :: rest, giveUp clock limit)

def read (want : Nat) (limit : Option Nat) (w : Wire) : Delivery × Wire :=
  let (delivery, segments, clock) := readFrom want limit w.clock w.segments
  (delivery, { w with segments, clock })

/-- The octets that are still to arrive. -/
def backlog : List Segment → Nat
  | [] => 0
  | segment :: rest => segment.size + backlog rest

/-- What a read delivers is no longer on the wire. -/
theorem readFrom_backlog
    (want : Nat)
    (limit : Option Nat)
    (clock : Nat)
    (segments : List Segment)
    (text : Octets)
    (h : (readFrom want limit clock segments).1 = .octets text) :
    backlog (readFrom want limit clock segments).2.1 + text.length ≤ backlog segments := by
  fun_induction readFrom want limit clock segments with
  | case1 clock => simp_all [backlog]
  | case2 clock rest =>
      simp only [Delivery.octets.injEq] at h
      simp [← h, backlog, Segment.size]
  | case3 clock b rest text' hlt =>
      simp only [Delivery.octets.injEq] at h
      simp only [← h, backlog, Segment.size]
      omega
  | case4 clock b rest text' hlt =>
      simp only [Delivery.octets.injEq] at h
      simp only [← h, backlog, Segment.size, List.length_drop, List.length_take]
      omega
  | case5 clock length rest hwithin ih =>
      have := ih h
      simpa [backlog, Segment.size] using this
  | case6 clock length rest hwithin => simp at h
  | case7 clock report rest => simp at h
  | case8 clock rest => simp at h

/-- Cutting a text into pieces keeps its octets. -/
theorem cut_flatten
    (text : Octets) :
    (cut text).flatten = text := by
  fun_induction cut text with
  | case1 text h ih => simp [ih]
  | case2 text h => simp

instance : ByteStream Wire where
  read := read
  now w := w.clock
  pass time w := { w with clock := max w.clock time }
  backlog w := backlog w.segments
  backlog_read want limit w text h := readFrom_backlog want limit w.clock w.segments text h

instance : ByteSink Wire where
  send what w := { w with sent := w.sent ++ [what] }

end Wire
end SyslogIntake

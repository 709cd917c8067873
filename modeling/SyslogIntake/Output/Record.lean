import SyslogIntake.Connection.Basic

/-!
# Records

A record is a message that is ready for the output.  A priority in angle brackets at the
front of the message, one to three digits of value at most 191, is taken off and split
into a facility and a severity, and one line end at the end is taken off.

**Results.**

* `priority_ofFrame_le` : a priority is at most 191.
-/

namespace SyslogIntake

/-- A message that is ready for the output. -/
structure Record where
  facility : Nat
  severity : Nat
  body : Octets
  source : Endpoint
  destination : Endpoint
  peerName : Option String
  framing : Mode
  deriving DecidableEq, Repr

namespace Record

/-- The priority of a message that has none. -/
def defaultPriority : Nat := 13

def mostPriority : Nat := 191

/-- The bracket in front of a priority. -/
def openBracket : UInt8 := 0x3C

/-- The bracket behind a priority. -/
def closeBracket : UInt8 := 0x3E

/-- The digits of a priority: at most four are looked at, so that four are seen as too many. -/
def priorityDigits (text : Octets) : Octets :=
  (text.take 4).takeWhile Octets.isDigit

/-- The priority at the front of a message, and what follows it. -/
def splitPriority (payload : Octets) : Nat × Octets :=
  match payload with
  | [] => (defaultPriority, payload)
  | first :: text =>
      let digits := priorityDigits text
      if first ≠ openBracket ∨ digits.length = 0 ∨ 3 < digits.length then
        (defaultPriority, payload)
      else
        match text.drop digits.length with
        | [] => (defaultPriority, payload)
        | last :: rest =>
            if last ≠ closeBracket ∨ mostPriority < Octets.decimal digits then
              (defaultPriority, payload)
            else (Octets.decimal digits, rest)

/-- A message without one line end at its end. -/
def trimLineEnd (text : Octets) : Octets :=
  Octets.trimLast Octets.carriageReturn (Octets.trimLast Octets.lineFeed text)

/-- The record of a frame that came over a connection. -/
def ofFrame (frame : Frame) (c : Connection) : Record :=
  let (priority, rest) := splitPriority frame.payload
  { facility := priority / 8
    severity := priority % 8
    body := trimLineEnd rest
    source := c.source
    destination := c.destination
    peerName := c.tlsPeer.bind PeerIdentity.commonName
    framing := frame.mode }

/-- Facility and severity in one number. -/
def priority (record : Record) : Nat :=
  record.facility * 8 + record.severity

/-- A priority that is split off is at most 191. -/
theorem splitPriority_le
    (payload : Octets) :
    (splitPriority payload).1 ≤ mostPriority := by
  have hdefault : defaultPriority ≤ mostPriority := by decide
  unfold splitPriority
  split
  · exact hdefault
  · dsimp only
    split
    · exact hdefault
    · split
      · exact hdefault
      · split
        · exact hdefault
        · simp only
          omega

theorem priority_ofFrame_le
    (frame : Frame)
    (c : Connection) :
    (ofFrame frame c).priority ≤ mostPriority := by
  have hle := splitPriority_le frame.payload
  simp only [priority, ofFrame]
  omega

end Record
end SyslogIntake

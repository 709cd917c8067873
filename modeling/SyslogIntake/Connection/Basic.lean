import SyslogIntake.Framing.Basic
import SyslogIntake.ProxyHeader.Basic
import SyslogIntake.Tls.Certificate

/-!
# Connections

What is known about one connection: its endpoints, the stage that it is in and the ones
that it has left, and what its stages found.  A connection only moves forward, and a
connection that failed stays where it is.

**Results.**

* `rank_le_advance` : advancing never goes back;
* `advance_failed` : a connection that failed is not moved.
-/

namespace SyslogIntake

/-- Where a connection is. -/
inductive Stage
  | proxyHeader
  | tlsHandshake
  | framingSniff
  | streaming
  | failed
  deriving DecidableEq, Repr

namespace Stage

def all : List Stage :=
  [.proxyHeader, .tlsHandshake, .framingSniff, .streaming, .failed]

/-- The place of a stage in the order. -/
def rank : Stage → Nat
  | .proxyHeader => 0
  | .tlsHandshake => 1
  | .framingSniff => 2
  | .streaming => 3
  | .failed => 4

def word : Stage → String
  | .proxyHeader => "awaiting-proxy-header"
  | .tlsHandshake => "awaiting-tls-handshake"
  | .framingSniff => "awaiting-framing-sniff"
  | .streaming => "streaming"
  | .failed => "failed"

def find? (text : String) : Option Stage :=
  all.find? fun stage => stage.word == text

end Stage

/-- What is known about a connection; the stages it has left, the latest one first. -/
structure Connection where
  id : Nat
  peer : Endpoint
  localEnd : Endpoint
  stage : Stage
  left : List Stage
  proxy : Option ProxyHeader
  isTls : Bool
  tlsPeer : Option PeerIdentity
  framing : Option Mode
  deriving DecidableEq, Repr

namespace Connection

/-- A connection that was just accepted. -/
def accepted (id : Nat) (peer localEnd : Endpoint) : Connection where
  id := id
  peer := peer
  localEnd := localEnd
  stage := .proxyHeader
  left := []
  proxy := none
  isTls := false
  tlsPeer := none
  framing := none

def enter (stage : Stage) (c : Connection) : Connection :=
  { c with stage, left := c.stage :: c.left }

/-- Move forward to a stage, if it lies ahead. -/
def advance (next : Stage) (c : Connection) : Connection :=
  if c.stage = .failed ∨ next.rank ≤ c.stage.rank then c else c.enter next

/-- Let a connection fail: the stage in which it was, and the connection after that. -/
def fail (c : Connection) : Stage × Connection :=
  (c.stage, if c.stage = .failed then c else c.enter .failed)

/-- Where the client is: where the header says, else the other end of the connection. -/
def source (c : Connection) : Endpoint :=
  (c.proxy.bind ProxyHeader.source?).getD c.peer

/-- Where the client wanted to go: where the header says, else this end of the connection. -/
def destination (c : Connection) : Endpoint :=
  (c.proxy.bind ProxyHeader.destination?).getD c.localEnd

/-- Advancing never goes back. -/
theorem rank_le_advance
    (next : Stage)
    (c : Connection) :
    c.stage.rank ≤ (c.advance next).stage.rank := by
  unfold advance
  split
  · exact Nat.le_refl _
  · rename_i h
    simp only [enter]
    omega

@[simp]
theorem advance_peer
    (next : Stage) (c : Connection) :
    (c.advance next).peer = c.peer := by
  unfold advance
  split <;> rfl

@[simp]
theorem advance_localEnd
    (next : Stage) (c : Connection) :
    (c.advance next).localEnd = c.localEnd := by
  unfold advance
  split <;> rfl

@[simp]
theorem advance_proxy
    (next : Stage) (c : Connection) :
    (c.advance next).proxy = c.proxy := by
  unfold advance
  split <;> rfl

@[simp]
theorem advance_isTls
    (next : Stage) (c : Connection) :
    (c.advance next).isTls = c.isTls := by
  unfold advance
  split <;> rfl

@[simp]
theorem advance_tlsPeer
    (next : Stage) (c : Connection) :
    (c.advance next).tlsPeer = c.tlsPeer := by
  unfold advance
  split <;> rfl

theorem advance_failed
    (next : Stage)
    {c : Connection}
    (h : c.stage = .failed) :
    c.advance next = c := by
  simp [advance, h]

end Connection
end SyslogIntake

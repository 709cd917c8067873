/-!
# Counters

What a source has seen since it was started.
-/

namespace SyslogIntake

/-- What a source has seen.  The counts are unbounded; below `2 ^ 64` they are those of a source
that counts in 64 bits. -/
structure Counters where
  accepted : Nat
  rejected : Nat
  failed : Nat
  closed : Nat
  proxyHeaders : Nat
  tlsSessions : Nat
  records : Nat
  deriving DecidableEq, Repr

namespace Counters

def zero : Counters :=
  ⟨0, 0, 0, 0, 0, 0, 0⟩

def countAccepted (c : Counters) : Counters :=
  { c with accepted := c.accepted + 1 }

def countRejected (c : Counters) : Counters :=
  { c with rejected := c.rejected + 1 }

def countFailed (c : Counters) : Counters :=
  { c with failed := c.failed + 1 }

def countClosed (c : Counters) : Counters :=
  { c with closed := c.closed + 1 }

/-- One header more was read, if there was one. -/
def countHeader (present : Bool) (c : Counters) : Counters :=
  if present then { c with proxyHeaders := c.proxyHeaders + 1 } else c

/-- One session more was set up, if there was one. -/
def countSession (present : Bool) (c : Counters) : Counters :=
  if present then { c with tlsSessions := c.tlsSessions + 1 } else c

def countRecord (c : Counters) : Counters :=
  { c with records := c.records + 1 }

end Counters
end SyslogIntake

import SyslogIntake.Octets

/-!
# Byte streams

A stream is read in portions.  A read asks for a number of octets and may have a limit,
a point in time after which nobody waits for it any more.  It delivers some octets,
none of them meaning that the stream ended for this read, or it fails, or it is late.
Every stream has a bound on the octets that it can still deliver, so loops over reads
that deliver something end.

**Results.**

* `backlog_lt` : a read that delivers something lowers the bound.
-/

namespace SyslogIntake

/-- What a read brings. -/
inductive Delivery
  | octets (text : Octets)
  | failed (report : String)
  | late
  deriving DecidableEq, Repr

/-- Something that octets can be read from. -/
class ByteStream (σ : Type) where
  /-- Read at most so many octets, not waiting beyond the limit. -/
  read : Nat → Option Nat → σ → Delivery × σ
  /-- The present time in milliseconds. -/
  now : σ → Nat
  /-- Let time pass up to a point, if it is not past it yet. -/
  pass : Nat → σ → σ
  /-- A bound on the octets that can still be delivered. -/
  backlog : σ → Nat
  /-- What a read delivers counts against the bound. -/
  backlog_read : ∀ (want : Nat) (limit : Option Nat) (s : σ) (text : Octets),
    (read want limit s).1 = .octets text →
      backlog (read want limit s).2 + text.length ≤ backlog s

/-- What is sent the other way. -/
inductive Sent
  | octets (text : Octets)
  | flush
  | shutdown
  deriving DecidableEq, Repr

/-- Something that octets can be sent to. -/
class ByteSink (σ : Type) where
  /-- Send something. -/
  send : Sent → σ → σ

/-- The point in time that lies so many seconds after the present. -/
def ByteStream.after {σ : Type} [ByteStream σ] (seconds : Nat) (s : σ) : Nat :=
  now s + seconds * 1000

/-- A read that delivers something lowers the bound. -/
theorem ByteStream.backlog_lt
    {σ : Type}
    [ByteStream σ]
    {want : Nat}
    {limit : Option Nat}
    {s next : σ}
    {b : UInt8}
    {text : Octets}
    (h : read want limit s = (.octets (b :: text), next)) :
    backlog next < backlog s := by
  have hle := backlog_read want limit s (b :: text) (by rw [h])
  rw [h] at hle
  simp only [List.length_cons] at hle
  omega

end SyslogIntake

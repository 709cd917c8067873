import SyslogIntake.Stream.Lookahead

/-!
# Channels

The decoded octets of a connection: those of the raw stream, or those of a session that
runs over it.  What was read ahead of the raw stream comes first.  A session passes on
what it receives once it is set up.
-/

namespace SyslogIntake

/-- Where the decoded octets of a connection come from. -/
inductive Channel (σ : Type)
  | plain (raw : Lookahead σ)
  | session (raw : Lookahead σ)

namespace Channel

variable {σ : Type}

def raw : Channel σ → Lookahead σ
  | .plain raw => raw
  | .session raw => raw

def isSession : Channel σ → Bool
  | .plain _ => false
  | .session _ => true

/-- The channel over another raw stream. -/
def withRaw (raw : Lookahead σ) : Channel σ → Channel σ
  | .plain _ => .plain raw
  | .session _ => .session raw

def title (channel : Channel σ) : String :=
  if channel.isSession then "ByteSource::Tls" else "ByteSource::Plain"

theorem raw_withRaw
    (channel : Channel σ)
    (raw : Lookahead σ) :
    (channel.withRaw raw).raw = raw := by
  cases channel <;> rfl

variable [ByteStream σ]

/-- Read from the raw stream below a channel. -/
def read (want : Nat) (limit : Option Nat) (channel : Channel σ) : Delivery × Channel σ :=
  let (delivery, raw) := channel.raw.read want limit
  (delivery, channel.withRaw raw)

instance : ByteStream (Channel σ) where
  read := read
  now channel := ByteStream.now channel.raw
  pass time channel := channel.withRaw (ByteStream.pass time channel.raw)
  backlog channel := channel.raw.backlog
  backlog_read want limit channel text h := by
    have hle := Lookahead.read_backlog want limit channel.raw text h
    simp only [read, raw_withRaw]
    exact hle

instance [ByteSink σ] : ByteSink (Channel σ) where
  send what channel := channel.withRaw (ByteSink.send what channel.raw)

end Channel
end SyslogIntake

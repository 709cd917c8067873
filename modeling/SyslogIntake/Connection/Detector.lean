import SyslogIntake.Connection.Basic
import SyslogIntake.Connection.Plan
import SyslogIntake.Framing.Reader
import SyslogIntake.ProxyHeader.Parser
import SyslogIntake.Tls.Record
import SyslogIntake.Tls.Session

/-!
# Detection

A detector takes a new connection through its stages.  Each stage has a limit of time for
everything that it waits for, takes its own octets off the stream, and leaves what it
read beyond them to the next stage.  In the end there is a reader of messages, or a fault
and the stage in which it arose.

**Results.**

* `ofSettings_isOk` : a detector lacks nothing but an acceptor that its transport requires.
-/

namespace SyslogIntake

/-- How the connections of a source are dealt with. -/
structure Detector where
  plan : Plan
  acceptor : Option Tls.Acceptor
  peerVerify : PeerVerify
  framing : FramingPolicy
  most : Nat
  dataTimeout : Nat
  handshakeTimeout : Nat

/-- What became of a connection in the stages: a reader, or a fault and when it arose. -/
inductive Detected (σ : Type)
  | reader (found : Reader (Channel σ))
  | fault (cause : Fault) (time : Nat)

namespace Detector

def ofSettings (settings : Settings) (acceptor : Option Tls.Acceptor) :
    Except Fault Detector :=
  if settings.transport.requiresTls ∧ acceptor.isNone then
    .error (.noAcceptor settings.transport)
  else
    .ok
      { plan := .ofTransport settings.transport acceptor.isSome
        acceptor
        peerVerify := match settings.tls with
          | some tls => tls.peerVerify
          | none => .none
        framing := settings.framing
        most := settings.maxMessageSize.toNat
        dataTimeout := settings.initialDataTimeout.toNat
        handshakeTimeout := settings.handshakeTimeout.toNat }

def summary (d : Detector) : String :=
  "Detector \x7b plan: " ++ d.plan.summary ++
    ", acceptor: " ++ (if d.acceptor.isSome then "Some(\"<SslAcceptor>\")" else "None") ++
    ", peer_verify: " ++ Text.nameOf d.peerVerify.word ++
    ", framing: " ++ Text.nameOf d.framing.word ++
    ", max_message_size: " ++ Numeral.decimal d.most ++ " \x7d"

variable {σ : Type} [ByteStream σ]

/-- Look for a header at the front of a stream. -/
def peel (d : Detector) (policy : StagePolicy) (l : Lookahead σ) :
    Except Fault (Option ProxyHeader) × Lookahead σ :=
  if policy = .disabled then
    (.ok none, l)
  else
    match (ProxyHeader.inquiry (policy = .required)).run
        (some (ByteStream.after d.dataTimeout l)) () l with
    | (.answer found, l) => (found, l)
    | (.failed _ report, l) => (.error (.io report), l)
    | (.late _, l) => (.error (.late .header), l)

/-- The channel of a connection, and the peer of its session. -/
structure Negotiated (σ : Type) where
  channel : Channel σ
  peer : Option PeerIdentity

/-- What a look at the first record means for a connection. -/
inductive SessionChoice
  | begin
  | none
  | fault (flaw : HandshakeFlaw)
  deriving DecidableEq, Repr

/-- Decide about a session; a stream that ended without any octets needs none. -/
def choose (policy : StagePolicy) (verdict : Tls.Verdict) (empty : Bool) : SessionChoice :=
  match verdict with
  | .session => .begin
  | .undecided =>
      if empty then .none
      else if policy = .required then .fault .endedInRecord
      else .none
  | .other flaw => if policy = .required then .fault (.notBegun flaw) else .none

/-- Begin a session, if there is to be one. -/
def negotiate (d : Detector) (raw : Lookahead σ) :
    Except Fault (Negotiated σ) × Nat :=
  match d.acceptor with
  | none => (.ok ⟨.plain raw, none⟩, ByteStream.now raw)
  | some acceptor =>
      if d.plan.tls = .disabled then
        (.ok ⟨.plain raw, none⟩, ByteStream.now raw)
      else
        match Tls.inquiry.run (some (ByteStream.after d.dataTimeout raw)) () raw with
        | (.failed _ report, raw) => (.error (.io report), ByteStream.now raw)
        | (.late _, raw) => (.error (.late .clientHello), ByteStream.now raw)
        | (.answer verdict, raw) =>
            match choose d.plan.tls verdict (raw.ended && raw.buffer.isEmpty) with
            | .none => (.ok ⟨.plain raw, none⟩, ByteStream.now raw)
            | .fault flaw => (.error (.handshake flaw), ByteStream.now raw)
            | .begin =>
                match Tls.accept acceptor d.peerVerify d.handshakeTimeout raw with
                | (.error fault, raw) => (.error fault, ByteStream.now raw)
                | (.ok peer, raw) => (.ok ⟨.session raw, peer⟩, ByteStream.now raw)

/-- The reader of messages behind the stages. -/
def readerOf (d : Detector) (decoded : Lookahead (Channel σ)) : Reader (Channel σ) :=
  ⟨.start d.framing d.most, decoded⟩

/-- The stage inside a session: a header, unless one was found outside. -/
def detectInside (d : Detector) (channel : Channel σ) (c : Connection) :
    Detected σ × Connection :=
  let decoded := Lookahead.fresh channel
  if channel.isSession ∧ c.proxy = none then
    match d.peel d.plan.innerProxy decoded with
    | (.error fault, decoded) => (.fault fault (ByteStream.now decoded), c)
    | (.ok found, decoded) =>
        (.reader (d.readerOf decoded), { c with proxy := found }.advance .framingSniff)
  else
    (.reader (d.readerOf decoded), c.advance .framingSniff)

/-- Take a new connection through its stages. -/
def detect (d : Detector) (stream : σ) (c : Connection) : Detected σ × Connection :=
  let c := c.advance .proxyHeader
  match d.peel d.plan.outerProxy (Lookahead.fresh stream) with
  | (.error fault, raw) => (.fault fault (ByteStream.now raw), c)
  | (.ok found, raw) =>
      let c := { c with proxy := found }.advance .tlsHandshake
      match d.negotiate raw with
      | (.error fault, time) => (.fault fault time, c)
      | (.ok ⟨channel, peer⟩, _) =>
          let c := if channel.isSession then { c with isTls := true, tlsPeer := peer } else c
          d.detectInside channel c

/-- A detector lacks nothing but an acceptor that its transport requires. -/
theorem ofSettings_isOk
    (settings : Settings)
    (acceptor : Option Tls.Acceptor)
    (h : settings.transport.requiresTls = true → acceptor.isSome = true) :
    ∃ d, ofSettings settings acceptor = .ok d := by
  have hnot : ¬(settings.transport.requiresTls = true ∧ acceptor.isNone = true) := by
    rintro ⟨hneeds, hnone⟩
    have hsome := h hneeds
    cases acceptor <;> simp at hsome hnone
  exact ⟨_, if_neg hnot⟩

end Detector
end SyslogIntake

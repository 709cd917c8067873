import SyslogIntake.Error.Flaw
import SyslogIntake.Error.Problem

/-!
# Faults

Everything that can go wrong while a source is set up or a connection is served.
A fault is of a category, which has a sentence and says whether the octets of the
peer are to blame.
-/

namespace SyslogIntake

/-- The categories of faults. -/
inductive Category
  | io
  | session
  | settings
  | certificate
  | header
  | headerVersion
  | handshake
  | truncated
  | oversized
  | frameHeader
  | late
  | other
  deriving DecidableEq, Repr

namespace Category

/-- The sentence of a category around the detail of a fault. -/
def sentence : Category → String → String
  | .io, detail => s!"IO error: {detail}"
  | .session, detail => s!"OpenSSL error: {detail}"
  | .settings, detail => s!"Configuration error: {detail}"
  | .certificate, detail => s!"Certificate error: {detail}"
  | .header, detail => s!"Malformed PROXY protocol header: {detail}"
  | .headerVersion, detail => s!"Unsupported PROXY protocol version: {detail}"
  | .handshake, detail => s!"TLS handshake failed: {detail}"
  | .truncated, detail => s!"Truncated frame: {detail}"
  | .oversized, detail => s!"Frame of {detail}"
  | .frameHeader, detail => s!"Invalid frame header: {detail}"
  | .late, detail => s!"Timed out {detail}"
  | .other, detail => s!"Other error: {detail}"

/-- Whether the octets of the peer are to blame. -/
def blamesPeer : Category → Bool
  | .header | .headerVersion | .handshake | .truncated | .oversized | .frameHeader => true
  | .io | .session | .settings | .certificate | .late | .other => false

end Category

/-- What a connection was waiting for when its time was up. -/
inductive Wait
  | header
  | clientHello
  | handshake
  | firstMessage
  deriving DecidableEq, Repr

def Wait.text : Wait → String
  | .header => "waiting for PROXY header"
  | .clientHello => "waiting for TLS ClientHello"
  | .handshake => "during TLS handshake"
  | .firstMessage => "waiting for the first message"

/-- What can go wrong. -/
inductive Fault
  | io (report : String)
  | session (report : String)
  | settings (problem : Problem)
  | address (bad : BadAddress)
  | noFile (path : String)
  | notFile (path : String)
  | output (path report : String)
  | noAcceptor (transport : Transport)
  | certificate (flaw : CertificateFlaw)
  | header (flaw : HeaderFlaw)
  | headerVersion (version : Nat)
  | handshake (flaw : HandshakeFlaw)
  | truncated (expected received : Nat)
  | oversized (length most : Nat)
  | frameHeader (flaw : FrameFlaw)
  | late (wait : Wait)
  | writerStopped
  | sourceStopped
  | noReply
  | noAcknowledgement
  deriving DecidableEq, Repr

namespace Fault

def category : Fault → Category
  | .io _ => .io
  | .session _ => .session
  | .settings _ | .address _ | .noFile _ | .notFile _ | .output _ _ | .noAcceptor _ => .settings
  | .certificate _ => .certificate
  | .header _ => .header
  | .headerVersion _ => .headerVersion
  | .handshake _ => .handshake
  | .truncated _ _ => .truncated
  | .oversized _ _ => .oversized
  | .frameHeader _ => .frameHeader
  | .late _ => .late
  | .writerStopped | .sourceStopped | .noReply | .noAcknowledgement => .other

def detail : Fault → String
  | .io report => report
  | .session report => report
  | .settings problem => problem.message
  | .address bad => bad.detail
  | .noFile path => s!"File does not exist: {path}"
  | .notFile path => s!"Path is not a file: {path}"
  | .output path report => s!"Cannot open output {path}: {report}"
  | .noAcceptor transport => "transport '" ++ transport.word ++ "' requires TLS settings"
  | .certificate flaw => flaw.message
  | .header flaw => flaw.message
  | .headerVersion version => Numeral.decimal version
  | .handshake flaw => flaw.message
  | .truncated expected received =>
      "expected " ++ Numeral.decimal expected ++ " bytes, received " ++ Numeral.decimal received
  | .oversized length most =>
      Numeral.decimal length ++ " bytes exceeds max_message_size (" ++ Numeral.decimal most ++ ")"
  | .frameHeader flaw => flaw.message
  | .late wait => wait.text
  | .writerStopped => "Output writer has stopped"
  | .sourceStopped => "Source is not running"
  | .noReply => "Source stopped before replying"
  | .noAcknowledgement => "Source stopped before acknowledging shutdown"

def message (fault : Fault) : String :=
  fault.category.sentence fault.detail

/-- Whether the octets of the peer are to blame. -/
def blamesPeer (fault : Fault) : Bool :=
  fault.category.blamesPeer

/-- Whether a fault brings the program down before it can be reported. -/
def crashes : Fault → Bool
  | .settings problem => problem.crashes
  | _ => false

end Fault
end SyslogIntake

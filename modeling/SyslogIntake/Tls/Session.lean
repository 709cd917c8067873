import SyslogIntake.Journal
import SyslogIntake.Settings.Basic
import SyslogIntake.Stream.Channel
import SyslogIntake.Stream.Inquiry
import SyslogIntake.Tls.Certificate

/-!
# Sessions

Sessions are the work of a library that is only known by what it answers.  An acceptor is
set up once, in a fixed order of calls of which each may fail.  A session then takes one
record of a handshake off the stream, and the library says how the handshake went and
what certificate the peer has.  The demand on the certificate is enforced here.

**Results.**

* `checkPeer_ok_iff` : a peer passes exactly if it meets the demand.
-/

namespace SyslogIntake
namespace Tls

/-- What may fail in the library. -/
inductive Operation
  | new
  | certificate
  | key
  | check
  | authorities
  | context
  | session
  | stream
  deriving DecidableEq, Repr

/-- What the library answers. -/
structure Answers where
  failures : List (Operation × String)
  handshakeReport : Option String
  handshakeHangs : Bool
  peer : Option Certificate
  verifyReport : Option String

/-- A library in which nothing fails and no peer has a certificate. -/
def Answers.default : Answers :=
  ⟨[], none, false, none, none⟩

/-- Why an operation fails, if it does. -/
def Answers.failure? (answers : Answers) (operation : Operation) : Option String :=
  (answers.failures.find? fun failure => failure.1 == operation).map Prod.snd

/-- A call that sets up an acceptor. -/
inductive Call
  | new
  | certificate (path : String)
  | key (path : String)
  | check
  | authorities (path : String)
  | context (name : String)
  | verify (mode : Nat)
  | verifyAny (mode : Nat)
  | build
  deriving DecidableEq, Repr

def Call.text : Call → String
  | .new => "new"
  | .certificate path => s!"certificate {path}"
  | .key path => s!"key {path}"
  | .check => "check"
  | .authorities path => s!"ca {path}"
  | .context name => s!"session {name}"
  | .verify mode => "verify " ++ Numeral.decimal mode
  | .verifyAny mode => "verify_callback " ++ Numeral.decimal mode ++ " true"
  | .build => "build"

/-- The name under which sessions are kept. -/
def sessionContext : String := "syslog-autodetect"

/-- The sum of the flags of a demand: a certificate is asked for, it must be there. -/
def verifyMode (demand : PeerVerify) : Nat :=
  (if demand = .none then 0 else 1) + (if demand.requiresCertificate then 2 else 0)

/-- How a demand is set up: where trust does not matter, every certificate passes. -/
def verifyCall (demand : PeerVerify) : Call :=
  if demand = .none ∨ demand.requiresTrust then .verify (verifyMode demand)
  else .verifyAny (verifyMode demand)

/-- Something that sessions are accepted with. -/
structure Acceptor where
  answers : Answers

/-- The calls of a set-up in their order, each with what it is a failure of. -/
def setUpCalls (settings : TlsSettings) : List (Call × Option (Operation × (String → Fault))) :=
  [(.new, some (.new, Fault.session)),
    (.certificate settings.certFile,
      some (.certificate, fun report => Fault.certificate (.notLoaded settings.certFile report))),
    (.key settings.keyFile,
      some (.key, fun report => Fault.certificate (.keyNotLoaded settings.keyFile report))),
    (.check, some (.check, fun report => Fault.certificate (.keyMismatch report)))] ++
  (match settings.caFile with
    | none => []
    | some path =>
        [(.authorities path,
          some
            (.authorities,
              fun report => Fault.certificate (.authoritiesNotLoaded path report)))]) ++
  [(.context sessionContext, some (.context, Fault.session)),
    (verifyCall settings.peerVerify, none),
    (.build, none)]

/-- Make calls until one fails: the calls that were made, and the failure. -/
def makeCalls (answers : Answers) :
    List (Call × Option (Operation × (String → Fault))) → List Call × Option Fault
  | [] => ([], none)
  | (call, none) :: rest =>
      let (made, fault) := makeCalls answers rest
      (call :: made, fault)
  | (call, some (operation, fault)) :: rest =>
      match answers.failure? operation with
      | some report => ([call], some (fault report))
      | none =>
          let (made, fault) := makeCalls answers rest
          (call :: made, fault)

/-- What the journal says about an acceptor that is set up. -/
def enabledEntry (settings : TlsSettings) : Entry :=
  ⟨.info, "TLS enabled, peer verification: " ++ settings.peerVerify.word⟩

/-- Set up an acceptor: the calls that were made, and the acceptor or what went wrong. -/
def setUp (settings : TlsSettings) (answers : Answers) : List Call × Except Fault Acceptor :=
  match makeCalls answers (setUpCalls settings) with
  | (made, some fault) => (made, .error fault)
  | (made, none) => (made, .ok ⟨answers⟩)

/-- Enforce a demand on the certificate of a peer. -/
def checkPeer (demand : PeerVerify) (peer : Option PeerIdentity) (report : String) :
    Except Fault Unit :=
  match peer with
  | none =>
      if demand.requiresCertificate then .error (.handshake .noCertificate) else .ok ()
  | some identity =>
      if demand.requiresTrust ∧ identity.trusted = false then
        .error (.handshake (.notTrusted report))
      else .ok ()

/-- The identity of the peer of a session, if it has a certificate. -/
def Answers.identity (answers : Answers) : Except Fault (Option PeerIdentity) :=
  match answers.peer with
  | none => .ok none
  | some certificate =>
      (certificate.identity answers.verifyReport.isNone).map some

variable {σ : Type} [ByteStream σ]

/-- What a handshake takes off the stream: a record header, and what it announces. -/
def takeRecord (limit : Option Nat) (raw : Lookahead σ) :
    ByteStream.Gathered × Lookahead σ :=
  match ByteStream.readExact 5 limit [] raw with
  | (.octets header, raw) =>
      match header with
      | [_, _, _, high, low] =>
          ByteStream.readExact (Octets.bigEndian high low) limit [] raw
      | _ => (.octets [], raw)
  | other => other

def handshake (answers : Answers) (limit : Nat) (raw : Lookahead σ) :
    Except Fault Unit × Lookahead σ :=
  match takeRecord (some limit) raw with
  | (.ended _, raw) => (.error (.handshake (.failed "unexpected EOF")), raw)
  | (.failed report, raw) => (.error (.handshake (.failed report)), raw)
  | (.late, raw) => (.error (.late .handshake), raw)
  | (.octets _, raw) =>
      if answers.handshakeHangs then (.error (.late .handshake), ByteStream.pass limit raw)
      else
        match answers.handshakeReport with
        | some report => (.error (.handshake (.failed report)), raw)
        | none => (.ok (), raw)

/-- Accept a session: the identity of the peer, if it has a certificate. -/
def accept (acceptor : Acceptor) (demand : PeerVerify) (seconds : Nat) (raw : Lookahead σ) :
    Except Fault (Option PeerIdentity) × Lookahead σ :=
  let answers := acceptor.answers
  match answers.failure? .session, answers.failure? .stream with
  | some report, _ => (.error (.session report), raw)
  | none, some report => (.error (.session report), raw)
  | none, none =>
      match handshake answers (ByteStream.after seconds raw) raw with
      | (.error fault, raw) => (.error fault, raw)
      | (.ok (), raw) =>
          match answers.identity with
          | .error fault => (.error fault, raw)
          | .ok peer =>
              match checkPeer demand peer (answers.verifyReport.getD "") with
              | .error fault => (.error fault, raw)
              | .ok () => (.ok peer, raw)

/-- A peer passes exactly if it meets the demand. -/
theorem checkPeer_ok_iff
    (demand : PeerVerify)
    (peer : Option PeerIdentity)
    (report : String) :
    checkPeer demand peer report = .ok () ↔
      (demand.requiresCertificate = true → peer.isSome = true) ∧
        (demand.requiresTrust = true → ∀ identity ∈ peer, identity.trusted = true) := by
  cases peer with
  | none =>
      cases hdemand : demand.requiresCertificate <;> simp [checkPeer, hdemand]
  | some identity =>
      cases hdemand : demand.requiresTrust <;> cases htrust : identity.trusted <;>
        simp [checkPeer, hdemand, htrust]

end Tls
end SyslogIntake

import SyslogIntake.Octets
import SyslogIntake.Text.Quoted
import SyslogIntake.Text.Utf8

/-!
# Flaws

What can be wrong with the octets of a peer, with certificates and with a session,
and the text for each flaw.
-/

namespace SyslogIntake

/-- What is wrong with the header of a proxy. -/
inductive HeaderFlaw
  | tooLong
  | notText
  | noProtocol
  | extraSpace
  | fewFields (protocol : String)
  | unknownProtocol (name : String)
  | unknownCommand (code : Nat)
  | unknownTransport (code : Nat)
  | unknownFamily (code : Nat)
  | shortAddresses (length needed : Nat)
  | truncatedField
  | fieldOverrun (kind : Nat)
  | authorityNotText
  | longUniqueId
  | missing
  | cutOff (length : Nat)
  | endedBefore
  deriving DecidableEq, Repr

def HeaderFlaw.message : HeaderFlaw → String
  | .tooLong => "v1 header longer than 107 bytes"
  | .notText => "v1 header is not ASCII"
  | .noProtocol => "missing protocol in v1 header"
  | .extraSpace => "extra whitespace after PROXY"
  | .fewFields protocol => s!"{protocol} header needs 4 address fields"
  | .unknownProtocol name => s!"unknown v1 protocol '{name}'"
  | .unknownCommand code => "unknown v2 command " ++ Numeral.hex 1 code
  | .unknownTransport code => "unknown v2 transport " ++ Numeral.hex 1 code
  | .unknownFamily code => "unknown v2 address family " ++ Numeral.hex 1 code
  | .shortAddresses length needed =>
      "v2 address block of " ++ Numeral.decimal length ++ " bytes, family needs " ++
        Numeral.decimal needed
  | .truncatedField => "truncated v2 TLV"
  | .fieldOverrun kind => "v2 TLV " ++ Numeral.hex 2 kind ++ " overruns the header"
  | .authorityNotText => "v2 authority TLV is not UTF-8"
  | .longUniqueId => "v2 unique id TLV longer than 128 bytes"
  | .missing => "connection did not start with a PROXY header"
  | .cutOff length =>
      "truncated header, stream ended after " ++ Numeral.decimal length ++ " bytes"
  | .endedBefore => "stream ended before a PROXY header"

/-- What is wrong with the length in front of a message. -/
inductive FrameFlaw
  | endedInLength
  | noLength (head : Octets)
  deriving DecidableEq, Repr

/-- The text for a flaw of a length; at most sixteen octets of what stands there are shown. -/
def FrameFlaw.message : FrameFlaw → String
  | .endedInLength => "stream ended inside a length prefix"
  | .noLength head =>
      "expected '<length> ', got " ++ Text.quoted (Utf8.decodeLossy (head.take 16))

/-- Why octets do not begin a session. -/
inductive RecordFlaw
  | firstOctet (value : UInt8)
  | version (major minor : UInt8)
  | length (value : Nat)
  deriving DecidableEq, Repr

def RecordFlaw.message : RecordFlaw → String
  | .firstOctet value =>
      "first byte is " ++ Numeral.hex 2 value.toNat ++ ", not a TLS handshake"
  | .version major minor =>
      "record version " ++ Numeral.decimal major.toNat ++ "." ++ Numeral.decimal minor.toNat ++
        " is not SSLv3..TLSv1.3"
  | .length value => "record length " ++ Numeral.decimal value ++ " out of range"

/-- Why no session came about. -/
inductive HandshakeFlaw
  | notBegun (record : RecordFlaw)
  | endedInRecord
  | failed (report : String)
  | noCertificate
  | notTrusted (report : String)
  deriving DecidableEq, Repr

/-- The text for a session that did not come about. -/
def HandshakeFlaw.message : HandshakeFlaw → String
  | .notBegun record => "client did not start a TLS handshake: " ++ record.message
  | .endedInRecord =>
      "client did not start a TLS handshake: stream ended inside the first record"
  | .failed report => report
  | .noCertificate => "peer did not present a certificate"
  | .notTrusted report => s!"peer certificate not trusted: {report}"

/-- What is wrong with a certificate or with the files around it. -/
inductive CertificateFlaw
  | notLoaded (path report : String)
  | keyNotLoaded (path report : String)
  | keyMismatch (report : String)
  | authoritiesNotLoaded (path report : String)
  | notRead (report : String)
  | notParsed (report : String)
  | noFingerprint (report : String)
  deriving DecidableEq, Repr

def CertificateFlaw.message : CertificateFlaw → String
  | .notLoaded path report => s!"Failed to load certificate {path}: {report}"
  | .keyNotLoaded path report => s!"Failed to load private key {path}: {report}"
  | .keyMismatch report => s!"Private key does not match certificate: {report}"
  | .authoritiesNotLoaded path report => s!"Failed to load CA bundle {path}: {report}"
  | .notRead report => s!"Failed to read certificate file: {report}"
  | .notParsed report => s!"Failed to parse certificate: {report}"
  | .noFingerprint report => s!"Failed to calculate certificate fingerprint: {report}"

end SyslogIntake

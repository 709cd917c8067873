import SyslogIntake.Error.Fault

/-!
# Certificates

A certificate names its subject in entries and has a digest.  An entry that is not text,
or has a zero octet in it, is not trusted and counts as missing.  The fingerprint is the
digest in base sixteen with colons.
-/

namespace SyslogIntake

/-- An entry of a subject; entries of unknown kinds have no short name. -/
structure NameEntry where
  shortName : Option String
  value : Octets
  deriving DecidableEq, Repr

/-- A certificate: its subject and its digest, or why there is none. -/
structure Certificate where
  subject : List NameEntry
  digest : Except String Octets

/-- Who a peer is, by its certificate. -/
structure PeerIdentity where
  commonName : Option String
  organization : Option String
  organizationalUnit : Option String
  fingerprint : String
  trusted : Bool
  deriving DecidableEq, Repr

namespace Certificate

def entryText (value : Octets) : Option String :=
  if value.contains 0 then none else Utf8.decode value

/-- The text of the first entry of a name. -/
def entry? (certificate : Certificate) (name : String) : Option String :=
  (certificate.subject.find? fun entry => entry.shortName == some name).bind fun entry =>
    entryText entry.value

/-- An entry as a part of the subject line. -/
def subjectPart (entry : NameEntry) : Option String :=
  match entry.shortName, entryText entry.value with
  | some name, some text => some s!"{name}={text}"
  | _, _ => none

def subjectLine (certificate : Certificate) : String :=
  ", ".intercalate (certificate.subject.filterMap subjectPart)

/-- An octet in base sixteen. -/
def hexOctet (b : UInt8) : String :=
  String.ofList [Numeral.digit (b.toNat / 16), Numeral.digit (b.toNat % 16)]

def fingerprint (certificate : Certificate) : Except Fault String :=
  match certificate.digest with
  | .error report => .error (.certificate (.noFingerprint report))
  | .ok digest => .ok (":".intercalate (digest.map hexOctet))

/-- Who the peer with a certificate is. -/
def identity (certificate : Certificate) (trusted : Bool) : Except Fault PeerIdentity :=
  certificate.fingerprint.map fun fingerprint =>
    { commonName := certificate.entry? "CN"
      organization := certificate.entry? "O"
      organizationalUnit := certificate.entry? "OU"
      fingerprint
      trusted }

end Certificate
end SyslogIntake

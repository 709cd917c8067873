import SyslogIntake.Stream.Inquiry
import SyslogIntake.Error.Fault

/-!
# The beginning of a session

A client that wants a session sends a record first, whose header has five octets: a
content type, a version and a length.  No message begins with the content type of a
handshake, so the first octet alone rules a session out.

**Results.**

* `check_of_first` : a first octet of another kind settles the matter.
-/

namespace SyslogIntake
namespace Tls

def handshakeType : UInt8 := 22

def recordHeaderLength : Nat := 5

def mostRecordLength : Nat := 16384

/-- What the first octets say about a session. -/
inductive Verdict
  | session
  | other (flaw : RecordFlaw)
  | undecided
  deriving DecidableEq, Repr

/-- Recognise the header of the first record. -/
def check : Octets → Verdict
  | [] => .undecided
  | first :: rest =>
      if first ≠ handshakeType then .other (.firstOctet first)
      else
        match rest with
        | major :: minor :: high :: low :: _ =>
            let length := Octets.bigEndian high low
            if major ≠ 3 ∨ 4 < minor then .other (.version major minor)
            else if length < 4 ∨ mostRecordLength < length then .other (.length length)
            else .session
        | _ => .undecided

def versionName (major minor : UInt8) : String :=
  match major, minor with
  | 3, 0 => "SSLv3"
  | 3, 1 => "TLSv1.0"
  | 3, 2 => "TLSv1.1"
  | 3, 3 => "TLSv1.2"
  | 3, 4 => "TLSv1.3"
  | _, _ =>
      "unknown (" ++ Numeral.decimal major.toNat ++ "." ++ Numeral.decimal minor.toNat ++ ")"

/-- The version that the header of a record of a handshake names. -/
def version? : Octets → Option String
  | first :: major :: minor :: _ :: _ :: _ =>
      if first = handshakeType then some (versionName major minor) else none
  | _ => none

/-- The question whether a session begins, as an inquiry; it takes nothing. -/
def inquiry : Inquiry Unit Verdict where
  look _ text :=
    match check text with
    | .undecided => .wanting () text
    | verdict => .settled verdict text
  finish _ text := (.undecided, text)

/-- A first octet of another kind settles the matter. -/
theorem check_of_first
    {first : UInt8}
    (h : first ≠ handshakeType)
    (rest : Octets) :
    check (first :: rest) = .other (.firstOctet first) := by
  simp [check, h]

end Tls
end SyslogIntake

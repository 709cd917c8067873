import SyslogIntake.Address.Reader
import SyslogIntake.Error.Fault

/-!
# Proxy headers

A proxy in front of a source puts a header before the octets of a client, which says
where the client is.  A header is a line of text or a binary block; each of the two
begins with its own signature.

**Results.**

* `signatureLength_le` : a signature has at most twelve octets.
-/

namespace SyslogIntake

/-- The two forms of a header. -/
inductive HeaderForm
  | text
  | binary
  deriving DecidableEq, Repr

def HeaderForm.version : HeaderForm → Nat
  | .text => 1
  | .binary => 2

/-- What a header conveys. -/
structure ProxyHeader where
  form : HeaderForm
  route : Option Route
  authority : Option String
  uniqueId : Option Octets
  deriving DecidableEq, Repr

namespace ProxyHeader

/-- What stands at the front of a stream. -/
inductive Outcome
  | absent
  | incomplete (needed : Nat)
  | complete (header : ProxyHeader) (length : Nat)
  deriving DecidableEq, Repr

/-- The word that begins a header of text. -/
def textSignature : Octets :=
  [0x50, 0x52, 0x4F, 0x58, 0x59]

/-- The octets that begin a binary header. -/
def binarySignature : Octets :=
  [0x0D, 0x0A, 0x0D, 0x0A, 0x00, 0x0D, 0x0A, 0x51, 0x55, 0x49, 0x54, 0x0A]

/-- The octets that it takes to tell a signature from other octets. -/
def signatureLength (text : Octets) : Nat :=
  if text.head? = binarySignature.head? then binarySignature.length
  else textSignature.length

/-- Whether a text can still become one of the signatures. -/
def mayBecomeSignature (text : Octets) : Bool :=
  text.isPrefixOf textSignature || text.isPrefixOf binarySignature

def source? (header : ProxyHeader) : Option Endpoint :=
  header.route.map Route.source

def destination? (header : ProxyHeader) : Option Endpoint :=
  header.route.map Route.destination

theorem signatureLength_le
    (text : Octets) :
    signatureLength text ≤ 12 := by
  unfold signatureLength
  split <;> decide

end ProxyHeader
end SyslogIntake

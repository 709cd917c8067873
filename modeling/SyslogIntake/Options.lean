import SyslogIntake.Text.Word

/-!
# Options

The three choices of a source: what its connections look like, how messages are
told apart, and what is asked of a peer's certificate.  Each choice has a word, and a
text names the choice whose word is its normal form.

**Results.**

* `Transport.find?_word`, `FramingPolicy.find?_word`, `PeerVerify.find?_word` : a
  choice is found by its own word.
-/

namespace SyslogIntake

/-- What every connection of a source carries. -/
inductive Transport
  | tcp
  | tls
  | auto
  | proxiedTcp
  | proxiedTls
  | proxiedTlsPassthrough
  deriving DecidableEq, Repr

/-- How messages are told apart. -/
inductive FramingPolicy
  | auto
  | autoOnce
  | octetCounted
  | nonTransparent
  deriving DecidableEq, Repr

/-- What is asked of the certificate of a peer. -/
inductive PeerVerify
  | none
  | optionalUntrusted
  | optionalTrusted
  | requiredUntrusted
  | requiredTrusted
  deriving DecidableEq, Repr

namespace Text

/-- Join the parts of a word that has hyphens, each with a capital in front. -/
def joined (capital : Bool) : List Char → List Char
  | [] => []
  | c :: rest =>
      if c = '-' then joined true rest
      else (if capital then c.toUpper else c) :: joined false rest

/-- The name of a word that has hyphens. -/
def nameOf (word : String) : String :=
  String.ofList (joined true word.toList)

end Text

namespace Transport

def all : List Transport :=
  [.tcp, .tls, .auto, .proxiedTcp, .proxiedTls, .proxiedTlsPassthrough]

def word : Transport → String
  | .tcp => "tcp"
  | .tls => "tls"
  | .auto => "auto"
  | .proxiedTcp => "proxied-tcp"
  | .proxiedTls => "proxied-tls"
  | .proxiedTlsPassthrough => "proxied-tls-passthrough"

def find? (text : String) : Option Transport :=
  all.find? fun transport => transport.word == Text.normalWord text

/-- Whether a transport is of no use without a certificate. -/
def requiresTls : Transport → Bool
  | .tls | .proxiedTls | .proxiedTlsPassthrough => true
  | .tcp | .auto | .proxiedTcp => false

/-- Whether a certificate is of any use to a transport. -/
def mayUseTls (transport : Transport) : Bool :=
  transport.requiresTls || transport == .auto

theorem find?_word
    (transport : Transport) :
    find? transport.word = some transport := by
  cases transport <;> decide +kernel

end Transport

namespace FramingPolicy

def all : List FramingPolicy :=
  [.auto, .autoOnce, .octetCounted, .nonTransparent]

def word : FramingPolicy → String
  | .auto => "auto"
  | .autoOnce => "auto-once"
  | .octetCounted => "octet-counted"
  | .nonTransparent => "non-transparent"

/-- Another word for a policy, where there is one. -/
def synonym? : FramingPolicy → Option String
  | .octetCounted => some "framed"
  | .nonTransparent => some "legacy"
  | .auto | .autoOnce => none

def find? (text : String) : Option FramingPolicy :=
  all.find? fun policy =>
    policy.word == Text.normalWord text || policy.synonym? == some (Text.normalWord text)

theorem find?_word
    (policy : FramingPolicy) :
    find? policy.word = some policy := by
  cases policy <;> decide +kernel

end FramingPolicy

namespace PeerVerify

def all : List PeerVerify :=
  [.none, .optionalUntrusted, .optionalTrusted, .requiredUntrusted, .requiredTrusted]

def word : PeerVerify → String
  | .none => "none"
  | .optionalUntrusted => "optional-untrusted"
  | .optionalTrusted => "optional-trusted"
  | .requiredUntrusted => "required-untrusted"
  | .requiredTrusted => "required-trusted"

def find? (text : String) : Option PeerVerify :=
  all.find? fun demand => demand.word == Text.normalWord text

/-- Whether the peer must present a certificate. -/
def requiresCertificate : PeerVerify → Bool
  | .requiredUntrusted | .requiredTrusted => true
  | .none | .optionalUntrusted | .optionalTrusted => false

/-- Whether a certificate that is presented must be trusted. -/
def requiresTrust : PeerVerify → Bool
  | .optionalTrusted | .requiredTrusted => true
  | .none | .optionalUntrusted | .requiredUntrusted => false

theorem find?_word
    (demand : PeerVerify) :
    find? demand.word = some demand := by
  cases demand <;> decide +kernel

end PeerVerify
end SyslogIntake

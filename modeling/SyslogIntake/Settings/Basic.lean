import SyslogIntake.Address.Basic
import SyslogIntake.Options

/-!
# Settings

What one source is told: where it listens, what its connections carry, its limits, and
where its messages go.  Everything has a default but the key and the certificate.
-/

namespace SyslogIntake

/-- The key and the certificate of a source, and what it asks of its peers. -/
structure TlsSettings where
  keyFile : String
  certFile : String
  caFile : Option String
  peerVerify : PeerVerify
  deriving DecidableEq, Repr

/-- What one source is told. -/
structure Settings where
  listen : Endpoint
  transport : Transport
  framing : FramingPolicy
  tls : Option TlsSettings
  maxMessageSize : UInt64
  initialDataTimeout : UInt64
  handshakeTimeout : UInt64
  maxConnections : UInt64
  shutdownTimeout : UInt64
  output : String
  logLevel : String
  deriving DecidableEq, Repr

namespace TlsSettings

/-- The demand on peers that nobody chose. -/
def defaultPeerVerify : PeerVerify := .requiredTrusted

/-- A key and a certificate with nothing else chosen. -/
def ofFiles (keyFile certFile : String) : TlsSettings :=
  ⟨keyFile, certFile, none, defaultPeerVerify⟩

end TlsSettings

namespace Settings

/-- The settings of a source that is told nothing. -/
def default : Settings where
  listen := .v4 ⟨0, 0, 0, 0⟩ 601
  transport := .auto
  framing := .auto
  tls := none
  maxMessageSize := 65536
  initialDataTimeout := 10
  handshakeTimeout := 10
  maxConnections := 1024
  shutdownTimeout := 5
  output := "output.log"
  logLevel := "info"

instance : Inhabited Settings :=
  ⟨default⟩

/-- What the names of variables that hold settings begin with. -/
def variablePrefix : String := "SYSLOG_AUTODETECT"

/-- What separates the parts of a nested name in the name of a variable. -/
def variableSeparator : String := "__"

end Settings
end SyslogIntake

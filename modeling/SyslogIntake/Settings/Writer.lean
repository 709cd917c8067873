import SyslogIntake.Json.Printer
import SyslogIntake.Settings.Basic

/-!
# Settings as JSON

Settings are written as an object with a member for each option.  What a source does
without, the TLS settings or the bundle of authorities, has no member.  The members of a value
stand in the order of their names, those of a text in the order of the options.
-/

namespace SyslogIntake

namespace TlsSettings

def authoritiesMember : Option String → List (String × Json)
  | none => []
  | some path => [("ca_file", .string path)]

/-- The options of TLS settings and their values. -/
def members (tls : TlsSettings) : List (String × Json) :=
  [("key_file", .string tls.keyFile), ("cert_file", .string tls.certFile)] ++
    authoritiesMember tls.caFile ++ [("peer_verify", .string tls.peerVerify.word)]

def toJson (tls : TlsSettings) : Json :=
  .ofMembers tls.members

end TlsSettings

namespace Settings

/-- The member of the TLS settings, of which `block` makes a value. -/
def tlsMember (block : TlsSettings → Json) : Option TlsSettings → List (String × Json)
  | none => []
  | some tls => [("tls", block tls)]

/-- A limit as a value. -/
def count (n : UInt64) : Json :=
  .ofNat n.toNat

/-- The options of settings and their values; `block` makes a value of TLS settings. -/
def members (block : TlsSettings → Json) (settings : Settings) : List (String × Json) :=
  [("listen", .string settings.listen.text), ("transport", .string settings.transport.word),
      ("framing", .string settings.framing.word)] ++
    tlsMember block settings.tls ++
    [("max_message_size", count settings.maxMessageSize),
      ("initial_data_timeout", count settings.initialDataTimeout),
      ("handshake_timeout", count settings.handshakeTimeout),
      ("max_connections", count settings.maxConnections),
      ("shutdown_timeout", count settings.shutdownTimeout),
      ("output", .string settings.output), ("log_level", .string settings.logLevel)]

def toJson (settings : Settings) : Json :=
  .ofMembers (settings.members TlsSettings.toJson)

/-- Settings with their options in their order. -/
def document (settings : Settings) : Json :=
  .object (settings.members fun tls => .object tls.members)

/-- Settings as a text. -/
def text (settings : Settings) : String :=
  settings.document.text

end Settings
end SyslogIntake

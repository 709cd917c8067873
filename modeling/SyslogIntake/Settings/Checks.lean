import SyslogIntake.Files.Tree
import SyslogIntake.Journal
import SyslogIntake.Settings.Basic

/-!
# Checking settings

Settings are refused if their transport lacks what it needs, if a file they name is not
there, or if a limit is zero.  Other oddities only earn a warning.

**Results.**

* `check_default` : the default settings are accepted;
* `warnings_default` : and earn no warning.
-/

namespace SyslogIntake
namespace Settings

/-- A path that must lead to an ordinary file. -/
def checkFile (tree : FileTree) (path : String) : Except Problem Unit :=
  (tree.require path).mapError fun _ => .fileNotFound path

/-- Check the files of TLS settings, and that trust has something to rest on. -/
def checkTls (tree : FileTree) (tls : TlsSettings) : Except Problem Unit := do
  checkFile tree tls.keyFile
  checkFile tree tls.certFile
  match tls.caFile with
  | some path => checkFile tree path
  | none =>
      if tls.peerVerify.requiresTrust then
        throw (.needsAuthorities tls.peerVerify)

/-- Check that a transport has what it needs. -/
def checkTransport (tree : FileTree) (settings : Settings) : Except Problem Unit :=
  match settings.tls with
  | some tls => checkTls tree tls
  | none =>
      if settings.transport.requiresTls then .error (.needsTls settings.transport) else .ok ()

/-- The limits of settings that must not be zero, in the order in which they are checked. -/
def limits (settings : Settings) : List (Limit × UInt64) :=
  [(.messageSize, settings.maxMessageSize), (.dataTimeout, settings.initialDataTimeout),
    (.handshakeTimeout, settings.handshakeTimeout), (.connections, settings.maxConnections)]

/-- Check that no limit is zero. -/
def checkLimits (settings : Settings) : Except Problem Unit :=
  match settings.limits.find? fun limit => limit.2 == 0 with
  | some (limit, _) => .error (.zero limit)
  | none => .ok ()

def check (tree : FileTree) (settings : Settings) : Except Problem Unit := do
  settings.checkTransport tree
  settings.checkLimits

/-- The levels of the journal that settings may name. -/
def logLevels : List String :=
  ["error", "warn", "info", "debug", "trace"]

/-- The size of messages that every receiver must accept. -/
def leastMessageSize : Nat := 480

/-- The warning about a level that nobody knows. -/
def levelWarning (settings : Settings) : List String :=
  if logLevels.contains settings.logLevel then []
  else ["Invalid log level '" ++ settings.logLevel ++ "', using default 'info'"]

/-- The warnings about TLS settings that have no effect. -/
def tlsWarnings (settings : Settings) : List String :=
  match settings.tls with
  | none => []
  | some tls =>
      (if settings.transport.mayUseTls then []
        else ["TLS settings are ignored by the '" ++ settings.transport.word ++ "' transport"]) ++
      (if tls.peerVerify = .none ∧ tls.caFile.isSome then
        ["ca_file is set but peer_verify is 'none'"]
      else [])

/-- The warning about a size that is too small. -/
def sizeWarning (settings : Settings) : List String :=
  if settings.maxMessageSize.toNat < leastMessageSize then
    ["max_message_size of " ++ Numeral.decimal settings.maxMessageSize.toNat ++ " is below the " ++
      Numeral.decimal leastMessageSize ++ " bytes every syslog receiver must accept"]
  else []

/-- What is odd about settings. -/
def warnings (settings : Settings) : List String :=
  settings.levelWarning ++ settings.tlsWarnings ++ settings.sizeWarning

def tlsReport : Option TlsSettings → List String
  | none => ["  TLS: disabled"]
  | some tls =>
      ["  TLS key: " ++ tls.keyFile, "  TLS certificate: " ++ tls.certFile] ++
        (match tls.caFile with
          | none => []
          | some path => ["  TLS CA bundle: " ++ path]) ++
        ["  Peer verify: " ++ tls.peerVerify.word]

/-- A line about a limit in the report. -/
def limitLine (title : String) (n : UInt64) (unit : String) : String :=
  "  " ++ title ++ ": " ++ Numeral.decimal n.toNat ++ unit

/-- The report of the settings in effect. -/
def report (settings : Settings) : List Entry :=
  (["=== Source Configuration ===",
      "  Listen address: " ++ settings.listen.text,
      "  Transport: " ++ settings.transport.word,
      "  Framing: " ++ settings.framing.word] ++
    tlsReport settings.tls ++
    [limitLine "Max message size" settings.maxMessageSize " bytes",
      limitLine "Initial data timeout" settings.initialDataTimeout " seconds",
      limitLine "Handshake timeout" settings.handshakeTimeout " seconds",
      limitLine "Max connections" settings.maxConnections "",
      "  Output: " ++ settings.output,
      "============================"]).map (Entry.mk .info)

theorem check_default
    (tree : FileTree) :
    default.check tree = .ok () := by
  rfl

theorem warnings_default :
    default.warnings = [] := by
  rfl

end Settings
end SyslogIntake

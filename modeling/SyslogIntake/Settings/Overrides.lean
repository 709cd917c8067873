import SyslogIntake.Error.Problem
import SyslogIntake.Settings.Basic

/-!
# Overrides

What the command line says takes the place of what was loaded.  A demand on the TLS settings
makes TLS settings if there are none, and then the key and the certificate must both be given.
-/

namespace SyslogIntake

/-- What takes the place of loaded settings; what is left out does not. -/
structure Overrides where
  listen : Option String
  transport : Option Transport
  framing : Option FramingPolicy
  keyFile : Option String
  certFile : Option String
  caFile : Option String
  peerVerify : Option PeerVerify
  maxMessageSize : Option UInt64
  output : Option String
  logLevel : Option String
  deriving DecidableEq, Repr

namespace Overrides

def none : Overrides :=
  ⟨.none, .none, .none, .none, .none, .none, .none, .none, .none, .none⟩

/-- Whether something is said about the TLS settings. -/
def touchesTls (o : Overrides) : Bool :=
  o.keyFile.isSome || o.certFile.isSome || o.caFile.isSome || o.peerVerify.isSome

/-- TLS settings made of overrides alone. -/
def newTls (o : Overrides) : Except Problem TlsSettings :=
  match o.keyFile, o.certFile with
  | .some key, .some cert => .ok (.ofFiles key cert)
  | .none, _ => .error (.missing "tls.key_file")
  | .some _, .none => .error (.missing "tls.cert_file")

/-- TLS settings with overrides in their places. -/
def onTls (o : Overrides) (tls : TlsSettings) : TlsSettings where
  keyFile := o.keyFile.getD tls.keyFile
  certFile := o.certFile.getD tls.certFile
  caFile := o.caFile.or tls.caFile
  peerVerify := o.peerVerify.getD tls.peerVerify

/-- The TLS settings that overrides lead to. -/
def applyTls (o : Overrides) (tls : Option TlsSettings) : Except Problem (Option TlsSettings) :=
  if o.touchesTls then
    match tls with
    | .some tls => .ok (.some (o.onTls tls))
    | .none => o.newTls.map fun tls => .some (o.onTls tls)
  else
    .ok tls

/-- The endpoint that overrides lead to. -/
def applyListen (o : Overrides) (listen : Endpoint) : Except Problem Endpoint :=
  match o.listen with
  | .none => .ok listen
  | .some text => (Address.find text).mapError fun flaw => .listen ⟨text, flaw⟩

/-- Settings with overrides in their places. -/
def apply (o : Overrides) (settings : Settings) : Except Problem Settings :=
  match o.applyListen settings.listen with
  | .error problem => .error problem
  | .ok listen =>
      (o.applyTls settings.tls).map fun tls =>
        { settings with
          listen
          tls
          transport := o.transport.getD settings.transport
          framing := o.framing.getD settings.framing
          maxMessageSize := o.maxMessageSize.getD settings.maxMessageSize
          output := o.output.getD settings.output
          logLevel := o.logLevel.getD settings.logLevel }

end Overrides
end SyslogIntake

import SyslogIntake.Connection.Detector
import SyslogIntake.Server.Source

/-!
# Binding a source

A source is bound to the endpoint of its settings.  What the operating system says to that is
given.  The limit of connections is kept by permits, of which there is a largest number; a
limit beyond it brings the program down.
-/

namespace SyslogIntake

/-- What comes of binding a source. -/
inductive Bound
  | source (found : Source) (detector : Detector)
  | fault (cause : Fault)
  | crash

namespace Source

/-- The largest number of permits. -/
def mostPermits : Nat := 2305843009213693951

/-- What the journal says about a source that listens. -/
def listeningEntry (settings : Settings) (endpoint : Endpoint) : Entry :=
  ⟨.info,
    "Listening on " ++ endpoint.text ++ " (transport=" ++ settings.transport.word ++
      ", framing=" ++ settings.framing.word ++ ", max_connections=" ++
      Numeral.decimal settings.maxConnections.toNat ++ ")"⟩

/-- Bind a source: `listening` is the endpoint it got, or why it got none. -/
def bind (settings : Settings) (acceptor : Option Tls.Acceptor)
    (listening : Except String Endpoint) : Bound :=
  match Detector.ofSettings settings acceptor, listening with
  | .error fault, _ => .fault fault
  | .ok _, .error report => .fault (.io report)
  | .ok detector, .ok endpoint =>
      if mostPermits < settings.maxConnections.toNat then .crash
      else
        let source := start endpoint settings.maxConnections.toNat
        .source { source with journal := [listeningEntry settings endpoint] } detector

end Source
end SyslogIntake

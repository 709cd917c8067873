import SyslogIntake.Output.Sink
import SyslogIntake.Server.Binding
import SyslogIntake.Server.Refusal
import SyslogIntake.Settings.Checks
import SyslogIntake.Settings.Loading
import SyslogIntake.Settings.Overrides
import SyslogIntake.Startup.CommandLine
import SyslogIntake.Startup.Identity
import SyslogIntake.Text.Quoted
import SyslogIntake.Tls.CertificateFile

/-!
# Starting the program

From a command line to a running source: the settings are loaded, overridden and checked,
the certificate is looked at, and the acceptor, the output and the source are set up in this
order.  The first thing that goes wrong ends the program.

**Results.**

* `Exit.ofStop_status` : who asks for help or for the version is not blamed.
-/

namespace SyslogIntake

/-- What the program finds around it. -/
structure Host where
  tree : FileTree
  environment : List Variable
  understand : Certificate.Understanding
  answers : Tls.Answers
  listen : Endpoint → Except String Endpoint

/-- A program that is up. -/
structure Daemon where
  settings : Settings
  detector : Detector
  source : Source
  sink : Sink

/-- What comes of starting the program. -/
inductive Launched
  | running (daemon : Daemon)
  | stopped (fault : Fault)
  | crashed

namespace Host

def settings (host : Host) (c : CommandLine) : Except Fault Settings :=
  match Settings.load host.tree c.configFile host.environment with
  | .error problem => .error (.settings problem)
  | .ok loaded => (c.overrides.apply loaded).mapError .settings

/-- The acceptor for some settings, and what the journal says about it. -/
def acceptor (host : Host) (settings : Settings) :
    List Entry × Except Fault (Option Tls.Acceptor) :=
  match settings.tls with
  | none => ([], .ok none)
  | some tls =>
      if settings.transport.mayUseTls then
        let looked := Certificate.entriesOfFile host.understand host.tree tls.certFile
        match (Tls.setUp tls host.answers).2 with
        | .error fault => (looked, .error fault)
        | .ok acceptor => (looked ++ [Tls.enabledEntry tls], .ok (some acceptor))
      else ([], .ok none)

/-- The lines about settings that were accepted. -/
def settingsEntries (settings : Settings) : List Entry :=
  settings.warnings.map (Entry.mk .warn) ++ settings.report

/-- The line about the output. -/
def outputEntry (settings : Settings) : Entry :=
  ⟨.info, "Writing messages to " ++ settings.output⟩

/-- The line of a program that is up. -/
def readyEntry : Entry :=
  ⟨.info, "Source ready, press Ctrl+C to stop"⟩

/-- Set up the output and the source for settings that were accepted. -/
def setUp (host : Host) (settings : Settings) (acceptor : Option Tls.Acceptor) :
    List Entry × Launched :=
  match Sink.openAt host.tree settings.output Sink.defaultCapacity with
  | .error fault => ([], .stopped fault)
  | .ok sink =>
      let opened := [outputEntry settings]
      match Source.bind settings acceptor (host.listen settings.listen) with
      | .fault fault => (opened, .stopped fault)
      | .crash => (opened, .crashed)
      | .source source detector =>
          (opened ++ source.journal ++ [readyEntry],
            .running ⟨settings, detector, source, sink⟩)

/-- Start the program with some settings. -/
def start (host : Host) (settings : Settings) : List Entry × Launched :=
  let first : List Entry := [⟨.info, "Starting " ++ Program.title⟩]
  match settings.check host.tree with
  | .error problem => (first, .stopped (.settings problem))
  | .ok _ =>
      let checked := first ++ settingsEntries settings
      match host.acceptor settings with
      | (looked, .error fault) => (checked ++ looked, .stopped fault)
      | (looked, .ok acceptor) =>
          let (opened, launched) := host.setUp settings acceptor
          (checked ++ looked ++ opened, launched)

/-- Start the program with a command line. -/
def launch (host : Host) (c : CommandLine) : List Entry × Launched :=
  match host.settings c with
  | .error fault => ([], .stopped fault)
  | .ok settings => host.start settings

end Host

/-- How a program ends: its status, and what it writes about an error. -/
structure Exit where
  status : Nat
  report : Option String
  deriving DecidableEq, Repr

namespace Exit

/-- A report with all its parts shown. -/
def shownReport (report : String) : String :=
  match Refusal.ofReport? report with
  | none => Text.quoted report
  | some refusal => refusal.shown

/-- A fault that ends the program, with its category. -/
def shown (fault : Fault) : String :=
  match fault with
  | .io report => "Io(" ++ shownReport report ++ ")"
  | other =>
      match other.category with
      | .certificate => "Certificate(" ++ Text.quoted other.detail ++ ")"
      | .settings => "Config(" ++ Text.quoted other.detail ++ ")"
      | .session => "Ssl(" ++ Text.quoted other.detail ++ ")"
      | _ => "Other(" ++ Text.quoted other.detail ++ ")"

def crashed : Exit :=
  ⟨101, none⟩

def ofFault (fault : Fault) : Exit :=
  if fault.crashes then crashed else ⟨1, some ("Error: " ++ shown fault ++ "\n")⟩

/-- The end of a program whose command line leads to nothing. -/
def ofStop : CommandLine.Stop → Exit
  | .told _ => ⟨0, none⟩
  | .misuse => ⟨2, none⟩

/-- Who asks for help or for the version is not blamed. -/
theorem ofStop_status
    (stop : CommandLine.Stop) :
    (ofStop stop).status = 0 ↔ stop ≠ .misuse := by
  cases stop <;> simp [ofStop]

end Exit

end SyslogIntake

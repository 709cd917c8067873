import SyslogIntake.Server.Conversation
import SyslogIntake.Startup.Launch

/-!
# A program that is up

Until it is interrupted, a program takes connections in and goes on with each of them whenever
something is heard.  Then it accepts no more connections, and ends when those that it
has are over or are given up.  What it has to say is in the journal of its source, and what it
has to write is on the medium of its output, until both are carried off.

**Results.**

* `interrupt_isListening` : nobody reaches a program that was interrupted;
* `stop_phase` : a program that was interrupted and stopped has ended.
-/

namespace SyslogIntake
namespace Daemon

/-- What a program says and writes. -/
structure Load where
  journal : List Entry
  output : Octets

def note (entries : List Entry) (daemon : Daemon) : Daemon :=
  { daemon with
    source := { daemon.source with journal := daemon.source.journal ++ entries } }

/-- Carry off what the program has to say and to write. -/
def carryOff (daemon : Daemon) : Load × Daemon :=
  (⟨daemon.source.journal, daemon.sink.medium.text⟩,
    { daemon with
      source := { daemon.source with journal := [] }
      sink := { daemon.sink with medium := { daemon.sink.medium with text := [] } } })

/-- Let the writer of the output do its work. -/
def settle (daemon : Daemon) : Daemon :=
  let sink := daemon.sink.settle
  { daemon with sink }.note (Sink.news daemon.sink sink)

/-- What was carried off cannot be written: the writer of the output stops. -/
def loseOutput (report : String) (daemon : Daemon) : Daemon :=
  let sink := { daemon.sink with stopped := some (.io report) }
  { daemon with sink }.note (Sink.news daemon.sink sink)

/-- A connection arrives; unless it is turned away, a conversation begins. -/
def arrive (peer localEnd : Endpoint) (daemon : Daemon) : Option Conversation × Daemon :=
  let source := daemon.source.arrive peer
  let begun :=
    if daemon.source.lastId < source.lastId then
      some (.start (.accepted source.lastId peer localEnd))
    else
      none
  (begun, { daemon with source })

/-- Something is heard of a connection; one that was given up does not go on. -/
def hear (time : Nat) (heard : Heard) (c : Conversation) (daemon : Daemon) :
    Option Conversation × Daemon :=
  let id := c.connection.id
  if daemon.source.serves id then
    let (served, next) :=
      c.hear daemon.detector time heard ⟨daemon.sink, daemon.source.counters⟩
    let source := { daemon.source with counters := served.service.counters }
    let after := { daemon with source, sink := served.service.sink }.note served.journal
    match next with
    | some c => (some c, after.settle)
    | none =>
        let source := ((after.source.leave id .finished).release id).reap id
        (none, { after with source }.settle)
  else
    (none, daemon)

/-- The last line of a program that was interrupted. -/
def summary (c : Counters) : Entry :=
  ⟨.info,
    "Connections: " ++ Numeral.decimal c.accepted ++ " accepted, " ++
      Numeral.decimal c.rejected ++ " rejected, " ++ Numeral.decimal c.failed ++ " failed; " ++
      Numeral.decimal c.proxyHeaders ++ " PROXY headers, " ++ Numeral.decimal c.tlsSessions ++
      " TLS sessions, " ++ Numeral.decimal c.records ++ " messages"⟩

/-- The line of a program that is interrupted. -/
def interruptEntry : Entry :=
  ⟨.info, "Received Ctrl+C, shutting down"⟩

/-- Interrupt a program: it accepts no more connections. -/
def interrupt (daemon : Daemon) : Daemon :=
  let noted := daemon.note [interruptEntry]
  { noted with source := noted.source.run [.ask .shutdown, .take] }

/-- Whether no connection is left to wait for. -/
def isIdle (daemon : Daemon) : Bool :=
  daemon.source.tasks.isEmpty

/-- How long a program that was interrupted waits for its connections, in milliseconds. -/
def patience (daemon : Daemon) : Nat :=
  daemon.settings.shutdownTimeout.toNat * 1000

/-- What the source answered last. -/
def lastAnswer? (daemon : Daemon) : Option Reply :=
  daemon.source.answer? (daemon.source.asked - 1)

/-- Stop a program that was interrupted: connections that are left are given up. -/
def stop (daemon : Daemon) : Daemon :=
  let stopped := { daemon with source := (daemon.source.step .expire).dismiss.step .conclude }
  match stopped.lastAnswer? with
  | some .done => (stopped.note [summary stopped.source.counters]).settle
  | _ => stopped.settle

/-- How a program ends that was stopped. -/
def exit (daemon : Daemon) : Exit :=
  match daemon.lastAnswer?, daemon.sink.stopped with
  | some .done, none => ⟨0, none⟩
  | some .done, some fault => .ofFault fault
  | some (.fault fault), _ => .ofFault fault
  | _, _ => .ofFault .noAcknowledgement

/-- Nobody else asks the source of a program anything, so that one that is interrupted drains. -/
theorem interrupt_drains
    {daemon : Daemon}
    (hphase : daemon.source.phase = .accepting)
    (hqueue : daemon.source.queue = [])
    (hblocked : daemon.source.blocked = []) :
    ∃ s, daemon.interrupt.source = Source.drain daemon.source.asked s := by
  let s := (daemon.note [interruptEntry]).source
  have hask : s.ask .shutdown =
      { s with asked := s.asked + 1, queue := [⟨s.asked, .shutdown⟩] } := by
    simp [s, Source.ask, note, hphase, hqueue, hblocked, Source.queueLength]
  have htake : (s.ask .shutdown).take = ((s.ask .shutdown).refill []).drain s.asked := by
    rw [hask]
    simp [s, Source.take, note, hphase]
  exact ⟨_, htake⟩

/-- Nobody reaches a program that was interrupted. -/
theorem interrupt_isListening
    {daemon : Daemon}
    (hphase : daemon.source.phase = .accepting)
    (hqueue : daemon.source.queue = [])
    (hblocked : daemon.source.blocked = []) :
    daemon.interrupt.source.isListening = false := by
  obtain ⟨s, hs⟩ := interrupt_drains hphase hqueue hblocked
  obtain ⟨journal, hdrain⟩ := Source.drain_journal daemon.source.asked s
  rw [hs, hdrain]

/-- A program that was interrupted and stopped has ended. -/
theorem stop_phase
    {daemon : Daemon}
    {ticket : Nat}
    (h : daemon.source.phase = .draining ticket) :
    daemon.stop.source.phase = .ended := by
  have hended : ((daemon.source.step .expire).dismiss.step .conclude).phase = .ended := by
    by_cases hidle : daemon.source.tasks = []
    · have hstay : daemon.source.step .expire = daemon.source := by
        simp [Source.step, Source.expire, h, hidle]
      have hdismiss : daemon.source.dismiss = daemon.source := by
        simp [Source.dismiss, Source.ids, Source.run, hidle]
      rw [hstay, hdismiss]
      exact Source.phase_conclude (.inl h) hidle
    · have haborting : (daemon.source.step .expire).phase = .aborting ticket := by
        simp [Source.step, Source.expire, Source.note, h, hidle]
      have hgone := Source.tasks_dismiss haborting
      exact Source.phase_conclude (.inr hgone.2) hgone.1
  simp only [stop]
  split <;> exact hended

end Daemon
end SyslogIntake

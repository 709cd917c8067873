import SyslogIntake.Journal
import SyslogIntake.Server.Counters
import SyslogIntake.Error.Fault

/-!
# Sources

A source accepts connections and serves each of them in a task of its own, up to a limit.
Whoever holds its handle may ask how many connections are active, or ask it to shut down; the
questions wait in a queue of limited length.  Asked to shut down, a source accepts no more
connections, waits for its tasks, aborts those that take too long, and then answers.

A task holds a permit from the moment its connection is accepted.  It is through with the
connection first, then it gives the permit back, and some time later the source sees that the
task has ended.

Everything that happens to a source is an event, and an event that cannot happen changes
nothing.

**Results.**

* `release_cases`, `reap_cases` : all that becomes of a permit, and of a task that has ended;
* `tasks_dismiss` : tasks that are aborted are gone in the end;
* `drain_journal` : a source that begins to drain gives up its listener and the output;
* `arrive_of_full`, `arrive_of_free` : with no permit left a connection is turned away, and with
  one it is accepted.
-/

namespace SyslogIntake

/-- What a source can be asked. -/
inductive Question
  | active
  | shutdown
  deriving DecidableEq, Repr

/-- What comes of a question. -/
inductive Reply
  | active (count : Nat)
  | done
  | fault (cause : Fault)
  deriving DecidableEq, Repr

/-- A question and the ticket of whoever asked it. -/
structure Request where
  ticket : Nat
  question : Question
  deriving DecidableEq, Repr

/-- How the task of a connection comes to its end. -/
inductive Ending
  | finished
  | crashed (report : String)
  | aborted
  deriving DecidableEq, Repr

/-- How far the task of a connection is: it serves the connection, it is through with it and about
to give its permit back, or it has ended and waits until the source sees that. -/
inductive TaskState
  | serving
  | leaving (ending : Ending)
  | ended (ending : Ending)
  deriving DecidableEq, Repr

/-- The task of a connection. -/
structure Task where
  id : Nat
  state : TaskState
  deriving DecidableEq, Repr

/-- Whether a task is still serving its connection. -/
def Task.isServing (task : Task) : Bool :=
  task.state == .serving

/-- Whether a task still holds the permit of its connection. -/
def Task.holdsPermit (task : Task) : Bool :=
  match task.state with
  | .serving | .leaving _ => true
  | .ended _ => false

/-- Whether a task is about to give its permit back. -/
def Task.isLeaving (task : Task) : Bool :=
  task.holdsPermit && !task.isServing

/-- A task that is through with its connection, if it served one. -/
def Task.leave (ending : Ending) (task : Task) : Task :=
  match task.state with
  | .serving => { task with state := .leaving ending }
  | .leaving _ | .ended _ => task

/-- A task that has given its permit back, if it was about to. -/
def Task.release (task : Task) : Task :=
  match task.state with
  | .leaving ending => { task with state := .ended ending }
  | .serving | .ended _ => task

@[simp]
theorem Task.id_leave
    (ending : Ending)
    (task : Task) :
    (task.leave ending).id = task.id := by
  unfold leave
  split <;> rfl

@[simp]
theorem Task.id_release
    (task : Task) :
    task.release.id = task.id := by
  unfold release
  split <;> rfl

/-- A task that is through with its connection keeps its permit for now. -/
@[simp]
theorem Task.holdsPermit_leave
    (ending : Ending)
    (task : Task) :
    (task.leave ending).holdsPermit = task.holdsPermit := by
  rcases task with ⟨id, serving | cause | cause⟩ <;> rfl

/-- Nobody serves a connection that it is through with. -/
@[simp]
theorem Task.isServing_leave
    (ending : Ending)
    (task : Task) :
    (task.leave ending).isServing = false := by
  rcases task with ⟨id, serving | cause | cause⟩ <;> rfl

/-- Only a task that still serves its connection is left with its permit by a release. -/
@[simp]
theorem Task.holdsPermit_release
    (task : Task) :
    task.release.holdsPermit = task.isServing := by
  rcases task with ⟨id, serving | cause | cause⟩ <;> rfl

/-- Whoever serves a connection holds its permit. -/
theorem Task.holdsPermit_of_isServing
    {task : Task}
    (h : task.isServing = true) :
    task.holdsPermit = true := by
  simp only [isServing, beq_iff_eq] at h
  simp only [holdsPermit, h]

/-- What a source is doing; one that was asked to shut down knows whose question it was. -/
inductive SourcePhase
  | accepting
  | draining (ticket : Nat)
  | aborting (ticket : Nat)
  | ended
  deriving DecidableEq, Repr

/-- What a connection can find out or hand on while it is served. -/
inductive Finding
  | header
  | session
  | record
  deriving DecidableEq, Repr

def Finding.count : Finding → Counters → Counters
  | .header => Counters.countHeader true
  | .session => Counters.countSession true
  | .record => Counters.countRecord

/-- A source that was started. -/
structure Source where
  endpoint : Endpoint
  limit : Nat
  free : Nat
  /-- The number of the connection that was accepted last; below `2 ^ 64` it is that of a source
  that counts in 64 bits. -/
  lastId : Nat
  tasks : List Task
  phase : SourcePhase
  /-- Whether connections can still reach the source. -/
  isListening : Bool
  /-- Whether the source itself still holds an end of the output. -/
  holdsOutput : Bool
  asked : Nat
  queue : List Request
  blocked : List Request
  replies : List (Nat × Reply)
  counters : Counters
  journal : List Entry
  deriving DecidableEq, Repr

namespace Source

/-- The most questions that wait in the queue. -/
def queueLength : Nat := 16

/-- A source that accepts connections at an endpoint, up to a limit. -/
def start (endpoint : Endpoint) (limit : Nat) : Source where
  endpoint := endpoint
  limit := limit
  free := limit
  lastId := 0
  tasks := []
  phase := .accepting
  isListening := true
  holdsOutput := true
  asked := 0
  queue := []
  blocked := []
  replies := []
  counters := .zero
  journal := []

def note (level : Level) (message : String) (s : Source) : Source :=
  { s with journal := s.journal ++ [⟨level, message⟩] }

/-- The numbers of the tasks that the source has. -/
def ids (s : Source) : List Nat :=
  s.tasks.map Task.id

/-- The tasks that still serve their connections. -/
def serving (s : Source) : List Task :=
  s.tasks.filter Task.isServing

/-- The tasks that still hold a permit. -/
def holders (s : Source) : List Task :=
  s.tasks.filter Task.holdsPermit

/-- How many can send records to the output: the source, while it holds it, and its tasks. -/
def senders (s : Source) : Nat :=
  s.holdsOutput.toNat + s.serving.length

def accept (s : Source) : Source :=
  { s with
    free := s.free - 1
    lastId := s.lastId + 1
    tasks := s.tasks ++ [⟨s.lastId + 1, .serving⟩]
    counters := s.counters.countAccepted }

/-- A connection that is turned away. -/
def reject (peer : Endpoint) (s : Source) : Source :=
  { s with counters := s.counters.countRejected }.note .warn
    ("Connection from " ++ peer.text ++ " rejected: max connections (" ++
      Numeral.decimal s.limit ++ ") reached")

def arrive (peer : Endpoint) (s : Source) : Source :=
  if s.phase = .accepting then
    if s.free = 0 then s.reject peer else s.accept
  else s

/-- A connection cannot be accepted. -/
def missArrival (report : String) (s : Source) : Source :=
  if s.phase = .accepting then s.note .error ("Error accepting connection: " ++ report) else s

/-- Whether the task of a connection still serves it. -/
def serves (id : Nat) (s : Source) : Bool :=
  s.tasks.any fun task => task.id == id && task.isServing

/-- Tasks, one of which goes on. -/
def move (id : Nat) (onward : Task → Task) (tasks : List Task) : List Task :=
  tasks.map fun task => if task.id = id then onward task else task

/-- The task of a connection is through with it, and still holds its permit. -/
def leave (id : Nat) (ending : Ending) (s : Source) : Source :=
  { s with tasks := move id (Task.leave ending) s.tasks }

/-- A task that is through with its connection gives its permit back, and has ended. -/
def release (id : Nat) (s : Source) : Source :=
  if s.tasks.any fun task => task.id == id && task.isLeaving then
    { s with free := s.free + 1, tasks := move id Task.release s.tasks }
  else s

/-- A connection finds something out. -/
def find (id : Nat) (finding : Finding) (s : Source) : Source :=
  if s.serves id then { s with counters := finding.count s.counters } else s

/-- A connection is closed, after a failure or without one. -/
def finish (id : Nat) (failed : Bool) (s : Source) : Source :=
  if s.serves id then
    let counters := if failed then s.counters.countFailed else s.counters
    { s with counters := counters.countClosed }.leave id .finished
  else s

def crash (id : Nat) (report : String) (s : Source) : Source :=
  s.leave id (.crashed report)

/-- A task that took too long is aborted. -/
def abort (id : Nat) (s : Source) : Source :=
  match s.phase with
  | .aborting _ => s.leave id .aborted
  | .accepting | .draining _ | .ended => s

/-- What the journal says about a task that crashed; nothing once tasks are aborted. -/
def crashTitle? : SourcePhase → Option String
  | .accepting => some "Connection task panicked: "
  | .draining _ => some "Connection task error during shutdown: "
  | .aborting _ | .ended => none

/-- The source sees how a task has ended. -/
def see (ending : Ending) (s : Source) : Source :=
  match ending, crashTitle? s.phase with
  | .crashed report, some title => s.note .error (title ++ report)
  | _, _ => s

/-- The source sees that a task has ended. -/
def reap (id : Nat) (s : Source) : Source :=
  match s.tasks.find? fun task => task.id == id && !task.holdsPermit with
  | some task =>
      let s := { s with tasks := s.tasks.erase task }
      match task.state with
      | .ended ending => s.see ending
      | .serving | .leaving _ => s
  | none => s

def reply (ticket : Nat) (answer : Reply) (s : Source) : Source :=
  { s with replies := (ticket, answer) :: s.replies }

/-- Somebody asks a question; the ticket is the number of questions asked before. -/
def ask (question : Question) (s : Source) : Source :=
  let request : Request := ⟨s.asked, question⟩
  let s := { s with asked := s.asked + 1 }
  if s.phase = .ended then s.reply request.ticket (.fault .sourceStopped)
  else if s.blocked.isEmpty ∧ s.queue.length < queueLength then
    { s with queue := s.queue ++ [request] }
  else
    { s with blocked := s.blocked ++ [request] }

/-- The queue after its first question was taken: whoever waits longest moves up. -/
def refill (rest : List Request) (s : Source) : Source :=
  { s with queue := rest ++ s.blocked.take 1, blocked := s.blocked.drop 1 }

/-- Accept no more connections, let go of the listener and of the output, and begin to wait for
the tasks. -/
def drain (ticket : Nat) (s : Source) : Source :=
  let s := s.note .info ("Shutting down source on " ++ s.endpoint.text)
  let s := { s with phase := .draining ticket, isListening := false, holdsOutput := false }
  if s.tasks.isEmpty then s
  else
    s.note .info
      ("Waiting for " ++ Numeral.decimal s.tasks.length ++ " connections to complete...")

/-- The source takes the first question of the queue. -/
def take (s : Source) : Source :=
  match s.phase, s.queue with
  | .accepting, ⟨ticket, .active⟩ :: rest =>
      (s.refill rest).reply ticket (.active s.tasks.length)
  | .accepting, ⟨ticket, .shutdown⟩ :: rest => (s.refill rest).drain ticket
  | _, _ => s

/-- The time for the tasks is up: those that are left are aborted from now on. -/
def expire (s : Source) : Source :=
  match s.phase with
  | .draining ticket =>
      if s.tasks.isEmpty then s
      else
        { s with phase := .aborting ticket }.note .warn
          ("Shutdown timeout reached, aborting " ++ Numeral.decimal s.tasks.length ++
            " connections")
  | .accepting | .aborting _ | .ended => s

/-- What becomes of a question that is left in the queue. -/
def unanswered (request : Request) : Nat × Reply :=
  match request.question with
  | .active => (request.ticket, .fault .noReply)
  | .shutdown => (request.ticket, .fault .noAcknowledgement)

/-- What becomes of a question that never got into the queue. -/
def undelivered (request : Request) : Nat × Reply :=
  (request.ticket, .fault .sourceStopped)

/-- No tasks are left: the source acknowledges and ends, and no question is answered any more. -/
def conclude (s : Source) : Source :=
  match s.phase with
  | .draining ticket | .aborting ticket =>
      if s.tasks.isEmpty then
        let s := (s.note .info "Source shutdown complete").reply ticket .done
        { s with
          phase := .ended
          queue := []
          blocked := []
          replies := s.blocked.map undelivered ++ s.queue.map unanswered ++ s.replies }
      else s
  | .accepting | .ended => s

/-- What can happen to a source. -/
inductive Event
  | arrive (peer : Endpoint)
  | missArrival (report : String)
  | find (id : Nat) (finding : Finding)
  | finish (id : Nat) (failed : Bool)
  | crash (id : Nat) (report : String)
  | abort (id : Nat)
  | release (id : Nat)
  | reap (id : Nat)
  | ask (question : Question)
  | take
  | expire
  | conclude
  deriving DecidableEq, Repr

def step (s : Source) : Event → Source
  | .arrive peer => s.arrive peer
  | .missArrival report => s.missArrival report
  | .find id finding => s.find id finding
  | .finish id failed => s.finish id failed
  | .crash id report => s.crash id report
  | .abort id => s.abort id
  | .release id => s.release id
  | .reap id => s.reap id
  | .ask question => s.ask question
  | .take => s.take
  | .expire => s.expire
  | .conclude => s.conclude

def run (s : Source) (events : List Event) : Source :=
  events.foldl step s

/-- What is left to happen to a task that is aborted. -/
def farewell (id : Nat) : List Event :=
  [.abort id, .release id, .reap id]

/-- The tasks that are left take their leave. -/
def dismiss (s : Source) : Source :=
  s.run (s.ids.flatMap farewell)

/-- The answer to a ticket, if there is one. -/
def answer? (ticket : Nat) (s : Source) : Option Reply :=
  s.replies.lookup ticket

/-- Ask a question and let the source do what it can about it at once. -/
def inquire (question : Question) (s : Source) : Option Reply × Source :=
  let after := s.run [.ask question, .take, .conclude]
  (after.answer? s.asked, after)

@[simp]
theorem run_cons
    (event : Event)
    (events : List Event)
    (s : Source) :
    s.run (event :: events) = (s.step event).run events :=
  rfl

theorem run_append
    (first second : List Event)
    (s : Source) :
    s.run (first ++ second) = (s.run first).run second := by
  simp only [run, List.foldl_append]

/-- A task that goes on keeps its number. -/
theorem map_id_move
    {onward : Task → Task}
    (hid : ∀ task, (onward task).id = task.id)
    (id : Nat)
    (tasks : List Task) :
    (move id onward tasks).map Task.id = tasks.map Task.id := by
  simp only [move, List.map_map]
  refine List.map_congr_left fun task _ => ?_
  simp only [Function.comp_apply]
  split
  · exact hid task
  · rfl

/-- Whatever has the number of the task that went on is what has become of that task. -/
theorem mem_move
    {id : Nat}
    {onward : Task → Task}
    {tasks : List Task}
    {task : Task}
    (hmem : task ∈ move id onward tasks)
    (hid : task.id = id) :
    ∃ before ∈ tasks, before.id = id ∧ task = onward before := by
  obtain ⟨before, hbefore, rfl⟩ := List.mem_map.1 hmem
  by_cases hsame : before.id = id
  · exact ⟨before, hbefore, hsame, if_pos hsame⟩
  · rw [if_neg hsame] at hid
    exact absurd hid hsame

@[simp]
theorem ids_leave
    (id : Nat)
    (ending : Ending)
    (s : Source) :
    (s.leave id ending).ids = s.ids :=
  map_id_move (Task.id_leave ending) id s.tasks

@[simp]
theorem ids_release
    (id : Nat)
    (s : Source) :
    (s.release id).ids = s.ids := by
  unfold release
  split
  · exact map_id_move Task.id_release id s.tasks
  · rfl

/-- A release frees the permit of a task that is about to give it back, if there is such a task. -/
theorem release_cases
    (id : Nat)
    (s : Source) :
    (∃ task ∈ s.tasks, task.id = id ∧ task.isLeaving = true ∧
      s.release id = { s with free := s.free + 1, tasks := move id Task.release s.tasks }) ∨
    ((∀ task ∈ s.tasks, task.id = id → task.isLeaving = false) ∧ s.release id = s) := by
  by_cases h : (s.tasks.any fun task => task.id == id && task.isLeaving) = true
  · have hmove : s.release id =
        { s with free := s.free + 1, tasks := move id Task.release s.tasks } := if_pos h
    simp only [List.any_eq_true, Bool.and_eq_true, beq_iff_eq] at h
    obtain ⟨task, hmem, hid, hleaving⟩ := h
    exact .inl ⟨task, hmem, hid, hleaving, hmove⟩
  · have hstay : s.release id = s := if_neg h
    simp only [List.any_eq_true, Bool.and_eq_true, beq_iff_eq, not_exists, not_and,
      Bool.not_eq_true] at h
    exact .inr ⟨h, hstay⟩

/-- What the source sees of a task that has ended only goes into the journal. -/
theorem see_journal
    (ending : Ending)
    (s : Source) :
    ∃ journal, s.see ending = { s with journal } := by
  unfold see
  split
  · exact ⟨_, rfl⟩
  · exact ⟨s.journal, rfl⟩

theorem phase_release
    (id : Nat)
    (s : Source) :
    (s.release id).phase = s.phase := by
  unfold release
  split <;> rfl

/-- The source sees a task that has ended, if there is such a task, and forgets it. -/
theorem reap_cases
    (id : Nat)
    (s : Source) :
    (∃ task ∈ s.tasks, task.id = id ∧ task.holdsPermit = false ∧
      ∃ journal, s.reap id = { s with tasks := s.tasks.erase task, journal }) ∨
    ((∀ task ∈ s.tasks, task.id = id → task.holdsPermit = true) ∧ s.reap id = s) := by
  rcases h : s.tasks.find? fun task => task.id == id && !task.holdsPermit with _ | task
  case none =>
    refine .inr ⟨fun task hmem hid => ?_, by simp only [reap, h]⟩
    simpa [hid] using List.find?_eq_none.1 h task hmem
  case some =>
    have hmem := List.mem_of_find?_eq_some h
    have hended := List.find?_some h
    simp only [Bool.and_eq_true, beq_iff_eq, Bool.not_eq_true'] at hended
    refine .inl ⟨task, hmem, hended.1, hended.2, ?_⟩
    simp only [reap, h]
    split
    · exact see_journal _ { s with tasks := s.tasks.erase task }
    · exact ⟨s.journal, rfl⟩
    · exact ⟨s.journal, rfl⟩

/-- A task that left its connection and was let go holds no permit. -/
theorem holdsPermit_leave_release
    {id : Nat}
    {ending : Ending}
    {s : Source}
    {task : Task}
    (hmem : task ∈ ((s.leave id ending).release id).tasks)
    (hid : task.id = id) :
    task.holdsPermit = false := by
  have hthrough : ∀ task ∈ (s.leave id ending).tasks, task.id = id → task.isServing = false := by
    intro task hmem hid
    obtain ⟨before, -, -, rfl⟩ := mem_move hmem hid
    exact Task.isServing_leave ending before
  rcases release_cases id (s.leave id ending) with ⟨-, -, -, -, heq⟩ | ⟨hnone, heq⟩
  · rw [heq] at hmem
    obtain ⟨before, hbefore, hsame, rfl⟩ := mem_move hmem hid
    rw [Task.holdsPermit_release, hthrough before hbefore hsame]
  · rw [heq] at hmem
    have hnot := hnone task hmem hid
    rw [Task.isLeaving, hthrough task hmem hid] at hnot
    simpa using hnot

/-- A task that is aborted is gone in the end, and no other one is. -/
theorem ids_farewell
    {ticket : Nat}
    {id : Nat}
    {s : Source}
    (hphase : s.phase = .aborting ticket)
    (hid : id ∈ s.ids) :
    s.ids.Perm (id :: (s.run (farewell id)).ids) ∧
      (s.run (farewell id)).phase = .aborting ticket := by
  have hrun : s.run (farewell id) = ((s.leave id .aborted).release id).reap id := by
    simp only [run, farewell, List.foldl_cons, List.foldl_nil, step, abort, hphase]
  have hids : ((s.leave id .aborted).release id).ids = s.ids := by
    rw [ids_release, ids_leave]
  have hstill : ((s.leave id .aborted).release id).phase = .aborting ticket := by
    rw [phase_release]
    exact hphase
  rw [hrun]
  rcases reap_cases id ((s.leave id .aborted).release id)
    with ⟨task, hmem, htask, -, journal, hreap⟩ | ⟨hheld, -⟩
  · refine ⟨?_, by rw [hreap]; exact hstill⟩
    have hperm := (List.perm_cons_erase hmem).map Task.id
    rw [List.map_cons, htask] at hperm
    rw [hreap, ← hids]
    exact hperm
  · obtain ⟨task, hmem, htask⟩ := List.mem_map.1 (hids ▸ hid)
    have hgone := holdsPermit_leave_release hmem htask
    rw [hheld task hmem htask] at hgone
    cases hgone

/-- The tasks that are left are gone once they took their leave. -/
theorem tasks_dismiss
    {ticket : Nat}
    {s : Source}
    (hphase : s.phase = .aborting ticket) :
    s.dismiss.tasks = [] ∧ s.dismiss.phase = .aborting ticket := by
  suffices hrun : ∀ (ids : List Nat) (s : Source), s.phase = .aborting ticket → s.ids.Perm ids →
      (s.run (ids.flatMap farewell)).tasks = [] ∧
        (s.run (ids.flatMap farewell)).phase = .aborting ticket from
    hrun s.ids s hphase (List.Perm.refl _)
  intro ids
  induction ids with
  | nil =>
      intro s hphase hperm
      exact ⟨List.map_eq_nil_iff.1 hperm.eq_nil, hphase⟩
  | cons id ids ih =>
      intro s hphase hperm
      have hid : id ∈ s.ids := hperm.mem_iff.2 List.mem_cons_self
      have hstep := ids_farewell hphase hid
      rw [List.flatMap_cons, run_append]
      exact ih _ hstep.2 ((hstep.1.symm.trans hperm).cons_inv)

/-- Once it was asked to shut down, a source without tasks ends. -/
theorem phase_conclude
    {ticket : Nat}
    {s : Source}
    (hphase : s.phase = .draining ticket ∨ s.phase = .aborting ticket)
    (htasks : s.tasks = []) :
    s.conclude.phase = .ended := by
  rcases hphase with hphase | hphase <;>
    simp only [conclude, hphase, htasks, List.isEmpty_nil, if_true]

/-- A source that begins to drain only gives up what it holds, and writes into the journal. -/
theorem drain_journal
    (ticket : Nat)
    (s : Source) :
    ∃ journal, s.drain ticket = { s with
      phase := .draining ticket
      isListening := false
      holdsOutput := false
      journal } := by
  unfold drain
  dsimp only [note]
  split <;> exact ⟨_, rfl⟩

/-- The listener and its own end of the output are with a source exactly while it accepts
connections. -/
def Tenure (s : Source) : Prop :=
  s.isListening = (s.phase == .accepting) ∧ s.holdsOutput = (s.phase == .accepting)

theorem tenure_start
    (endpoint : Endpoint)
    (limit : Nat) :
    (start endpoint limit).Tenure :=
  ⟨rfl, rfl⟩

/-- A source that accepts no connections any more gets nothing back in another phase. -/
theorem Tenure.with_phase
    {s : Source}
    (h : s.Tenure)
    {phase : SourcePhase}
    (hbefore : s.phase ≠ .accepting)
    (hafter : phase ≠ .accepting) :
    { s with phase }.Tenure := by
  have hsame : (s.phase == .accepting) = (phase == .accepting) := by
    rw [beq_eq_false_iff_ne.2 hbefore, beq_eq_false_iff_ne.2 hafter]
  exact ⟨h.1.trans hsame, h.2.trans hsame⟩

theorem arrive_of_full
    {s : Source}
    (hphase : s.phase = .accepting)
    (hfree : s.free = 0)
    (peer : Endpoint) :
    s.arrive peer = s.reject peer := by
  simp [arrive, hphase, hfree]

theorem arrive_of_free
    {s : Source}
    (hphase : s.phase = .accepting)
    (hfree : s.free ≠ 0)
    (peer : Endpoint) :
    s.arrive peer = s.accept := by
  simp [arrive, hphase, hfree]

end Source
end SyslogIntake

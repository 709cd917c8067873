import SyslogIntake.Server.Source

/-!
# Exchanges

Any number of people hold a handle of a source and ask it questions, all at the same time.
Whoever asks waits for a place in the queue; those who wait get the places in any order.  A source
that was asked to shut down answers that question before it lets go of the queue, so that in
between others can still ask.  Here each of these is a step of its own, and the steps of all of
them, and everything else that happens to the source, come in any order.

**Results.**

* `quiet_step` : what has nothing to do with questions leaves the questions alone;
* `run_append` : a course of events and another one behind it;
* `exists_run` : whatever a source does is done by an exchange.
-/

namespace SyslogIntake

/-- The question that a source is about to answer by having shut down. -/
def SourcePhase.ticket? : SourcePhase → Option Nat
  | .draining ticket | .aborting ticket => some ticket
  | .accepting | .ended => none

/-- Whether a reply can be the answer to a question, or the failure of one. -/
def Question.allows : Question → Reply → Bool
  | _, .fault .sourceStopped => true
  | .active, .active _ | .active, .fault .noReply => true
  | .shutdown, .done | .shutdown, .fault .noAcknowledgement => true
  | _, _ => false

/-- Whether an event has to do with questions. -/
def Source.Event.isQuestioning : Source.Event → Bool
  | .ask _ | .take | .conclude => true
  | _ => false

/-- A source and those who ask it questions. -/
structure Exchange where
  source : Source
  /-- Whether the source has said that it has shut down. -/
  acknowledged : Bool
  deriving DecidableEq, Repr

namespace Exchange

/-- A source that was just started; nobody has asked it anything. -/
def start (endpoint : Endpoint) (limit : Nat) : Exchange :=
  ⟨.start endpoint limit, false⟩

/-- Something happens to the source that has nothing to do with questions. -/
def work (event : Source.Event) (x : Exchange) : Exchange :=
  if event.isQuestioning then x else { x with source := x.source.step event }

/-- Somebody asks a question, and waits for a place in the queue, if there still is one. -/
def call (question : Question) (x : Exchange) : Exchange :=
  let request : Request := ⟨x.source.asked, question⟩
  let source : Source := { x.source with asked := x.source.asked + 1 }
  if source.phase = .ended then
    { x with source := source.reply request.ticket (.fault .sourceStopped) }
  else
    { x with source := { source with blocked := source.blocked ++ [request] } }

/-- Somebody who waits gets a place in the queue, if one is free. -/
def enter (ticket : Nat) (x : Exchange) : Exchange :=
  match x.source.blocked.find? fun request => request.ticket == ticket with
  | some request =>
      if x.source.queue.length < Source.queueLength then
        { x with
          source :=
            { x.source with
              queue := x.source.queue ++ [request]
              blocked := x.source.blocked.erase request } }
      else x
  | none => x

/-- The source takes the first question of the queue. -/
def receive (x : Exchange) : Exchange :=
  match x.source.phase, x.source.queue with
  | .accepting, ⟨ticket, .active⟩ :: rest =>
      let source : Source := { x.source with queue := rest }
      { x with source := source.reply ticket (.active source.tasks.length) }
  | .accepting, ⟨ticket, .shutdown⟩ :: rest =>
      { x with source := Source.drain ticket { x.source with queue := rest } }
  | _, _ => x

/-- No tasks are left: the source says that it has shut down. -/
def acknowledge (x : Exchange) : Exchange :=
  match x.source.phase.ticket? with
  | some ticket =>
      if x.source.tasks = [] ∧ x.acknowledged = false then
        ⟨(x.source.note .info "Source shutdown complete").reply ticket .done, true⟩
      else x
  | none => x

/-- The source lets go of the queue and ends: all who wait learn that nobody will answer. -/
def hangUp (x : Exchange) : Exchange :=
  if x.acknowledged = true ∧ x.source.phase ≠ .ended then
    { x with
      source :=
        { x.source with
          phase := .ended
          queue := []
          blocked := []
          replies := x.source.blocked.map Source.undelivered ++
            x.source.queue.map Source.unanswered ++ x.source.replies } }
  else x

/-- What can happen to a source and those who ask it questions. -/
inductive Event
  | work (event : Source.Event)
  | call (question : Question)
  | enter (ticket : Nat)
  | receive
  | acknowledge
  | hangUp
  deriving DecidableEq, Repr

/-- An exchange after an event. -/
def step (x : Exchange) : Event → Exchange
  | .work event => x.work event
  | .call question => x.call question
  | .enter ticket => x.enter ticket
  | .receive => x.receive
  | .acknowledge => x.acknowledge
  | .hangUp => x.hangUp

/-- An exchange after events. -/
def run (x : Exchange) (events : List Event) : Exchange :=
  events.foldl step x

def Event.question? : Event → Option Question
  | .call question => some question
  | _ => none

/-- The questions that are asked in a course of events, in their order. -/
def questions (events : List Event) : List Question :=
  events.filterMap Event.question?

/-- The ticket of the question to shut down that the source takes by an event. -/
def takes? (x : Exchange) : Event → Option Nat
  | .receive =>
      match x.source.phase, x.source.queue with
      | .accepting, ⟨ticket, .shutdown⟩ :: _ => some ticket
      | _, _ => none
  | _ => none

/-- The tickets of the questions to shut down that the source takes, in their order. -/
def received (x : Exchange) : List Event → List Nat
  | [] => []
  | event :: events => (x.takes? event).toList ++ (x.step event).received events

@[simp]
theorem run_cons
    (event : Event)
    (events : List Event)
    (x : Exchange) :
    x.run (event :: events) = (x.step event).run events :=
  rfl

theorem run_append
    (first second : List Event)
    (x : Exchange) :
    x.run (first ++ second) = (x.run first).run second :=
  List.foldl_append

/-- A question that is taken is answered, or the source begins to drain, unless there is none. -/
theorem receive_cases
    (x : Exchange) :
    (∃ ticket rest, x.source.phase = .accepting ∧
      x.source.queue = ⟨ticket, .active⟩ :: rest ∧ x.takes? .receive = none ∧
      x.receive = ⟨Source.reply ticket (.active x.source.tasks.length)
        { x.source with queue := rest }, x.acknowledged⟩) ∨
    (∃ ticket rest, x.source.phase = .accepting ∧
      x.source.queue = ⟨ticket, .shutdown⟩ :: rest ∧ x.takes? .receive = some ticket ∧
      x.receive = ⟨Source.drain ticket { x.source with queue := rest }, x.acknowledged⟩) ∨
    (x.takes? .receive = none ∧ x.receive = x) := by
  rcases hphase : x.source.phase with _ | _ | _ | _
  case accepting =>
    rcases hqueue : x.source.queue with _ | ⟨⟨ticket, question⟩, rest⟩
    case nil => exact .inr (.inr ⟨by simp [takes?, hqueue], by simp [receive, hqueue]⟩)
    case cons =>
      cases question
      case active =>
        exact .inl ⟨ticket, rest, rfl, rfl, by simp [takes?, hqueue],
          by simp only [receive, hphase, hqueue]⟩
      case shutdown =>
        exact .inr (.inl ⟨ticket, rest, rfl, rfl, by simp only [takes?, hphase, hqueue],
          by simp only [receive, hphase, hqueue]⟩)
  all_goals exact .inr (.inr ⟨by simp [takes?, hphase], by simp [receive, hphase]⟩)

/-- Between two moments nothing happened to the questions; at most the time of the tasks was up. -/
structure Quiet (s t : Source) : Prop where
  asked : t.asked = s.asked
  queue : t.queue = s.queue
  blocked : t.blocked = s.blocked
  replies : t.replies = s.replies
  accepting : t.phase = .accepting ↔ s.phase = .accepting
  ended : t.phase = .ended ↔ s.phase = .ended
  ticket : t.phase.ticket? = s.phase.ticket?

/-- Where the phase stays as it is, only the questions need to be looked at. -/
theorem Quiet.of_phase
    {s t : Source}
    (hasked : t.asked = s.asked)
    (hqueue : t.queue = s.queue)
    (hblocked : t.blocked = s.blocked)
    (hreplies : t.replies = s.replies)
    (hphase : t.phase = s.phase) :
    Quiet s t :=
  ⟨hasked, hqueue, hblocked, hreplies, by rw [hphase], by rw [hphase], by rw [hphase]⟩

theorem Quiet.refl
    (s : Source) :
    Quiet s s :=
  .of_phase rfl rfl rfl rfl rfl

/-- What has nothing to do with questions leaves the questions alone. -/
theorem quiet_step
    {event : Source.Event}
    (h : event.isQuestioning = false)
    (s : Source) :
    Quiet s (s.step event) := by
  cases event with
  | arrive peer =>
      simp only [Source.step, Source.arrive]
      split
      · split <;> exact .of_phase rfl rfl rfl rfl rfl
      · exact .refl s
  | missArrival report =>
      simp only [Source.step, Source.missArrival]
      split
      · exact .of_phase rfl rfl rfl rfl rfl
      · exact .refl s
  | find id finding =>
      simp only [Source.step, Source.find]
      split
      · exact .of_phase rfl rfl rfl rfl rfl
      · exact .refl s
  | finish id failed =>
      simp only [Source.step, Source.finish]
      split
      · exact .of_phase rfl rfl rfl rfl rfl
      · exact .refl s
  | crash id report => exact .of_phase rfl rfl rfl rfl rfl
  | abort id =>
      simp only [Source.step, Source.abort]
      split
      · exact .of_phase rfl rfl rfl rfl rfl
      all_goals exact .refl s
  | release id =>
      rcases Source.release_cases id s with ⟨-, -, -, -, heq⟩ | ⟨-, heq⟩ <;>
        rw [Source.step, heq]
      · exact .of_phase rfl rfl rfl rfl rfl
      · exact .refl s
  | reap id =>
      rcases Source.reap_cases id s with ⟨_, -, -, -, _, heq⟩ | ⟨-, heq⟩ <;>
        rw [Source.step, heq]
      · exact .of_phase rfl rfl rfl rfl rfl
      · exact .refl s
  | expire =>
      simp only [Source.step, Source.expire]
      split
      case h_1 ticket hphase =>
        split
        · exact .refl s
        · -- The time is up: the phase is another one, and the ticket in hand is the same.
          exact ⟨rfl, rfl, rfl, rfl, by simp [Source.note, hphase], by simp [Source.note, hphase],
            by simp [Source.note, hphase, SourcePhase.ticket?]⟩
      all_goals exact .refl s
  | ask _ => cases h
  | take => cases h
  | conclude => cases h

/-- An event of the source itself, in the steps of an exchange. -/
def courseOf (s : Source) : Source.Event → List Event
  | .ask question =>
      .call question :: (if s.phase ≠ .ended ∧ s.blocked = [] then [.enter s.asked] else [])
  | .take =>
      .receive :: (if s.phase = .accepting ∧ s.queue ≠ [] then
        s.blocked.head?.toList.map fun request => .enter request.ticket
      else [])
  | .conclude => [.acknowledge, .hangUp]
  | event => [.work event]

/-- The exchange that a source is in when nothing is half done. -/
def between (s : Source) : Exchange :=
  ⟨s, s.phase = .ended⟩

theorem queue_step
    {s : Source}
    (hlength : s.queue.length ≤ Source.queueLength)
    (event : Source.Event) :
    (s.step event).queue.length ≤ Source.queueLength := by
  by_cases hquiet : event.isQuestioning = false
  · rw [(quiet_step hquiet s).queue]
    exact hlength
  · cases event with
    | ask question =>
        simp only [Source.step, Source.ask]
        split
        · exact hlength
        · split
          · rename_i hroom
            simp only [List.length_append, List.length_cons, List.length_nil]
            omega
          · exact hlength
    | take =>
        have hrefill : ∀ request rest, s.queue = request :: rest →
            (s.refill rest).queue.length ≤ Source.queueLength := by
          intro request rest hqueue
          have htake : (s.blocked.take 1).length ≤ 1 := List.length_take_le 1 s.blocked
          rw [hqueue, List.length_cons] at hlength
          simp only [Source.refill, List.length_append]
          omega
        simp only [Source.step, Source.take]
        split
        · rename_i ticket rest hphase hqueue
          exact hrefill _ rest hqueue
        · rename_i ticket rest hphase hqueue
          have hdrain : ((s.refill rest).drain ticket).queue = (s.refill rest).queue := by
            unfold Source.drain
            dsimp only
            split <;> rfl
          rw [hdrain]
          exact hrefill _ rest hqueue
        · exact hlength
    | conclude =>
        simp only [Source.step, Source.conclude]
        split
        case h_3 | h_4 => exact hlength
        all_goals
          split
          · exact Nat.zero_le _
          · exact hlength
    | _ => exact absurd rfl hquiet

/-- A place in the queue for the first of those who wait. -/
theorem enter_head
    {s : Source}
    {request : Request}
    {later : List Request}
    (hblocked : s.blocked = request :: later)
    (hroom : s.queue.length < Source.queueLength)
    (acknowledged : Bool) :
    (⟨s, acknowledged⟩ : Exchange).enter request.ticket =
      ⟨{ s with queue := s.queue ++ [request], blocked := later }, acknowledged⟩ := by
  simp only [enter, hblocked, List.find?_cons, beq_self_eq_true, if_pos hroom,
    List.erase_cons_head]

/-- A source that begins to drain leaves those alone who wait for an answer. -/
theorem drain_waiting
    (ticket : Nat)
    (queue blocked : List Request)
    (s : Source) :
    Source.drain ticket { s with queue, blocked } =
      { s.drain ticket with queue, blocked } := by
  unfold Source.drain
  dsimp only [Source.note]
  split <;> rfl

/-- A question is taken; a source that goes on at once also gives the place that is free to whoever
waits longest. -/
theorem receive_eq
    {s : Source}
    {request : Request}
    {rest : List Request}
    (hqueue : s.queue = request :: rest)
    (hphase : s.phase = .accepting)
    (acknowledged : Bool) :
    ∃ t : Source, t.queue = rest ∧ t.blocked = s.blocked ∧ t.phase ≠ .ended ∧
      (⟨s, acknowledged⟩ : Exchange).receive = ⟨t, acknowledged⟩ ∧
      s.take = { t with queue := rest ++ s.blocked.take 1, blocked := s.blocked.drop 1 } := by
  obtain ⟨ticket, question⟩ := request
  cases question with
  | active =>
      refine ⟨Source.reply ticket (.active s.tasks.length) { s with queue := rest }, rfl, rfl, ?_,
        by simp only [receive, hphase, hqueue], ?_⟩
      · simp [Source.reply, hphase]
      · simp only [Source.take, Source.refill, Source.reply, hphase, hqueue]
  | shutdown =>
      have hdrain := drain_waiting ticket rest s.blocked s
      refine ⟨Source.drain ticket { s with queue := rest }, ?_, ?_, ?_,
        by simp only [receive, hphase, hqueue], ?_⟩
      · rw [hdrain]
      · rw [hdrain]
      · obtain ⟨journal, hdraining⟩ := Source.drain_journal ticket { s with queue := rest }
        rw [hdraining]
        simp
      · have htake : s.take = (s.refill rest).drain ticket := by
          simp only [Source.take, hphase, hqueue]
        rw [htake, hdrain]
        exact drain_waiting ticket (rest ++ s.blocked.take 1) (s.blocked.drop 1) s

/-- A question is taken, and whoever waits longest gets the place that is free. -/
theorem run_courseOf_take
    {s : Source}
    {request : Request}
    {rest : List Request}
    (hlength : s.queue.length ≤ Source.queueLength)
    (hqueue : s.queue = request :: rest)
    (hphase : s.phase = .accepting) :
    (between s).run (courseOf s .take) = between (s.step .take) := by
  obtain ⟨t, htaken, hwaiting, hgoing, hreceive, htake⟩ :=
    receive_eq hqueue hphase (decide (s.phase = .ended))
  have hroom : t.queue.length < Source.queueLength := by
    rw [hqueue, List.length_cons] at hlength
    rw [htaken]
    omega
  have hcourse : courseOf s .take =
      .receive :: s.blocked.head?.toList.map fun request => .enter request.ticket := by
    simp [courseOf, hphase, hqueue]
  have hstill : decide (s.phase = .ended) = decide (t.phase = .ended) := by
    simp [hphase, hgoing]
  rw [hcourse, run_cons, step, between, hreceive, Source.step, htake]
  rcases hblocked : s.blocked with _ | ⟨first, later⟩
  case nil =>
    have hsame : { t with queue := rest ++ [], blocked := [] } = t := by
      rw [List.append_nil, ← htaken, ← hwaiting.trans hblocked]
    simp only [run, List.head?_nil, Option.toList_none, List.map_nil, List.foldl_nil,
      List.take_nil, List.drop_nil, hsame, hstill, between]
  case cons =>
    have henter := enter_head (hwaiting.trans hblocked) hroom (decide (t.phase = .ended))
    simp only [run, step, between, List.head?_cons, Option.toList_some, List.map_cons,
      List.map_nil, List.foldl_cons, List.foldl_nil, hstill, henter, htaken, List.take_succ_cons,
      List.take_zero, List.drop_succ_cons, List.drop_zero]

/-- The source says that it has shut down, and lets go of the queue. -/
theorem run_courseOf_conclude
    (s : Source) :
    (between s).run (courseOf s .conclude) = between (s.step .conclude) := by
  rcases hphase : s.phase with _ | ticket | ticket | _
  case accepting | ended =>
    simp [courseOf, between, run, step, acknowledge, hangUp, Source.step, Source.conclude, hphase,
      SourcePhase.ticket?]
  all_goals
    by_cases htasks : s.tasks = []
    · simp [courseOf, between, run, step, acknowledge, hangUp, Source.step, Source.conclude,
        Source.reply, Source.note, hphase, htasks, SourcePhase.ticket?]
    · simp [courseOf, between, run, step, acknowledge, hangUp, Source.step, Source.conclude,
        hphase, htasks, SourcePhase.ticket?]

theorem run_courseOf
    {s : Source}
    (hlength : s.queue.length ≤ Source.queueLength)
    (event : Source.Event) :
    (between s).run (courseOf s event) = between (s.step event) := by
  by_cases hquiet : event.isQuestioning = false
  · have hcourse : courseOf s event = [.work event] := by
      cases event <;> first | rfl | cases hquiet
    have hended : decide ((s.step event).phase = .ended) = decide (s.phase = .ended) :=
      decide_eq_decide.2 (quiet_step hquiet s).ended
    rw [hcourse, run_cons]
    simp only [step, work, hquiet, between, hended]
    rfl
  · cases event with
    | ask question =>
        by_cases hended : s.phase = .ended
        · simp [courseOf, between, run, step, call, Source.step, Source.ask, Source.reply, hended]
        · by_cases hblocked : s.blocked = []
          · by_cases hroom : s.queue.length < Source.queueLength
            · simp [courseOf, between, run, step, call, enter, Source.step, Source.ask, hended,
                hblocked, hroom]
            · simp [courseOf, between, run, step, call, enter, Source.step, Source.ask, hended,
                hblocked, hroom]
          · simp [courseOf, between, run, step, call, Source.step, Source.ask, hended, hblocked]
    | take =>
        rcases hqueue : s.queue with _ | ⟨request, rest⟩
        case nil =>
          simp [courseOf, between, run, step, receive, Source.step, Source.take, hqueue]
        case cons =>
          by_cases hphase : s.phase = .accepting
          · exact run_courseOf_take hlength hqueue hphase
          · simp [courseOf, between, run, step, receive, Source.step, Source.take, hphase]
    | conclude => exact run_courseOf_conclude s
    | _ => exact absurd rfl hquiet

/-- Whatever a source does is done by an exchange. -/
theorem exists_run
    {s : Source}
    (hlength : s.queue.length ≤ Source.queueLength)
    (events : List Source.Event) :
    ∃ course, (between s).run course = between (s.run events) := by
  induction events generalizing s with
  | nil => exact ⟨[], rfl⟩
  | cons event events ih =>
      obtain ⟨course, hcourse⟩ := ih (queue_step hlength event)
      refine ⟨courseOf s event ++ course, ?_⟩
      rw [run_append, run_courseOf hlength, hcourse]
      rfl

end Exchange
end SyslogIntake

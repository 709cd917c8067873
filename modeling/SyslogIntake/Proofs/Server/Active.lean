import SyslogIntake.Proofs.Server.Closing

/-!
# The number of active connections

Asked how many connections are active, a source answers with the number of its tasks.  A task
that is through with its connection is one of them until the source has seen that, and by then
the task may long have given its permit back, so that another connection was accepted.  The
number is that of the connections that are served together with that of the tasks that have not
been seen yet, and it can exceed the limit by those of them that hold no permit any more.

**Results.**

* `active_of_step`, `active_of_run` : a number that is given as a reply is given by some event;
* `Source.tasks_length`, `Source.tasks_length_le` : what the number of tasks is made up of;
* `active_exact` : what is answered, in every course of events;
* `active_stale` : an answer that is above the limit.
-/

namespace SyslogIntake

namespace Source

/-- The tasks that are through with their connections, which the source has not seen yet. -/
def stale (s : Source) : List Task :=
  s.tasks.filter fun task => !task.isServing

/-- The tasks among them that have given their permits back. -/
def permitless (s : Source) : List Task :=
  s.tasks.filter fun task => !task.holdsPermit

theorem tasks_length
    (s : Source) :
    s.tasks.length = s.serving.length + s.stale.length :=
  List.length_eq_length_filter_add Task.isServing

theorem serving_length_le
    {limit : Nat}
    {s : Source}
    (hs : Account limit s) :
    s.serving.length ≤ limit := by
  have hholds : s.serving.length ≤ s.holders.length :=
    List.Sublist.length_le
      (List.monotone_filter_right s.tasks fun _ => Task.holdsPermit_of_isServing)
  have hpermits := hs.permits
  omega

/-- There are no more tasks than permits, except for those that have given theirs back. -/
theorem tasks_length_le
    {limit : Nat}
    {s : Source}
    (hs : Account limit s) :
    s.tasks.length ≤ limit + s.permitless.length := by
  have hsplit : s.tasks.length = s.holders.length + s.permitless.length :=
    List.length_eq_length_filter_add Task.holdsPermit
  have hpermits := hs.permits
  omega

end Source

namespace Exchange

/-- Nobody who is still waiting in the end learns a number. -/
theorem active_not_mem_waiting
    {ticket count : Nat}
    (s : Source) :
    (ticket, Reply.active count) ∉
      s.blocked.map Source.undelivered ++ s.queue.map Source.unanswered := by
  intro hwaiting
  rcases List.mem_append.1 hwaiting with hblocked | hqueue
  · obtain ⟨request, -, hreply⟩ := List.mem_map.1 hblocked
    cases hreply
  · obtain ⟨request, -, hreply⟩ := List.mem_map.1 hqueue
    unfold Source.unanswered at hreply
    split at hreply <;> cases hreply

/-- A number that is given as a reply is the number of tasks when the source takes the question. -/
theorem active_of_step
    {x : Exchange}
    {event : Event}
    {ticket count : Nat}
    (h : (ticket, Reply.active count) ∈ (x.step event).source.replies) :
    (ticket, Reply.active count) ∈ x.source.replies ∨
      event = .receive ∧ x.source.phase = .accepting ∧
        x.source.queue.head? = some ⟨ticket, .active⟩ ∧ count = x.source.tasks.length := by
  cases event with
  | work what =>
      simp only [step, work] at h
      split at h
      · exact .inl h
      -- Work that has to do with questions is turned away, and other work replies to nobody.
      · rename_i hwork
        rw [(quiet_step (Bool.not_eq_true _ ▸ hwork) x.source).replies] at h
        exact .inl h
  | call question =>
      simp only [step, call] at h
      split at h
      · exact .inl (by simpa [Source.reply] using h)
      · exact .inl h
  | enter ticket =>
      simp only [step, enter] at h
      split at h
      · split at h <;> exact .inl h
      · exact .inl h
  | receive =>
      rcases receive_cases x with ⟨asker, rest, hphase, hqueue, -, heq⟩ |
        ⟨asker, rest, hphase, hqueue, -, heq⟩ | ⟨-, heq⟩ <;> rw [step, heq] at h
      · rcases List.mem_cons.1 h with hgiven | hbefore
        · cases hgiven
          exact .inr ⟨rfl, hphase, by rw [hqueue]; rfl, rfl⟩
        · exact .inl hbefore
      · obtain ⟨journal, hdrain⟩ := Source.drain_journal asker { x.source with queue := rest }
        rw [hdrain] at h
        exact .inl h
      · exact .inl h
  | acknowledge =>
      simp only [step, acknowledge] at h
      split at h
      · split at h
        · exact .inl (by simpa [Source.reply, Source.note] using h)
        · exact .inl h
      · exact .inl h
  | hangUp =>
      simp only [step, hangUp] at h
      split at h
      · rcases List.mem_append.1 h with hwaiting | hbefore
        · exact absurd hwaiting (active_not_mem_waiting x.source)
        · exact .inl hbefore
      · exact .inl h

/-- A number that is given as a reply is given where the source takes the question. -/
theorem active_of_run
    {x : Exchange}
    {events : List Event}
    {ticket count : Nat}
    (h : (ticket, Reply.active count) ∈ (x.run events).source.replies) :
    (ticket, Reply.active count) ∈ x.source.replies ∨
      ∃ before after, events = before ++ .receive :: after ∧
        (x.run before).source.phase = .accepting ∧
        (x.run before).source.queue.head? = some ⟨ticket, .active⟩ ∧
        count = (x.run before).source.tasks.length := by
  induction events generalizing x with
  | nil => exact .inl h
  | cons event events ih =>
      rw [run_cons] at h
      rcases ih h with hgiven | ⟨before, after, rfl, htaken⟩
      · rcases active_of_step hgiven with hbefore | ⟨rfl, htaken⟩
        · exact .inl hbefore
        · exact .inr ⟨[], events, rfl, htaken⟩
      · exact .inr ⟨event :: before, after, rfl, htaken⟩

theorem run_account
    {limit count : Nat}
    {received : List Nat}
    {x : Exchange}
    (hx : Farewell received x)
    (haccount : Source.Account limit x.source)
    (hbalance : Source.Balance count x.source)
    (events : List Event) :
    Source.Account limit (x.run events).source := by
  induction events generalizing count received x with
  | nil => exact haccount
  | cons event events ih =>
      obtain ⟨hnext, hkept⟩ := balance_step hx haccount hbalance event
      exact ih (step_farewell hx event) hnext hkept

/--
A number that is given as a reply is given where the source takes the question.  It is the number
of connections that are served then, accepted and neither closed nor cut short, together with
the number of tasks that are through with theirs and have not been seen yet.  So it is the
number of connections that are served exactly if there are no such tasks, and it exceeds the
limit at most by those of them that have given their permits back.
-/
theorem active_exact
    (endpoint : Endpoint)
    (limit : Nat)
    (events : List Event)
    {ticket count : Nat}
    (h : (ticket, Reply.active count) ∈ ((start endpoint limit).run events).source.replies) :
    ∃ before after, events = before ++ .receive :: after ∧
      let s := ((start endpoint limit).run before).source
      s.queue.head? = some ⟨ticket, .active⟩ ∧
      s.counters.accepted =
        s.counters.closed + s.serving.length + (start endpoint limit).lost before ∧
      count = s.serving.length + s.stale.length ∧
      (count = s.serving.length ↔ s.stale = []) ∧
      s.serving.length ≤ limit ∧ count ≤ limit + s.permitless.length := by
  have hbegun : Farewell [] (start endpoint limit) := farewell_start endpoint limit
  have hopen : Source.Account limit (start endpoint limit).source :=
    Source.account_start endpoint limit
  have hlevel : Source.Balance 0 (start endpoint limit).source := ⟨rfl, Nat.le_refl 0⟩
  rcases active_of_run h with hnone | ⟨before, after, hevents, -, hqueue, hcount⟩
  · cases hnone
  · have hbalance := run_balance hbegun hopen hlevel before
    have haccount := run_account hbegun hopen hlevel before
    rw [Nat.zero_add] at hbalance
    have hmade := hcount.trans (Source.tasks_length _)
    refine ⟨before, after, hevents, hqueue, hbalance.accepted, hmade, ?_,
      Source.serving_length_le haccount, hcount ▸ Source.tasks_length_le haccount⟩
    rw [hmade, Nat.add_eq_left, List.length_eq_zero_iff]

/-- Somebody asks while one connection is served and another one has ended and was seen. -/
theorem active_exact_seen :
    let events : List Event :=
      [.work (.arrive (.v4 ⟨192, 0, 2, 1⟩ 5000)), .work (.finish 1 false), .work (.release 1),
        .work (.reap 1), .work (.arrive (.v4 ⟨192, 0, 2, 1⟩ 5001)), .call .active, .enter 0,
        .receive]
    (0, Reply.active 1) ∈ ((start (.v4 ⟨127, 0, 0, 1⟩ 601) 1).run events).source.replies ∧
      ∃ before after, events = before ++ .receive :: after ∧
        let s := ((start (.v4 ⟨127, 0, 0, 1⟩ 601) 1).run before).source
        1 = s.serving.length + s.stale.length ∧ s.serving.length ≤ 1 := by
  intro events
  have hreply :
      (0, Reply.active 1) ∈ ((start (.v4 ⟨127, 0, 0, 1⟩ 601) 1).run events).source.replies := by
    decide +kernel
  obtain ⟨before, after, hevents, -, -, hcount, -, hlimit, -⟩ :=
    active_exact (.v4 ⟨127, 0, 0, 1⟩ 601) 1 events hreply
  exact ⟨hreply, before, after, hevents, hcount, hlimit⟩

/-- A connection ends, another one is accepted in its place, and somebody asks. -/
def succeeded : List Event :=
  [.work (.arrive (.v4 ⟨192, 0, 2, 1⟩ 5000)), .work (.finish 1 false), .work (.release 1),
    .work (.arrive (.v4 ⟨192, 0, 2, 1⟩ 5001)), .call .active, .enter 0]

/-- With a limit of one and one connection that is served, the answer is two. -/
theorem active_stale :
    let x := (start (.v4 ⟨127, 0, 0, 1⟩ 601) 1).run succeeded
    x.source.limit = 1 ∧ x.source.serving = [⟨2, .serving⟩] ∧
      x.receive.source.replies = [(0, Reply.active 2)] := by
  decide +kernel

end Exchange
end SyslogIntake

import SyslogIntake.Proofs.Server.Shutdown

/-!
# Counting closed connections

A connection that ends by itself, well or with a failure, is counted as closed.  One whose task
crashes, or is aborted while it still serves it, is not: so the count of closed connections lags
behind that of accepted ones by those that are open and those that were cut short.

**Results.**

* `serving_leave` : whoever is through with a connection serves it no more;
* `step_balance`, `run_balance` : what was accepted was closed, is open, or was cut short;
* `closed_exact` : after a source has shut down the counts agree unless a connection was cut short;
* `closed_short` : a shutdown that leaves an accepted connection uncounted.
-/

namespace SyslogIntake
namespace Source

/-- Whether an event takes the task of a connection away from it. -/
def cutsShort (s : Source) : Event → Bool
  | .crash id _ => s.serves id
  | .abort id =>
      match s.phase with
      | .aborting _ => s.serves id
      | .accepting | .draining _ | .ended => false
  | _ => false

/-- What was accepted, what was closed, and what failed. -/
structure Balance (lost : Nat) (s : Source) : Prop where
  accepted : s.counters.accepted = s.counters.closed + s.serving.length + lost
  failed : s.counters.failed ≤ s.counters.closed

theorem leave_of_not_isServing
    {task : Task}
    (h : task.isServing = false)
    (ending : Ending) :
    task.leave ending = task := by
  obtain ⟨id, serving | cause | cause⟩ := task
  · cases h
  · rfl
  · rfl

/-- Whoever is through with a connection serves it no more, and nobody else is concerned. -/
theorem serving_leave
    {limit : Nat}
    {s : Source}
    (hs : Account limit s)
    (id : Nat)
    (ending : Ending) :
    (s.leave id ending).serving.length + (s.serves id).toNat = s.serving.length := by
  rcases hserves : s.serves id with _ | _
  case false =>
    have hnone : ∀ task ∈ s.tasks, task.id = id → task.isServing = false := by
      simpa [serves] using hserves
    have hsame : move id (Task.leave ending) s.tasks = s.tasks := by
      refine (List.map_congr_left fun task htask => ?_).trans (List.map_id' s.tasks)
      split
      · rename_i hid
        exact leave_of_not_isServing (hnone task htask hid) ending
      · rfl
    simp only [serving, leave, hsame, Bool.toNat_false, Nat.add_zero]
  case true =>
    obtain ⟨task, hmem, hid, hserving⟩ :
        ∃ task ∈ s.tasks, task.id = id ∧ task.isServing = true := by
      simpa [serves] using hserves
    subst hid
    obtain ⟨before, after, htasks⟩ := List.append_of_mem hmem
    have hdistinct : ((before ++ task :: after).map Task.id).Nodup := htasks ▸ hs.distinct
    have hmove := move_of_nodup (Task.leave ending) hdistinct
    simp only [serving, leave, htasks, hmove, List.filter_append, List.filter_cons,
      Task.isServing_leave, hserving, List.length_append, List.length_cons, Bool.false_eq_true,
      if_false, if_true, Bool.toNat_true]
    omega

/-- As many tasks serve their connections as before if whoever goes on serves as before. -/
theorem serving_move
    {onward : Task → Task}
    (hkeeps : ∀ task, (onward task).isServing = task.isServing)
    (id : Nat)
    (tasks : List Task) :
    ((move id onward tasks).filter Task.isServing).length =
      (tasks.filter Task.isServing).length := by
  simp only [← List.countP_eq_length_filter, move, List.countP_map]
  refine List.countP_congr fun task _ => ?_
  simp only [Function.comp_apply]
  split
  · rw [hkeeps]
  · rfl

/-- Nobody begins or ceases to serve a connection by giving a permit back. -/
theorem isServing_release
    (task : Task) :
    task.release.isServing = task.isServing := by
  obtain ⟨id, serving | cause | cause⟩ := task <;> rfl

/-- Only what is counted and who serves a connection matters for the balance. -/
theorem Balance.of_same
    {lost : Nat}
    {s t : Source}
    (hs : Balance lost s)
    (hcounters : t.counters.accepted = s.counters.accepted ∧
      t.counters.closed = s.counters.closed ∧ t.counters.failed = s.counters.failed)
    (hserving : t.serving.length = s.serving.length) :
    Balance lost t := by
  obtain ⟨haccepted, hclosed, hfailed⟩ := hcounters
  exact ⟨by rw [haccepted, hclosed, hserving]; exact hs.accepted,
    by rw [hfailed, hclosed]; exact hs.failed⟩

/-- A task that is taken away from its connection leaves it uncounted. -/
theorem balance_leave
    {limit lost : Nat}
    {s : Source}
    (hs : Balance lost s)
    (haccount : Account limit s)
    (id : Nat)
    (ending : Ending) :
    Balance (lost + (s.serves id).toNat) (s.leave id ending) where
  accepted := by
    have hserving := serving_leave haccount id ending
    have haccepted := hs.accepted
    have hcounters : (s.leave id ending).counters = s.counters := rfl
    rw [hcounters]
    omega
  failed := hs.failed

theorem balance_accept
    {lost : Nat}
    {s : Source}
    (hs : Balance lost s) :
    Balance lost s.accept where
  accepted := by
    have haccepted := hs.accepted
    have hserving : s.accept.serving.length = s.serving.length + 1 := by
      simp only [serving, accept, List.filter_append, List.length_append]
      rfl
    have hcounted : s.accept.counters.accepted = s.counters.accepted + 1 := rfl
    have hclosed : s.accept.counters.closed = s.counters.closed := rfl
    omega
  failed := hs.failed

/-- A connection that comes to its end is served no longer, and counted once more. -/
theorem balance_finish
    {limit lost : Nat}
    {s : Source}
    (hs : Balance lost s)
    (haccount : Account limit s)
    (id : Nat)
    (failed : Bool) :
    Balance lost (s.finish id failed) := by
  rw [finish]
  split
  · rename_i hserves
    have hserving := serving_leave haccount id .finished
    rw [hserves, Bool.toNat_true] at hserving
    have haccepted := hs.accepted
    have hfailed := hs.failed
    cases failed <;> constructor <;>
      simp only [serving, leave, Counters.countClosed, Counters.countFailed, if_true,
        Bool.false_eq_true, if_false] at hserving haccepted ⊢ <;> omega
  · exact hs

theorem serving_reap
    {s : Source}
    {task : Task}
    (hmem : task ∈ s.tasks)
    (hended : task.holdsPermit = false) :
    ((s.tasks.erase task).filter Task.isServing).length = s.serving.length := by
  have hserving : task.isServing = false := by
    rw [Bool.eq_false_iff]
    intro hserving
    exact absurd (hended.symm.trans (Task.holdsPermit_of_isServing hserving)) (by simp)
  have hperm := (List.perm_cons_erase hmem).filter Task.isServing
  rw [List.filter_cons_of_neg (by simp [hserving])] at hperm
  exact hperm.length_eq.symm

theorem step_balance
    {limit lost : Nat}
    {s : Source}
    (hs : Balance lost s)
    (haccount : Account limit s)
    {event : Event}
    (hquiet : event.isQuestioning = false) :
    Balance (lost + (s.cutsShort event).toNat) (s.step event) := by
  cases event with
  | arrive peer =>
      simp only [step, arrive, cutsShort, Bool.toNat_false, Nat.add_zero]
      split
      · split
        · exact hs.of_same ⟨rfl, rfl, rfl⟩ rfl
        · exact balance_accept hs
      · exact hs
  | missArrival report =>
      simp only [step, missArrival, cutsShort, Bool.toNat_false, Nat.add_zero]
      split
      · exact hs.of_same ⟨rfl, rfl, rfl⟩ rfl
      · exact hs
  | find id finding =>
      simp only [step, find, cutsShort, Bool.toNat_false, Nat.add_zero]
      split
      · refine hs.of_same ?_ rfl
        cases finding <;> exact ⟨rfl, rfl, rfl⟩
      · exact hs
  | finish id failed => exact balance_finish hs haccount id failed
  | crash id report => exact balance_leave hs haccount id (.crashed report)
  | abort id =>
      rcases hphase : s.phase with _ | ticket | ticket | _
      case aborting =>
        simp only [step, abort, cutsShort, hphase]
        exact balance_leave hs haccount id .aborted
      all_goals
        simp only [step, abort, cutsShort, hphase, Bool.toNat_false, Nat.add_zero]
        exact hs
  | release id =>
      rcases release_cases id s with ⟨-, -, -, -, heq⟩ | ⟨-, heq⟩ <;> rw [step, heq]
      · exact hs.of_same ⟨rfl, rfl, rfl⟩ (serving_move isServing_release id s.tasks)
      · exact hs
  | reap id =>
      rcases reap_cases id s with ⟨task, hmem, -, hended, journal, heq⟩ | ⟨-, heq⟩ <;>
        rw [step, heq]
      · exact hs.of_same ⟨rfl, rfl, rfl⟩ (serving_reap hmem hended)
      · exact hs
  | expire =>
      simp only [step, expire, cutsShort, Bool.toNat_false, Nat.add_zero]
      split
      · split
        · exact hs
        · exact hs.of_same ⟨rfl, rfl, rfl⟩ rfl
      all_goals exact hs
  | ask question => cases hquiet
  | take => cases hquiet
  | conclude => cases hquiet

end Source

namespace Exchange

/-- Whether an event takes the task of a connection away from it. -/
def cutsShort (x : Exchange) : Event → Bool
  | .work event => x.source.cutsShort event
  | _ => false

/-- How many connections are cut short in a course of events. -/
def lost (x : Exchange) : List Event → Nat
  | [] => 0
  | event :: events => (x.cutsShort event).toNat + (x.step event).lost events

/-- What has nothing to do with the tasks leaves the permits and the counts alone. -/
theorem spares_step
    {received : List Nat}
    {x : Exchange}
    (hx : Farewell received x)
    {event : Event}
    (hwork : ∀ what, event ≠ .work what) :
    Source.Spares x.source (x.step event).source ∧
      (x.step event).source.counters = x.source.counters := by
  cases event with
  | work what => exact absurd rfl (hwork what)
  | call question =>
      simp only [step, call]
      split <;> exact ⟨{ Source.Spares.refl x.source with }, rfl⟩
  | enter ticket =>
      simp only [step, enter]
      split
      · split <;> exact ⟨{ Source.Spares.refl x.source with }, rfl⟩
      · exact ⟨.refl _, rfl⟩
  | receive =>
      rcases receive_cases x with ⟨ticket, rest, -, -, -, heq⟩ | ⟨ticket, rest, -, -, -, heq⟩ |
        ⟨-, heq⟩ <;> rw [step, heq]
      · exact ⟨{ Source.Spares.refl x.source with }, rfl⟩
      · obtain ⟨journal, hdrain⟩ := Source.drain_journal ticket { x.source with queue := rest }
        rw [hdrain]
        exact ⟨{ Source.Spares.refl x.source with
          idle := fun hended => by cases hended
          tenure := fun _ => ⟨rfl, rfl⟩ }, rfl⟩
      · exact ⟨.refl _, rfl⟩
  | acknowledge =>
      simp only [step, acknowledge]
      split
      · split <;> exact ⟨{ Source.Spares.refl x.source with }, rfl⟩
      · exact ⟨.refl _, rfl⟩
  | hangUp =>
      simp only [step, hangUp]
      split
      · rename_i h
        obtain ⟨hphase, htasks⟩ := hx.vacated h.1
        exact ⟨{ Source.Spares.refl x.source with
          idle := fun _ => .inr htasks
          tenure := fun htenure => htenure.with_phase hphase (by simp) }, rfl⟩
      · exact ⟨.refl _, rfl⟩

theorem balance_step
    {limit count : Nat}
    {received : List Nat}
    {x : Exchange}
    (hx : Farewell received x)
    (haccount : Source.Account limit x.source)
    (hbalance : Source.Balance count x.source)
    (event : Event) :
    Source.Account limit (x.step event).source ∧
      Source.Balance (count + (x.cutsShort event).toNat) (x.step event).source := by
  by_cases hwork : ∃ what, event = .work what
  · obtain ⟨what, rfl⟩ := hwork
    simp only [step, work, cutsShort]
    split
    · rename_i hasking
      have hnone : x.source.cutsShort what = false := by
        cases what <;> first | rfl | cases hasking
      rw [hnone]
      exact ⟨haccount, hbalance⟩
    · rename_i hquiet
      exact ⟨Source.step_account haccount what,
        Source.step_balance hbalance haccount (Bool.not_eq_true _ ▸ hquiet)⟩
  · have hwork : ∀ what, event ≠ .work what := fun what h => hwork ⟨what, h⟩
    obtain ⟨hspares, hcounters⟩ := spares_step hx hwork
    have hnone : x.cutsShort event = false := by
      cases event <;> first | rfl | exact absurd rfl (hwork _)
    rw [hnone]
    refine ⟨hspares.account haccount, hbalance.of_same ?_ ?_⟩
    · rw [hcounters]
      exact ⟨rfl, rfl, rfl⟩
    · rw [Source.serving, hspares.tasks, Source.serving]

theorem run_balance
    {limit count : Nat}
    {received : List Nat}
    {x : Exchange}
    (hx : Farewell received x)
    (haccount : Source.Account limit x.source)
    (hbalance : Source.Balance count x.source)
    (events : List Event) :
    Source.Balance (count + x.lost events) (x.run events).source := by
  induction events generalizing count received x with
  | nil => exact hbalance
  | cons event events ih =>
      obtain ⟨hnext, hkept⟩ := balance_step hx haccount hbalance event
      rw [run_cons, lost, ← Nat.add_assoc]
      exact ih (step_farewell hx event) hnext hkept

/-- What was accepted was closed, is still open, or was cut short, and no more failed than were
closed.  So after a source has acknowledged that it has shut down, the counts of accepted and of
closed connections agree if and only if no connection was cut short. -/
theorem closed_exact
    (endpoint : Endpoint)
    (limit : Nat)
    (events : List Event) :
    let begun := start endpoint limit
    let x := begun.run events
    x.source.counters.accepted =
        x.source.counters.closed + x.source.serving.length + begun.lost events ∧
      x.source.counters.failed ≤ x.source.counters.closed ∧
      ∀ ticket, (ticket, Reply.done) ∈ x.source.replies →
        x.source.counters.accepted = x.source.counters.closed + begun.lost events ∧
        (x.source.counters.closed = x.source.counters.accepted ↔ begun.lost events = 0) := by
  intro begun x
  have hbegun : Farewell [] begun := farewell_start endpoint limit
  have hbalance : Source.Balance (0 + begun.lost events) x.source :=
    run_balance hbegun (Source.account_start endpoint limit) ⟨rfl, Nat.le_refl 0⟩ events
  rw [Nat.zero_add] at hbalance
  refine ⟨hbalance.accepted, hbalance.failed, fun ticket hdone => ?_⟩
  obtain ⟨-, hfarewell⟩ := run_docket (docket_start endpoint limit) hbegun events
  have hidle : x.source.serving = [] := by
    rw [Source.serving, (hfarewell.vacated ((hfarewell.done ticket).1 hdone).1).2, List.filter_nil]
  have haccepted := hbalance.accepted
  rw [hidle, List.length_nil, Nat.add_zero] at haccepted
  exact ⟨haccepted, by omega⟩

/-- A connection that is still open when the source is asked to shut down. -/
def overtaken : List Event :=
  [.work (.arrive (.v4 ⟨192, 0, 2, 1⟩ 5000)), .work (.find 1 .record), .call .shutdown, .enter 0,
    .receive, .work .expire, .work (.abort 1), .work (.release 1), .work (.reap 1),
    .acknowledge]

/-- The connection is aborted; nobody ever counts it as closed. -/
theorem closed_short :
    let x := (start (.v4 ⟨127, 0, 0, 1⟩ 601) 1024).run overtaken
    (0, Reply.done) ∈ x.source.replies ∧ x.source.counters.accepted = 1 ∧
      x.source.counters.closed = 0 := by
  decide +kernel

end Exchange
end SyslogIntake

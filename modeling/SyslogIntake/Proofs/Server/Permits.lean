import Mathlib.Data.List.Nodup
import SyslogIntake.Server.Source

/-!
# The permits of a source

A source has as many permits as it may serve connections at a time.  Whatever happens to it, and
in whatever order, every permit is free or held by exactly one task; so a connection is turned
away exactly when all the permits are held, and what a source has counted is what came in.

**Results.**

* `Account` : what the permits, the tasks and the counts have to do with each other;
* `turn` : what an event can do to the permits and the tasks;
* `step_account`, `run_account` : no event disturbs it, and so no course of events does;
* `turnsAway_iff`, `takesIn_iff` : when a connection is turned away, and when it is accepted;
* `givesBack_iff` : when a permit is free again;
* `counts_run` : every connection that comes in is counted once;
* `admitted_run` : the connections that are accepted are numbered one after the other;
* `permits_exact` : all that is known of the limit of a source.
-/

namespace SyslogIntake
namespace Source

/-- How the permits, the tasks and the counts of a source have to do with each other. -/
structure Account (limit : Nat) (s : Source) : Prop where
  limited : s.limit = limit
  permits : s.free + s.holders.length = limit
  distinct : s.ids.Nodup
  numbered : ∀ id ∈ s.ids, id ≤ s.lastId
  counted : s.counters.accepted = s.lastId
  idle : s.phase = .ended → s.tasks = []
  tenure : s.Tenure

/-- An event leaves alone the permits, the tasks and how many connections came in. -/
structure Spares (s t : Source) : Prop where
  limit : t.limit = s.limit
  free : t.free = s.free
  lastId : t.lastId = s.lastId
  tasks : t.tasks = s.tasks
  accepted : t.counters.accepted = s.counters.accepted
  rejected : t.counters.rejected = s.counters.rejected
  idle : t.phase = .ended → s.phase = .ended ∨ s.tasks = []
  tenure : s.Tenure → t.Tenure

namespace Spares

variable {s t u : Source}

theorem refl
    (s : Source) :
    Spares s s :=
  ⟨rfl, rfl, rfl, rfl, rfl, rfl, Or.inl, id⟩

/-- One event after the other leaves alone what both leave alone. -/
theorem trans
    (hfirst : Spares s t)
    (hsecond : Spares t u) :
    Spares s u where
  limit := hsecond.limit.trans hfirst.limit
  free := hsecond.free.trans hfirst.free
  lastId := hsecond.lastId.trans hfirst.lastId
  tasks := hsecond.tasks.trans hfirst.tasks
  accepted := hsecond.accepted.trans hfirst.accepted
  rejected := hsecond.rejected.trans hfirst.rejected
  idle := fun hended => by
    rcases hsecond.idle hended with hphase | htasks
    · exact hfirst.idle hphase
    · exact .inr (hfirst.tasks ▸ htasks)
  tenure := hsecond.tenure ∘ hfirst.tenure

/-- An event that leaves everything alone leaves the account alone. -/
theorem account
    {limit : Nat}
    (h : Spares s t)
    (hs : Account limit s) :
    Account limit t where
  limited := h.limit.trans hs.limited
  permits := by
    rw [h.free, holders, h.tasks]
    exact hs.permits
  distinct := by
    rw [ids, h.tasks]
    exact hs.distinct
  numbered := by
    rw [ids, h.tasks, h.lastId]
    exact hs.numbered
  counted := by
    rw [h.accepted, h.lastId]
    exact hs.counted
  idle := fun hended => by
    rw [h.tasks]
    exact (h.idle hended).elim hs.idle id
  tenure := h.tenure hs.tenure

end Spares

theorem spares_note
    (level : Level)
    (message : String)
    (s : Source) :
    Spares s (s.note level message) :=
  { Spares.refl s with }

theorem spares_find
    (id : Nat)
    (finding : Finding)
    (s : Source) :
    Spares s (s.find id finding) := by
  unfold find
  split
  · cases finding <;> exact { Spares.refl s with }
  · exact .refl s

theorem spares_missArrival
    (report : String)
    (s : Source) :
    Spares s (s.missArrival report) := by
  unfold missArrival
  split
  · exact spares_note ..
  · exact .refl s

theorem spares_ask
    (question : Question)
    (s : Source) :
    Spares s (s.ask question) := by
  unfold ask
  dsimp only
  split
  · exact { Spares.refl s with }
  · split <;> exact { Spares.refl s with }

/-- A source that begins to drain keeps its tasks. -/
theorem spares_drain
    (ticket : Nat)
    (s : Source) :
    Spares s (s.drain ticket) := by
  obtain ⟨journal, hdrain⟩ := drain_journal ticket s
  rw [hdrain]
  exact { Spares.refl s with idle := nofun, tenure := fun _ => ⟨rfl, rfl⟩ }

theorem spares_take
    (s : Source) :
    Spares s s.take := by
  unfold take
  split
  · exact { Spares.refl s with }
  · rename_i ticket rest hphase hqueue
    have hrefill : Spares s (s.refill rest) := { Spares.refl s with }
    exact hrefill.trans (spares_drain ticket _)
  · exact .refl s

theorem spares_expire
    (s : Source) :
    Spares s s.expire := by
  unfold expire
  split
  · rename_i ticket hphase
    split
    · exact .refl s
    · exact { Spares.refl s with
        idle := nofun
        tenure := fun h => h.with_phase (by simp [hphase]) nofun }
  all_goals exact .refl s

/-- A source only ends without tasks. -/
theorem spares_conclude
    (s : Source) :
    Spares s s.conclude := by
  unfold conclude
  split
  case h_3 | h_4 => exact .refl s
  case h_1 ticket hphase | h_2 ticket hphase =>
    split
    · rename_i hempty
      exact { Spares.refl s with
        idle := fun _ => .inr (List.isEmpty_iff.1 hempty)
        tenure := fun h => h.with_phase (by simp [hphase]) nofun }
    · exact .refl s

/-- What an event can do to the permits, the tasks and the connections that came in: nothing, or
one of four things. -/
inductive Turn (s : Source) : Event → Prop
  | spare {event : Event} (hspares : Spares s (s.step event)) : Turn s event
  | arrive (peer : Endpoint) (hphase : s.phase = .accepting) : Turn s (.arrive peer)
  | leave {event : Event} {t : Source} (id : Nat) (ending : Ending) (hspares : Spares s t)
      (hstep : s.step event = t.leave id ending) : Turn s event
  | release (id : Nat) : Turn s (.release id)
  | reap (id : Nat) : Turn s (.reap id)

theorem turn
    (s : Source)
    (event : Event) :
    Turn s event := by
  cases event with
  | arrive peer =>
      by_cases hphase : s.phase = .accepting
      · exact .arrive peer hphase
      · refine .spare ?_
        rw [step, arrive, if_neg hphase]
        exact .refl s
  | missArrival report => exact .spare (spares_missArrival report s)
  | find id finding => exact .spare (spares_find id finding s)
  | finish id failed =>
      by_cases hserves : s.serves id = true
      · refine .leave id .finished ?_ (if_pos hserves)
        cases failed <;> exact { Spares.refl s with }
      · refine .spare ?_
        rw [step, finish, if_neg hserves]
        exact .refl s
  | crash id report => exact .leave id (.crashed report) (.refl s) rfl
  | abort id =>
      rcases hphase : s.phase with _ | ticket | ticket | _
      case aborting =>
        refine .leave id .aborted (.refl s) ?_
        simp only [step, abort, hphase]
      all_goals
        refine .spare ?_
        simp only [step, abort, hphase]
        exact .refl s
  | release id => exact .release id
  | reap id => exact .reap id
  | ask question => exact .spare (spares_ask question s)
  | take => exact .spare (spares_take s)
  | expire => exact .spare (spares_expire s)
  | conclude => exact .spare (spares_conclude s)

/-- No event gives a source back what it has given up, or takes it away too early. -/
theorem step_tenure
    {s : Source}
    (h : s.Tenure)
    (event : Event) :
    (s.step event).Tenure := by
  cases s.turn event with
  | spare hspares => exact hspares.tenure h
  | arrive peer hphase =>
      rw [step, arrive, if_pos hphase]
      split <;> exact h
  | leave id ending hspares hstep =>
      rw [hstep]
      exact hspares.tenure h
  | release id =>
      rcases release_cases id s with ⟨-, -, -, -, heq⟩ | ⟨-, heq⟩ <;> rw [step, heq] <;> exact h
  | reap id =>
      rcases reap_cases id s with ⟨_, -, -, -, _, heq⟩ | ⟨-, heq⟩ <;> rw [step, heq] <;> exact h

/-- An accepted connection takes a permit and a number of its own. -/
theorem account_accept
    {limit : Nat}
    {s : Source}
    (hs : Account limit s)
    (hphase : s.phase = .accepting)
    (hfree : s.free ≠ 0) :
    Account limit s.accept where
  limited := hs.limited
  permits := by
    have hholders : s.accept.holders.length = s.holders.length + 1 := by
      simp only [holders, accept, List.filter_append, List.length_append]
      rfl
    have htaken : s.accept.free = s.free - 1 := rfl
    have hpermits := hs.permits
    omega
  distinct := by
    have hids : s.accept.ids = s.ids ++ [s.lastId + 1] := List.map_append
    rw [hids]
    refine List.nodup_append.2 ⟨hs.distinct, List.nodup_singleton _, ?_⟩
    intro id hid new hnew
    have hle := hs.numbered id hid
    have heq := List.mem_singleton.1 hnew
    omega
  numbered := by
    intro id hid
    have hids : s.accept.ids = s.ids ++ [s.lastId + 1] := List.map_append
    have hlast : s.accept.lastId = s.lastId + 1 := rfl
    rw [hids, List.mem_append, List.mem_singleton] at hid
    rcases hid with hold | hnew
    · have hle := hs.numbered id hold
      omega
    · omega
  counted := congrArg (· + 1) hs.counted
  idle := fun hended => by
    have hstill : s.accept.phase = .accepting := hphase
    rw [hstill] at hended
    cases hended
  tenure := hs.tenure

theorem account_reject
    {limit : Nat}
    {s : Source}
    (hs : Account limit s)
    (peer : Endpoint) :
    Account limit (s.reject peer) :=
  { hs with }

/-- As many permits are held as before if whoever goes on keeps what it held. -/
theorem holders_move
    {onward : Task → Task}
    (hkeeps : ∀ task, (onward task).holdsPermit = task.holdsPermit)
    (id : Nat)
    (tasks : List Task) :
    ((move id onward tasks).filter Task.holdsPermit).length =
      (tasks.filter Task.holdsPermit).length := by
  simp only [← List.countP_eq_length_filter, move, List.countP_map]
  refine List.countP_congr fun task _ => ?_
  simp only [Function.comp_apply]
  split
  · rw [hkeeps]
  · rfl

/-- Being through with a connection frees no permit yet. -/
theorem account_leave
    {limit : Nat}
    {s : Source}
    (hs : Account limit s)
    (id : Nat)
    (ending : Ending) :
    Account limit (s.leave id ending) where
  limited := hs.limited
  permits := by
    have hholders : (s.leave id ending).holders.length = s.holders.length :=
      holders_move (Task.holdsPermit_leave ending) id s.tasks
    rw [hholders]
    exact hs.permits
  distinct := by
    rw [ids_leave]
    exact hs.distinct
  numbered := by
    rw [ids_leave]
    exact hs.numbered
  counted := hs.counted
  idle := fun hended => by
    have hnone : s.tasks = [] := hs.idle hended
    simp only [leave, move, hnone, List.map_nil]
  tenure := hs.tenure

/-- Tasks with other numbers stay as they are. -/
theorem move_of_forall_ne
    {id : Nat}
    {tasks : List Task}
    (onward : Task → Task)
    (h : ∀ task ∈ tasks, task.id ≠ id) :
    move id onward tasks = tasks :=
  (List.map_congr_left fun task htask => if_neg (h task htask)).trans (List.map_id' tasks)

/-- With numbers that are distinct, only one task goes on. -/
theorem move_of_nodup
    {task : Task}
    {before after : List Task}
    (onward : Task → Task)
    (hdistinct : ((before ++ task :: after).map Task.id).Nodup) :
    move task.id onward (before ++ task :: after) = before ++ onward task :: after := by
  rw [List.map_append, List.map_cons, List.nodup_middle, ← List.map_append] at hdistinct
  have hothers : ∀ other ∈ before ++ after, other.id ≠ task.id := fun other hother hid =>
    (List.nodup_cons.1 hdistinct).1 (hid ▸ List.mem_map_of_mem hother)
  have hbefore := move_of_forall_ne onward fun other hother =>
    hothers other (List.mem_append_left after hother)
  have hafter := move_of_forall_ne onward fun other hother =>
    hothers other (List.mem_append_right before hother)
  calc move task.id onward (before ++ task :: after)
      = move task.id onward before ++ move task.id onward (task :: after) := List.map_append
    _ = move task.id onward before ++ onward task :: move task.id onward after := by
        simp only [move, List.map_cons, if_true]
    _ = before ++ onward task :: after := by rw [hbefore, hafter]

/-- A task that gives its permit back held exactly one. -/
theorem holders_release
    {task : Task}
    {tasks : List Task}
    (hdistinct : (tasks.map Task.id).Nodup)
    (hmem : task ∈ tasks)
    (hleaving : task.isLeaving = true) :
    ((move task.id Task.release tasks).filter Task.holdsPermit).length + 1 =
      (tasks.filter Task.holdsPermit).length := by
  obtain ⟨before, after, rfl⟩ := List.append_of_mem hmem
  simp only [Task.isLeaving, Bool.and_eq_true, Bool.not_eq_true'] at hleaving
  have hfreed : task.release.holdsPermit = false := by
    rw [Task.holdsPermit_release, hleaving.2]
  rw [move_of_nodup Task.release hdistinct]
  simp only [List.filter_append, List.length_append, List.filter_cons, hfreed, hleaving.1,
    Bool.false_eq_true, if_false, if_true, List.length_cons]
  omega

theorem account_release
    {limit : Nat}
    {s : Source}
    (hs : Account limit s)
    (id : Nat) :
    Account limit (s.release id) := by
  rcases release_cases id s with ⟨task, hmem, rfl, hleaving, heq⟩ | ⟨-, heq⟩
  case inr =>
    rw [heq]
    exact hs
  case inl =>
    have hids : (s.release task.id).ids = s.ids := ids_release task.id s
    have hholders := holders_release hs.distinct hmem hleaving
    rw [heq] at hids ⊢
    refine { hs with
      permits := ?_
      distinct := hids.symm ▸ hs.distinct
      numbered := hids.symm ▸ hs.numbered
      idle := ?_ }
    · have hpermits := hs.permits
      simp only [holders] at hpermits ⊢
      omega
    · intro hended
      rw [hs.idle hended] at hmem
      cases hmem

theorem account_reap
    {limit : Nat}
    {s : Source}
    (hs : Account limit s)
    (id : Nat) :
    Account limit (s.reap id) := by
  rcases reap_cases id s with ⟨task, hmem, -, hended, journal, heq⟩ | ⟨-, heq⟩
  case inr =>
    rw [heq]
    exact hs
  case inl =>
    have hfewer : ((s.tasks.erase task).map Task.id).Sublist s.ids :=
      List.erase_sublist.map Task.id
    have hholders : ((s.tasks.erase task).filter Task.holdsPermit).length = s.holders.length := by
      have hperm := (List.perm_cons_erase hmem).filter Task.holdsPermit
      rw [List.filter_cons_of_neg (by simp [hended])] at hperm
      exact hperm.length_eq.symm
    rw [heq]
    refine { hs with
      permits := ?_
      distinct := hs.distinct.sublist hfewer
      numbered := fun id hid => hs.numbered id (hfewer.mem hid)
      idle := ?_ }
    · have hpermits := hs.permits
      simp only [holders] at hholders hpermits ⊢
      omega
    · intro hover
      simp only [hs.idle hover, List.erase_nil]

/-- No event disturbs the account. -/
theorem step_account
    {limit : Nat}
    {s : Source}
    (hs : Account limit s)
    (event : Event) :
    Account limit (s.step event) := by
  cases s.turn event with
  | spare hspares => exact hspares.account hs
  | arrive peer hphase =>
      by_cases hfree : s.free = 0
      · rw [step, arrive_of_full hphase hfree]
        exact account_reject hs peer
      · rw [step, arrive_of_free hphase hfree]
        exact account_accept hs hphase hfree
  | leave id ending hspares hstep =>
      rw [hstep]
      exact account_leave (hspares.account hs) id ending
  | release id => exact account_release hs id
  | reap id => exact account_reap hs id

theorem run_account
    {limit : Nat}
    {s : Source}
    (hs : Account limit s)
    (events : List Event) :
    Account limit (s.run events) := by
  induction events generalizing s with
  | nil => exact hs
  | cons event events ih => exact ih (step_account hs event)

theorem account_start
    (endpoint : Endpoint)
    (limit : Nat) :
    Account limit (start endpoint limit) :=
  ⟨rfl, rfl, List.nodup_nil, nofun, rfl, nofun, tenure_start endpoint limit⟩

/-- Whether an event is a connection that comes in, and not one that nobody listens for. -/
def comesIn (s : Source) : Event → Bool
  | .arrive _ => s.isListening
  | _ => false

/-- A connection comes in exactly when one arrives and the source accepts connections. -/
theorem comesIn_arrive
    {s : Source}
    (h : s.Tenure)
    (peer : Endpoint) :
    s.comesIn (.arrive peer) = true ↔ s.phase = .accepting := by
  rw [comesIn, h.1, beq_iff_eq]

/-- An event turns a connection away: it is counted, and nothing else becomes of it. -/
structure TurnsAway (s : Source) (event : Event) : Prop where
  counters : (s.step event).counters = s.counters.countRejected
  tasks : (s.step event).tasks = s.tasks
  free : (s.step event).free = s.free

/-- An event accepts a connection: it is counted, and a task that serves it takes a permit. -/
structure TakesIn (s : Source) (event : Event) : Prop where
  counters : (s.step event).counters = s.counters.countAccepted
  tasks : (s.step event).tasks = s.tasks ++ [⟨s.counters.accepted + 1, .serving⟩]
  free : (s.step event).free + 1 = s.free

/-- Between two moments no connection came in. -/
structure Uncounted (s t : Source) : Prop where
  accepted : t.counters.accepted = s.counters.accepted
  rejected : t.counters.rejected = s.counters.rejected
  ids : t.ids.Sublist s.ids

theorem Spares.uncounted
    {s t : Source}
    (h : Spares s t) :
    Uncounted s t :=
  ⟨h.accepted, h.rejected, by rw [Source.ids, h.tasks]; exact List.Sublist.refl _⟩

/-- No connection comes in by an event that is none. -/
theorem step_uncounted
    {s : Source}
    {event : Event}
    (htenure : s.Tenure)
    (h : s.comesIn event = false) :
    Uncounted s (s.step event) := by
  cases s.turn event with
  | spare hspares => exact hspares.uncounted
  | arrive peer hphase =>
      rw [(comesIn_arrive htenure peer).2 hphase] at h
      cases h
  | leave id ending hspares hstep =>
      rw [hstep]
      refine ⟨hspares.accepted, hspares.rejected, ?_⟩
      rw [ids_leave]
      exact hspares.uncounted.ids
  | release id =>
      rcases release_cases id s with ⟨-, -, -, -, heq⟩ | ⟨-, heq⟩
      · refine ⟨?_, ?_, by rw [step, ids_release]⟩ <;> rw [step, heq]
      · rw [step, heq]
        exact (Spares.refl s).uncounted
  | reap id =>
      rcases reap_cases id s with ⟨task, -, -, -, journal, heq⟩ | ⟨-, heq⟩
      · rw [step, heq]
        exact ⟨rfl, rfl, List.erase_sublist.map Task.id⟩
      · rw [step, heq]
        exact (Spares.refl s).uncounted

/-- A connection that comes in while no permit is free is turned away. -/
theorem turnsAway_of_full
    {s : Source}
    {event : Event}
    (htenure : s.Tenure)
    (hin : s.comesIn event = true)
    (hfree : s.free = 0) :
    s.TurnsAway event := by
  cases event with
  | arrive peer =>
      have hphase := (comesIn_arrive htenure peer).1 hin
      have hstep : s.step (.arrive peer) = s.reject peer := arrive_of_full hphase hfree peer
      refine ⟨?_, ?_, ?_⟩ <;> rw [hstep] <;> rfl
  | _ => cases hin

/-- A connection that comes in while a permit is free is accepted. -/
theorem takesIn_of_free
    {limit : Nat}
    {s : Source}
    {event : Event}
    (hs : Account limit s)
    (hin : s.comesIn event = true)
    (hfree : s.free ≠ 0) :
    s.TakesIn event := by
  cases event with
  | arrive peer =>
      have hphase := (comesIn_arrive hs.tenure peer).1 hin
      have hstep : s.step (.arrive peer) = s.accept := arrive_of_free hphase hfree peer
      refine ⟨?_, ?_, ?_⟩ <;> rw [hstep]
      · rfl
      · rw [hs.counted]
        rfl
      · exact Nat.sub_add_cancel (Nat.pos_of_ne_zero hfree)
  | _ => cases hin

/-- What becomes of a connection that comes in depends on the permits alone. -/
theorem turnsAway_iff
    {limit : Nat}
    {s : Source}
    (hs : Account limit s)
    (event : Event) :
    s.TurnsAway event ↔ s.comesIn event = true ∧ s.free = 0 := by
  refine ⟨fun h => ?_, fun ⟨hin, hfree⟩ => turnsAway_of_full hs.tenure hin hfree⟩
  have hrejected : (s.step event).counters.rejected = s.counters.rejected + 1 := by
    rw [h.counters]
    rfl
  by_cases hin : s.comesIn event = true
  · refine ⟨hin, ?_⟩
    by_contra hfree
    have hnot : (s.step event).counters.rejected = s.counters.rejected := by
      rw [(takesIn_of_free hs hin hfree).counters]
      rfl
    omega
  · have hnot := (step_uncounted hs.tenure (Bool.not_eq_true _ ▸ hin)).rejected
    omega

/-- A connection is accepted whenever one comes in while a permit is free, and only then. -/
theorem takesIn_iff
    {limit : Nat}
    {s : Source}
    (hs : Account limit s)
    (event : Event) :
    s.TakesIn event ↔ s.comesIn event = true ∧ s.free ≠ 0 := by
  refine ⟨fun h => ?_, fun ⟨hin, hfree⟩ => takesIn_of_free hs hin hfree⟩
  have haccepted : (s.step event).counters.accepted = s.counters.accepted + 1 := by
    rw [h.counters]
    rfl
  by_cases hin : s.comesIn event = true
  · refine ⟨hin, fun hfree => ?_⟩
    have htaken := h.free
    omega
  · have hnot := (step_uncounted hs.tenure (Bool.not_eq_true _ ▸ hin)).accepted
    omega

/-- An event gives a permit back: it is free, and one task less holds one. -/
structure GivesBack (s : Source) (event : Event) : Prop where
  counters : (s.step event).counters = s.counters
  holders : (s.step event).holders.length + 1 = s.holders.length
  free : (s.step event).free = s.free + 1

/-- Nothing but a release frees a permit. -/
theorem free_step_le
    {s : Source}
    {event : Event}
    (h : ∀ id, event ≠ .release id) :
    (s.step event).free ≤ s.free := by
  cases s.turn event with
  | spare hspares => exact Nat.le_of_eq hspares.free
  | arrive peer hphase =>
      by_cases hfree : s.free = 0
      · rw [step, arrive_of_full hphase hfree]
        exact Nat.le_refl s.free
      · rw [step, arrive_of_free hphase hfree]
        exact Nat.sub_le s.free 1
  | leave id ending hspares hstep =>
      rw [hstep]
      exact Nat.le_of_eq hspares.free
  | release id => exact absurd rfl (h id)
  | reap id =>
      have hsame : (s.reap id).free = s.free := by
        rcases reap_cases id s with ⟨_, -, -, -, _, heq⟩ | ⟨-, heq⟩ <;> rw [heq]
      exact Nat.le_of_eq hsame

/-- A permit is given back whenever a task that is about to do so releases it, and only then. -/
theorem givesBack_iff
    {limit : Nat}
    {s : Source}
    (hs : Account limit s)
    (event : Event) :
    s.GivesBack event ↔ ∃ task ∈ s.tasks, event = .release task.id ∧ task.isLeaving = true := by
  constructor
  · intro h
    have hfree := h.free
    by_cases hrelease : ∃ id, event = .release id
    · obtain ⟨id, rfl⟩ := hrelease
      rcases release_cases id s with ⟨task, hmem, rfl, hleaving, -⟩ | ⟨-, heq⟩
      · exact ⟨task, hmem, rfl, hleaving⟩
      · rw [step, heq] at hfree
        omega
    · have hle : (s.step event).free ≤ s.free := free_step_le fun id h => hrelease ⟨id, h⟩
      omega
  · rintro ⟨task, hmem, rfl, hleaving⟩
    rcases release_cases task.id s with ⟨other, hother, hid, hgoing, heq⟩ | ⟨hnone, -⟩
    · have hholders := holders_release hs.distinct hother hgoing
      rw [hid] at hholders
      refine ⟨?_, ?_, ?_⟩ <;> rw [step, heq]
      exact hholders
    · exact absurd hleaving (Bool.eq_false_iff.1 (hnone task hmem rfl))

/-- How many connections come in in a course of events. -/
def arrivals (s : Source) : List Event → Nat
  | [] => 0
  | event :: events => (s.comesIn event).toNat + (s.step event).arrivals events

/-- The numbers of the tasks that an event brings. -/
def newcomers (s : Source) (event : Event) : List Nat :=
  (s.step event).ids.filter fun id => id ∉ s.ids

/-- The numbers of the tasks that a course of events brings, in their order. -/
def admitted (s : Source) : List Event → List Nat
  | [] => []
  | event :: events => s.newcomers event ++ (s.step event).admitted events

theorem counts_step
    {limit : Nat}
    {s : Source}
    (hs : Account limit s)
    (event : Event) :
    (s.step event).counters.accepted + (s.step event).counters.rejected =
      s.counters.accepted + s.counters.rejected + (s.comesIn event).toNat := by
  rcases hin : s.comesIn event with _ | _
  case false =>
    have huncounted := step_uncounted hs.tenure hin
    rw [huncounted.accepted, huncounted.rejected]
    rfl
  case true =>
    by_cases hfree : s.free = 0
    · rw [(turnsAway_of_full hs.tenure hin hfree).counters]
      exact (Nat.add_assoc ..).symm
    · rw [(takesIn_of_free hs hin hfree).counters]
      exact Nat.add_right_comm ..

/-- What a course of events counts is what came in. -/
theorem counts_run
    {limit : Nat}
    {s : Source}
    (hs : Account limit s)
    (events : List Event) :
    (s.run events).counters.accepted + (s.run events).counters.rejected =
      s.counters.accepted + s.counters.rejected + s.arrivals events := by
  induction events generalizing s with
  | nil => rfl
  | cons event events ih =>
      have hstep := counts_step hs event
      have hrest := ih (step_account hs event)
      rw [run_cons, arrivals]
      omega

theorem newcomers_step
    {limit : Nat}
    {s : Source}
    (hs : Account limit s)
    (event : Event) :
    ∃ more, (s.step event).counters.accepted = s.counters.accepted + more ∧
      s.newcomers event = List.range' (s.counters.accepted + 1) more := by
  have hnone : ∀ {ids : List Nat}, ids.Sublist s.ids → ids.filter (fun id => id ∉ s.ids) = [] :=
    fun hsub => List.filter_eq_nil_iff.2 fun id hid => by simp [hsub.mem hid]
  rcases hin : s.comesIn event with _ | _
  case false =>
    have huncounted := step_uncounted hs.tenure hin
    exact ⟨0, huncounted.accepted, hnone huncounted.ids⟩
  case true =>
    by_cases hfree : s.free = 0
    · have haway := turnsAway_of_full hs.tenure hin hfree
      refine ⟨0, by rw [haway.counters]; rfl, hnone ?_⟩
      rw [ids, haway.tasks]
      exact List.Sublist.refl _
    · have htaken := takesIn_of_free hs hin hfree
      have hnew : s.counters.accepted + 1 ∉ s.ids := fun hmem => by
        have hle := hs.numbered _ hmem
        have hcounted := hs.counted
        omega
      refine ⟨1, by rw [htaken.counters]; rfl, ?_⟩
      have hids : (s.step event).ids = s.ids ++ [s.counters.accepted + 1] := by
        rw [ids, htaken.tasks]
        exact List.map_append
      rw [newcomers, hids, List.filter_append, hnone (List.Sublist.refl s.ids)]
      simp [hnew]

/-- The connections that are accepted are numbered one after the other. -/
theorem admitted_run
    {limit : Nat}
    {s : Source}
    (hs : Account limit s)
    (events : List Event) :
    List.range' 1 s.counters.accepted ++ s.admitted events =
      List.range' 1 (s.run events).counters.accepted := by
  induction events generalizing s with
  | nil => exact List.append_nil _
  | cons event events ih =>
      obtain ⟨more, haccepted, hnew⟩ := newcomers_step hs event
      have hjoined : List.range' 1 s.counters.accepted ++ s.newcomers event =
          List.range' 1 (s.step event).counters.accepted := by
        rw [hnew, haccepted, Nat.add_comm s.counters.accepted 1]
        exact List.range'_append_1
      rw [run_cons, admitted, ← List.append_assoc, hjoined]
      exact ih (step_account hs event)

/-- The limit of a source is kept exactly.  After any events there are no more handlers at work
than the limit says; every permit is free or held by a task that has not ended; a connection
that comes in is turned away if and only if no permit is free, and accepted otherwise; a permit
becomes free again whenever a task that is through with its connection releases it, and only
then; every connection that came in was counted as turned away or as accepted; those that were
accepted got the numbers from one on, in their order; and a source that has ended has all its
permits back. -/
theorem permits_exact
    (endpoint : Endpoint)
    (limit : Nat)
    (events : List Event) :
    let begun := start endpoint limit
    let s := begun.run events
    s.serving.length ≤ limit ∧
      s.free + s.holders.length = limit ∧
      (∀ event, s.TurnsAway event ↔ s.comesIn event = true ∧ s.free = 0) ∧
      (∀ event, s.TakesIn event ↔ s.comesIn event = true ∧ s.free ≠ 0) ∧
      (∀ event, s.GivesBack event ↔
        ∃ task ∈ s.tasks, event = .release task.id ∧ task.isLeaving = true) ∧
      s.counters.accepted + s.counters.rejected = begun.arrivals events ∧
      begun.admitted events = List.range' 1 s.counters.accepted ∧
      (s.phase = .ended → s.tasks = [] ∧ s.free = limit) := by
  intro begun s
  have hbegun : Account limit begun := account_start endpoint limit
  have hs : Account limit s := run_account hbegun events
  refine ⟨?_, hs.permits, turnsAway_iff hs, takesIn_iff hs, givesBack_iff hs, ?_, ?_, ?_⟩
  · have hpermits := hs.permits
    have hheld : s.serving.length ≤ s.holders.length :=
      (List.monotone_filter_right s.tasks fun _ => Task.holdsPermit_of_isServing).length_le
    omega
  · exact (counts_run hbegun events).trans (Nat.zero_add _)
  · exact admitted_run hbegun events
  · intro hended
    have hpermits := hs.permits
    rw [holders, hs.idle hended] at hpermits
    exact ⟨hs.idle hended, hpermits⟩

end Source
end SyslogIntake

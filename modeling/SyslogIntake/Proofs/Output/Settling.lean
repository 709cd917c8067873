import SyslogIntake.Proofs.Output.Delivery

/-!
# The writer does its work

As long as no write fails, the writer of an output can empty the queue and flush what it has
taken, whatever it is about; so nobody who waits for room waits for ever.  An output that settles,
or takes a record, with nobody else around, goes through a course of such events.

**Results.**

* `exists_sent` : wherever the writer is, it can go on until a record is taken;
* `exists_finished` : once nobody sends any more, it can go on until it has finished;
* `step_fail_of_full` : how it stops;
* `settle_run`, `deliver_run` : how an output settles, and how a message is handed on to it.
-/

namespace SyslogIntake
namespace Traffic

variable {earlier : Octets} {t : Traffic} {id : Nat} {s : Sender} {record : Record}

/-- The writer does one thing after the other. -/
def works (t : Traffic) (work : List Work) : Traffic :=
  t.run (work.map .work)

theorem works_append
    (t : Traffic)
    (work more : List Work) :
    t.works (work ++ more) = (t.works work).works more := by
  rw [works, List.map_append, run_append]
  rfl

theorem works_same
    (t : Traffic)
    (work : List Work) :
    (t.works work).senders = t.senders ∧ (t.works work).log = t.log ∧
      (t.works work).spare = t.spare ∧
      (t.works work).service.counters = t.service.counters := by
  induction work generalizing t with
  | nil => exact ⟨rfl, rfl, rfl, rfl⟩
  | cons what work ih =>
      have hstep : (t.step (.work what)).senders = t.senders ∧
          (t.step (.work what)).log = t.log ∧ (t.step (.work what)).spare = t.spare ∧
          (t.step (.work what)).service.counters = t.service.counters := by
        rw [step]
        split
        · exact same_write t what
        · exact ⟨rfl, rfl, rfl, rfl⟩
      obtain ⟨hsenders, hlog, hspare, hcounters⟩ := hstep
      obtain ⟨hsenders', hlog', hspare', hcounters'⟩ := ih (t.step (.work what))
      exact ⟨hsenders'.trans hsenders, hlog'.trans hlog, hspare'.trans hspare,
        hcounters'.trans hcounters⟩

/-- Taking the records of the queue one by one is collecting them. -/
theorem works_take
    {records : List Record}
    (hqueue : t.sink.queue = records)
    (hrunning : t.sink.isRunning = true)
    (hwriter : t.writer = .waiting ∨ t.writer = .taking) :
    (t.works (List.replicate records.length .take)).sink = t.sink.collect ∧
      (t.works (List.replicate records.length .take)).spilled = t.spilled ∧
      (t.works (List.replicate records.length .take)).writer =
        if records = [] then t.writer else .taking := by
  induction records generalizing t with
  | nil =>
      refine ⟨?_, rfl, rfl⟩
      change t.sink = t.sink.collect
      rw [Sink.collect, hqueue, List.append_nil, ← hqueue]
  | cons record records ih =>
      have htake : t.step (.work .take) =
          { t.withSink t.sink.takeOne with
            writer := .taking
            received := t.received ++ t.sink.queue.take 1 } := by
        rw [step, if_pos hrunning]
        exact if_pos ⟨hwriter, hqueue ▸ List.cons_ne_nil record records⟩
      have hsink : (t.step (.work .take)).sink = t.sink.takeOne := by rw [htake]; rfl
      have hspilled : (t.step (.work .take)).spilled = t.spilled := by rw [htake]; rfl
      have hnext : (t.step (.work .take)).writer = .taking := by rw [htake]
      have hcollect : t.sink.takeOne.collect = t.sink.collect := by
        rw [Sink.collect, Sink.takeOne, Sink.collect, hqueue]
        simp
      have hrest := ih (t := t.step (.work .take))
        (by rw [hsink, Sink.takeOne, hqueue]; rfl) (by rw [hsink]; exact hrunning) (.inr hnext)
      rw [hsink, hspilled, hnext, hcollect, ite_self] at hrest
      exact hrest

theorem fits_of_room
    {m : Medium}
    (hroom : m.room = none)
    (text : Octets) :
    m.fits text = true := by
  rw [Medium.fits, hroom]

/-- A flush that is under way can be brought to its end. -/
theorem works_flush
    (hrunning : t.sink.isRunning = true)
    (hroom : t.sink.medium.room = none)
    (hspilled : t.spilled ≤ t.sink.pending.length)
    (hwriter : t.writer = .flushing) :
    t.works [.spill (t.sink.pending.length - t.spilled), .settle] =
      { t.withSink t.sink.flush with
        writer := .waiting
        spilled := 0 } := by
  have hall : t.spilled + (t.sink.pending.length - t.spilled) = t.sink.pending.length :=
    Nat.add_sub_of_le hspilled
  have hspill : t.step (.work (.spill (t.sink.pending.length - t.spilled))) =
      { t with spilled := t.sink.pending.length } := by
    rw [step, if_pos hrunning, write, spill, hall,
      if_pos ⟨Nat.le_refl _, fits_of_room hroom _⟩]
  have hsettle : ({ t with spilled := t.sink.pending.length } : Traffic).step (.work .settle) =
      ({ t with spilled := t.sink.pending.length } : Traffic).flushed .waiting := by
    refine (if_pos hrunning).trans ?_
    rw [write, settle, hwriter]
  calc t.works [.spill (t.sink.pending.length - t.spilled), .settle]
      = (t.step (.work (.spill (t.sink.pending.length - t.spilled)))).step (.work .settle) := rfl
    _ = ({ t with spilled := t.sink.pending.length } : Traffic).flushed .waiting := by
        rw [hspill, hsettle]
    _ = { t.withSink t.sink.flush with writer := .waiting, spilled := 0 } := if_pos rfl

theorem flush_of_room
    {sink : Sink}
    (hroom : sink.medium.room = none) :
    sink.flush.stopped = sink.stopped ∧ sink.flush.medium.room = none := by
  refine ⟨if_pos (fits_of_room hroom _), ?_⟩
  rw [Sink.flush, Medium.write, hroom]

/-- The writer waits on an empty queue, and the output has room for everything. -/
structure Idle (capacity : Nat) (t : Traffic) : Prop where
  writer : t.writer = .waiting
  queue : t.sink.queue = []
  running : t.sink.isRunning = true
  room : t.sink.medium.room = none
  capacity : t.sink.capacity = capacity

/-- A flush leads to where the writer waits. -/
theorem waiting_of_flushing
    (h : t.Flow earlier)
    (hrunning : t.sink.isRunning = true)
    (hroom : t.sink.medium.room = none)
    (hwriter : t.writer = .flushing) :
    ∃ work, (t.works work).writer = .waiting ∧ (t.works work).sink = t.sink.flush ∧
      (t.works work).sink.isRunning = true ∧ (t.works work).sink.medium.room = none := by
  have hflush := works_flush hrunning hroom h.spilled hwriter
  obtain ⟨hstopped, hstill⟩ := flush_of_room hroom
  refine ⟨_, by rw [hflush], by rw [hflush]; rfl, ?_, ?_⟩
  · rw [hflush]
    change t.sink.flush.isRunning = true
    rwa [Sink.isRunning, hstopped]
  · rw [hflush]
    exact hstill

/-- A writer that takes records takes all of them, flushes, and waits. -/
theorem idle_of_taking
    (h : t.Flow earlier)
    (hrunning : t.sink.isRunning = true)
    (hroom : t.sink.medium.room = none)
    (hwriter : t.writer = .waiting ∨ t.writer = .taking) :
    ∃ work, (t.works work).Idle t.sink.capacity := by
  obtain ⟨hsink, -, hnext⟩ := works_take rfl hrunning hwriter
  have hflow : (t.works (List.replicate t.sink.queue.length .take)).Flow earlier := run_flow h _
  generalize List.replicate t.sink.queue.length Work.take = first at hsink hnext hflow
  have hqueue : (t.works first).sink.queue = [] := by rw [hsink]; rfl
  have hrun : (t.works first).sink.isRunning = true := by rw [hsink]; exact hrunning
  have hfree : (t.works first).sink.medium.room = none := by rw [hsink]; exact hroom
  have hcapacity : (t.works first).sink.capacity = t.sink.capacity := by rw [hsink]; rfl
  by_cases hwaiting : (t.works first).writer = .waiting
  · exact ⟨first, hwaiting, hqueue, hrun, hfree, hcapacity⟩
  have htaking : (t.works first).writer = .taking := by
    rw [hnext] at hwaiting ⊢
    split at hwaiting
    · rename_i hnone
      rw [if_pos hnone]
      exact hwriter.resolve_left hwaiting
    · rename_i hsome
      exact if_neg hsome
  have hdrain : (t.works first).works [.drain] = { t.works first with writer := .flushing } := by
    change (t.works first).step (.work .drain) = _
    rw [step, if_pos hrun]
    exact if_pos ⟨htaking, hqueue⟩
  have hdrained : ((t.works first).works [.drain]).Flow earlier := run_flow hflow _
  obtain ⟨second, hlast, hflushed, hstill, hopen⟩ := waiting_of_flushing hdrained
    (by rw [hdrain]; exact hrun) (by rw [hdrain]; exact hfree) (by rw [hdrain])
  refine ⟨(first ++ [.drain]) ++ second, ?_⟩
  rw [works_append, works_append]
  refine ⟨hlast, ?_, hstill, hopen, ?_⟩
  · rw [hflushed, hdrain]
    exact hqueue
  · rw [hflushed, hdrain]
    exact hcapacity

/-- Unless the writer is about to finish, it can go on until it waits on an empty queue. -/
theorem exists_idle
    (h : t.Flow earlier)
    (hrunning : t.sink.isRunning = true)
    (hroom : t.sink.medium.room = none)
    (hopen : ¬ (t.writer = .closing ∨ t.writer = .finished)) :
    ∃ work, (t.works work).Idle t.sink.capacity := by
  cases hwriter : t.writer with
  | waiting => exact idle_of_taking h hrunning hroom (.inl hwriter)
  | taking => exact idle_of_taking h hrunning hroom (.inr hwriter)
  | flushing =>
      obtain ⟨first, hwaiting, hsink, hrun, hfree⟩ := waiting_of_flushing h hrunning hroom hwriter
      obtain ⟨second, hidle⟩ := idle_of_taking (run_flow h _) hrun hfree (.inl hwaiting)
      refine ⟨first ++ second, ?_⟩
      rw [works_append]
      change Idle _ ((t.works first).works second) at hidle
      have hcapacity : (t.works first).sink.capacity = t.sink.capacity := by rw [hsink]; rfl
      exact hcapacity ▸ hidle
  | closing => exact absurd (.inl hwriter) hopen
  | finished => exact absurd (.inr hwriter) hopen

/-- Once every clone of the output is gone, the writer can go on until it has finished. -/
theorem exists_finished
    (h : t.Flow earlier)
    (hrunning : t.sink.isRunning = true)
    (hroom : t.sink.medium.room = none)
    (habandoned : t.Abandoned) :
    ∃ work, (t.works work).writer = .finished := by
  have hclosing : ∀ {t : Traffic}, t.Flow earlier → t.sink.isRunning = true →
      t.writer = .closing → (t.works [.settle]).writer = .finished := by
    intro t h hrunning hwriter
    have hpending : t.sink.pending = [] := by
      rw [Sink.pending, h.flushed (by simp [hwriter]) (by simp [hwriter])]
      rfl
    have hspilled : t.spilled = t.sink.pending.length := by
      have hle := h.spilled
      rw [hpending] at hle ⊢
      exact Nat.eq_zero_of_le_zero hle
    have hsettle : t.works [.settle] = t.flushed .finished := by
      refine (if_pos hrunning).trans ?_
      rw [write, settle, hwriter]
    rw [hsettle, flushed, if_pos hspilled]
  by_cases hover : t.writer = .closing ∨ t.writer = .finished
  · rcases hover with hwriter | hwriter
    · exact ⟨_, hclosing h hrunning hwriter⟩
    · exact ⟨[], hwriter⟩
  obtain ⟨first, hidle⟩ := exists_idle h hrunning hroom hover
  obtain ⟨hsenders, -, hspare, -⟩ := works_same t first
  have hgone : (t.works first).Abandoned := by
    rw [Abandoned, hsenders, hspare]
    exact habandoned
  have hfinish : (t.works first).works [.finish] = { t.works first with writer := .closing } :=
    (if_pos hidle.running).trans (if_pos ⟨hidle.writer, hidle.queue, hgone⟩)
  refine ⟨(first ++ [.finish]) ++ [.settle], ?_⟩
  rw [works_append, works_append]
  refine hclosing (run_flow (run_flow h _) _) ?_ ?_
  · rw [hfinish]
    exact hidle.running
  · rw [hfinish]

theorem send_of_room
    (hrunning : t.sink.isRunning = true)
    (hroom : t.sink.hasRoom = true)
    (hsending : t.sending? id = some record) :
    t.step (.call (.send id)) = t.accept id record := by
  rw [step, obey, send, hsending]
  dsimp only
  rw [if_pos hrunning, if_pos hroom]

/-- Nobody waits for room for ever: the writer can go on until the record is taken. -/
theorem exists_sent
    (h : t.Flow earlier)
    (hrunning : t.sink.isRunning = true)
    (hroom : t.sink.medium.room = none)
    (hcapacity : 0 < t.sink.capacity)
    (hsending : t.sending? id = some record) :
    ∃ work, ((t.works work).step (.call (.send id))).log = t.log ++ [(id, record)] := by
  obtain ⟨s, hs, hstage⟩ := exists_of_sending? hsending
  have hopen : ¬ (t.writer = .closing ∨ t.writer = .finished) := fun hover =>
    not_abandoned hs (by simp [hstage]) (h.ceased hover).2
  obtain ⟨work, hidle⟩ := exists_idle h hrunning hroom hopen
  obtain ⟨hsenders, hlog, -⟩ := works_same t work
  refine ⟨work, ?_⟩
  have hfree : (t.works work).sink.hasRoom = true := by
    rw [Sink.hasRoom, hidle.queue, hidle.capacity]
    exact decide_eq_true hcapacity
  have hstill : (t.works work).sending? id = some record := by
    rw [sending?, hsenders]
    exact hsending
  rw [send_of_room hidle.running hfree hstill, ← hlog]
  rfl

/-- Nothing is under way that would not wait for somebody else: the writer waits for records, or
for the end of a flush. -/
structure Resting (t : Traffic) : Prop where
  spilled : t.spilled = 0
  writer : t.writer = if t.sink.collected = [] then .waiting else .flushing

/-- The writer takes what is in the queue, and finds it empty. -/
theorem collect_run
    (h : t.Resting)
    (hrunning : t.sink.isRunning = true)
    (hcollected : t.sink.collected = []) :
    ∃ work, (t.works work).sink = t.sink.collect ∧ (t.works work).Resting := by
  have hwaiting : t.writer = .waiting := by rw [h.writer, if_pos hcollected]
  cases hqueue : t.sink.queue with
  | nil =>
      refine ⟨[], ?_, h⟩
      change t.sink = t.sink.collect
      rw [Sink.collect, hqueue, List.append_nil, ← hqueue]
  | cons record records =>
      obtain ⟨hsink, hspilled, hwriter⟩ := works_take hqueue hrunning (.inl hwaiting)
      rw [if_neg (List.cons_ne_nil record records)] at hwriter
      generalize List.replicate (record :: records).length Work.take = first
        at hsink hspilled hwriter
      have hempty : (t.works first).sink.queue = [] := by rw [hsink]; rfl
      have hdrain : t.works (first ++ [.drain]) =
          { t.works first with writer := .flushing } := by
        rw [works_append]
        change (t.works first).step (.work .drain) = _
        rw [step, if_pos (by rw [hsink]; exact hrunning)]
        exact if_pos ⟨hwriter, hempty⟩
      refine ⟨first ++ [.drain], by rw [hdrain]; exact hsink, ?_, ?_⟩
      · rw [hdrain]
        exact hspilled.trans h.spilled
      · have hsome : (t.works first).sink.collected ≠ [] := by
          rw [hsink, Sink.collect, hcollected, hqueue]
          exact List.cons_ne_nil record records
        rw [hdrain]
        exact (if_neg hsome).symm

theorem flush_run
    (h : t.Resting)
    (hrunning : t.sink.isRunning = true)
    (hroom : t.sink.medium.room = none) :
    ∃ work, (t.works work).sink = t.sink.flush ∧ (t.works work).Resting := by
  by_cases hcollected : t.sink.collected = []
  · refine ⟨[], ?_, h⟩
    have hpending : t.sink.pending = [] := by rw [Sink.pending, hcollected]; rfl
    have hmedium : t.sink.medium.write [] = t.sink.medium := by
      rw [Medium.write, hroom]
      exact congr (congrArg Medium.mk (List.append_nil _)) hroom.symm
    change t.sink = t.sink.flush
    rw [Sink.flush, hpending, hmedium, if_pos (fits_of_room hroom _), ← hcollected]
  · have hflushing : t.writer = .flushing := by rw [h.writer, if_neg hcollected]
    have hflush := works_flush hrunning hroom (by rw [h.spilled]; exact Nat.zero_le _) hflushing
    exact ⟨_, by rw [hflush]; rfl, by rw [hflush], by rw [hflush]; rfl⟩

/-- Flushing twice comes to the same as flushing once. -/
theorem flush_collect_flush
    {sink : Sink}
    (hroom : sink.medium.room = none) :
    sink.flush.collect.flush = sink.collect.flush := by
  rcases sink with ⟨path, capacity, queue, collected, ⟨text, room⟩, stopped⟩
  obtain rfl : room = none := hroom
  simp [Sink.flush, Sink.collect, Sink.pending, Medium.write, Medium.fits]

/-- A flush for which there is no room is a write that fails. -/
theorem step_fail_of_full
    (hrunning : t.sink.isRunning = true)
    (hfull : t.sink.medium.fits t.sink.pending = false)
    (hspilled : t.spilled ≤ t.sink.pending.length)
    (hwriter : t.writer = .flushing) :
    (t.step (.work (.fail (t.sink.pending.length - t.spilled) Sink.noRoomReport))).sink =
      t.sink.flush := by
  have hall : t.spilled + (t.sink.pending.length - t.spilled) = t.sink.pending.length :=
    Nat.add_sub_of_le hspilled
  rw [step, if_pos hrunning, write, fail, hwriter]
  change t.sink.halt (t.spilled + (t.sink.pending.length - t.spilled)) Sink.noRoomReport = _
  rw [hall, Sink.halt, Sink.flush, List.take_length, hfull]
  rfl

/-- The output settles by a course of events. -/
theorem settle_run
    (h : t.Resting)
    (hrunning : t.sink.isRunning = true)
    (hroom : t.sink.medium.room = none) :
    ∃ work, (t.works work).sink = t.sink.settle ∧ (t.works work).Resting := by
  obtain ⟨first, hfirst, hresting⟩ := flush_run h hrunning hroom
  obtain ⟨hstopped, hstill⟩ := flush_of_room hroom
  have hrun : t.sink.flush.isRunning = true := by rwa [Sink.isRunning, hstopped]
  obtain ⟨second, hsecond, hgathered⟩ :=
    collect_run hresting (by rw [hfirst]; exact hrun) (by rw [hfirst]; rfl)
  rw [← works_append, hfirst] at hsecond
  rw [← works_append] at hgathered
  obtain ⟨third, hthird, hsettled⟩ :=
    flush_run hgathered (by rw [hsecond]; exact hrun) (by rw [hsecond]; exact hstill)
  rw [← works_append, hsecond, flush_collect_flush hroom] at hthird
  rw [← works_append] at hsettled
  refine ⟨_, ?_, hsettled⟩
  rw [hthird, Sink.settle, if_pos hrunning]

/-- The output makes room, if it has none, by a course of events. -/
theorem ready_run
    (h : t.Resting)
    (hrunning : t.sink.isRunning = true)
    (hroom : t.sink.medium.room = none)
    (hcapacity : 0 < t.sink.capacity) :
    ∃ work, (t.works work).sink = t.sink.ready ∧ (t.works work).Resting ∧
      t.sink.ready.isRunning = true ∧ t.sink.ready.hasRoom = true := by
  by_cases hfull : t.sink.hasRoom = true
  · have hready : t.sink.ready = t.sink := if_neg (by simp [hfull])
    exact ⟨[], hready.symm, h, hready.symm ▸ hrunning, hready.symm ▸ hfull⟩
  have hready : t.sink.ready = t.sink.makeRoom := if_pos (by simp [hrunning, hfull])
  have hempty : ∀ sink : Sink, sink.capacity = t.sink.capacity →
      sink.collect.hasRoom = true := by
    intro sink hsame
    exact decide_eq_true (hsame ▸ hcapacity)
  by_cases hcollected : t.sink.collected = []
  · obtain ⟨work, hwork, hresting⟩ := collect_run h hrunning hcollected
    have hmake : t.sink.makeRoom = t.sink.collect := if_pos (by simp [hcollected])
    rw [hready, hmake]
    exact ⟨work, hwork, hresting, hrunning, hempty _ rfl⟩
  · obtain ⟨first, hfirst, hflushed⟩ := flush_run h hrunning hroom
    obtain ⟨hstopped, -⟩ := flush_of_room hroom
    have hrun : t.sink.flush.isRunning = true := by rwa [Sink.isRunning, hstopped]
    obtain ⟨second, hsecond, hresting⟩ :=
      collect_run hflushed (by rw [hfirst]; exact hrun) (by rw [hfirst]; rfl)
    have hmake : t.sink.makeRoom = t.sink.flush.collect := by
      rw [Sink.makeRoom, if_neg (by simp [hcollected]), if_pos hrun]
    rw [← works_append, hfirst] at hsecond
    rw [← works_append] at hresting
    rw [hready, hmake]
    exact ⟨_, hsecond, hresting, hrun, hempty _ rfl⟩

/-- A message is handed on to the output by a course of events: it is decoded, the writer makes
room if there is none, the record is taken, and it is counted. -/
theorem deliver_run
    {serving : Serving}
    (h : t.Resting)
    (hservice : t.service = serving.service)
    (hrunning : t.sink.isRunning = true)
    (hroom : t.sink.medium.room = none)
    (hcapacity : 0 < t.sink.capacity)
    (hs : t.senders[id]? = some s)
    (hstage : s.stage = .reading)
    (frame : Frame) :
    ∃ work,
      let record := Record.ofFrame frame (Serving.onFrame frame serving.connection)
      let after := ((((t.step (.call (.decode id record))).works work).step
        (.call (.send id))).step (.call (.count id)))
      (serving.deliver frame).1 = .ok () ∧
        after.service = (serving.deliver frame).2.service ∧ after.Resting := by
  generalize hrecord : Record.ofFrame frame (Serving.onFrame frame serving.connection) = record
  have hdecoded : (t.step (.call (.decode id record))).Resting := ⟨h.spilled, h.writer⟩
  obtain ⟨work, hready, hresting, hrun, hfree⟩ := ready_run hdecoded hrunning hroom hcapacity
  obtain ⟨hsenders, -, -, hcounters⟩ := works_same (t.step (.call (.decode id record))) work
  refine ⟨work, ?_⟩
  dsimp only
  generalize (t.step (.call (.decode id record))).works work = made at *
  have hsender : made.senders[id]? = some (s.decode record) := by
    rw [hsenders]
    change (t.senders.modify id (.decode record))[id]? = _
    rw [List.getElem?_modify, hs]
    simp
  have hsending : made.sending? id = some record := by
    rw [sending?, hsender, Sender.decode, hstage]
    rfl
  have hready : made.sink = t.sink.ready := hready
  have hsend : made.step (.call (.send id)) = made.accept id record :=
    send_of_room (by rw [hready]; exact hrun) (by rw [hready]; exact hfree) hsending
  have hcount : (made.accept id record).step (.call (.count id)) =
      { (made.accept id record).change id .goOn with
        service := ⟨made.sink.enqueue record, made.service.counters.countRecord⟩ } := by
    refine if_pos ?_
    change ((made.senders.modify id (.accept record))[id]?.any Sender.isUncounted) = true
    rw [List.getElem?_modify, hsender]
    simp [Sender.isUncounted, Sender.accept]
  have hsent : t.sink.send record = (true, t.sink.ready.enqueue record) := if_pos hrun
  have hdeliver : (serving.deliver frame).1 = .ok () ∧ (serving.deliver frame).2.service =
      ⟨t.sink.ready.enqueue record, t.service.counters.countRecord⟩ := by
    rw [sink, hservice] at hsent
    rw [Serving.deliver, hrecord, hsent, hservice, sink, hservice]
    exact ⟨rfl, rfl⟩
  rw [hsend, hcount]
  refine ⟨hdeliver.1, ?_, ⟨hresting.spilled, hresting.writer⟩⟩
  rw [hdeliver.2, hready, hcounters]
  rfl

end Traffic
end SyslogIntake

import SyslogIntake.Proofs.Output.Books

/-!
# What reaches the medium

Everything that is put into the queue is taken off it in the same order, collected, and written,
and nothing else is.  A writer that waits has flushed everything that it has taken; one that has
finished has written everything that was sent.  Where a write fails, the medium holds the beginning
of that, and whoever tries to send is told.

**Results.**

* `Flow` : where the records are that were sent;
* `step_flow`, `run_flow` : no event disturbs it, and so no course of events does;
* `traffic_exact` : what becomes of the records that any number of connections send.
-/

namespace SyslogIntake

@[simp]
theorem Medium.fits_nil
    (m : Medium) :
    m.fits [] = true := by
  unfold fits
  cases m.room with
  | none => rfl
  | some room => simp

namespace Traffic

/-- The records that were sent are on the medium behind what was there earlier, collected, or in
the queue. -/
structure Flow (earlier : Octets) (t : Traffic) : Prop where
  queued : t.log.map Prod.snd = t.received ++ t.sink.queue
  held : t.sink.isRunning = true →
    t.sink.medium.text ++ t.sink.pending = earlier ++ t.received.flatMap Record.line
  stopped : t.sink.isRunning = false →
    t.sink.collected = [] ∧ t.sink.medium.text <+: earlier ++ t.received.flatMap Record.line
  spilled : t.spilled ≤ t.sink.pending.length
  fits : t.sink.medium.fits (t.sink.pending.take t.spilled) = true
  flushed : t.writer ≠ .taking → t.writer ≠ .flushing → t.sink.collected = []
  ceased : t.writer = .closing ∨ t.writer = .finished → t.sink.queue = [] ∧ t.Abandoned
  running : t.writer = .waiting ∨ t.writer = .finished → t.sink.isRunning = true

variable {earlier : Octets} {t next : Traffic} {id : Nat} {s : Sender} {record : Record}
  {f : Sender → Sender}

theorem flow_start
    {tree : FileTree} {path : String} {capacity : Nat} {sink : Sink}
    (h : Sink.openAt tree path capacity = .ok sink) :
    (start sink).Flow sink.medium.text := by
  unfold Sink.openAt at h
  split at h
  · cases h
  · cases h
    exact {
      queued := rfl
      held := fun _ => rfl
      stopped := by simp [start, Service.start, sink, Sink.isRunning]
      spilled := Nat.le_refl _
      fits := Medium.fits_nil _
      flushed := fun _ _ => rfl
      ceased := by simp [start]
      running := fun _ => rfl }

/-- What only concerns the connections leaves the records where they are. -/
theorem Flow.of_same
    (h : t.Flow earlier)
    (hsink : next.sink = t.sink)
    (hwriter : next.writer = t.writer)
    (hspilled : next.spilled = t.spilled)
    (hreceived : next.received = t.received)
    (hlog : next.log = t.log)
    (habandoned : t.Abandoned → next.Abandoned) :
    next.Flow earlier where
  queued := by rw [hlog, hreceived, hsink]; exact h.queued
  held := by rw [hsink, hreceived]; exact h.held
  stopped := by rw [hsink, hreceived]; exact h.stopped
  spilled := by rw [hspilled, hsink]; exact h.spilled
  fits := by rw [hspilled, hsink]; exact h.fits
  flushed := by rw [hwriter, hsink]; exact h.flushed
  ceased hover := by
    rw [hwriter] at hover
    rw [hsink]
    exact ⟨(h.ceased hover).1, habandoned (h.ceased hover).2⟩
  running := by rw [hwriter, hsink]; exact h.running

theorem not_abandoned
    (hs : t.senders[id]? = some s)
    (hstage : s.stage ≠ .gone) :
    ¬ t.Abandoned :=
  fun h => hstage (h.2 s (List.mem_of_getElem? hs))

/-- A connection that is gone does nothing any more. -/
theorem abandoned_change
    (hgone : ∀ s, s.stage = .gone → (f s).stage = .gone)
    (h : t.Abandoned) :
    (t.change id f).Abandoned := by
  refine ⟨h.1, fun next hnext => ?_⟩
  obtain ⟨place, hplace⟩ := List.mem_iff_getElem?.1 hnext
  rcases cases_of_change hplace with ⟨-, hsame⟩ | ⟨-, s, hs, rfl⟩
  · exact h.2 next (List.mem_of_getElem? hsame)
  · exact hgone s (h.2 s (List.mem_of_getElem? hs))

theorem flow_accept
    (h : t.Flow earlier)
    (hopen : ¬ t.Abandoned) :
    (t.accept id record).Flow earlier := by
  refine { h with queued := ?_, ceased := fun hover => absurd (h.ceased hover).2 hopen }
  change (t.log ++ [(id, record)]).map Prod.snd = t.received ++ (t.sink.queue ++ [record])
  rw [List.map_append, h.queued, List.append_assoc]
  rfl

theorem flow_send
    (h : t.Flow earlier) :
    (t.send id).Flow earlier := by
  unfold send
  split
  · exact h
  · rename_i record hsending
    obtain ⟨s, hs, hstage⟩ := exists_of_sending? hsending
    have hopen : ¬ t.Abandoned := not_abandoned hs (by simp [hstage])
    split
    · split
      · exact flow_accept h hopen
      · exact h
    · exact h.of_same rfl rfl rfl rfl rfl fun habandoned => absurd habandoned hopen

theorem flow_count
    (h : t.Flow earlier) :
    (t.count id).Flow earlier := by
  unfold count
  split
  · rename_i hsome
    obtain ⟨s, hs, huncounted⟩ := (Option.any_eq_true ..).1 hsome
    have hopen : ¬ t.Abandoned :=
      not_abandoned hs (by simp [Sender.stage_of_isUncounted huncounted])
    exact h.of_same rfl rfl rfl rfl rfl fun habandoned => absurd habandoned hopen
  · exact h

theorem flow_obey
    (h : t.Flow earlier)
    (what : Call) :
    (t.obey what).Flow earlier := by
  cases what with
  | join =>
      rw [obey, join]
      split
      · exact h
      · rename_i hspare
        exact h.of_same rfl rfl rfl rfl rfl fun habandoned => absurd habandoned.1 hspare
  | copy =>
      rw [obey, copy]
      split
      · exact h
      · rename_i hspare
        exact h.of_same rfl rfl rfl rfl rfl fun habandoned => absurd habandoned.1 hspare
  | drop =>
      refine h.of_same rfl rfl rfl rfl rfl fun habandoned => ⟨?_, habandoned.2⟩
      exact Nat.sub_eq_zero_of_le (Nat.le_trans (Nat.le_of_eq habandoned.1) (Nat.zero_le 1))
  | decode id record =>
      refine h.of_same rfl rfl rfl rfl rfl (abandoned_change fun s hgone => ?_)
      rw [Sender.decode, hgone]
      exact hgone
  | send id => exact flow_send h
  | count id => exact flow_count h
  | leave id =>
      refine h.of_same rfl rfl rfl rfl rfl (abandoned_change fun s hgone => ?_)
      rw [Sender.leave, hgone]

/-- A record that the writer takes moves from the front of the queue to what is collected. -/
theorem flow_take
    (h : t.Flow earlier)
    (hrunning : t.sink.isRunning = true) :
    t.take.Flow earlier := by
  unfold take
  split
  case isFalse => exact h
  rename_i hready
  obtain ⟨record, rest, hqueue⟩ := List.exists_cons_of_ne_nil hready.2
  have hone : t.sink.queue.take 1 = [record] := by rw [hqueue]; rfl
  have hpending : t.sink.takeOne.pending = t.sink.pending ++ record.line := by
    rw [Sink.pending, Sink.takeOne, hone, List.flatMap_append, List.flatMap_singleton]
    rfl
  refine {
    queued := ?_
    held := fun _ => ?_
    stopped := fun hstopped => absurd (hrunning.symm.trans hstopped) (by simp)
    spilled := ?_
    fits := ?_
    flushed := fun htaking => absurd rfl htaking
    ceased := by simp
    running := by simp }
  · change t.log.map Prod.snd = (t.received ++ t.sink.queue.take 1) ++ t.sink.queue.tail
    rw [h.queued, hone, hqueue, List.append_assoc]
    rfl
  · change t.sink.medium.text ++ t.sink.takeOne.pending =
      earlier ++ (t.received ++ t.sink.queue.take 1).flatMap Record.line
    rw [hpending, hone, ← List.append_assoc, h.held hrunning, List.flatMap_append,
      List.flatMap_singleton, List.append_assoc]
  · change t.spilled ≤ t.sink.takeOne.pending.length
    rw [hpending, List.length_append]
    exact Nat.le_add_right_of_le h.spilled
  · change t.sink.medium.fits (t.sink.takeOne.pending.take t.spilled) = true
    rw [hpending, List.take_append_of_le_length h.spilled]
    exact h.fits

theorem flow_flushed
    {after : Writer}
    (h : t.Flow earlier)
    (hrunning : t.sink.isRunning = true)
    (hafter : after = .waiting ∨ after = .finished)
    (hover : after = .finished → t.sink.queue = [] ∧ t.Abandoned) :
    (t.flushed after).Flow earlier ∨ t.flushed after = t := by
  unfold flushed
  split
  case isFalse => exact .inr rfl
  rename_i hwhole
  have hfits : t.sink.medium.fits t.sink.pending = true := by
    have hfits := h.fits
    rwa [hwhole, List.take_length] at hfits
  have hstill : t.sink.flush.isRunning = true := by
    rw [Sink.isRunning, Sink.flush, if_pos hfits]
    exact hrunning
  have htext : t.sink.flush.medium.text = earlier ++ t.received.flatMap Record.line := by
    rw [← h.held hrunning]
    exact Medium.write_of_fits hfits
  refine .inl { h with
    held := fun _ => (List.append_nil _).trans htext
    stopped := fun hstopped => absurd (hstill.symm.trans hstopped) (by simp)
    spilled := Nat.zero_le _
    fits := Medium.fits_nil _
    flushed := fun _ _ => rfl
    ceased := fun hclosing => ?_
    running := fun _ => hstill }
  rcases hafter with rfl | rfl
  · exact absurd hclosing (by simp)
  · exact hover rfl

/-- Where a write fails, nothing has been written but what the writer has taken. -/
theorem flow_fail
    (h : t.Flow earlier)
    (hrunning : t.sink.isRunning = true)
    (n : Nat)
    (report : String) :
    (t.fail n report).Flow earlier := by
  have hhalted : t.writer ≠ .waiting → t.writer ≠ .finished →
      Flow earlier
        { t.withSink (t.sink.halt (t.spilled + n) report) with spilled := 0 } := by
    intro hwaiting hfinished
    refine { h with
      held := by simp [withSink, sink, Sink.halt, Sink.isRunning]
      stopped := fun _ => ⟨rfl, ?_⟩
      spilled := Nat.zero_le _
      fits := Medium.fits_nil _
      flushed := fun _ _ => rfl
      running := fun hwriter => absurd hwriter (not_or.2 ⟨hwaiting, hfinished⟩) }
    obtain ⟨more, htext, hmore⟩ :=
      Medium.write_prefix (t.sink.pending.take (t.spilled + n)) t.sink.medium
    change (t.sink.medium.write _).text <+: earlier ++ t.received.flatMap Record.line
    rw [htext, ← h.held hrunning]
    exact List.prefix_append_right_inj _ |>.2 (hmore.trans (List.take_prefix ..))
  unfold fail
  split
  · rename_i hwriter
    exact hhalted (by simp [hwriter]) (by simp [hwriter])
  · rename_i hwriter
    exact hhalted (by simp [hwriter]) (by simp [hwriter])
  · rename_i hwriter
    exact hhalted (by simp [hwriter]) (by simp [hwriter])
  · exact h
  · exact h

theorem flow_write
    (h : t.Flow earlier)
    (hrunning : t.sink.isRunning = true)
    (what : Work) :
    (t.write what).Flow earlier := by
  cases what with
  | take => exact flow_take h hrunning
  | drain =>
      rw [write, drain]
      split
      · exact { h with
          flushed := fun _ hwriter => absurd rfl hwriter
          ceased := by simp
          running := by simp }
      · exact h
  | finish =>
      rw [write, finish]
      split
      · rename_i hready
        have hcollected : t.sink.collected = [] :=
          h.flushed (by simp [hready.1]) (by simp [hready.1])
        exact { h with
          flushed := fun _ _ => hcollected
          ceased := fun _ => hready.2
          running := by simp }
      · exact h
  | spill n =>
      rw [write, spill]
      split
      · rename_i hready
        exact { h with spilled := hready.1, fits := hready.2 }
      · exact h
  | settle =>
      rw [write, settle]
      split
      · rcases flow_flushed h hrunning (.inl rfl) (by simp) with hflow | hsame
        · exact hflow
        · rwa [hsame]
      · rename_i hwriter
        rcases flow_flushed h hrunning (.inr rfl) fun _ => h.ceased (.inl hwriter) with
          hflow | hsame
        · exact hflow
        · rwa [hsame]
      all_goals exact h
  | fail n report => exact flow_fail h hrunning n report

theorem step_flow
    (h : t.Flow earlier)
    (event : Event) :
    (t.step event).Flow earlier := by
  cases event with
  | call what => exact flow_obey h what
  | work what =>
      by_cases hrunning : t.sink.isRunning = true
      · rw [step, if_pos hrunning]
        exact flow_write h hrunning what
      · rw [step, if_neg hrunning]
        exact h

theorem run_flow
    (h : t.Flow earlier)
    (events : List Event) :
    (t.run events).Flow earlier := by
  induction events generalizing t with
  | nil => exact h
  | cons event events ih => exact ih (step_flow h event)

/-- What the medium holds is what was flushed and what has been spilled since. -/
theorem Flow.text_eq
    (h : t.Flow earlier) :
    t.text = t.sink.medium.text ++ t.sink.pending.take t.spilled :=
  Medium.write_of_fits h.fits

/-- A writer with nothing in its hands has written what it has taken. -/
theorem Flow.text_of_flushed
    (h : t.Flow earlier)
    (hrunning : t.sink.isRunning = true)
    (hcollected : t.sink.collected = []) :
    t.text = earlier ++ t.received.flatMap Record.line := by
  have hpending : t.sink.pending = [] := by rw [Sink.pending, hcollected]; rfl
  have hheld := h.held hrunning
  rw [hpending] at hheld
  rw [h.text_eq, hpending, List.take_nil]
  exact hheld

/-- The medium holds the beginning of what was sent, behind what was there earlier. -/
theorem Flow.text_prefix
    (h : t.Flow earlier) :
    t.text <+: earlier ++ (t.log.map Prod.snd).flatMap Record.line := by
  have hreceived : earlier ++ t.received.flatMap Record.line <+:
      earlier ++ (t.log.map Prod.snd).flatMap Record.line := by
    rw [h.queued, List.flatMap_append, ← List.append_assoc]
    exact List.prefix_append ..
  refine List.IsPrefix.trans ?_ hreceived
  rw [h.text_eq]
  by_cases hrunning : t.sink.isRunning = true
  · rw [← h.held hrunning]
    exact List.prefix_append_right_inj _ |>.2 (List.take_prefix ..)
  · obtain ⟨hcollected, hprefix⟩ := h.stopped (Bool.eq_false_iff.2 hrunning)
    have hpending : t.sink.pending = [] := by rw [Sink.pending, hcollected]; rfl
    rwa [hpending, List.take_nil, List.append_nil]

/-- A write that fails stops the writer, whether it collects, flushes or is about to finish. -/
theorem isRunning_fail
    (hwriter : t.writer = .taking ∨ t.writer = .flushing ∨ t.writer = .closing)
    (n : Nat)
    (report : String) :
    (t.step (.work (.fail n report))).sink.isRunning = false := by
  by_cases hrunning : t.sink.isRunning = true
  · rw [step, if_pos hrunning, write, fail]
    rcases hwriter with hwriter | hwriter | hwriter <;> rw [hwriter] <;> rfl
  · rw [step, if_neg hrunning]
    exact Bool.eq_false_iff.2 hrunning

/-- Behind a writer that has stopped nothing is sent any more. -/
theorem step_stopped
    (hstopped : t.sink.isRunning = false)
    (event : Event) :
    (t.step event).sink = t.sink ∧ (t.step event).spilled = t.spilled ∧
      (t.step event).log = t.log := by
  have hnot : ¬ t.sink.isRunning = true := Bool.eq_false_iff.1 hstopped
  cases event with
  | work what =>
      rw [step, if_neg hnot]
      exact ⟨rfl, rfl, rfl⟩
  | call what =>
      cases what with
      | join => rw [step, obey, join]; split <;> exact ⟨rfl, rfl, rfl⟩
      | copy => rw [step, obey, copy]; split <;> exact ⟨rfl, rfl, rfl⟩
      | drop => exact ⟨rfl, rfl, rfl⟩
      | decode id record => exact ⟨rfl, rfl, rfl⟩
      | send id =>
          rw [step, obey, send]
          split
          · exact ⟨rfl, rfl, rfl⟩
          · rw [if_neg hnot]
            exact ⟨rfl, rfl, rfl⟩
      | count id => rw [step, obey, count]; split <;> exact ⟨rfl, rfl, rfl⟩
      | leave id => exact ⟨rfl, rfl, rfl⟩

theorem run_stopped
    (hstopped : t.sink.isRunning = false)
    (events : List Event) :
    (t.run events).sink = t.sink ∧ (t.run events).spilled = t.spilled ∧
      (t.run events).log = t.log := by
  induction events generalizing t with
  | nil => exact ⟨rfl, rfl, rfl⟩
  | cons event events ih =>
      obtain ⟨hsink, hspilled, hlog⟩ := step_stopped hstopped event
      obtain ⟨hsinks, hspills, hlogs⟩ := ih (t := t.step event) (by rw [hsink]; exact hstopped)
      exact ⟨hsinks.trans hsink, hspills.trans hspilled, hlogs.trans hlog⟩

theorem send_of_stopped
    (hstopped : t.sink.isRunning = false)
    (hsending : t.sending? id = some record) :
    (t.send id).senders[id]?.map Sender.stage = some .refused := by
  obtain ⟨s, hs, hstage⟩ := exists_of_sending? hsending
  have hnot : ¬ t.sink.isRunning = true := Bool.eq_false_iff.1 hstopped
  rw [send, hsending]
  dsimp only
  rw [if_neg hnot, change, List.getElem?_modify, hs]
  simp [Sender.refuse]

/-- Once every clone is gone, every record that was taken is counted. -/
theorem Books.records_of_abandoned
    (h : t.Books)
    (habandoned : t.Abandoned) :
    t.service.counters.records = t.log.length := by
  have hnone : t.senders.countP Sender.isUncounted = 0 := by
    rw [List.countP_eq_zero]
    intro s hs huncounted
    have hgone := habandoned.2 s hs
    rw [Sender.stage_of_isUncounted huncounted] at hgone
    cases hgone
  rw [← h.counted, hnone, Nat.add_zero]

/--
Connections send through clones of an output while its writer works, and some of them are aborted,
in any order.  The records that were taken are taken off the queue in the order in which they were
put into it; those of one connection in the order of decoding.  A writer that waits has flushed
everything that it has taken.  Once it has finished every clone is gone, the medium holds what it
held earlier and all the records, each once, and they were counted.  At any time it holds the
beginning of that.  A write that fails stops the writer; from then on nothing is added, and whoever
sends is told.
-/
theorem traffic_exact
    {tree : FileTree} {path : String} {capacity : Nat} {sink : Sink}
    (hopen : Sink.openAt tree path capacity = .ok sink)
    (events : List Event) :
    let t := (start sink).run events
    let written := fun records : List Record => sink.medium.text ++ records.flatMap Record.line
    (t.writer = .finished → t.Abandoned ∧ t.text = written (t.log.map Prod.snd)) ∧
    (t.Abandoned → t.service.counters.records = t.log.length) ∧
    (∀ x ∈ t.log, x.1 < t.senders.length) ∧
    (∀ {id s}, t.senders[id]? = some s →
      s.accepted = sentBy id t.log ∧ s.accepted <+: s.decoded) ∧
    t.log.map Prod.snd = t.received ++ t.sink.queue ∧
    (t.writer = .waiting → t.text = written t.received) ∧
    t.text <+: written (t.log.map Prod.snd) ∧
    (t.writer = .taking ∨ t.writer = .flushing ∨ t.writer = .closing →
      ∀ n report, (t.step (.work (.fail n report))).sink.isRunning = false) ∧
    (t.sink.isRunning = false → ∀ more : List Event,
      let later := t.run more
      later.text = t.text ∧ later.log = t.log ∧
        ∀ {id record}, later.sending? id = some record →
          (later.step (.call (.send id))).senders[id]?.map Sender.stage = some .refused) := by
  intro t written
  have hbooks : t.Books := run_books (books_start sink) events
  have hflow : t.Flow sink.medium.text := run_flow (flow_start hopen) events
  refine ⟨fun hfinished => ?_, hbooks.records_of_abandoned, hbooks.known, fun hs => ?_,
    hflow.queued, fun hwaiting => ?_, hflow.text_prefix, isRunning_fail,
    fun hstopped more => ?_⟩
  · have hcollected : t.sink.collected = [] :=
      hflow.flushed (by simp [hfinished]) (by simp [hfinished])
    obtain ⟨hqueue, habandoned⟩ := hflow.ceased (.inr hfinished)
    have hall : t.log.map Prod.snd = t.received := by
      rw [hflow.queued, hqueue, List.append_nil]
    rw [hall]
    exact ⟨habandoned, hflow.text_of_flushed (hflow.running (.inr hfinished)) hcollected⟩
  · obtain ⟨hledger, hfaithful⟩ := hbooks.ledger hs
    exact ⟨hledger, hfaithful.accepted_prefix⟩
  · have hcollected : t.sink.collected = [] :=
      hflow.flushed (by simp [hwaiting]) (by simp [hwaiting])
    exact hflow.text_of_flushed (hflow.running (.inl hwaiting)) hcollected
  · obtain ⟨hsink, hspilled, hlog⟩ := run_stopped hstopped more
    have hlater : (t.run more).sink.isRunning = false := by rw [hsink]; exact hstopped
    refine ⟨?_, hlog, fun hsending => send_of_stopped hlater hsending⟩
    rw [text, hsink, hspilled, text]

/-- Two connections on a queue for one record; one of them is aborted while it waits for room.  On
a medium that gets full in the middle of a line, a record that comes later is refused. -/
theorem traffic_exact_two :
    let tree : FileTree := ⟨[(["out"], .file [120, 10])]⟩
    let record := fun b : UInt8 => Record.ofFrame ⟨none, [b]⟩
      (.accepted 1 (.v4 ⟨192, 0, 2, 1⟩ 5000) (.v4 ⟨192, 0, 2, 2⟩ 514))
    let events : List Event :=
      [.call .join, .call .join, .call (.decode 0 (record 97)), .call (.decode 1 (record 98)),
        .call (.send 0), .call (.send 1), .call (.count 0), .call (.decode 0 (record 99)),
        .work .take, .call (.send 1), .call (.send 0), .call (.leave 0), .call (.count 1),
        .work .take, .work (.spill 3), .call .drop, .call (.leave 1), .work .drain,
        .work (.spill 1), .work .settle, .work .finish, .work .settle]
    let taken : List Event :=
      [.call .join, .call (.decode 0 (record 97)), .call (.send 0), .call (.count 0),
        .work .take, .call (.decode 0 (record 98))]
    let full : Event := .work (.fail 1 "No space left on device")
    let sink : Sink := ⟨"out", 1, [], [], ⟨[120, 10], none⟩, none⟩
    Sink.openAt tree "out" 0 = .ok sink ∧
      ((start sink).run events).writer = .finished ∧
      ((start sink).run events).text =
        [120, 10] ++ [record 97, record 98].flatMap Record.line ∧
      ((start sink).run events).service.counters.records = 2 ∧
      ((start sink).run taken).writer = .taking ∧
      ((start sink).run (taken ++ [full])).text = [120, 10, 97] ∧
      (((start sink).run (taken ++ [full])).step (.call (.send 0))).senders[0]?.map
        Sender.stage = some .refused := by
  intro tree record events taken full sink
  have hopen : Sink.openAt tree "out" 0 = .ok sink := by decide +kernel
  obtain ⟨hfinished, hcounted, -⟩ := traffic_exact hopen events
  obtain ⟨habandoned, htext⟩ := hfinished (by decide +kernel)
  have htaking : ((start sink).run taken).writer = .taking := by decide +kernel
  obtain ⟨-, -, -, -, -, -, -, hfails, -⟩ := traffic_exact hopen taken
  have hfailed : ((start sink).run (taken ++ [full])).sink.isRunning = false := by
    rw [run_append]
    exact hfails (.inl htaking) 1 "No space left on device"
  obtain ⟨-, -, -, -, -, -, -, -, hstopped⟩ := traffic_exact hopen (taken ++ [full])
  obtain ⟨-, -, hrefused⟩ := hstopped hfailed []
  have hsending : ((start sink).run (taken ++ [full])).sending? 0 = some (record 98) := by
    decide +kernel
  exact ⟨hopen, by decide +kernel, htext.trans (by decide +kernel),
    (hcounted habandoned).trans (by decide +kernel), htaking, by decide +kernel,
    hrefused hsending⟩

end Traffic
end SyslogIntake

import SyslogIntake.Proofs.Connection.Survey
import SyslogIntake.Proofs.Framing.Searching
import SyslogIntake.Server.Service

/-!
# Handing messages on

Behind the stages the messages of a connection go to the output one by one, each at some
point in time, until there are no more or the output does not take one.  When exactly they
go does not show in what is handed on, except that the writer of the output may stop in the
meantime.

**Results.**

* `Serving.stream_hands` : the decoding of what a stream brings is handed on;
* `Hands.complete` : all of it, unless the writer has stopped;
* `Hands.front` : a part of it in any case;
* `Serving.run_hands` : so does a connection with what its stages leave.
-/

namespace SyslogIntake

namespace Progress

variable {σ : Type}

/-- The fault of a connection that failed. -/
def fault? : Progress σ → Option Fault
  | .failed fault => some fault
  | .closed | .waiting _ _ _ => none

theorem eq_of_fault?
    {progress : Progress σ} {fault : Fault}
    (h : progress.fault? = some fault) :
    progress = .failed fault := by
  cases progress with
  | closed => cases h
  | failed cause => rw [Option.some.inj h]
  | waiting limit search stream => cases h

theorem lapse_of_over
    {progress : Progress σ}
    (h : progress.isOver = true) :
    progress.lapse = progress := by
  cases progress with
  | closed | failed fault =>
      rfl
  | waiting limit search stream =>
      cases h

end Progress

namespace Serving

/-- What handing on a message comes to. -/
inductive Delivered (frame : Frame) (s : Serving) : Except Fault Unit → Serving → Prop
  | taken
      {after : Serving}
      (hsend : s.service.sink.send (.ofFrame frame (onFrame frame s.connection)) =
        (true, after.service.sink))
      (hconnection : after.connection = onFrame frame s.connection)
      (htime : after.time = s.time)
      (hhanded : after.handed = s.handed ++ [⟨frame, after.connection, true⟩])
      (hcounters : after.service.counters = s.service.counters.countRecord) :
      Delivered frame s (.ok ()) after
  | refused
      {after : Serving}
      (hsend : s.service.sink.send (.ofFrame frame (onFrame frame s.connection)) =
        (false, after.service.sink))
      (hconnection : after.connection = onFrame frame s.connection)
      (htime : after.time = s.time)
      (hhanded : after.handed = s.handed ++ [⟨frame, after.connection, false⟩])
      (hcounters : after.service.counters = s.service.counters) :
      Delivered frame s (.error .writerStopped) after

theorem delivered_of_deliver
    {frame : Frame} {s after : Serving} {result : Except Fault Unit}
    (h : s.deliver frame = (result, after)) :
    Delivered frame s result after := by
  unfold deliver at h
  dsimp only at h
  split at h
  · rename_i sink hsend
    simp only [Prod.mk.injEq] at h
    obtain ⟨rfl, rfl⟩ := h
    exact .taken hsend rfl rfl rfl rfl
  · rename_i sink hsend
    simp only [Prod.mk.injEq] at h
    obtain ⟨rfl, rfl⟩ := h
    exact .refused hsend rfl rfl rfl rfl

/-- Taken or not, the message is handed on over the connection as it is with it. -/
theorem Delivered.handed
    {frame : Frame} {s after : Serving} {result : Except Fault Unit}
    (h : Delivered frame s result after) :
    ∃ taken, after.handed = s.handed ++ [⟨frame, onFrame frame s.connection, taken⟩] ∧
      after.connection = onFrame frame s.connection := by
  cases h with
  | taken hsend hconnection htime hhanded hcounters =>
      exact ⟨true, hconnection ▸ hhanded, hconnection⟩
  | refused hsend hconnection htime hhanded hcounters =>
      exact ⟨false, hconnection ▸ hhanded, hconnection⟩

@[simp]
theorem goOn_connection
    (time : Nat)
    (s : Serving) :
    (s.goOn time).connection = s.connection := by
  unfold goOn
  split <;> rfl

@[simp]
theorem goOn_handed
    (time : Nat)
    (s : Serving) :
    (s.goOn time).handed = s.handed := by
  unfold goOn
  split <;> rfl

@[simp]
theorem goOn_counters
    (time : Nat)
    (s : Serving) :
    (s.goOn time).service.counters = s.service.counters := by
  unfold goOn
  split <;> rfl

@[simp]
theorem hear_connection
    (time : Nat)
    (search : Framing.Search)
    (s : Serving) :
    (s.hear time search).connection = s.connection :=
  goOn_connection time s

@[simp]
theorem hear_handed
    (time : Nat)
    (search : Framing.Search)
    (s : Serving) :
    (s.hear time search).handed = s.handed :=
  goOn_handed time s

@[simp]
theorem hear_counters
    (time : Nat)
    (search : Framing.Search)
    (s : Serving) :
    (s.hear time search).service.counters = s.service.counters :=
  goOn_counters time s

end Serving

/--
Messages are handed on, each not later than `due`, until there are no more or one is not
taken; then the connection ends with the fault behind the messages, or with that.
-/
inductive Hands (due : Nat) (fault : Option Fault) :
    List Frame → Serving → Option Fault → Serving → Prop
  | finished
      {s : Serving}
      {time : Nat}
      (search : Framing.Search)
      (htime : time ≤ due) :
      Hands due fault [] s fault (s.hear time search)
  | refused
      {frame : Frame}
      {frames : List Frame}
      {s after : Serving}
      {time : Nat}
      (search : Framing.Search)
      (htime : time ≤ due)
      (hdelivered : Serving.Delivered frame (s.hear time search) (.error .writerStopped) after) :
      Hands due fault (frame :: frames) s (some .writerStopped) after
  | taken
      {frame : Frame}
      {frames : List Frame}
      {s next after : Serving}
      {result : Option Fault}
      {time : Nat}
      (search : Framing.Search)
      (htime : time ≤ due)
      (hdelivered : Serving.Delivered frame (s.hear time search) (.ok ()) next)
      (hrest : Hands due fault frames next result after) :
      Hands due fault (frame :: frames) s result after

/-- What is handed on for messages that are all taken. -/
def Serving.handovers : List Frame → Connection → List Handover
  | [], _ => []
  | frame :: frames, c =>
      ⟨frame, onFrame frame c, true⟩ :: handovers frames (onFrame frame c)

theorem Serving.handovers_frame
    (frames : List Frame) (c : Connection) :
    (handovers frames c).map Handover.frame = frames := by
  induction frames generalizing c with
  | nil =>
      rfl
  | cons frame frames ih =>
      rw [handovers, List.map_cons, ih]

/-- What was handed on, be it taken or not. -/
def Handover.sent (handover : Handover) : Frame × Connection :=
  (handover.frame, handover.connection)

/-- A connection behind messages. -/
def Serving.behind (frames : List Frame) (c : Connection) : Connection :=
  frames.foldl (fun c frame => onFrame frame c) c

/-- The counters behind messages that are all taken. -/
def Counters.countRecords (frames : List Frame) (counters : Counters) : Counters :=
  frames.foldl (fun counters _ => counters.countRecord) counters

namespace Hands

variable {due : Nat} {fault result : Option Fault} {frames : List Frame} {s after : Serving}

/-- Unless the writer has stopped, all messages are handed on. -/
theorem complete
    (h : Hands due fault frames s result after)
    (hrunning : result ≠ some .writerStopped) :
    after.handed = s.handed ++ Serving.handovers frames s.connection ∧
      after.connection = Serving.behind frames s.connection ∧
      after.service.counters = s.service.counters.countRecords frames ∧
      result = fault := by
  induction h with
  | finished search htime =>
      simp [Serving.handovers, Serving.behind, Counters.countRecords]
  | refused search htime hdelivered =>
      exact absurd rfl hrunning
  | taken search htime hdelivered hrest ih =>
      obtain ⟨hhanded, hconnection, hcounters, hresult⟩ := ih hrunning
      cases hdelivered with
      | taken hsend hthis hsame hgiven hcounted =>
          simp only [Serving.hear_connection, Serving.hear_handed, Serving.hear_counters]
            at hthis hgiven hcounted
          refine ⟨?_, ?_, ?_, hresult⟩
          · rw [hhanded, hgiven, hthis, List.append_assoc]
            rfl
          · rw [hconnection, hthis]
            rfl
          · rw [hcounters, hcounted]
            rfl

/-- In any case what is handed on are the first messages. -/
theorem front
    (h : Hands due fault frames s result after) :
    ∃ more, after.handed = s.handed ++ more ∧
      more.map Handover.sent <+: (Serving.handovers frames s.connection).map Handover.sent := by
  induction h with
  | finished search htime =>
      exact ⟨[], by simp, List.nil_prefix⟩
  | refused search htime hdelivered =>
      cases hdelivered with
      | refused hsend hthis hsame hgiven hcounted =>
          simp only [Serving.hear_connection, Serving.hear_handed] at hthis hgiven
          refine ⟨_, hgiven, ?_⟩
          simp [Serving.handovers, Handover.sent, hthis]
  | @taken frame frames s next after result time search htime hdelivered hrest ih =>
      obtain ⟨more, hmore, hfront⟩ := ih
      cases hdelivered with
      | taken hsend hthis hsame hgiven hcounted =>
          simp only [Serving.hear_connection, Serving.hear_handed] at hthis hgiven
          rw [hthis] at hfront
          refine ⟨⟨frame, Serving.onFrame frame s.connection, true⟩ :: more, ?_, ?_⟩
          · rw [hmore, hgiven, hthis, List.append_assoc]
            rfl
          · simpa [Serving.handovers, Handover.sent] using hfront

theorem front_record
    (h : Hands due fault frames s result after) :
    ∃ more, after.handed = s.handed ++ more ∧
      more.map Handover.record <+:
        (Serving.handovers frames s.connection).map Handover.record := by
  obtain ⟨more, hmore, hfront⟩ := h.front
  have hrecords := hfront.map fun sent => Record.ofFrame sent.1 sent.2
  rw [List.map_map, List.map_map] at hrecords
  exact ⟨more, hmore, hrecords⟩

theorem front_frame
    (h : Hands due fault frames s result after) :
    ∃ more, after.handed = s.handed ++ more ∧ more.map Handover.frame <+: frames := by
  obtain ⟨more, hmore, hfront⟩ := h.front
  have hframes := hfront.map Prod.fst
  rw [List.map_map, List.map_map] at hframes
  refine ⟨more, hmore, ?_⟩
  rwa [← Serving.handovers_frame frames s.connection]

end Hands

namespace Serving

variable {σ : Type} [ByteStream σ] [Supplied σ]

theorem stream_hands
    {span : Span} {close : Option String} {text : Octets} {limit : Option Nat}
    {search : Framing.Search} {octets : Lookahead (Channel σ)}
    (hkeep : search.Keeps)
    (hoctets : Supplied.Brings span close text octets)
    (hmeets : span.Meets limit)
    (s : Serving) :
    (s.stream limit search octets).1.isOver = true ∧
      Hands span.due (search.decode close text).fault (search.decode close text).frames s
        ((s.stream limit search octets).1.fault?.map Fault.bare)
        (s.stream limit search octets).2 := by
  have hagrees := Framing.Search.attempt_decodes hkeep hoctets hmeets
  fun_induction stream limit search octets s generalizing text with
  | case1 limit search octets s frame found rest htried cause after hdelivered =>
      rw [htried] at hagrees
      obtain ⟨hnext, left, hbrings, hdecode⟩ := hagrees
      have hstep := delivered_of_deliver hdelivered
      rw [hdecode]
      refine ⟨rfl, ?_⟩
      cases hstep with
      | refused hsend hconnection htime hhanded hcounters =>
          exact Hands.refused found (Supplied.le_due hbrings)
            (.refused hsend hconnection htime hhanded hcounters)
  | case2 limit search octets s frame found rest htried passed after hdelivered ih =>
      rw [htried] at hagrees
      obtain ⟨hnext, left, hbrings, hdecode⟩ := hagrees
      have hstep := delivered_of_deliver hdelivered
      have hstart : (Framing.Search.start found.framer).Keeps := by
        intro h
        exact absurd (hnext.symm.trans h) Bool.false_ne_true
      have hrest := Framing.Search.attempt_decodes hstart hbrings (Span.meets_none span)
      obtain ⟨hover, hhands⟩ := ih hstart hbrings (Span.meets_none span) hrest
      rw [hdecode]
      exact ⟨hover, Hands.taken found (Supplied.le_due hbrings) hstep hhands⟩
  | case3 limit search octets s found rest htried =>
      rw [htried] at hagrees
      obtain ⟨hnow, hdecode⟩ := hagrees
      rw [hdecode]
      exact ⟨rfl, Hands.finished found hnow⟩
  | case4 limit search octets s fault found rest htried =>
      rw [htried] at hagrees
      obtain ⟨hnow, hdecode⟩ := hagrees
      rw [hdecode]
      exact ⟨rfl, Hands.finished found hnow⟩
  | case5 limit search octets s found rest htried =>
      rw [htried] at hagrees
      exact hagrees.elim

theorem begin_hands
    {d : Detector} {span : Span} {close : Option String} {rest : Octets}
    {decoded : Lookahead (Channel σ)}
    (hdecoded : Supplied.Brings span close rest decoded)
    (hawaits : d.Awaits span)
    (s : Serving) :
    (s.begin d (d.readerOf decoded)).1.isOver = true ∧
      Hands span.due (Framing.decode close d.most (.ofPolicy d.framing) rest).fault
        (Framing.decode close d.most (.ofPolicy d.framing) rest).frames
        (s.goOn (ByteStream.now decoded)).countFindings
        ((s.begin d (d.readerOf decoded)).1.fault?.map Fault.bare)
        (s.begin d (d.readerOf decoded)).2 := by
  have hkeeps : (Framing.Search.start (Framer.start d.framing d.most)).Keeps := by
    intro h
    cases h
  have hdecode :
      (Framing.Search.start (Framer.start d.framing d.most)).decode close rest =
        Framing.decode close d.most (.ofPolicy d.framing) rest := by
    rw [← Framer.rule_start d.framing d.most]
    rfl
  rw [← hdecode]
  exact stream_hands hkeeps hdecoded (hawaits.meets hdecoded) _

theorem run_fault
    {d : Detector} {span : Span} {close : Option String} {text : Octets} {octets : σ}
    {s : Serving} {fault : Fault} {c : Connection}
    (hoctets : Supplied.Brings span close text octets)
    (hawaits : d.Awaits span)
    (hsurvey : d.survey close text s.connection = (.error fault, c)) :
    ∃ time, s.run d octets = (.failed fault, { s with connection := c }.goOn time) := by
  rcases Detector.detect_survey hoctets hawaits s.connection with
    ⟨rest, decoded, after, hother, hdetect, _⟩ | ⟨cause, time, after, hother, hdetect⟩
  · rw [hsurvey] at hother
    simp at hother
  · rw [hsurvey] at hother
    simp only [Prod.mk.injEq, Except.error.injEq] at hother
    obtain ⟨rfl, rfl⟩ := hother
    refine ⟨time, ?_⟩
    unfold run
    rw [hdetect]

/-- One that does hands on the decoding of what the stages leave. -/
theorem run_hands
    {d : Detector} {span : Span} {close : Option String} {text rest : Octets} {octets : σ}
    {s : Serving} {c : Connection}
    (hoctets : Supplied.Brings span close text octets)
    (hawaits : d.Awaits span)
    (hsurvey : d.survey close text s.connection = (.ok rest, c)) :
    ∃ time, time ≤ span.due ∧ (s.run d octets).1.isOver = true ∧
      Hands span.due (Framing.decode close d.most (.ofPolicy d.framing) rest).fault
        (Framing.decode close d.most (.ofPolicy d.framing) rest).frames
        ({ s with connection := c }.goOn time).countFindings
        ((s.run d octets).1.fault?.map Fault.bare) (s.run d octets).2 := by
  rcases Detector.detect_survey hoctets hawaits s.connection with
    ⟨left, decoded, after, hother, hdetect, hdecoded⟩ | ⟨cause, time, after, hother, hdetect⟩
  · rw [hsurvey] at hother
    simp only [Prod.mk.injEq, Except.ok.injEq] at hother
    obtain ⟨rfl, rfl⟩ := hother
    obtain ⟨hover, hhands⟩ := begin_hands hdecoded hawaits { s with connection := c }
    refine ⟨ByteStream.now decoded, Supplied.le_due hdecoded, ?_⟩
    unfold run
    rw [hdetect]
    dsimp only
    rw [Progress.lapse_of_over hover]
    exact ⟨hover, hhands⟩
  · rw [hsurvey] at hother
    simp at hother

end Serving
end SyslogIntake

import SyslogIntake.Proofs.Connection.Wrapping
import SyslogIntake.Proofs.Server.Pieces
import SyslogIntake.Proofs.Server.Vetting

/-!
# Messages that come wrapped

Two connections whose stages leave the same messages are served alike.  What is known about
one of them may differ from what is known about the other, but the lines that go to the
output are the same, so the output takes the same messages from both and stops at the same
one, if it stops at all.

**Results.**

* `Sink.send_alike` : an output takes the same lines in the same way;
* `Hands.alike` : handing on the same messages comes to the same end;
* `Service.account_wraps` : messages that come wrapped are served as if they came bare.
-/

namespace SyslogIntake

/-- A line does not tell over which connection its message came. -/
theorem Record.line_ofFrame
    (frame : Frame) (c d : Connection) :
    (Record.ofFrame frame c).line = (Record.ofFrame frame d).line :=
  rfl

namespace Sink

/-- Two outputs with the same lines on the same way to the same medium. -/
structure Alike (a b : Sink) : Prop where
  capacity : a.capacity = b.capacity
  queue : a.queue.map Record.line = b.queue.map Record.line
  collected : a.collected.map Record.line = b.collected.map Record.line
  medium : a.medium = b.medium
  stopped : a.stopped = b.stopped

namespace Alike

variable {a b : Sink}

theorem refl
    (a : Sink) :
    a.Alike a where
  capacity := rfl
  queue := rfl
  collected := rfl
  medium := rfl
  stopped := rfl

theorem isRunning
    (h : a.Alike b) :
    a.isRunning = b.isRunning :=
  congrArg Option.isNone h.stopped

theorem hasRoom
    (h : a.Alike b) :
    a.hasRoom = b.hasRoom := by
  have hlength : a.queue.length = b.queue.length := by
    simpa using congrArg List.length h.queue
  simp only [Sink.hasRoom, hlength, h.capacity]

theorem pending
    (h : a.Alike b) :
    a.pending = b.pending := by
  unfold Sink.pending
  rw [List.flatMap_def, List.flatMap_def, h.collected]

theorem enqueue
    {one two : Record}
    (h : a.Alike b)
    (hline : one.line = two.line) :
    (a.enqueue one).Alike (b.enqueue two) := by
  refine { h with queue := ?_ }
  simp [Sink.enqueue, h.queue, hline]

theorem collect
    (h : a.Alike b) :
    a.collect.Alike b.collect := by
  refine { h with queue := rfl, collected := ?_ }
  simp [Sink.collect, h.queue, h.collected]

theorem flush
    (h : a.Alike b) :
    a.flush.Alike b.flush := by
  refine { h with collected := rfl, medium := ?_, stopped := ?_ }
  · simp only [Sink.flush, h.medium, h.pending]
  · simp only [Sink.flush, h.medium, h.pending, h.stopped]

theorem makeRoom
    (h : a.Alike b) :
    a.makeRoom.Alike b.makeRoom := by
  have hempty : a.collected.isEmpty = b.collected.isEmpty := by
    simpa using congrArg List.isEmpty h.collected
  unfold Sink.makeRoom
  rw [hempty, h.flush.isRunning]
  split
  · exact h.collect
  · split
    · exact h.flush.collect
    · exact h.flush

theorem ready
    (h : a.Alike b) :
    a.ready.Alike b.ready := by
  unfold Sink.ready
  rw [h.isRunning, h.hasRoom]
  split
  · exact h.makeRoom
  · exact h

end Alike

/-- An output takes the same lines in the same way. -/
theorem send_alike
    {a b : Sink} {one two : Record}
    (h : a.Alike b)
    (hline : one.line = two.line) :
    (a.send one).1 = (b.send two).1 ∧ (a.send one).2.Alike (b.send two).2 := by
  unfold send
  rw [h.ready.isRunning]
  split
  · exact ⟨rfl, h.ready.enqueue hline⟩
  · exact ⟨rfl, h.ready⟩

end Sink

/-- A message that was handed over, and whether it was taken. -/
def Handover.outcome (handover : Handover) : Frame × Bool :=
  (handover.frame, handover.taken)

namespace Serving

/-- Two connections that handed on the same messages, and are at the same stage. -/
structure Alike (s t : Serving) : Prop where
  sink : s.service.sink.Alike t.service.sink
  handed : s.handed.map Handover.outcome = t.handed.map Handover.outcome
  path : s.connection.path = t.connection.path

theorem path_onFrame
    (frame : Frame) (c : Connection) :
    (onFrame frame c).path = Connection.advancePath .streaming c.path :=
  Connection.path_advance .streaming c

theorem goOn_of_le
    {time : Nat} {s : Serving}
    (h : time ≤ s.time) :
    s.goOn time = s := by
  unfold goOn
  rw [if_neg (Nat.not_lt.2 h)]

theorem hear_time
    {time : Nat} {s : Serving}
    (h : time ≤ s.time)
    (search : Framing.Search) :
    (s.hear time search).time = s.time := by
  unfold hear
  rw [goOn_of_le h]
  rfl

theorem Alike.hear
    {s t : Serving} {time other : Nat}
    (h : s.Alike t)
    (hs : time ≤ s.time) (ht : other ≤ t.time)
    (search found : Framing.Search) :
    (s.hear time search).Alike (t.hear other found) := by
  unfold Serving.hear
  rw [goOn_of_le hs, goOn_of_le ht]
  exact ⟨h.sink, h.handed, h.path⟩

/-- Handing on the same message comes to the same. -/
theorem Alike.delivered
    {s t after behind : Serving} {frame : Frame} {result other : Except Fault Unit}
    (h : s.Alike t)
    (hs : Delivered frame s result after)
    (ht : Delivered frame t other behind) :
    result = other ∧ after.Alike behind := by
  have hsend := Sink.send_alike h.sink
    (Record.line_ofFrame frame (onFrame frame s.connection) (onFrame frame t.connection))
  have hpath : (onFrame frame s.connection).path = (onFrame frame t.connection).path := by
    rw [path_onFrame, path_onFrame, h.path]
  cases hs with
  | taken hsend₁ hconnection₁ htime₁ hhanded₁ hcounters₁ =>
      cases ht with
      | taken hsend₂ hconnection₂ htime₂ hhanded₂ hcounters₂ =>
          rw [hsend₁, hsend₂] at hsend
          refine ⟨rfl, hsend.2, ?_, ?_⟩
          · simp [hhanded₁, hhanded₂, h.handed, Handover.outcome]
          · rw [hconnection₁, hconnection₂, hpath]
      | refused hsend₂ hconnection₂ htime₂ hhanded₂ hcounters₂ =>
          rw [hsend₁, hsend₂] at hsend
          exact absurd hsend.1 (by simp)
  | refused hsend₁ hconnection₁ htime₁ hhanded₁ hcounters₁ =>
      cases ht with
      | taken hsend₂ hconnection₂ htime₂ hhanded₂ hcounters₂ =>
          rw [hsend₁, hsend₂] at hsend
          exact absurd hsend.1 (by simp)
      | refused hsend₂ hconnection₂ htime₂ hhanded₂ hcounters₂ =>
          rw [hsend₁, hsend₂] at hsend
          refine ⟨rfl, hsend.2, ?_, ?_⟩
          · simp [hhanded₁, hhanded₂, h.handed, Handover.outcome]
          · rw [hconnection₁, hconnection₂, hpath]

theorem Delivered.time
    {s after : Serving} {frame : Frame} {result : Except Fault Unit}
    (h : Delivered frame s result after) :
    after.time = s.time := by
  cases h with
  | taken hsend hconnection htime hhanded hcounters =>
      exact htime
  | refused hsend hconnection htime hhanded hcounters =>
      exact htime

end Serving

/-- Handing on the same messages comes to the same end, while no time passes. -/
theorem Hands.alike
    {due : Nat} {fault result other : Option Fault} {frames : List Frame}
    {s t after behind : Serving}
    (hone : Hands due fault frames s result after)
    (htwo : Hands due fault frames t other behind)
    (hs : due ≤ s.time) (ht : due ≤ t.time)
    (h : s.Alike t) :
    result = other ∧ after.Alike behind := by
  induction hone generalizing t other behind with
  | finished search htime =>
      cases htwo with
      | finished found hlater =>
          exact ⟨rfl, h.hear (Nat.le_trans htime hs) (Nat.le_trans hlater ht) search found⟩
  | refused search htime hdelivered =>
      cases htwo with
      | refused found hlater hgiven =>
          have hheard := h.hear (Nat.le_trans htime hs) (Nat.le_trans hlater ht) search found
          exact ⟨rfl, (hheard.delivered hdelivered hgiven).2⟩
      | taken found hlater hgiven hrest =>
          have hheard := h.hear (Nat.le_trans htime hs) (Nat.le_trans hlater ht) search found
          cases (hheard.delivered hdelivered hgiven).1
  | @taken frame frames s next after result time search htime hdelivered hrest ih =>
      have hnext : next.time = s.time :=
        hdelivered.time.trans (Serving.hear_time (Nat.le_trans htime hs) search)
      cases htwo with
      | refused found hlater hgiven =>
          have hheard := h.hear (Nat.le_trans htime hs) (Nat.le_trans hlater ht) search found
          cases (hheard.delivered hdelivered hgiven).1
      | @taken _ _ _ following _ _ later found hlater hgiven hmore =>
          have hheard := h.hear (Nat.le_trans htime hs) (Nat.le_trans hlater ht) search found
          have hfollowing : following.time = t.time :=
            hgiven.time.trans (Serving.hear_time (Nat.le_trans hlater ht) found)
          exact ih hmore (hnext ▸ hs) (hfollowing ▸ ht) (hheard.delivered hdelivered hgiven).2

namespace Account

/-- Two accounts of the same messages, with the same end at the same stage. -/
structure Alike (one two : Account) : Prop where
  handed : one.handed.map Handover.outcome = two.handed.map Handover.outcome
  fault : one.fault = two.fault
  path : one.connection.path = two.connection.path

theorem Alike.close
    {one two : Account}
    (h : one.Alike two) :
    one.close.Alike two.close := by
  refine ⟨?_, ?_, ?_⟩
  · rw [close_handed, close_handed, h.handed]
  · rw [close_fault, close_fault, h.fault]
  · unfold Account.close
    rw [h.fault]
    cases two.fault with
    | none =>
        exact h.path
    | some fault =>
        exact Connection.path_fail h.path

end Account

namespace Serving

variable {σ τ : Type} [ByteStream σ] [Supplied σ] [ByteStream τ] [Supplied τ]

/-- Where the stages leave the same messages and no time passes, serving comes to the same. -/
theorem run_alike
    {d other : Detector} {span : Span} {close : Option String}
    {text written messages : Octets} {octets : σ} {stream : τ} {s t : Serving}
    {c last : Connection}
    (hoctets : Supplied.Brings span close text octets)
    (hstream : Supplied.Brings span close written stream)
    (hawaits : d.Awaits span) (hother : other.Awaits span)
    (hsame : d.framing = other.framing ∧ d.most = other.most)
    (hone : d.survey close text s.connection = (.ok messages, c))
    (htwo : other.survey close written t.connection = (.ok messages, last))
    (hs : span.due ≤ s.time) (ht : span.due ≤ t.time)
    (h : s.Alike t) :
    ((s.run d octets).2.account (s.run d octets).1).Alike
      ((t.run other stream).2.account (t.run other stream).1) := by
  obtain ⟨time, htime, _, hhands⟩ := run_hands hoctets hawaits hone
  obtain ⟨later, hlater, _, hgiven⟩ := run_hands hstream hother htwo
  rw [← hsame.1, ← hsame.2] at hgiven
  have hhere : { s with connection := c }.goOn time = { s with connection := c } :=
    goOn_of_le (Nat.le_trans htime hs)
  have hthere : { t with connection := last }.goOn later = { t with connection := last } :=
    goOn_of_le (Nat.le_trans hlater ht)
  have hpath : c.path = last.path := by
    rw [(Detector.survey_path hone).1, (Detector.survey_path htwo).1, Connection.behindStages,
      Connection.behindStages, h.path]
  rw [hhere] at hhands
  rw [hthere] at hgiven
  have hstart : { s with connection := c }.countFindings.Alike
      { t with connection := last }.countFindings :=
    ⟨h.sink, h.handed, hpath⟩
  obtain ⟨hfault, hend⟩ := hhands.alike hgiven hs ht hstart
  exact ⟨hend.handed, hfault, hend.path⟩

/-- The account of a connection that hands something on tells its header and its endpoints. -/
theorem run_known
    {d : Detector} {span : Span} {close : Option String} {text messages : Octets} {octets : σ}
    {s : Serving} {c : Connection} {x : Handover}
    (hoctets : Supplied.Brings span close text octets)
    (hawaits : d.Awaits span)
    (hsurvey : d.survey close text s.connection = (.ok messages, c))
    (hstart : s.handed = [])
    (hx : x ∈ (s.run d octets).2.handed) :
    x.connection.proxy = c.proxy ∧ x.connection.ends = s.connection.ends := by
  obtain ⟨reader, after, hdetect, _, hfindings⟩ := run_handed hstart hx
  rcases Detector.detect_survey hoctets hawaits s.connection with
    ⟨rest, decoded, found, hfound, hgot, _⟩ | ⟨fault, time, found, hfound, _⟩
  · rw [hsurvey] at hfound
    rw [hdetect] at hgot
    simp only [Prod.mk.injEq] at hfound hgot
    obtain ⟨-, rfl⟩ := hfound
    obtain ⟨-, rfl⟩ := hgot
    simp only [findings, Prod.mk.injEq] at hfindings
    obtain ⟨hpeer, hlocal, hproxy, -, -⟩ := hfindings
    refine ⟨hproxy, ?_⟩
    rw [← (Detector.survey_path hsurvey).2]
    exact Prod.ext hpeer hlocal
  · rw [hsurvey] at hfound
    simp at hfound

end Serving

namespace Service

/-- Where a client is and where it wanted to go: both as the header says, or neither. -/
theorem record_ends
    (x : Handover) :
    (x.record.source, x.record.destination) =
      match x.connection.proxy.bind ProxyHeader.route with
      | some route => (route.source, route.destination)
      | none => x.connection.ends := by
  unfold Handover.record Record.ofFrame Connection.source Connection.destination
  cases hproxy : x.connection.proxy with
  | none =>
      rfl
  | some header =>
      cases hroute : header.route with
      | none =>
          simp [ProxyHeader.source?, ProxyHeader.destination?, hroute, Connection.ends]
      | some route =>
          simp [ProxyHeader.source?, ProxyHeader.destination?, hroute]

/--
Messages that come wrapped are served as if they came bare: the same messages are handed on
and taken, with the same end at the same stage.  Every record has the endpoints that the
header conveys, or else those of the connection.
-/
theorem account_wraps
    {settings : Settings} {acceptor other : Option Tls.Acceptor} {d bare : Detector}
    (hd : Detector.ofSettings settings acceptor = .ok d)
    (hbare : Detector.ofSettings { settings with transport := .tcp } other = .ok bare)
    {text messages : Octets} {header : Option ProxyHeader}
    (hwraps : d.Wraps messages settings.transport text header)
    {pieces segments : List Segment}
    (hpieces : Cut text 0 pieces) (hsegments : Cut messages 0 segments)
    (service : Service) (id : Nat) (peer localEnd : Endpoint) :
    let c := Connection.accepted id peer localEnd
    let wrapped := service.account d (Wire.ofSegments pieces) c
    let plain := service.account bare (Wire.ofSegments segments) c
    wrapped.Alike plain ∧
      ∀ x ∈ wrapped.handed, x.connection.proxy = header ∧
        (x.record.source, x.record.destination) =
          match header.bind ProxyHeader.route with
          | some route => (route.source, route.destination)
          | none => (peer, localEnd) := by
  intro c wrapped plain
  obtain ⟨hplan, hframing, hmost⟩ := Detector.ofSettings_ok hd
  obtain ⟨hplainPlan, hplainFraming, hplainMost⟩ := Detector.ofSettings_ok hbare
  have hoctets := Wire.brings_ofSegments hpieces none
  have hstream := Wire.brings_ofSegments hsegments none
  rw [Segment.closing, List.append_nil] at hoctets hstream
  obtain ⟨after, hafter, hheader⟩ := Detector.survey_wraps hplan hwraps c
  have hplain : bare.Wraps messages .tcp messages none := .bare
  obtain ⟨before, hbefore, _⟩ := Detector.survey_wraps hplainPlan hplain c
  constructor
  · have hsame := Serving.run_alike (s := Serving.start service c 0)
      (t := Serving.start service c 0) hoctets hstream d.awaits_at_once bare.awaits_at_once
      ⟨hframing.trans hplainFraming.symm, hmost.trans hplainMost.symm⟩ hafter hbefore
      (Nat.le_refl 0) (Nat.le_refl 0) ⟨.refl _, rfl, rfl⟩
    change (service.account d (Wire.ofSegments pieces) c).Alike
      (service.account bare (Wire.ofSegments segments) c)
    rw [account_closed hoctets d.awaits_at_once, account_closed hstream bare.awaits_at_once]
    exact hsame.close
  · intro x hx
    change x ∈ (service.account d (Wire.ofSegments pieces) c).handed at hx
    rw [account_closed hoctets d.awaits_at_once, Account.close_handed] at hx
    obtain ⟨hproxy, hends⟩ := Serving.run_known hoctets d.awaits_at_once hafter rfl hx
    refine ⟨hproxy.trans hheader, ?_⟩
    rw [record_ends, hproxy, hheader, hends]
    rfl

/-- A message inside a session, behind a header, that looks like a header itself. -/
theorem account_wraps_session :
    let settings : Settings :=
      { Settings.default with transport := .auto, tls := some (.ofFiles "key" "cert") }
    let acceptor : Tls.Acceptor := ⟨{ Tls.Answers.default with peer := some ⟨[], .ok [7]⟩ }⟩
    let record : Octets := [22, 3, 1, 0, 4, 1, 2, 3, 4]
    let front : Octets :=
      [80, 82, 79, 88, 89, 32, 84, 67, 80, 52, 32, 49, 46, 50, 46, 51, 46, 52, 32, 53, 46,
        54, 46, 55, 46, 56, 32, 57, 32, 49, 48, 13, 10]
    let messages : Octets :=
      [80, 82, 79, 88, 89, 32, 85, 78, 75, 78, 79, 87, 78, 13, 10]
    let route : Route := ⟨.v4 ⟨1, 2, 3, 4⟩ 9, .v4 ⟨5, 6, 7, 8⟩ 10⟩
    let c := Connection.accepted 1 (.v4 ⟨192, 0, 2, 1⟩ 5000) (.v4 ⟨192, 0, 2, 2⟩ 514)
    let service := start ⟨"out", 8, [], [], ⟨[], none⟩, none⟩
    ∃ d bare, Detector.ofSettings settings (some acceptor) = .ok d ∧
      Detector.ofSettings { settings with transport := .tcp } none = .ok bare ∧
      let wrapped := service.account d
        (Wire.ofSegments [.octets record, .octets front, .octets messages]) c
      wrapped.Alike (service.account bare (Wire.ofSegments [.octets messages]) c) ∧
        wrapped.handed.map Handover.frame = [⟨none, messages.dropLast⟩] ∧
        ∀ x ∈ wrapped.handed,
          (x.record.source, x.record.destination) = (route.source, route.destination) := by
  intro settings acceptor record front messages route c service
  have hd : Detector.ofSettings settings (some acceptor) = .ok _ := rfl
  have hbare : Detector.ofSettings { settings with transport := .tcp } none = .ok _ := rfl
  have hadmits : Tls.Admits acceptor .requiredTrusted record :=
    { begins := by decide
      taken := by decide
      started := by decide
      shaken := by decide
      passed := ⟨_, rfl, by decide⟩ }
  have hheader : ProxyHeader.parse front =
      .ok (.complete ⟨.text, some route, none, none⟩ front.length) := by decide +kernel
  have hpieces : Cut (record ++ (front ++ messages)) 0
      [.octets record, .octets front, .octets messages] :=
    .piece (by decide) (.piece (by decide)
      (@Cut.piece messages [] 0 _ (by decide) .nil))
  have hsegments : Cut messages 0 [.octets messages] :=
    @Cut.piece messages [] 0 _ (by decide) .nil
  obtain ⟨hsame, hknown⟩ := account_wraps hd hbare
    (.secured hheader rfl hadmits (Or.inr rfl)) hpieces hsegments service 1
    (.v4 ⟨192, 0, 2, 1⟩ 5000) (.v4 ⟨192, 0, 2, 2⟩ 514)
  exact ⟨_, _, hd, hbare, hsame, by decide +kernel, fun x hx => (hknown x hx).2⟩

end Service
end SyslogIntake

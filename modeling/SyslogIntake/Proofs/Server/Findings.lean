import SyslogIntake.Proofs.Connection.Vetting
import SyslogIntake.Proofs.Server.Stages

/-!
# What a connection counts

A connection that is over is counted as closed, and as failed if it failed, and each record
that was taken is counted.  A header and a session are counted between the stages and the
messages, not when they are found: whatever a connection found in its stages is left out if a
later stage fails.

**Results.**

* `Detector.peel_some` : a header that is found was read off the stream and taken from it;
* `Passage.found_of_goes`, `Passage.headed_of_goes` : a connection knows the header that it
  came to;
* `Passage.booked_of_goes` : what each step counts;
* `Service.serve_counts` : so what is counted is what was found, unless a later stage failed.
-/

namespace SyslogIntake

open StateTransition (Reaches)

namespace Counters

/-- Count what a connection found and the records that were taken from it. -/
def book (header session : Bool) (records : Nat) (c : Counters) : Counters :=
  { c with
    proxyHeaders := c.proxyHeaders + header.toNat
    tlsSessions := c.tlsSessions + session.toNat
    records := c.records + records }

/-- Count a connection that is over. -/
def bookOver (failed header session : Bool) (records : Nat) (c : Counters) : Counters :=
  { c.book header session records with
    failed := c.failed + failed.toNat
    closed := c.closed + 1 }

theorem countHeader_countSession
    (header session : Bool)
    (c : Counters) :
    (c.countHeader header).countSession session = c.book header session 0 := by
  cases header <;> cases session <;> rfl

theorem countRecord_book
    (header session : Bool)
    (records : Nat)
    (c : Counters) :
    (c.book header session records).countRecord = c.book header session (records + 1) :=
  rfl

/-- The headers and sessions that were counted can be told from the counters. -/
theorem bookOver_eq_iff
    {failed header session counted known : Bool} {records : Nat} {c : Counters} :
    c.bookOver failed header session records = c.bookOver failed counted known records ↔
      header = counted ∧ session = known := by
  have hinjective : ∀ a b : Bool, a.toNat = b.toNat → a = b := by decide
  constructor
  · intro h
    have hheader := congrArg proxyHeaders h
    have hsession := congrArg tlsSessions h
    simp only [bookOver, book, Nat.add_left_cancel_iff] at hheader hsession
    exact ⟨hinjective _ _ hheader, hinjective _ _ hsession⟩
  · rintro ⟨rfl, rfl⟩
    rfl

end Counters

namespace Detector

variable {σ : Type} [ByteStream σ]

/-- A header that is found was read off the stream, and its octets were taken from it. -/
theorem peel_some
    {d : Detector} {policy : StagePolicy} {l next : Lookahead σ} {header : ProxyHeader}
    (h : d.peel policy l = (.ok (some header), next)) :
    ∃ text length, ProxyHeader.parse text = .ok (.complete header length) ∧
      next.buffer = text.drop length := by
  unfold peel at h
  split at h
  · cases h
  split at h
  · rename_i found after hrun
    cases h
    rcases Inquiry.run_answer hrun with ⟨state, text, hlook⟩ | ⟨-, state, text, hfinish⟩
    · simp only [ProxyHeader.inquiry, ProxyHeader.look] at hlook
      split at hlook
      · cases hlook
      · rename_i parsed length hparse
        simp only [Looked.settled.injEq, Except.ok.injEq, Option.some.injEq] at hlook
        obtain ⟨rfl, hrest⟩ := hlook
        exact ⟨text, length, hparse, hrest.symm⟩
      · split at hlook <;> cases hlook
      · cases hlook
    · simp only [ProxyHeader.inquiry, ProxyHeader.finish, Prod.mk.injEq] at hfinish
      split at hfinish
      · cases hfinish.1
      split at hfinish
      · cases hfinish.1
      · split at hfinish <;> cases hfinish.1
  · cases h
  · cases h

end Detector

namespace Errand

variable {σ : Type} [ByteStream σ]

def header? (d : Detector) : Errand σ → Option ProxyHeader
  | .outerHeader raw => (d.peel d.plan.outerProxy raw).1.toOption.join
  | .innerHeader decoded => (d.peel d.plan.innerProxy decoded).1.toOption.join
  | _ => none

/-- Whether an errand comes to a session, of which the peer has passed. -/
def accepts (d : Detector) : Errand σ → Bool
  | .handshake acceptor raw => (Tls.accept acceptor d.peerVerify d.handshakeTimeout raw).1.isOk
  | _ => false

/-- Whether an errand is to look for a header. -/
def seeksHeader : Errand σ → Bool
  | .outerHeader _ | .innerHeader _ => true
  | _ => false

end Errand

/--
Whether a header and a session of a connection have been counted: they are once it is through
the stages in front of its messages.
-/
def Connection.counted (c : Connection) : Bool × Bool :=
  (decide (.framingSniff ∈ c.visited) && c.proxy.isSome,
    decide (.framingSniff ∈ c.visited) && c.isTls)

theorem Connection.counted_in_front
    {c : Connection}
    (h : c.path = (.proxyHeader, []) ∨ c.path = (.tlsHandshake, [.proxyHeader])) :
    c.counted = (false, false) := by
  have hnot : .framingSniff ∉ c.visited := by
    rcases h with hpath | hpath <;> rw [visited_of_path hpath] <;> decide
  simp [counted, hnot]

namespace Passage

variable {σ : Type}

/-- What a connection counts at some point, if it began with other counts. -/
def Booked (before : Counters) (p : Passage σ) : Prop :=
  p.serving.service.counters =
    before.book p.serving.connection.counted.1 p.serving.connection.counted.2
      (p.serving.handed.countP (·.taken))

/-- In front of its messages, a connection has counted nothing. -/
theorem booked_in_front
    {before : Counters} {p : Passage σ}
    (hpath : p.serving.connection.path = (.proxyHeader, []) ∨
      p.serving.connection.path = (.tlsHandshake, [.proxyHeader]))
    (hhanded : p.serving.handed = []) :
    p.Booked before ↔ p.serving.service.counters = before := by
  rw [Booked, Connection.counted_in_front hpath, hhanded]
  rfl

variable [ByteStream σ]

theorem found_of_goes
    {d : Detector} {p q : Passage σ}
    (hgoes : Goes d p q)
    (h : q.serving.connection.proxy.isSome = true) :
    p.serving.connection.proxy.isSome = true ∨ (p.errand.header? d).isSome = true := by
  cases hgoes with
  | headerFault | helloFault | handshakeFault | innerFault | ended | messageFault | late =>
      exact .inl (by simpa [fail, finish] using h)
  | hello | session | frame => exact .inl (by simpa using h)
  | plain | headedSession => exact .inl (by simpa [stayPlain, listen] using h)
  | header hpeeled =>
      refine .inr ?_
      simpa [Errand.header?, hpeeled, Except.toOption] using h
  | innerHeader hpeeled =>
      refine .inr ?_
      simpa [Errand.header?, hpeeled, Except.toOption, listen] using h
  | refused hdelivered | taken hdelivered =>
      obtain ⟨taken, hhanded, hconnection⟩ :=
        (Serving.delivered_of_deliver hdelivered).handed
      exact .inl (by simpa [finish, hconnection, Serving.onFrame] using h)

/-- Whether a connection knows a header and looks for no other. -/
def Headed (p : Passage σ) : Prop :=
  p.serving.connection.proxy.isSome = true ∧ p.errand.seeksHeader = false

theorem headed_of_header
    {d : Detector} {p q : Passage σ}
    (hgoes : Goes d p q)
    (h : (p.errand.header? d).isSome = true) :
    q.Headed := by
  cases hgoes with
  | headerFault hpeeled | innerFault hpeeled =>
      simp [Errand.header?, hpeeled, Except.toOption] at h
  | header hpeeled =>
      refine ⟨?_, rfl⟩
      simpa [Errand.header?, hpeeled, Except.toOption] using h
  | innerHeader hpeeled =>
      refine ⟨?_, rfl⟩
      simpa [Errand.header?, hpeeled, Except.toOption, listen] using h
  | plain | helloFault | hello | handshakeFault | session | headedSession | frame | ended
  | messageFault | late | refused | taken => cases h

theorem headed_of_goes
    {d : Detector} {p q : Passage σ}
    (hgoes : Goes d p q)
    (h : p.Headed) :
    q.Headed := by
  obtain ⟨hknown, hlooks⟩ := h
  cases hgoes with
  | headerFault | header | innerFault | innerHeader => cases hlooks
  | helloFault | handshakeFault | ended | messageFault | late =>
      exact ⟨by simpa [fail, finish] using hknown, rfl⟩
  | hello | frame => exact ⟨by simpa using hknown, rfl⟩
  | plain | headedSession => exact ⟨by simpa [stayPlain, listen] using hknown, rfl⟩
  | session haccepted hproxy => exact absurd hproxy (Option.isSome_iff_ne_none.1 hknown)
  | refused hdelivered | taken hdelivered =>
      obtain ⟨taken, hhanded, hconnection⟩ :=
        (Serving.delivered_of_deliver hdelivered).handed
      exact ⟨by simpa [finish, hconnection, Serving.onFrame] using hknown, rfl⟩

theorem accepted_of_goes
    {d : Detector} {p q : Passage σ}
    (hgoes : Goes d p q) :
    q.serving.connection.isTls = (p.serving.connection.isTls || p.errand.accepts d) := by
  cases hgoes with
  | headerFault | helloFault | innerFault | ended | messageFault | late =>
      simp [fail, finish, Errand.accepts]
  | hello | frame => simp [Errand.accepts]
  | header | plain | innerHeader => simp [stayPlain, listen, Errand.accepts]
  | handshakeFault haccepted =>
      simp [fail, finish, Errand.accepts, haccepted, Except.isOk, Except.toBool]
  | session haccepted | headedSession haccepted =>
      simp [listen, Errand.accepts, haccepted, Except.isOk, Except.toBool]
  | refused hdelivered | taken hdelivered =>
      obtain ⟨taken, hhanded, hconnection⟩ :=
        (Serving.delivered_of_deliver hdelivered).handed
      simp [finish, hconnection, Serving.onFrame, Errand.accepts]

/-- Between the stages and the messages, a connection counts what it knows. -/
theorem listen_booked
    {d : Detector} {before : Counters} {s : Serving} {c : Connection}
    (reader : Reader (Channel σ))
    (hpath : c.path = (.tlsHandshake, [.proxyHeader]))
    (hhanded : s.handed = [])
    (hcounters : s.service.counters = before) :
    (listen d reader { s with connection := c.advance .framingSniff }).Booked before := by
  have hpath : (c.advance .framingSniff).path = _ :=
    (Connection.path_advance .framingSniff c).trans (congrArg _ hpath)
  have hthrough : .framingSniff ∈ (c.advance .framingSniff).visited := by
    rw [Connection.visited_of_path hpath]
    decide
  simp [Booked, listen, Connection.counted, hthrough, hhanded, hcounters,
    Serving.countFindings, Serving.count, Counters.countHeader_countSession]

/-- With a frame nothing else is counted of a connection behind its stages. -/
theorem counted_streaming
    {c : Connection} {handed : List Handover}
    (h : c.path = pathBehind handed)
    (frame : Frame) :
    (Serving.onFrame frame c).counted = c.counted := by
  have hafter : .framingSniff ∈ (Serving.onFrame frame c).visited := by
    rw [Connection.visited_of_path (path_streaming h frame)]
    decide
  have hbefore : .framingSniff ∈ c.visited := by
    unfold pathBehind at h
    split at h <;> rw [Connection.visited_of_path h] <;> decide
  simp only [Connection.counted, hafter, hbefore]
  simp [Serving.onFrame]

theorem booked_of_goes
    {d : Detector} {before : Counters} {p q : Passage σ}
    (hgoes : Goes d p q)
    (hplaced : p.Placed)
    (h : p.Booked before) :
    q.Booked before := by
  cases hgoes with
  | @headerFault s raw next fault hpeeled =>
      have hbefore := (booked_in_front (.inl hplaced.1) hplaced.2).1 h
      have hpath : (s.connection.advance .proxyHeader).path = (.proxyHeader, []) :=
        (Connection.path_advance .proxyHeader _).trans (congrArg _ hplaced.1)
      refine (booked_in_front (.inl ?_) ?_).2 ?_
      · simpa only [fail, finish, Serving.goOn_connection] using hpath
      · simpa only [fail, finish, Serving.goOn_handed] using hplaced.2
      · simpa only [fail, finish, Serving.goOn_counters] using hbefore
  | header hpeeled =>
      have hbefore := (booked_in_front (.inl hplaced.1) hplaced.2).1 h
      obtain ⟨hpath, hhanded⟩ := placed_of_goes (.header hpeeled) hplaced
      exact (booked_in_front (.inr hpath) hhanded).2 hbefore
  | plain hgreeted | headedSession haccepted hproxy | innerHeader hpeeled =>
      have hbefore := (booked_in_front (.inr hplaced.1) hplaced.2).1 h
      exact listen_booked _ hplaced.1 hplaced.2 hbefore
  | session haccepted hproxy =>
      have hbefore := (booked_in_front (.inr hplaced.1) hplaced.2).1 h
      refine (booked_in_front (.inr ?_) ?_).2 hbefore
      · exact hplaced.1
      · exact hplaced.2
  | helloFault hgreeted | handshakeFault haccepted | innerFault hpeeled | ended hfound
  | messageFault hfound | late hfound =>
      simpa [Booked, fail, finish] using h
  | hello hgreeted => exact h
  | frame hfound => simpa [Booked] using h
  | refused hdelivered =>
      have hcounted := counted_streaming hplaced
      cases Serving.delivered_of_deliver hdelivered with
      | refused hsend hconnection htime hhanded hcounters =>
          simpa [Booked, finish, hconnection, hhanded, hcounters, hcounted] using h
  | taken hdelivered =>
      have hcounted := counted_streaming hplaced
      cases Serving.delivered_of_deliver hdelivered with
      | taken hsend hconnection htime hhanded hcounters =>
          have hrecord := congrArg Counters.countRecord h
          rw [Counters.countRecord_book] at hrecord
          simpa [Booked, hconnection, hhanded, hcounters, hcounted] using hrecord

end Passage

/-- Closing a connection that is over counts it. -/
theorem Serving.close_booked
    {σ : Type} {progress : Progress σ} {s : Serving} {before : Counters} {header session : Bool}
    {records : Nat}
    (hover : progress.isOver = true)
    (h : s.service.counters = before.book header session records) :
    (s.close progress).service.counters =
      before.bookOver progress.fault?.isSome header session records := by
  cases progress with
  | closed | failed fault =>
      simp only [close, count, note, h]
      rfl
  | waiting limit search stream => cases hover

namespace Service

variable {σ : Type} [ByteStream σ] {service : Service} {d : Detector} {octets : σ} {id : Nat}
  {peer localEnd : Endpoint} {q : Passage σ}

/-- At its end, a connection knows a header exactly if it came to one. -/
theorem ComesTo.proxy_iff
    (h : service.ComesTo d octets (.accepted id peer localEnd) q)
    (hover : q.errand.isOver = true) :
    q.serving.connection.proxy.isSome = true ↔
      ∃ p, service.ComesTo d octets (.accepted id peer localEnd) p ∧
        (p.errand.header? d).isSome = true := by
  constructor
  · intro hknown
    exact Passage.exists_cause (fun q => q.serving.connection.proxy.isSome = true)
      (fun p => (p.errand.header? d).isSome = true) h nofun hknown Passage.found_of_goes
  · rintro ⟨p, hp, hheader⟩
    have hend := hp.reached_end h hover
    obtain ⟨time, rfl⟩ := h.eq_end hover
    exact (Passage.holds_of_cause Passage.Headed (fun p => (p.errand.header? d).isSome = true)
      hend hheader nofun Passage.headed_of_header Passage.headed_of_goes).1

theorem ComesTo.isTls_iff
    (h : service.ComesTo d octets (.accepted id peer localEnd) q)
    (hover : q.errand.isOver = true) :
    q.serving.connection.isTls = true ↔
      ∃ p, service.ComesTo d octets (.accepted id peer localEnd) p ∧
        p.errand.accepts d = true := by
  have hstep : ∀ {p q : Passage σ}, Passage.Goes d p q →
      (q.serving.connection.isTls = true ↔
        p.serving.connection.isTls = true ∨ p.errand.accepts d = true) := by
    intro p q hgoes
    rw [Passage.accepted_of_goes hgoes, Bool.or_eq_true]
  constructor
  · intro htls
    exact Passage.exists_cause (fun q => q.serving.connection.isTls = true)
      (fun p => p.errand.accepts d = true) h nofun htls fun hgoes => (hstep hgoes).1
  · rintro ⟨p, hp, haccepts⟩
    have hend := hp.reached_end h hover
    obtain ⟨time, rfl⟩ := h.eq_end hover
    exact Passage.holds_of_cause (fun q => q.serving.connection.isTls = true)
      (fun p => p.errand.accepts d = true) hend haccepts nofun
      (fun hgoes haccepts => (hstep hgoes).2 (.inr haccepts))
      fun hgoes htls => (hstep hgoes).2 (.inl htls)

/-- A connection that was just accepted counts what is to be counted, at each of its steps. -/
theorem ComesTo.booked
    (h : service.ComesTo d octets (.accepted id peer localEnd) q) :
    q.Booked service.counters := by
  have hstart : (Passage.start octets
      (.start service (.accepted id peer localEnd) (ByteStream.now octets))).Booked
        service.counters :=
    (Passage.booked_in_front (.inl rfl) rfl).2 rfl
  exact (Passage.reached_induction (fun p => p.Placed ∧ p.Booked service.counters) h
    ⟨Passage.start_placed _ _ _ _ _ _, hstart⟩ fun hgoes hp =>
      ⟨Passage.placed_of_goes hgoes hp.1, Passage.booked_of_goes hgoes hp.1 hp.2⟩).2

/--
A connection that is over is counted as closed, as failed if it failed, and with every record
that was taken.  A header and a session that it found are counted if it came through its stages;
so they are all counted, unless it found one and failed in a later stage.
-/
theorem serve_counts
    (service : Service)
    (d : Detector)
    (octets : σ)
    (id : Nat)
    (peer localEnd : Endpoint)
    (hover : (service.progress d octets (.accepted id peer localEnd)).isOver = true) :
    let c := Connection.accepted id peer localEnd
    let failed := (service.progress d octets c).fault?.isSome
    let after := service.serve d octets c
    let records := after.handed.countP (·.taken)
    let through := decide (.framingSniff ∈ after.connection.visited)
    ∃ header session : Bool,
      (header = true ↔
        ∃ p, service.ComesTo d octets c p ∧ (p.errand.header? d).isSome = true) ∧
      (session = true ↔
        ∃ p, service.ComesTo d octets c p ∧ p.errand.accepts d = true) ∧
      after.service.counters =
        service.counters.bookOver failed (header && through) (session && through) records ∧
      (after.service.counters = service.counters.bookOver failed header session records ↔
        (through = false → header = false ∧ session = false)) := by
  intro c failed after records through
  obtain ⟨time, hend⟩ := service.comesTo_end d octets c
  -- Closing adds no stage but the last one, so the stages at the end are those before it.
  have hthrough : decide (.framingSniff ∈ (service.ending d octets c).connection.visited) =
      through := by
    refine decide_eq_decide.2 ?_
    rw [service.visited_serve d octets id peer localEnd, List.mem_append]
    refine (or_iff_left ?_).symm
    split <;> simp
  have hhanded : (service.ending d octets c).handed = after.handed :=
    (Serving.close_handed _ _).symm
  have hbooked : (service.ending d octets c).service.counters =
      service.counters.book (service.ending d octets c).connection.counted.1
        (service.ending d octets c).connection.counted.2
        ((service.ending d octets c).handed.countP (·.taken)) :=
    ComesTo.booked hend
  rw [hhanded, Connection.counted, hthrough] at hbooked
  have hcounters : after.service.counters = service.counters.bookOver failed
      ((service.ending d octets c).connection.proxy.isSome && through)
      ((service.ending d octets c).connection.isTls && through) records := by
    rw [Bool.and_comm, Bool.and_comm _ through]
    exact Serving.close_booked hover hbooked
  refine ⟨(service.ending d octets c).connection.proxy.isSome,
    (service.ending d octets c).connection.isTls, ComesTo.proxy_iff hend rfl,
    ComesTo.isTls_iff hend rfl, hcounters, ?_⟩
  rw [hcounters, Counters.bookOver_eq_iff]
  cases through <;> simp

/-- A header, a session behind it and one message: everything is counted. -/
theorem serve_counts_session :
    let acceptor : Tls.Acceptor := ⟨{ Tls.Answers.default with peer := some ⟨[], .ok [7]⟩ }⟩
    let d : Detector :=
      ⟨⟨.required, .required, .disabled⟩, some acceptor, .requiredTrusted, .auto, 65536, 10, 10⟩
    let wire := Wire.ofSegments
      [.octets [80, 82, 79, 88, 89, 32, 85, 78, 75, 78, 79, 87, 78, 13, 10], .pause 5,
        .octets [22, 3, 1, 0, 4, 1, 2, 3, 4], .octets [104, 105, 10]]
    let service := start ⟨"out", 8, [], [], ⟨[], none⟩, none⟩
    let c := Connection.accepted 1 (.v4 ⟨192, 0, 2, 1⟩ 5000) (.v4 ⟨192, 0, 2, 2⟩ 514)
    (service.progress d wire c).isOver = true ∧
      (service.serve d wire c).service.counters = Counters.zero.bookOver false true true 1 ∧
      (∃ p, service.ComesTo d wire c p ∧ (p.errand.header? d).isSome = true) ∧
      ∃ p, service.ComesTo d wire c p ∧ p.errand.accepts d = true := by
  intro acceptor d wire service c
  have hover : (service.progress d wire c).isOver = true := by decide +kernel
  have hvalue : (service.serve d wire c).service.counters =
      Counters.zero.bookOver false true true 1 := by
    decide +kernel
  obtain ⟨header, session, hheader, hsession, hcounters, -⟩ :=
    serve_counts service d wire 1 (.v4 ⟨192, 0, 2, 1⟩ 5000) (.v4 ⟨192, 0, 2, 2⟩ 514) hover
  have hsame := hcounters.symm.trans hvalue
  refine ⟨hover, hvalue, hheader.1 ?_, hsession.1 ?_⟩
  · cases header with
    | true => rfl
    | false => cases congrArg Counters.proxyHeaders hsame
  · cases session with
    | true => rfl
    | false => cases congrArg Counters.tlsSessions hsame

/--
A header in front of something that begins no session, and a session without the header that is
to be in it: neither the one nor the other is counted.
-/
theorem serve_counts_lost :
    let acceptor : Tls.Acceptor := ⟨{ Tls.Answers.default with peer := some ⟨[], .ok [7]⟩ }⟩
    let outside : Detector :=
      ⟨⟨.required, .required, .disabled⟩, some acceptor, .requiredTrusted, .auto, 65536, 10, 10⟩
    let inside : Detector :=
      ⟨⟨.disabled, .required, .required⟩, some acceptor, .requiredTrusted, .auto, 65536, 10, 10⟩
    let one := Wire.ofSegments
      [.octets [80, 82, 79, 88, 89, 32, 85, 78, 75, 78, 79, 87, 78, 13, 10, 104, 105, 10]]
    let two := Wire.ofSegments [.octets [22, 3, 1, 0, 4, 1, 2, 3, 4, 104, 105, 10]]
    let service := start ⟨"out", 8, [], [], ⟨[], none⟩, none⟩
    let c := Connection.accepted 1 (.v4 ⟨192, 0, 2, 1⟩ 5000) (.v4 ⟨192, 0, 2, 2⟩ 514)
    ((service.progress outside one c).isOver = true ∧
        (∃ p, service.ComesTo outside one c p ∧ (p.errand.header? outside).isSome = true) ∧
        (service.serve outside one c).service.counters.proxyHeaders = 0) ∧
      (service.progress inside two c).isOver = true ∧
        (∃ p, service.ComesTo inside two c p ∧ p.errand.accepts inside = true) ∧
        (service.serve inside two c).service.counters.tlsSessions = 0 := by
  intro acceptor outside inside one two service c
  obtain ⟨time, hone⟩ := service.comesTo_end outside one c
  obtain ⟨other, htwo⟩ := service.comesTo_end inside two c
  have hheader : (service.ending outside one c).connection.proxy.isSome = true := by
    decide +kernel
  have hsession : (service.ending inside two c).connection.isTls = true := by
    decide +kernel
  exact ⟨⟨by decide +kernel, (ComesTo.proxy_iff hone rfl).1 hheader, by decide +kernel⟩,
    by decide +kernel, (ComesTo.isTls_iff htwo rfl).1 hsession, by decide +kernel⟩

end Service
end SyslogIntake

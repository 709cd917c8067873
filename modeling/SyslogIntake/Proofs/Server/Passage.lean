import Mathlib.Computability.StateTransition
import SyslogIntake.Proofs.Server.Pieces

/-!
# The passage of a connection

A connection goes from one errand to the next: it looks for a header, it looks for the
beginning of a session and sets the session up, it looks for a header inside the session, it
waits for messages and hands them over, until it is over.  Here each errand is a step of its
own, so that it can be said at which of them a connection is, when it got there and what comes
of it.  All the steps together are what serving the connection does.

**Results.**

* `Detector.negotiate_eq` : a session is looked for first, and set up then;
* `goes_of_step` : all that one step can do;
* `run_reached` : serving a connection takes it through its passage to the end;
* `reached_over` : wherever a passage gets, it gets from there to its end;
* `Service.ComesTo.eq_end` : it has no other end than that.
-/

namespace SyslogIntake

open StateTransition (Reaches)

/-- What a look for the beginning of a session comes to. -/
inductive Greeting
  | plain
  | session (acceptor : Tls.Acceptor)
  | fault (cause : Fault)

/-- What a connection does next, and the stream that it does this with. -/
inductive Errand (σ : Type)
  | outerHeader (raw : Lookahead σ)
  | clientHello (raw : Lookahead σ)
  | handshake (acceptor : Tls.Acceptor) (raw : Lookahead σ)
  | innerHeader (decoded : Lookahead (Channel σ))
  | message (limit : Option Nat) (search : Framing.Search) (stream : Lookahead (Channel σ))
  | handover (frame : Frame) (framer : Framer) (stream : Lookahead (Channel σ))
  | finished (progress : Progress σ) (time : Nat)

/-- A connection on its way. -/
structure Passage (σ : Type) where
  serving : Serving
  errand : Errand σ

variable {σ : Type} [ByteStream σ]

namespace Detector

/-- Look for the beginning of a session, if there is to be one. -/
def greet (d : Detector) (raw : Lookahead σ) : Greeting × Lookahead σ :=
  match d.acceptor with
  | none => (.plain, raw)
  | some acceptor =>
      if d.plan.tls = .disabled then
        (.plain, raw)
      else
        match Tls.inquiry.run (some (ByteStream.after d.dataTimeout raw)) () raw with
        | (.failed _ report, raw) => (.fault (.io report), raw)
        | (.late _, raw) => (.fault (.late .clientHello), raw)
        | (.answer verdict, raw) =>
            match choose d.plan.tls verdict (raw.ended && raw.buffer.isEmpty) with
            | .none => (.plain, raw)
            | .fault flaw => (.fault (.handshake flaw), raw)
            | .begin => (.session acceptor, raw)

theorem negotiate_eq
    (d : Detector)
    (raw : Lookahead σ) :
    d.negotiate raw =
      match d.greet raw with
      | (.plain, raw) => (.ok ⟨.plain raw, none⟩, ByteStream.now raw)
      | (.fault cause, raw) => (.error cause, ByteStream.now raw)
      | (.session acceptor, raw) =>
          match Tls.accept acceptor d.peerVerify d.handshakeTimeout raw with
          | (.error fault, raw) => (.error fault, ByteStream.now raw)
          | (.ok peer, raw) => (.ok ⟨.session raw, peer⟩, ByteStream.now raw) := by
  unfold negotiate greet
  cases d.acceptor with
  | none => rfl
  | some acceptor =>
      dsimp only
      by_cases hpolicy : d.plan.tls = .disabled
      · rw [if_pos hpolicy, if_pos hpolicy]
      · rw [if_neg hpolicy, if_neg hpolicy]
        rcases Tls.inquiry.run (some (ByteStream.after d.dataTimeout raw)) () raw with
          ⟨verdict | ⟨_, report⟩ | _, next⟩
        · dsimp only
          cases choose d.plan.tls verdict (next.ended && next.buffer.isEmpty) <;> rfl
        · rfl
        · rfl

end Detector

namespace Errand

/-- When a connection comes to an errand. -/
def time : Errand σ → Nat
  | .outerHeader raw | .clientHello raw | .handshake _ raw => ByteStream.now raw
  | .innerHeader stream | .message _ _ stream | .handover _ _ stream => ByteStream.now stream
  | .finished _ time => time

/-- Whether nothing is left to be done. -/
def isOver : Errand σ → Bool
  | .finished _ _ => true
  | _ => false

end Errand

namespace Passage

def start (octets : σ) (s : Serving) : Passage σ :=
  ⟨s, .outerHeader (.fresh octets)⟩

def finish (progress : Progress σ) (s : Serving) (time : Nat) : Passage σ :=
  ⟨s, .finished progress time⟩

def fail (fault : Fault) (time : Nat) (s : Serving) : Passage σ :=
  finish (.failed fault) (s.goOn time) time

/-- A connection behind its stages, which waits for its first message. -/
def listen (d : Detector) (reader : Reader (Channel σ)) (s : Serving) : Passage σ :=
  ⟨(s.goOn (ByteStream.now reader.stream)).countFindings,
    .message (some (ByteStream.after d.dataTimeout reader.stream)) (.start reader.framer)
      reader.stream⟩

/-- A connection that goes without a session. -/
def stayPlain (d : Detector) (raw : Lookahead σ) (s : Serving) : Passage σ :=
  listen d (d.readerOf (.fresh (.plain raw)))
    { s with connection := s.connection.advance .framingSniff }

/-- A connection with a session, in which a header is looked for unless there was one outside. -/
def goInside (d : Detector) (raw : Lookahead σ) (peer : Option PeerIdentity) (s : Serving) :
    Passage σ :=
  let c := { s.connection with isTls := true, tlsPeer := peer }
  let decoded := Lookahead.fresh (Channel.session raw)
  if c.proxy = none then
    ⟨{ s with connection := c }, .innerHeader decoded⟩
  else
    listen d (d.readerOf decoded) { s with connection := c.advance .framingSniff }

/-- What a connection comes to by its next errand; nothing if it is over. -/
def step (d : Detector) (p : Passage σ) : Option (Passage σ) :=
  let s := p.serving
  let c := s.connection
  match p.errand with
  | .outerHeader raw =>
      match d.peel d.plan.outerProxy raw with
      | (.error fault, raw) =>
          some (fail fault (ByteStream.now raw)
            { s with connection := c.advance .proxyHeader })
      | (.ok found, raw) =>
          some
            ⟨{ s with
                connection :=
                  { c.advance .proxyHeader with proxy := found }.advance .tlsHandshake },
              .clientHello raw⟩
  | .clientHello raw =>
      match d.greet raw with
      | (.plain, raw) => some (stayPlain d raw s)
      | (.fault cause, raw) => some (fail cause (ByteStream.now raw) s)
      | (.session acceptor, raw) => some ⟨s, .handshake acceptor raw⟩
  | .handshake acceptor raw =>
      match Tls.accept acceptor d.peerVerify d.handshakeTimeout raw with
      | (.error fault, raw) => some (fail fault (ByteStream.now raw) s)
      | (.ok peer, raw) => some (goInside d raw peer s)
  | .innerHeader decoded =>
      match d.peel d.plan.innerProxy decoded with
      | (.error fault, decoded) => some (fail fault (ByteStream.now decoded) s)
      | (.ok found, decoded) =>
          some (listen d (d.readerOf decoded)
            { s with connection := { c with proxy := found }.advance .framingSniff })
  | .message limit search stream =>
      match search.attempt limit stream with
      | ⟨.frame frame, found, rest⟩ =>
          some ⟨s.hear (ByteStream.now rest) found, .handover frame found.framer rest⟩
      | ⟨.ended, found, rest⟩ =>
          some (finish .closed (s.hear (ByteStream.now rest) found) (ByteStream.now rest))
      | ⟨.fault fault, found, rest⟩ =>
          some (finish (.failed fault) (s.hear (ByteStream.now rest) found) (ByteStream.now rest))
      | ⟨.late, found, rest⟩ =>
          some (finish (Progress.waiting limit { found with notices := [] } rest).lapse
            (s.hear (ByteStream.now rest) found) (ByteStream.now rest))
  | .handover frame framer rest =>
      match s.deliver frame with
      | (.error fault, s) => some (finish (.failed fault) s (ByteStream.now rest))
      | (.ok _, s) => some ⟨s, .message none (.start framer) rest⟩
  | .finished _ _ => none

/-- All that one step can do. -/
inductive Goes (d : Detector) : Passage σ → Passage σ → Prop
  | headerFault
      {s : Serving} {raw next : Lookahead σ} {fault : Fault}
      (h : d.peel d.plan.outerProxy raw = (.error fault, next)) :
      Goes d ⟨s, .outerHeader raw⟩
        (fail fault (ByteStream.now next)
          { s with connection := s.connection.advance .proxyHeader })
  | header
      {s : Serving} {raw next : Lookahead σ} {found : Option ProxyHeader}
      (h : d.peel d.plan.outerProxy raw = (.ok found, next)) :
      Goes d ⟨s, .outerHeader raw⟩
        ⟨{ s with
            connection :=
              { s.connection.advance .proxyHeader with
                proxy := found }.advance .tlsHandshake },
          .clientHello next⟩
  | plain
      {s : Serving} {raw next : Lookahead σ}
      (h : d.greet raw = (.plain, next)) :
      Goes d ⟨s, .clientHello raw⟩ (stayPlain d next s)
  | helloFault
      {s : Serving} {raw next : Lookahead σ} {cause : Fault}
      (h : d.greet raw = (.fault cause, next)) :
      Goes d ⟨s, .clientHello raw⟩ (fail cause (ByteStream.now next) s)
  | hello
      {s : Serving} {raw next : Lookahead σ} {acceptor : Tls.Acceptor}
      (h : d.greet raw = (.session acceptor, next)) :
      Goes d ⟨s, .clientHello raw⟩ ⟨s, .handshake acceptor next⟩
  | handshakeFault
      {s : Serving} {raw next : Lookahead σ} {acceptor : Tls.Acceptor} {fault : Fault}
      (h : Tls.accept acceptor d.peerVerify d.handshakeTimeout raw = (.error fault, next)) :
      Goes d ⟨s, .handshake acceptor raw⟩ (fail fault (ByteStream.now next) s)
  | session
      {s : Serving} {raw next : Lookahead σ} {acceptor : Tls.Acceptor}
      {peer : Option PeerIdentity}
      (h : Tls.accept acceptor d.peerVerify d.handshakeTimeout raw = (.ok peer, next))
      (hproxy : s.connection.proxy = none) :
      Goes d ⟨s, .handshake acceptor raw⟩
        ⟨{ s with connection := { s.connection with isTls := true, tlsPeer := peer } },
          .innerHeader (.fresh (.session next))⟩
  | headedSession
      {s : Serving} {raw next : Lookahead σ} {acceptor : Tls.Acceptor}
      {peer : Option PeerIdentity}
      (h : Tls.accept acceptor d.peerVerify d.handshakeTimeout raw = (.ok peer, next))
      (hproxy : s.connection.proxy ≠ none) :
      Goes d ⟨s, .handshake acceptor raw⟩
        (listen d (d.readerOf (.fresh (.session next)))
          { s with
            connection :=
              { s.connection with isTls := true, tlsPeer := peer }.advance .framingSniff })
  | innerFault
      {s : Serving} {decoded next : Lookahead (Channel σ)} {fault : Fault}
      (h : d.peel d.plan.innerProxy decoded = (.error fault, next)) :
      Goes d ⟨s, .innerHeader decoded⟩ (fail fault (ByteStream.now next) s)
  | innerHeader
      {s : Serving} {decoded next : Lookahead (Channel σ)} {found : Option ProxyHeader}
      (h : d.peel d.plan.innerProxy decoded = (.ok found, next)) :
      Goes d ⟨s, .innerHeader decoded⟩
        (listen d (d.readerOf next)
          { s with connection := { s.connection with proxy := found }.advance .framingSniff })
  | frame
      {s : Serving} {limit : Option Nat} {search found : Framing.Search}
      {stream rest : Lookahead (Channel σ)} {frame : Frame}
      (h : search.attempt limit stream = ⟨.frame frame, found, rest⟩) :
      Goes d ⟨s, .message limit search stream⟩
        ⟨s.hear (ByteStream.now rest) found, .handover frame found.framer rest⟩
  | ended
      {s : Serving} {limit : Option Nat} {search found : Framing.Search}
      {stream rest : Lookahead (Channel σ)}
      (h : search.attempt limit stream = ⟨.ended, found, rest⟩) :
      Goes d ⟨s, .message limit search stream⟩
        (finish .closed (s.hear (ByteStream.now rest) found) (ByteStream.now rest))
  | messageFault
      {s : Serving} {limit : Option Nat} {search found : Framing.Search}
      {stream rest : Lookahead (Channel σ)} {fault : Fault}
      (h : search.attempt limit stream = ⟨.fault fault, found, rest⟩) :
      Goes d ⟨s, .message limit search stream⟩
        (finish (.failed fault) (s.hear (ByteStream.now rest) found) (ByteStream.now rest))
  | late
      {s : Serving} {limit : Option Nat} {search found : Framing.Search}
      {stream rest : Lookahead (Channel σ)}
      (h : search.attempt limit stream = ⟨.late, found, rest⟩) :
      Goes d ⟨s, .message limit search stream⟩
        (finish (Progress.waiting limit { found with notices := [] } rest).lapse
          (s.hear (ByteStream.now rest) found) (ByteStream.now rest))
  | refused
      {s after : Serving} {frame : Frame} {framer : Framer} {rest : Lookahead (Channel σ)}
      {fault : Fault}
      (h : s.deliver frame = (.error fault, after)) :
      Goes d ⟨s, .handover frame framer rest⟩
        (finish (.failed fault) after (ByteStream.now rest))
  | taken
      {s after : Serving} {frame : Frame} {framer : Framer} {rest : Lookahead (Channel σ)}
      {passed : Unit}
      (h : s.deliver frame = (.ok passed, after)) :
      Goes d ⟨s, .handover frame framer rest⟩ ⟨after, .message none (.start framer) rest⟩

theorem goes_of_step
    {d : Detector}
    {p q : Passage σ}
    (h : q ∈ p.step d) :
    Goes d p q := by
  obtain ⟨s, errand⟩ := p
  cases errand with
  | outerHeader raw =>
      simp only [step] at h
      split at h <;> cases h
      · exact .headerFault ‹_›
      · exact .header ‹_›
  | clientHello raw =>
      simp only [step] at h
      split at h <;> cases h
      · exact .plain ‹_›
      · exact .helloFault ‹_›
      · exact .hello ‹_›
  | handshake acceptor raw =>
      simp only [step] at h
      split at h <;> cases h
      · exact .handshakeFault ‹_›
      · unfold goInside
        dsimp only
        split
        · exact .session ‹_› ‹_›
        · exact .headedSession ‹_› ‹_›
  | innerHeader decoded =>
      simp only [step] at h
      split at h <;> cases h
      · exact .innerFault ‹_›
      · exact .innerHeader ‹_›
  | message limit search stream =>
      simp only [step] at h
      split at h <;> cases h
      · exact .frame ‹_›
      · exact .ended ‹_›
      · exact .messageFault ‹_›
      · exact .late ‹_›
  | handover frame framer rest =>
      simp only [step] at h
      split at h <;> cases h
      · exact .refused ‹_›
      · exact .taken ‹_›
  | finished progress time => cases h

/-- What is kept by every step is kept all the way. -/
theorem reached_induction
    {d : Detector}
    {p q : Passage σ}
    (holds : Passage σ → Prop)
    (hreached : Reaches (step d) p q)
    (hstart : holds p)
    (hstep : ∀ {p q}, Goes d p q → holds p → holds q) :
    holds q := by
  induction hreached with
  | refl => exact hstart
  | tail hbefore hnext ih => exact hstep (goes_of_step hnext) ih

/-- What holds at some point and did not at first has come about on the way. -/
theorem exists_cause
    {d : Detector}
    {p q : Passage σ}
    (holds cause : Passage σ → Prop)
    (hreached : Reaches (step d) p q)
    (hstart : ¬holds p)
    (h : holds q)
    (hstep : ∀ {p q}, Goes d p q → holds q → holds p ∨ cause p) :
    ∃ r, Reaches (step d) p r ∧ cause r := by
  induction hreached with
  | refl => exact absurd h hstart
  | @tail r q hbefore hnext ih =>
      rcases hstep (goes_of_step hnext) h with hheld | hcause
      · exact ih hheld
      · exact ⟨r, hbefore, hcause⟩

/-- What comes about at some point and is kept holds at every later one. -/
theorem holds_of_cause
    {d : Detector}
    {p q : Passage σ}
    (holds cause : Passage σ → Prop)
    (hreached : Reaches (step d) p q)
    (hcause : cause p)
    (hlater : ¬cause q)
    (hmake : ∀ {p q}, Goes d p q → cause p → holds q)
    (hkeep : ∀ {p q}, Goes d p q → holds p → holds q) :
    holds q := by
  rcases hreached.cases_head with rfl | ⟨r, hstep, hrest⟩
  · exact absurd hcause hlater
  · exact reached_induction holds hrest (hmake (goes_of_step hstep) hcause) hkeep

/-- Waiting for messages and handing them over is what handing on the messages of a stream does. -/
theorem stream_reached
    (d : Detector)
    (limit : Option Nat)
    (search : Framing.Search)
    (stream : Lookahead (Channel σ))
    (s : Serving) :
    ∃ time, Reaches (step d) ⟨s, .message limit search stream⟩
      (finish (s.stream limit search stream).1.lapse (s.stream limit search stream).2 time) := by
  fun_induction Serving.stream limit search stream s with
  | case1 limit search stream s frame found rest htried fault after hdelivered =>
      have hfound : (⟨s, .message limit search stream⟩ : Passage σ).step d =
          some ⟨s.hear (ByteStream.now rest) found, .handover frame found.framer rest⟩ := by
        simp only [step, htried]
      have hrefused : (⟨s.hear (ByteStream.now rest) found,
          .handover frame found.framer rest⟩ : Passage σ).step d =
            some (finish (.failed fault) after (ByteStream.now rest)) := by
        simp only [step, hdelivered]
      exact ⟨ByteStream.now rest, .head hfound (.single hrefused)⟩
  | case2 limit search stream s frame found rest htried passed after hdelivered ih =>
      have hfound : (⟨s, .message limit search stream⟩ : Passage σ).step d =
          some ⟨s.hear (ByteStream.now rest) found, .handover frame found.framer rest⟩ := by
        simp only [step, htried]
      have htaken : (⟨s.hear (ByteStream.now rest) found,
          .handover frame found.framer rest⟩ : Passage σ).step d =
            some ⟨after, .message none (.start found.framer) rest⟩ := by
        simp only [step, hdelivered]
      obtain ⟨time, hreached⟩ := ih
      exact ⟨time, .head hfound (.head htaken hreached)⟩
  | case3 limit search stream s found rest htried =>
      exact ⟨ByteStream.now rest, .single (by simp only [step, htried]; rfl)⟩
  | case4 limit search stream s fault found rest htried =>
      exact ⟨ByteStream.now rest, .single (by simp only [step, htried]; rfl)⟩
  | case5 limit search stream s found rest htried =>
      exact ⟨ByteStream.now rest, .single (by simp only [step, htried]; rfl)⟩

/-- Where a connection ends after its stages, whether they fail or not. -/
def endOf (d : Detector) (detected : Detected σ × Connection) (s : Serving) :
    Progress σ × Serving :=
  match detected with
  | (.fault fault time, connection) => (.failed fault, { s with connection }.goOn time)
  | (.reader reader, connection) =>
      let (progress, s) := { s with connection }.begin d reader
      (progress.lapse, s)

/-- The way from the end of the stages to the end of the connection. -/
theorem listen_reached
    (d : Detector)
    (reader : Reader (Channel σ))
    (s : Serving)
    (connection : Connection) :
    ∃ time, Reaches (step d) (listen d reader { s with connection })
      (finish (endOf d (.reader reader, connection) s).1
        (endOf d (.reader reader, connection) s).2 time) :=
  stream_reached d _ _ _ _

/-- The way from the beginning of a session. -/
theorem goInside_reached
    (d : Detector)
    (raw : Lookahead σ)
    (peer : Option PeerIdentity)
    (s : Serving) :
    ∃ time, Reaches (step d) (goInside d raw peer s)
      (finish
        (endOf d (d.detectInside (.session raw)
          { s.connection with isTls := true, tlsPeer := peer }) s).1
        (endOf d (d.detectInside (.session raw)
          { s.connection with isTls := true, tlsPeer := peer }) s).2 time) := by
  -- Behind a header outside of the session none is looked for inside.
  by_cases hproxy : s.connection.proxy = none
  · simp only [goInside, Detector.detectInside, Channel.isSession, hproxy, if_true, and_true]
    rcases hpeeled : d.peel d.plan.innerProxy (Lookahead.fresh (Channel.session raw)) with
      ⟨fault | found, decoded⟩
    · refine ⟨ByteStream.now decoded, .single ?_⟩
      simp only [step, hpeeled]
      rfl
    · obtain ⟨time, hreached⟩ := listen_reached d (d.readerOf decoded) s _
      refine ⟨time, .head ?_ hreached⟩
      simp only [step, hpeeled]
      rfl
  · simp only [goInside, Detector.detectInside, Channel.isSession, hproxy, if_false, and_false]
    exact listen_reached d _ s _

theorem run_reached
    (d : Detector)
    (octets : σ)
    (s : Serving) :
    ∃ time, Reaches (step d) (start octets s)
      (finish (s.run d octets).1 (s.run d octets).2 time) := by
  change ∃ time, Reaches (step d) (start octets s)
    (finish (endOf d (d.detect octets s.connection) s).1
      (endOf d (d.detect octets s.connection) s).2 time)
  unfold Detector.detect
  rcases hpeeled : d.peel d.plan.outerProxy (Lookahead.fresh octets) with ⟨fault | found, raw⟩
  · refine ⟨ByteStream.now raw, .single ?_⟩
    simp only [start, step, hpeeled]
    rfl
  dsimp only
  have hheader : (start octets s).step d = some
      ⟨{ s with
          connection :=
            { s.connection.advance .proxyHeader with proxy := found }.advance .tlsHandshake },
        .clientHello raw⟩ := by
    simp only [start, step, hpeeled]
  rw [Detector.negotiate_eq]
  -- From here on only the stream and the connection as such matter, not how it came to them.
  generalize { s.connection.advance .proxyHeader with proxy := found }.advance .tlsHandshake = c
    at hheader ⊢
  rcases hgreeted : d.greet raw with ⟨_ | acceptor | cause, greeted⟩
  · obtain ⟨time, hreached⟩ := listen_reached d (d.readerOf (.fresh (.plain greeted))) s
      (c.advance .framingSniff)
    refine ⟨time, .head hheader (.head ?_ hreached)⟩
    simp only [step, hgreeted]
    rfl
  · have hhello : (⟨{ s with connection := c }, .clientHello raw⟩ : Passage σ).step d =
        some ⟨{ s with connection := c }, .handshake acceptor greeted⟩ := by
      simp only [step, hgreeted]
    dsimp only
    rcases haccepted : Tls.accept acceptor d.peerVerify d.handshakeTimeout greeted with
      ⟨fault | peer, accepted⟩
    · refine ⟨ByteStream.now accepted, .head hheader (.head hhello (.single ?_))⟩
      simp only [step, haccepted]
      rfl
    · obtain ⟨time, hreached⟩ := goInside_reached d accepted peer { s with connection := c }
      refine ⟨time, .head hheader (.head hhello (.head ?_ hreached))⟩
      simp only [step, haccepted]
      rfl
  · refine ⟨ByteStream.now greeted, .head hheader (.single ?_)⟩
    simp only [step, hgreeted]
    rfl

theorem eq_of_over
    {d : Detector}
    {p q : Passage σ}
    (hreached : Reaches (step d) p q)
    (hover : p.errand.isOver = true) :
    p = q := by
  rcases hreached.cases_head with hsame | ⟨next, hstep, -⟩
  · exact hsame
  · obtain ⟨s, errand⟩ := p
    cases errand with
    | finished progress time => cases hstep
    | outerHeader | clientHello | handshake | innerHeader | message | handover => cases hover

theorem reached_over
    {d : Detector}
    {p q r : Passage σ}
    (hp : Reaches (step d) r p)
    (hq : Reaches (step d) r q)
    (hover : q.errand.isOver = true) :
    Reaches (step d) p q := by
  rcases StateTransition.reaches_total hp hq with hon | hback
  · exact hon
  · rw [eq_of_over hback hover]
    exact .refl

end Passage

namespace Service

/-- How a connection is at its end, before it is closed. -/
def ending (service : Service) (d : Detector) (octets : σ) (c : Connection) : Serving :=
  ((Serving.start service c (ByteStream.now octets)).run d octets).2

theorem serve_eq
    (service : Service)
    (d : Detector)
    (octets : σ)
    (c : Connection) :
    service.serve d octets c =
      (service.ending d octets c).close (service.progress d octets c) :=
  rfl

/-- Whether a connection comes to some point of a passage while it is served. -/
def ComesTo (service : Service) (d : Detector) (octets : σ) (c : Connection)
    (p : Passage σ) : Prop :=
  Reaches (Passage.step d) (Passage.start octets (.start service c (ByteStream.now octets))) p

theorem comesTo_end
    (service : Service)
    (d : Detector)
    (octets : σ)
    (c : Connection) :
    ∃ time, service.ComesTo d octets c
      (.finish (service.progress d octets c) (service.ending d octets c) time) :=
  Passage.run_reached d octets _

variable {service : Service} {d : Detector} {octets : σ} {c : Connection} {p q : Passage σ}

/-- From every point a connection comes to the end. -/
theorem ComesTo.reached_end
    (hp : service.ComesTo d octets c p)
    (hq : service.ComesTo d octets c q)
    (hover : q.errand.isOver = true) :
    Reaches (Passage.step d) p q :=
  Passage.reached_over hp hq hover

/-- It comes to no other end. -/
theorem ComesTo.eq_end
    (h : service.ComesTo d octets c p)
    (hover : p.errand.isOver = true) :
    ∃ time, p = .finish (service.progress d octets c) (service.ending d octets c) time := by
  obtain ⟨time, hend⟩ := service.comesTo_end d octets c
  exact ⟨time, Passage.eq_of_over (h.reached_end hend rfl) hover⟩

theorem exists_last
    (service : Service)
    (d : Detector)
    (octets : σ)
    (c : Connection) :
    ∃ p time, service.ComesTo d octets c p ∧
      .finish (service.progress d octets c) (service.ending d octets c) time ∈ p.step d := by
  obtain ⟨time, hend⟩ := service.comesTo_end d octets c
  rcases hend.cases_tail with hstart | ⟨p, hp, hstep⟩
  · have hover : true = false := congrArg (fun p => p.errand.isOver) hstart
    cases hover
  · exact ⟨p, time, hp, hstep⟩

end Service
end SyslogIntake

import SyslogIntake.Connection.Detector
import SyslogIntake.Proofs.Connection.Sniffing

/-!
# Surveying a whole text

If everything that a connection brings lies there as a whole, the stages are functions of
it: a header is taken off or not, a record is taken off if a session begins, and what is
left are the messages.  A detector comes to the same on any stream that brings the text in
time, and what it leaves to the reader brings the rest.

**Results.**

* `Detector.peel_survey`, `Detector.negotiate_survey` : single stages come to their surveys;
* `Detector.detect_survey` : so does a detector, however the text arrives.
-/

namespace SyslogIntake

namespace Tls

/-- What is left of a text behind its first record, if the record is complete. -/
def recordRest? : Octets → Option Octets
  | _ :: _ :: _ :: high :: low :: rest =>
      if Octets.bigEndian high low ≤ rest.length then
        some (rest.drop (Octets.bigEndian high low))
      else none
  | _ => none

/-- How a handshake fails on a text that ends, or on a stream that fails, before its record does. -/
def shortRecord (close : Option String) : Fault :=
  .handshake (.failed (close.getD "unexpected EOF"))

/-- What a handshake leaves of a whole text. -/
def handshakeWhole (answers : Answers) (close : Option String) (text : Octets) :
    Except Fault Octets :=
  match recordRest? text with
  | none => .error (shortRecord close)
  | some rest =>
      if answers.handshakeHangs then .error (.late .handshake)
      else
        match answers.handshakeReport with
        | some report => .error (.handshake (.failed report))
        | none => .ok rest

/-- What comes of a session in front of a whole text: the peer, and what is left of the text. -/
def acceptWhole (acceptor : Acceptor) (demand : PeerVerify) (close : Option String)
    (text : Octets) : Except Fault (Option PeerIdentity × Octets) :=
  let answers := acceptor.answers
  match answers.failure? .session, answers.failure? .stream with
  | some report, _ => .error (.session report)
  | none, some report => .error (.session report)
  | none, none =>
      match handshakeWhole answers close text with
      | .error fault => .error fault
      | .ok rest =>
          match answers.identity with
          | .error fault => .error fault
          | .ok peer =>
              match checkPeer demand peer (answers.verifyReport.getD "") with
              | .error fault => .error fault
              | .ok () => .ok (peer, rest)

variable {σ : Type} [ByteStream σ] [Supplied σ]

/-- A handshake takes the first record off the whole text. -/
theorem takeRecord_brings
    {span : Span} {close : Option String} {text : Octets} {limit : Option Nat}
    {raw : Lookahead σ}
    (hraw : Supplied.Brings span close text raw)
    (hmeets : span.Meets limit) :
    (∃ body rest next, recordRest? text = some rest ∧
        takeRecord limit raw = (.octets body, next) ∧ Supplied.Brings span close rest next) ∨
      (∃ seen next, recordRest? text = none ∧
        takeRecord limit raw = (.short close seen, next)) := by
  have hheader := ByteStream.readExact_brings hraw hmeets 5 []
  have hshort : text.length < 5 → recordRest? text = none := by
    intro hlt
    rcases text with _ | ⟨a, _ | ⟨b, _ | ⟨c, _ | ⟨d, _ | ⟨e, rest⟩⟩⟩⟩⟩
    · rfl
    · rfl
    · rfl
    · rfl
    · rfl
    · simp only [List.length_cons] at hlt
      omega
  by_cases hlength : 5 ≤ text.length
  · obtain ⟨next, hread, hnext⟩ := hheader.1 hlength
    rcases text with _ | ⟨a, _ | ⟨b, _ | ⟨c, _ | ⟨high, _ | ⟨low, rest⟩⟩⟩⟩⟩
    · simp at hlength
    · simp at hlength
    · simp at hlength
    · simp at hlength
    · simp at hlength
    · have htake : takeRecord limit raw =
          ByteStream.readExact (Octets.bigEndian high low) limit [] next := by
        simp [takeRecord, hread]
      have hbrings : Supplied.Brings span close rest next := by simpa using hnext
      have hbody := ByteStream.readExact_brings hbrings hmeets (Octets.bigEndian high low) []
      by_cases hle : Octets.bigEndian high low ≤ rest.length
      · obtain ⟨after, hafter, hrest⟩ := hbody.1 hle
        exact Or.inl ⟨_, _, after, if_pos hle, htake.trans hafter, hrest⟩
      · obtain ⟨after, hafter⟩ := hbody.2 (Nat.not_le.1 hle)
        exact Or.inr ⟨_, after, if_neg hle, htake.trans hafter⟩
  · obtain ⟨next, hread⟩ := hheader.2 (Nat.not_le.1 hlength)
    refine Or.inr ⟨[] ++ text, next, hshort (Nat.not_le.1 hlength), ?_⟩
    unfold takeRecord
    rw [hread]
    cases close <;> rfl

/-- A handshake comes to what it comes to in front of the whole text. -/
theorem handshake_survey
    {span : Span} {close : Option String} {text : Octets} {limit : Nat} {raw : Lookahead σ}
    (hraw : Supplied.Brings span close text raw)
    (hmeets : span.Meets (some limit))
    (answers : Answers) :
    (∃ rest next, handshakeWhole answers close text = .ok rest ∧
        handshake answers limit raw = (.ok (), next) ∧ Supplied.Brings span close rest next) ∨
      (∃ fault next, handshakeWhole answers close text = .error fault ∧
        handshake answers limit raw = (.error fault, next)) := by
  unfold handshake handshakeWhole
  rcases takeRecord_brings hraw hmeets with
    ⟨body, rest, next, hrest, htaken, hnext⟩ | ⟨seen, next, hrest, htaken⟩
  · rw [hrest, htaken]
    by_cases hhangs : answers.handshakeHangs = true
    · exact Or.inr ⟨.late .handshake, ByteStream.pass limit next, if_pos hhangs, if_pos hhangs⟩
    · cases hreport : answers.handshakeReport with
      | some report =>
          refine Or.inr ⟨.handshake (.failed report), next, ?_, ?_⟩
          · exact if_neg hhangs
          · exact if_neg hhangs
      | none =>
          refine Or.inl ⟨rest, next, ?_, ?_, hnext⟩
          · exact if_neg hhangs
          · exact if_neg hhangs
  · rw [hrest, htaken]
    cases close with
    | none =>
        exact Or.inr ⟨shortRecord none, next, rfl, rfl⟩
    | some report =>
        exact Or.inr ⟨shortRecord (some report), next, rfl, rfl⟩

theorem accept_survey
    {span : Span} {close : Option String} {text : Octets} {raw : Lookahead σ} {seconds : Nat}
    (hraw : Supplied.Brings span close text raw)
    (htime : span.due ≤ span.start + seconds * 1000)
    (acceptor : Acceptor) (demand : PeerVerify) :
    (∃ peer rest next, acceptWhole acceptor demand close text = .ok (peer, rest) ∧
        accept acceptor demand seconds raw = (.ok peer, next) ∧
        Supplied.Brings span close rest next) ∨
      (∃ fault next, acceptWhole acceptor demand close text = .error fault ∧
        accept acceptor demand seconds raw = (.error fault, next)) := by
  have hmeets : span.Meets (some (ByteStream.after seconds raw)) := by
    intro time htarget
    obtain rfl : ByteStream.after seconds raw = time := by simpa using htarget
    have hstart := Supplied.start_le hraw
    unfold ByteStream.after
    omega
  unfold accept acceptWhole
  dsimp only
  cases acceptor.answers.failure? .session with
  | some report =>
      exact Or.inr ⟨.session report, raw, rfl, rfl⟩
  | none =>
      cases acceptor.answers.failure? .stream with
      | some report =>
          exact Or.inr ⟨.session report, raw, rfl, rfl⟩
      | none =>
          rcases handshake_survey hraw hmeets acceptor.answers with
            ⟨rest, next, hwhole, hshake, hnext⟩ | ⟨fault, next, hwhole, hshake⟩
          · rw [hwhole, hshake]
            cases acceptor.answers.identity with
            | error fault =>
                exact Or.inr ⟨fault, next, rfl, rfl⟩
            | ok peer =>
                dsimp only
                cases checkPeer demand peer (acceptor.answers.verifyReport.getD "") with
                | error fault =>
                    exact Or.inr ⟨fault, next, rfl, rfl⟩
                | ok passed =>
                    exact Or.inl ⟨peer, rest, next, rfl, rfl, hnext⟩
          · rw [hwhole, hshake]
            exact Or.inr ⟨fault, next, rfl, rfl⟩

end Tls

namespace Detector

/-- Look for a header at the front of a whole text. -/
def surveyHeader (policy : StagePolicy) (close : Option String) (text : Octets) :
    Except Fault (Option ProxyHeader × Octets) :=
  if policy = .disabled then
    .ok (none, text)
  else
    match (ProxyHeader.inquiry (policy = .required)).whole close () text with
    | .ok (.ok found, rest) => .ok (found, rest)
    | .ok (.error fault, _) => .error fault
    | .error report => .error (.io report)

/-- What is found out about a session in front of a whole text. -/
structure SurveyedSession where
  isTls : Bool
  peer : Option PeerIdentity
  rest : Octets

/-- Begin a session in front of a whole text, if there is to be one. -/
def surveySession (d : Detector) (close : Option String) (text : Octets) :
    Except Fault SurveyedSession :=
  match d.acceptor with
  | none => .ok ⟨false, none, text⟩
  | some acceptor =>
      if d.plan.tls = .disabled then
        .ok ⟨false, none, text⟩
      else
        match Tls.inquiry.whole close () text with
        | .error report => .error (.io report)
        | .ok (verdict, rest) =>
            match choose d.plan.tls verdict rest.isEmpty with
            | .none => .ok ⟨false, none, rest⟩
            | .fault flaw => .error (.handshake flaw)
            | .begin =>
                match Tls.acceptWhole acceptor d.peerVerify close rest with
                | .error fault => .error fault
                | .ok (peer, rest) => .ok ⟨true, peer, rest⟩

/-- The stage inside a session, in front of a whole text. -/
def surveyInside (d : Detector) (close : Option String) (text : Octets) (isTls : Bool)
    (c : Connection) : Except Fault Octets × Connection :=
  if isTls ∧ c.proxy = none then
    match surveyHeader d.plan.innerProxy close text with
    | .error fault => (.error fault, c)
    | .ok (found, rest) => (.ok rest, { c with proxy := found }.advance .framingSniff)
  else
    (.ok text, c.advance .framingSniff)

/-- Take a new connection through its stages in front of a whole text: what is left of it. -/
def survey (d : Detector) (close : Option String) (text : Octets) (c : Connection) :
    Except Fault Octets × Connection :=
  let c := c.advance .proxyHeader
  match surveyHeader d.plan.outerProxy close text with
  | .error fault => (.error fault, c)
  | .ok (found, rest) =>
      let c := { c with proxy := found }.advance .tlsHandshake
      match d.surveySession close rest with
      | .error fault => (.error fault, c)
      | .ok ⟨isTls, peer, rest⟩ =>
          let c := if isTls then { c with isTls := true, tlsPeer := peer } else c
          d.surveyInside close rest isTls c

/-- Whether everything arrives within the limits of a detector. -/
structure Awaits (d : Detector) (span : Span) : Prop where
  data : span.due ≤ span.start + d.dataTimeout * 1000
  handshake : span.due ≤ span.start + d.handshakeTimeout * 1000

theorem awaits_of_wait
    {d : Detector} {wait : Nat}
    (hdata : wait ≤ d.dataTimeout * 1000)
    (hhandshake : wait ≤ d.handshakeTimeout * 1000) :
    d.Awaits ⟨0, wait⟩ where
  data := Nat.le_trans hdata (Nat.le_add_left ..)
  handshake := Nat.le_trans hhandshake (Nat.le_add_left ..)

variable {σ : Type} [ByteStream σ] [Supplied σ]

theorem Awaits.meets
    {d : Detector} {span : Span} {close : Option String} {text : Octets} {s : σ}
    (h : d.Awaits span)
    (hs : Supplied.Brings span close text s) :
    span.Meets (some (ByteStream.after d.dataTimeout s)) := by
  intro time htarget
  obtain rfl : ByteStream.after d.dataTimeout s = time := by simpa using htarget
  have hstart := Supplied.start_le hs
  have hdata := h.data
  unfold ByteStream.after
  omega

theorem peel_survey
    {d : Detector} {span : Span} {close : Option String} {text : Octets} {l : Lookahead σ}
    (hl : Supplied.Brings span close text l)
    (hawaits : d.Awaits span)
    (policy : StagePolicy) :
    (∃ found rest next, surveyHeader policy close text = .ok (found, rest) ∧
        d.peel policy l = (.ok found, next) ∧ Supplied.Brings span close rest next) ∨
      (∃ fault next, surveyHeader policy close text = .error fault ∧
        d.peel policy l = (.error fault, next)) := by
  unfold peel surveyHeader
  by_cases hpolicy : policy = .disabled
  · rw [if_pos hpolicy, if_pos hpolicy]
    exact Or.inl ⟨none, text, l, rfl, rfl, hl⟩
  · rw [if_neg hpolicy, if_neg hpolicy]
    rcases Inquiry.run_whole (ProxyHeader.inquiry_steady (policy = .required)) hl
      (hawaits.meets hl) () with
      ⟨answer, rest, next, hwhole, hrun, hnext⟩ | ⟨report, after, next, hwhole, hrun, _⟩
    · rw [hwhole, hrun]
      cases answer with
      | error fault =>
          exact Or.inr ⟨fault, next, rfl, rfl⟩
      | ok found =>
          exact Or.inl ⟨found, rest, next, rfl, rfl, hnext⟩
    · rw [hwhole, hrun]
      exact Or.inr ⟨.io report, next, rfl, rfl⟩

theorem choose_survey
    {span : Span} {close : Option String} {rest : Octets} {limit : Option Nat}
    {raw next : Lookahead σ} {verdict : Tls.Verdict}
    (hrun : Tls.inquiry.run limit () raw = (.answer verdict, next))
    (hnext : Supplied.Brings span close rest next)
    (policy : StagePolicy) :
    choose policy verdict (next.ended && next.buffer.isEmpty) =
      choose policy verdict rest.isEmpty := by
  cases verdict with
  | session | other =>
      rfl
  | undecided =>
      have hended : next.ended = true := by
        rcases Inquiry.run_answer hrun with ⟨state, seen, hlook⟩ | ⟨hended, _⟩
        · simp only [Tls.inquiry] at hlook
          split at hlook
          · simp at hlook
          · rename_i hother
            simp only [Looked.settled.injEq] at hlook
            exact absurd hlook.1 hother
        · exact hended
      obtain ⟨behind, hrest, _, hnothing⟩ := hnext
      have hbuffer : next.buffer = rest := by
        rw [hrest, (hnothing hended).1, List.append_nil]
      rw [hended, hbuffer, Bool.true_and]

theorem negotiate_survey
    {d : Detector} {span : Span} {close : Option String} {text : Octets} {raw : Lookahead σ}
    (hraw : Supplied.Brings span close text raw)
    (hawaits : d.Awaits span) :
    (∃ channel peer rest time, d.surveySession close text = .ok ⟨channel.isSession, peer, rest⟩ ∧
        d.negotiate raw = (.ok ⟨channel, peer⟩, time) ∧
        Supplied.Brings span close rest channel) ∨
      (∃ fault time, d.surveySession close text = .error fault ∧
        d.negotiate raw = (.error fault, time)) := by
  unfold negotiate surveySession
  cases d.acceptor with
  | none =>
      exact Or.inl ⟨.plain raw, none, text, _, rfl, rfl, hraw⟩
  | some acceptor =>
      dsimp only
      by_cases hpolicy : d.plan.tls = .disabled
      · rw [if_pos hpolicy, if_pos hpolicy]
        exact Or.inl ⟨.plain raw, none, text, _, rfl, rfl, hraw⟩
      · rw [if_neg hpolicy, if_neg hpolicy]
        rcases Inquiry.run_whole Tls.inquiry_steady hraw (hawaits.meets hraw) () with
          ⟨verdict, rest, next, hwhole, hrun, hnext⟩ | ⟨report, after, next, hwhole, hrun, _⟩
        · have hchoice := choose_survey hrun hnext d.plan.tls
          rw [hwhole, hrun]
          simp only [hchoice]
          cases choose d.plan.tls verdict rest.isEmpty with
          | none =>
              exact Or.inl ⟨.plain next, none, rest, _, rfl, rfl, hnext⟩
          | fault flaw =>
              exact Or.inr ⟨_, _, rfl, rfl⟩
          | begin =>
              rcases Tls.accept_survey hnext hawaits.handshake acceptor d.peerVerify with
                ⟨peer, left, after, hwhole, haccept, hafter⟩ | ⟨fault, after, hwhole, haccept⟩
              · simp only [hwhole, haccept]
                exact Or.inl ⟨.session after, peer, left, _, rfl, rfl, hafter⟩
              · simp only [hwhole, haccept]
                exact Or.inr ⟨_, _, rfl, rfl⟩
        · rw [hwhole, hrun]
          exact Or.inr ⟨_, _, rfl, rfl⟩

theorem detectInside_survey
    {d : Detector} {span : Span} {close : Option String} {text : Octets} {channel : Channel σ}
    (hchannel : Supplied.Brings span close text channel)
    (hawaits : d.Awaits span)
    (c : Connection) :
    (∃ rest stream after,
        d.surveyInside close text channel.isSession c = (.ok rest, after) ∧
        d.detectInside channel c = (.reader (d.readerOf stream), after) ∧
        Supplied.Brings span close rest stream) ∨
      (∃ fault time after,
        d.surveyInside close text channel.isSession c = (.error fault, after) ∧
        d.detectInside channel c = (.fault fault time, after)) := by
  have hfresh := Lookahead.brings_fresh hchannel
  unfold detectInside surveyInside
  dsimp only
  by_cases hinside : channel.isSession = true ∧ c.proxy = none
  · rw [if_pos hinside, if_pos hinside]
    rcases peel_survey hfresh hawaits d.plan.innerProxy with
      ⟨found, rest, next, hsurvey, hpeel, hnext⟩ | ⟨fault, next, hsurvey, hpeel⟩
    · rw [hsurvey, hpeel]
      exact Or.inl ⟨rest, next, _, rfl, rfl, hnext⟩
    · rw [hsurvey, hpeel]
      exact Or.inr ⟨fault, _, _, rfl, rfl⟩
  · rw [if_neg hinside, if_neg hinside]
    exact Or.inl ⟨text, _, _, rfl, rfl, hfresh⟩

/-- A detector comes to what the survey of the whole text says, however the text arrives. -/
theorem detect_survey
    {d : Detector} {span : Span} {close : Option String} {text : Octets} {stream : σ}
    (hstream : Supplied.Brings span close text stream)
    (hawaits : d.Awaits span)
    (c : Connection) :
    (∃ rest decoded after, d.survey close text c = (.ok rest, after) ∧
        d.detect stream c = (.reader (d.readerOf decoded), after) ∧
        Supplied.Brings span close rest decoded) ∨
      (∃ fault time after, d.survey close text c = (.error fault, after) ∧
        d.detect stream c = (.fault fault time, after)) := by
  have hfresh := Lookahead.brings_fresh hstream
  unfold detect survey
  dsimp only
  rcases peel_survey hfresh hawaits d.plan.outerProxy with
    ⟨found, rest, raw, hsurvey, hpeel, hraw⟩ | ⟨fault, raw, hsurvey, hpeel⟩
  · rw [hsurvey, hpeel]
    dsimp only
    rcases negotiate_survey hraw hawaits with
      ⟨channel, peer, left, time, hsession, hnegotiate, hchannel⟩ |
      ⟨fault, time, hsession, hnegotiate⟩
    · rw [hsession, hnegotiate]
      exact detectInside_survey hchannel hawaits _
    · rw [hsession, hnegotiate]
      exact Or.inr ⟨fault, time, _, rfl, rfl⟩
  · rw [hsurvey, hpeel]
    exact Or.inr ⟨fault, _, _, rfl, rfl⟩

end Detector
end SyslogIntake

import SyslogIntake.Proofs.ProxyHeader.Pending
import SyslogIntake.Proofs.Server.Passage
import SyslogIntake.Proofs.Server.Wrapping

/-!
# Headers that are cut off

A connection may end within a header.  Once its signature is there, what has come of it is never
taken for a message: it is malformed, whether or not there has to be a header.  Less than a
signature is malformed only if there has to be one, and is a message otherwise.  It makes no
difference whether the header stands on the connection itself or inside a session.

**Results.**

* `Detector.surveyHeader_cutOff`, `Detector.surveyHeader_short` : what becomes of less than a
  header;
* `Detector.survey_cutsOff` : the stages come to the same on the connection and inside a session;
* `Service.serve_left` : what the stages leave is decoded and handed on;
* `Service.serve_truncated` : what is served of a connection that ends within a header.
-/

namespace SyslogIntake

namespace ProxyHeader

/-- What is wrong with a header of which no more than the beginning has come. -/
def cutFlaw (part : Octets) : HeaderFlaw :=
  if signatureLength part ≤ part.length then .cutOff part.length else .endedBefore

theorem finish_cutOff
    {required : Bool} {part : Octets}
    (hsome : part ≠ [])
    (h : signatureLength part ≤ part.length ∨ required = true) :
    finish required part = .error (.header (cutFlaw part)) := by
  rw [finish, if_neg hsome, cutFlaw]
  by_cases hlong : signatureLength part ≤ part.length
  · rw [if_pos hlong, if_pos hlong]
  · rw [if_neg hlong, if_neg hlong, if_pos (h.resolve_left hlong)]

/-- What may still become a header at the end of the stream is decided there. -/
theorem whole_of_incomplete
    {part : Octets} {needed : Nat}
    (h : parse part = .ok (.incomplete needed))
    (required : Bool) :
    (inquiry required).whole none () part = .ok (finish required part, part) := by
  simp [Inquiry.whole, inquiry, look, h]

end ProxyHeader

/-- No session begins with what may still become a header. -/
theorem Tls.check_of_incomplete
    {part : Octets} {needed : Nat}
    (h : ProxyHeader.parse part = .ok (.incomplete needed)) :
    check part ≠ .session := by
  intro hsession
  have habsent := absent_of_session hsession []
  rw [List.append_nil, h] at habsent
  cases habsent

namespace Detector

/-- The beginning of a header is malformed if it has a signature, or if there has to be a header. -/
theorem surveyHeader_cutOff
    {policy : StagePolicy} {part : Octets} {needed : Nat}
    (hpolicy : policy ≠ .disabled)
    (hparse : ProxyHeader.parse part = .ok (.incomplete needed))
    (hsome : part ≠ [])
    (h : ProxyHeader.signatureLength part ≤ part.length ∨ policy = .required) :
    surveyHeader policy none part = .error (.header (ProxyHeader.cutFlaw part)) := by
  have hfinish := ProxyHeader.finish_cutOff hsome (h.imp_right decide_eq_true)
  rw [surveyHeader, if_neg hpolicy, ProxyHeader.whole_of_incomplete hparse, hfinish]

/-- Nothing at all is left as it is, and so is less than a signature if there may be no header. -/
theorem surveyHeader_short
    {policy : StagePolicy} {part : Octets}
    (h : part = [] ∨ policy = .optional ∧ ProxyHeader.Headless part) :
    surveyHeader policy none part = .ok (none, part) := by
  rcases h with rfl | hoptional
  · cases policy with
    | disabled | optional | required => rfl
  · exact surveyHeader_headless (Or.inr hoptional)

/-- The stages end with a fault. -/
def Fails (d : Detector) (text : Octets) (fault : Fault) : Prop :=
  ∀ c, ∃ after, d.survey none text c = (.error fault, after)

theorem fails_outside
    {d : Detector} {text : Octets} {fault : Fault}
    (houter : surveyHeader d.plan.outerProxy none text = .error fault) :
    d.Fails text fault := by
  intro c
  exact ⟨c.advance .proxyHeader, by simp [survey, houter]⟩

theorem fails_inside
    {d : Detector} {text rest behind : Octets} {peer : Option PeerIdentity} {fault : Fault}
    (houter : surveyHeader d.plan.outerProxy none text = .ok (none, rest))
    (hsession : d.surveySession none rest = .ok ⟨true, peer, behind⟩)
    (hinner : surveyHeader d.plan.innerProxy none behind = .error fault) :
    d.Fails text fault := by
  intro c
  refine ⟨{ { c.advance .proxyHeader with proxy := none }.advance .tlsHandshake with
    isTls := true, tlsPeer := peer }, ?_⟩
  simp [survey, houter, hsession, surveyInside, hinner]

/--
The ways in which a connection may end where a header begins, by transport: the text that arrives,
and whether there has to be a header.
-/
inductive CutsOff (d : Detector) (part : Octets) :
    Transport → Octets → StagePolicy → Prop
  | outside
      {transport : Transport} {policy : StagePolicy}
      (hpolicy : transport = .proxiedTcp ∧ policy = .required ∨
        transport = .auto ∧ policy = .optional) :
      CutsOff d part transport part policy
  | inside
      {record : Octets} {acceptor : Tls.Acceptor}
      {transport : Transport} {policy : StagePolicy}
      (hacceptor : d.acceptor = some acceptor)
      (hadmits : Tls.Admits acceptor d.peerVerify record)
      (hpolicy : transport = .proxiedTls ∧ policy = .required ∨
        transport = .auto ∧ policy = .optional) :
      CutsOff d part transport (record ++ part) policy

theorem CutsOff.enabled
    {d : Detector} {part text : Octets} {transport : Transport} {policy : StagePolicy}
    (h : d.CutsOff part transport text policy) :
    policy ≠ .disabled := by
  cases h with
  | outside hpolicy | inside _ _ hpolicy =>
      rcases hpolicy with ⟨-, rfl⟩ | ⟨-, rfl⟩
      · exact nofun
      · exact nofun

/-- Outside a session or inside it, the stages come to what a look at the part comes to. -/
theorem survey_cutsOff
    {d : Detector} {transport : Transport} {part text : Octets} {policy : StagePolicy}
    (hplan : d.plan = .ofTransport transport d.acceptor.isSome)
    (hcuts : d.CutsOff part transport text policy)
    (hplain : Tls.check part ≠ .session) :
    (∀ fault, surveyHeader policy none part = .error fault → d.Fails text fault) ∧
      (surveyHeader policy none part = .ok (none, part) → d.Leaves text part none) := by
  cases hcuts with
  | outside hpolicy =>
      have hstages : d.plan.outerProxy = policy ∧
          (d.plan.tls = .disabled ∨ d.plan.tls = .optional) := by
        rcases hpolicy with ⟨rfl, rfl⟩ | ⟨rfl, rfl⟩
        · rw [hplan]
          exact ⟨rfl, Or.inl rfl⟩
        · exact auto_stages hplan
      obtain ⟨rfl, htls⟩ := hstages
      have hsession := surveySession_plain (htls.imp_right fun h => ⟨h, fun _ => hplain⟩)
      exact ⟨fun fault => fails_outside, fun houter => leaves_plain houter hsession⟩
  | inside hacceptor hadmits hpolicy =>
      have hstages : (d.plan.outerProxy = .disabled ∨ d.plan.outerProxy = .optional) ∧
          d.plan.tls ≠ .disabled ∧ d.plan.innerProxy = policy := by
        rw [hplan, hacceptor]
        rcases hpolicy with ⟨rfl, rfl⟩ | ⟨rfl, rfl⟩ <;> simp [Plan.ofTransport]
      obtain ⟨houter, htls, rfl⟩ := hstages
      have habsent := Tls.absent_of_session hadmits.begins part
      have hfirst := surveyHeader_headless (houter.imp_right fun h => ⟨h, Or.inl habsent⟩)
      obtain ⟨peer, hsession⟩ := surveySession_admits hacceptor htls hadmits part
      exact ⟨fun fault => fails_inside hfirst hsession, leaves_inside hfirst hsession⟩

end Detector

/-- If there is nothing to hand on, the connection ends as its decoding does. -/
theorem Hands.nothing
    {due : Nat} {fault result : Option Fault} {s after : Serving}
    (h : Hands due fault [] s result after) :
    result = fault ∧ after.handed = s.handed := by
  cases h with
  | finished search htime =>
      exact ⟨rfl, Serving.hear_handed _ search s⟩

namespace Service

variable {σ : Type} [ByteStream σ] [Supplied σ]

theorem serve_fails
    {d : Detector} {span : Span} {text : Octets} {octets : σ} {fault : Fault}
    (hoctets : Supplied.Brings span none text octets)
    (hawaits : d.Awaits span)
    (hfails : d.Fails text fault)
    (service : Service) (c : Connection) :
    service.progress d octets c = .failed fault ∧ (service.serve d octets c).handed = [] := by
  obtain ⟨after, hsurvey⟩ := hfails c
  obtain ⟨time, hrun⟩ := Serving.run_fault hoctets hawaits
    (s := Serving.start service c (ByteStream.now octets)) hsurvey
  rw [serve_eq, Serving.close_handed, ending, progress, hrun]
  exact ⟨rfl, Serving.goOn_handed time _⟩

/-- What the stages leave is decoded and handed on, unless the writer stops meanwhile. -/
theorem serve_left
    {d : Detector} {span : Span} {text rest : Octets} {header : Option ProxyHeader} {octets : σ}
    (hoctets : Supplied.Brings span none text octets)
    (hawaits : d.Awaits span)
    (hleaves : d.Leaves text rest header)
    (service : Service) (c : Connection) :
    let progress := service.progress d octets c
    let handed := (service.serve d octets c).handed
    let decoded := Framing.decode none d.most (.ofPolicy d.framing) rest
    handed.map Handover.frame <+: decoded.frames ∧
      (∀ x ∈ handed, x.connection.proxy = header) ∧
      (progress.fault? ≠ some .writerStopped →
        handed.map Handover.frame = decoded.frames ∧
          progress.fault?.map Fault.bare = decoded.fault) := by
  intro progress handed decoded
  obtain ⟨after, hsurvey, hheader⟩ := hleaves c
  obtain ⟨time, -, -, hhands⟩ := Serving.run_hands hoctets hawaits
    (s := Serving.start service c (ByteStream.now octets)) hsurvey
  have hhanded : handed = (service.ending d octets c).handed := Serving.close_handed _ _
  have hstart : ({ Serving.start service c (ByteStream.now octets) with
      connection := after }.goOn time).countFindings.handed = [] := Serving.goOn_handed time _
  refine ⟨?_, ?_, fun hrunning => ?_⟩
  · obtain ⟨more, hmore, hfront⟩ := hhands.front_frame
    rw [hstart, List.nil_append] at hmore
    rwa [hhanded, ending, hmore]
  · intro x hx
    rw [hhanded] at hx
    exact (Serving.run_known hoctets hawaits hsurvey rfl hx).1.trans hheader
  · obtain ⟨hall, -, -, hfault⟩ := hhands.complete (Progress.bare_ne_writerStopped hrunning)
    rw [hstart, List.nil_append] at hall
    rw [hhanded, ending, hall]
    exact ⟨Serving.handovers_frame _ _, hfault⟩

theorem serve_nothing
    {d : Detector} {span : Span} {text : Octets} {header : Option ProxyHeader} {octets : σ}
    (hoctets : Supplied.Brings span none text octets)
    (hawaits : d.Awaits span)
    (hleaves : d.Leaves text [] header)
    (service : Service) (c : Connection) :
    service.progress d octets c = .closed ∧ (service.serve d octets c).handed = [] := by
  obtain ⟨after, hsurvey, -⟩ := hleaves c
  obtain ⟨time, -, hover, hhands⟩ := Serving.run_hands hoctets hawaits
    (s := Serving.start service c (ByteStream.now octets)) hsurvey
  rw [Framing.decode_nil] at hhands
  obtain ⟨hfault, hhanded⟩ := hhands.nothing
  rw [serve_eq, Serving.close_handed]
  refine ⟨?_, hhanded.trans (Serving.goOn_handed time _)⟩
  change (service.progress d octets c).isOver = true at hover
  change (service.progress d octets c).fault?.map Fault.bare = none at hfault
  cases hprogress : service.progress d octets c with
  | closed => rfl
  | failed fault =>
      rw [hprogress] at hfault
      cases hfault
  | waiting limit search stream =>
      rw [hprogress] at hover
      cases hover

/--
What is served of a connection that ends within a header, on the connection itself or inside a
session.  What has come may still become a header.  If it has the whole signature, or if there has
to be a header, it is malformed and nothing is handed on; if there may be none, less than a
signature is decoded like any message.  A connection that ends in front of the header is closed.
-/
theorem serve_truncated
    {settings : Settings} {acceptor : Option Tls.Acceptor} {d : Detector}
    (hd : Detector.ofSettings settings acceptor = .ok d)
    {whole part text : Octets} {header : ProxyHeader} {policy : StagePolicy}
    (hwhole : ProxyHeader.parse whole = .ok (.complete header whole.length))
    (hpart : part <+: whole)
    (hshort : part.length < whole.length)
    (hcuts : d.CutsOff part settings.transport text policy)
    {wait : Nat} {segments : List Segment}
    (hcut : Cut text wait segments)
    (hdata : wait ≤ d.dataTimeout * 1000)
    (hhandshake : wait ≤ d.handshakeTimeout * 1000)
    (service : Service) (c : Connection) :
    let wire := Wire.ofSegments segments
    let progress := service.progress d wire c
    let handed := (service.serve d wire c).handed
    let decoded := Framing.decode none d.most (.ofPolicy d.framing) part
    (∃ needed, ProxyHeader.parse part = .ok (.incomplete needed)) ∧
      (part ≠ [] → header.form.signature.length ≤ part.length ∨ policy = .required →
        progress = .failed (.header (ProxyHeader.cutFlaw part)) ∧ handed = []) ∧
      (part ≠ [] → part.length < header.form.signature.length → policy = .optional →
        handed.map Handover.frame <+: decoded.frames ∧
          (∀ x ∈ handed, x.connection.proxy = none) ∧
          (progress.fault? ≠ some .writerStopped →
            handed.map Handover.frame = decoded.frames ∧
              progress.fault?.map Fault.bare = decoded.fault)) ∧
      (part = [] → progress = .closed ∧ handed = []) := by
  intro wire progress handed decoded
  obtain ⟨hplan, -, -⟩ := Detector.ofSettings_ok hd
  obtain ⟨needed, hparse⟩ := ProxyHeader.exists_incomplete hwhole hpart hshort
  have hsignature := ProxyHeader.signatureLength_of_prefix hwhole hpart
  obtain ⟨hfails, hleaves⟩ :=
    Detector.survey_cutsOff hplan hcuts (Tls.check_of_incomplete hparse)
  have hawaits : d.Awaits ⟨0, wait⟩ := Detector.awaits_of_wait hdata hhandshake
  have hwire := Wire.brings_ofSegments hcut none
  rw [Segment.closing, List.append_nil] at hwire
  refine ⟨⟨needed, hparse⟩, fun hsome hlong => ?_, fun hsome hless hoptional => ?_, fun hnone => ?_⟩
  · rw [← hsignature hsome] at hlong
    exact serve_fails hwire hawaits
      (hfails _ (Detector.surveyHeader_cutOff hcuts.enabled hparse hsome hlong)) service c
  · rw [← hsignature hsome] at hless
    have hheadless : ProxyHeader.Headless part := Or.inr ⟨needed, hparse, hless⟩
    exact serve_left hwire hawaits
      (hleaves (Detector.surveyHeader_short (Or.inr ⟨hoptional, hheadless⟩))) service c
  · subst hnone
    exact serve_nothing hwire hawaits
      (hleaves (Detector.surveyHeader_short (Or.inl rfl))) service c

/-- Inside a session that may have no header, four octets of one are a message, and five are not. -/
theorem serve_truncated_session :
    let settings : Settings :=
      { Settings.default with transport := .auto, tls := some (.ofFiles "key" "cert") }
    let acceptor : Tls.Acceptor := ⟨{ Tls.Answers.default with peer := some ⟨[], .ok [7]⟩ }⟩
    let record : Octets := [22, 3, 1, 0, 4, 1, 2, 3, 4]
    let c := Connection.accepted 1 (.v4 ⟨192, 0, 2, 1⟩ 5000) (.v4 ⟨192, 0, 2, 2⟩ 514)
    let service := start ⟨"out", 8, [], [], ⟨[], none⟩, none⟩
    ∃ d, Detector.ofSettings settings (some acceptor) = .ok d ∧
      (service.serve d (Wire.ofSegments [.octets record, .pause 3, .octets [80, 82, 79, 88]])
          c).handed.map Handover.frame = [⟨none, [80, 82, 79, 88]⟩] ∧
      (service.progress d (Wire.ofSegments [.octets record, .octets [80, 82, 79, 88, 89]])
          c).fault? = some (.header (.cutOff 5)) := by
  intro settings acceptor record c service
  have hd : Detector.ofSettings settings (some acceptor) = .ok _ := rfl
  have hadmits : Tls.Admits acceptor .requiredTrusted record :=
    { begins := by decide
      taken := by decide
      started := by decide
      shaken := by decide
      passed := ⟨_, rfl, by decide⟩ }
  -- the text of a header that names no endpoints
  have hwhole : ProxyHeader.parse
      [80, 82, 79, 88, 89, 32, 85, 78, 75, 78, 79, 87, 78, 13, 10] =
      .ok (.complete ⟨.text, none, none, none⟩ 15) := by decide +kernel
  have hfour : Cut (record ++ [80, 82, 79, 88]) 3
      [.octets record, .pause 3, .octets [80, 82, 79, 88]] :=
    .piece (by decide) (.pause 3 (@Cut.piece [80, 82, 79, 88] [] 0 _ (by decide) .nil))
  have hfive : Cut (record ++ [80, 82, 79, 88, 89]) 0
      [.octets record, .octets [80, 82, 79, 88, 89]] :=
    .piece (by decide) (@Cut.piece [80, 82, 79, 88, 89] [] 0 _ (by decide) .nil)
  have hshort := serve_truncated hd hwhole (by decide) (by decide)
    (.inside rfl hadmits (Or.inr ⟨rfl, rfl⟩)) hfour (by decide) (by decide) service c
  have hlong := serve_truncated hd hwhole (by decide) (by decide)
    (.inside rfl hadmits (Or.inr ⟨rfl, rfl⟩)) hfive (by decide) (by decide) service c
  refine ⟨_, hd, ?_, ?_⟩
  · have hmessage := (hshort.2.2.1 (by decide) (by decide) rfl).2.2 (by decide +kernel)
    exact hmessage.1.trans (by decide +kernel)
  · exact congrArg Progress.fault? (hlong.2.1 (by decide) (Or.inl (by decide))).1

end Service
end SyslogIntake

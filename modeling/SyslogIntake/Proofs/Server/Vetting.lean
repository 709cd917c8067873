import SyslogIntake.Proofs.Connection.Vetting
import SyslogIntake.Proofs.Server.Handing
import SyslogIntake.Stream.Wire

/-!
# What every record has been through

Every record that is handed to the output was given by the reader behind the stages, and
what is known about its connection is what the stages found.  So the demands of a transport
and the demand on the peer hold for every record, whatever the stream brings and whenever
it pauses, ends or fails.

**Results.**

* `Serving.stream_handed` : what is handed on was given by the reader;
* `Service.serve_vetted` : no record gets around a stage that is required.
-/

namespace SyslogIntake

namespace Reader

variable {σ : Type} [ByteStream σ]

/-- The messages that a reader gives, one after the other, whatever limits there are. -/
inductive Gives : Reader σ → Frame → Prop
  | now
      {r after : Reader σ}
      {limit : Option Nat}
      {found : Frame}
      {notices : List Framing.Notice}
      (h : r.next limit = (.frame found, notices, after)) :
      Gives r found
  | later
      {r after : Reader σ}
      {limit : Option Nat}
      {other found : Frame}
      {notices : List Framing.Notice}
      (h : r.next limit = (.frame other, notices, after))
      (hrest : Gives after found) :
      Gives r found

theorem not_gives
    {r : Reader σ} {found : Frame}
    (hexhausted : r.stream.Exhausted) :
    ¬ r.Gives found := by
  have hnone : ∀ {limit : Option Nat} {other : Frame} {notices : List Framing.Notice}
      {after : Reader σ}, r.next limit ≠ (.frame other, notices, after) := by
    intro limit other notices after hnext
    have hended := Framing.Search.attempt_exhausted hexhausted r.framer limit
    have hframe := congrArg Prod.fst hnext
    simp only [next, hended] at hframe
    cases hframe
  intro hgives
  cases hgives with
  | now h => exact hnone h
  | later h hrest => exact hnone h

end Reader

namespace Serving

variable {σ : Type} [ByteStream σ]

/-- What is known about a connection: its ends, and a header, a session and its peer. -/
def findings (c : Connection) :
    Endpoint × Endpoint × Option ProxyHeader × Bool × Option PeerIdentity :=
  (c.peer, c.localEnd, c.proxy, c.isTls, c.tlsPeer)

@[simp]
theorem findings_onFrame
    (frame : Frame) (c : Connection) :
    findings (onFrame frame c) = findings c := by
  simp [findings, onFrame]

/-- What is handed on was given by the reader, over the connection as the stages left it. -/
theorem stream_handed
    {framer : Framer} {search : Framing.Search}
    (hsearch : search = .start framer)
    (limit : Option Nat) (octets : Lookahead (Channel σ)) (s : Serving) :
    ∀ x ∈ (s.stream limit search octets).2.handed, x ∈ s.handed ∨
      (Reader.mk framer octets).Gives x.frame ∧
        findings x.connection = findings s.connection := by
  fun_induction stream limit search octets s generalizing framer with
  | case1 limit search octets s frame found rest htried cause after hdelivered =>
      subst hsearch
      have hnext : (Reader.mk framer octets).next limit =
          (.frame frame, found.notices, ⟨found.framer, rest⟩) := by
        simp [Reader.next, htried]
      obtain ⟨taken, hhanded, hconnection⟩ := (delivered_of_deliver hdelivered).handed
      intro x hx
      rw [hhanded, List.mem_append, List.mem_singleton, hear_handed] at hx
      rcases hx with hx | rfl
      · exact Or.inl hx
      · exact Or.inr ⟨.now hnext, by simp⟩
  | case2 limit search octets s frame found rest htried passed after hdelivered ih =>
      subst hsearch
      have hnext : (Reader.mk framer octets).next limit =
          (.frame frame, found.notices, ⟨found.framer, rest⟩) := by
        simp [Reader.next, htried]
      obtain ⟨taken, hhanded, hconnection⟩ := (delivered_of_deliver hdelivered).handed
      intro x hx
      rcases ih rfl x hx with hx | ⟨hgives, hfindings⟩
      · rw [hhanded, List.mem_append, List.mem_singleton, hear_handed] at hx
        rcases hx with hx | rfl
        · exact Or.inl hx
        · exact Or.inr ⟨.now hnext, by simp⟩
      · refine Or.inr ⟨.later hnext hgives, ?_⟩
        rw [hfindings, hconnection]
        simp
  | case3 limit search octets s found rest htried =>
      intro x hx
      exact Or.inl (by simpa using hx)
  | case4 limit search octets s fault found rest htried =>
      intro x hx
      exact Or.inl (by simpa using hx)
  | case5 limit search octets s found rest htried =>
      intro x hx
      exact Or.inl (by simpa using hx)

omit [ByteStream σ] in
theorem close_handed
    (progress : Progress σ)
    (s : Serving) :
    (s.close progress).handed = s.handed := by
  cases progress with
  | closed | failed | waiting =>
      rfl

theorem begin_handed
    (d : Detector) (reader : Reader (Channel σ)) (s : Serving) :
    ∀ x ∈ (s.begin d reader).2.handed, x ∈ s.handed ∨
      reader.Gives x.frame ∧ findings x.connection = findings s.connection := by
  intro x hx
  unfold begin at hx
  rcases stream_handed rfl _ reader.stream _ x hx with hbefore | hgiven
  · simp only [countFindings, count, goOn_handed] at hbefore
    exact Or.inl hbefore
  · simp only [countFindings, count, goOn_connection] at hgiven
    exact Or.inr hgiven

/-- What is handed on was given by the reader behind the stages. -/
theorem run_handed
    {d : Detector} {octets : σ} {s : Serving} {x : Handover}
    (hstart : s.handed = [])
    (hx : x ∈ (s.run d octets).2.handed) :
    ∃ reader after, d.detect octets s.connection = (.reader reader, after) ∧
      reader.Gives x.frame ∧ findings x.connection = findings after := by
  unfold run at hx
  split at hx
  · rename_i fault time after hdetect
    simp [hstart] at hx
  · rename_i reader after hdetect
    rcases begin_handed d reader { s with connection := after } x hx with hbefore | hgiven
    · simp [hstart] at hbefore
    · exact ⟨reader, after, hdetect, hgiven⟩

end Serving

namespace Service

variable {σ : Type} [ByteStream σ]

/--
Every record was given by the reader behind the stages.  If the transport requires a session,
or a header, the connection has one; and with a session, the reader reads from a session that
was accepted, whose peer meets the demand.
-/
theorem serve_vetted
    {settings : Settings} {acceptor : Option Tls.Acceptor} {d : Detector}
    (hd : Detector.ofSettings settings acceptor = .ok d)
    (octets : σ) (service : Service) (id : Nat) (peer localEnd : Endpoint) :
    ∀ x ∈ (service.serve d octets (.accepted id peer localEnd)).handed,
      ∃ reader after, d.detect octets (.accepted id peer localEnd) = (.reader reader, after) ∧
        reader.Gives x.frame ∧
        (settings.transport.requiresTls = true → x.connection.isTls = true) ∧
        (settings.transport ∈ [.proxiedTcp, .proxiedTls, .proxiedTlsPassthrough] →
          x.connection.proxy.isSome = true) ∧
        (x.connection.isTls = true → d.ReadsSession reader x.connection.tlsPeer ∧
          ∀ tls ∈ settings.tls,
            (tls.peerVerify.requiresCertificate = true → x.connection.tlsPeer.isSome = true) ∧
            (tls.peerVerify.requiresTrust = true →
              ∀ identity ∈ x.connection.tlsPeer, identity.trusted = true)) := by
  intro x hx
  unfold serve at hx
  rw [Serving.close_handed] at hx
  obtain ⟨reader, after, hdetect, hgives, hfindings⟩ := Serving.run_handed rfl hx
  refine ⟨reader, after, hdetect, hgives, ?_⟩
  unfold Detector.ofSettings at hd
  split at hd
  · simp at hd
  · rename_i hlacks
    simp only [Except.ok.injEq] at hd
    subst hd
    have hneeds : settings.transport.requiresTls = true → acceptor.isSome = true := by
      intro hrequires
      cases acceptor with
      | none => exact absurd ⟨hrequires, rfl⟩ hlacks
      | some acceptor => rfl
    have hsession := Plan.ofTransport_session settings.transport acceptor.isSome
    simp only [Serving.findings, Prod.mk.injEq] at hfindings
    obtain ⟨_, _, hproxy, htls, hpeer⟩ := hfindings
    rw [hproxy, htls, hpeer]
    rcases Detector.detect_vetted (fun htls => hneeds (hsession.1 htls)) rfl hdetect with
      hexhausted | hvetted
    · exact absurd hgives (Reader.not_gives hexhausted)
    · refine ⟨fun hrequires => hvetted.secured (hsession.2 hrequires), fun hproxied => ?_,
        fun htls => ?_⟩
      · refine hvetted.proxied ?_
        simp only [List.mem_cons, List.not_mem_nil, or_false] at hproxied
        rcases hproxied with htransport | htransport | htransport
        · exact Or.inl (by simp [htransport, Plan.ofTransport])
        · exact Or.inr (by simp [htransport, Plan.ofTransport])
        · exact Or.inl (by simp [htransport, Plan.ofTransport])
      · have hreads := hvetted.session htls
        refine ⟨hreads, fun tls htlsSettings => ?_⟩
        obtain ⟨accepting, raw, next, c, _, _, haccept, _⟩ := hreads
        obtain ⟨_, hdemand⟩ := Tls.accept_ok haccept
        rw [Option.mem_def] at htlsSettings
        simp only [htlsSettings] at hdemand
        exact hdemand

/-- A message over a session, behind a header; what comes after an end is not read any more. -/
theorem serve_vetted_session :
    let settings : Settings :=
      { Settings.default with transport := .proxiedTls, tls := some (.ofFiles "key" "cert") }
    let acceptor : Tls.Acceptor := ⟨{ Tls.Answers.default with peer := some ⟨[], .ok [7]⟩ }⟩
    let wire := Wire.ofSegments
      [.octets [22, 3, 1, 0, 4, 1, 2, 3, 4],
        .octets [80, 82, 79, 88, 89, 32, 85, 78, 75, 78, 79, 87, 78, 13, 10, 49],
        .octets [32, 65], .octets [], .octets [49, 32, 66], .silence]
    let service := start ⟨"out", 8, [], [], ⟨[], none⟩, none⟩
    let c := Connection.accepted 1 (.v4 ⟨192, 0, 2, 1⟩ 5000) (.v4 ⟨192, 0, 2, 2⟩ 514)
    ∃ d, Detector.ofSettings settings (some acceptor) = .ok d ∧
      (service.serve d wire c).handed.map Handover.frame = [⟨some 1, [65]⟩] ∧
      ∀ x ∈ (service.serve d wire c).handed,
        x.connection.isTls = true ∧ x.connection.proxy.isSome = true ∧
          x.connection.tlsPeer.isSome = true ∧
            ∀ identity ∈ x.connection.tlsPeer, identity.trusted = true := by
  intro settings acceptor wire service c
  have hd : Detector.ofSettings settings (some acceptor) = .ok _ := rfl
  refine ⟨_, hd, by decide +kernel, fun x hx => ?_⟩
  obtain ⟨reader, after, hdetect, hgives, htls, hproxy, hpeer⟩ :=
    serve_vetted hd wire service 1 (.v4 ⟨192, 0, 2, 1⟩ 5000) (.v4 ⟨192, 0, 2, 2⟩ 514) x hx
  have hsession := htls rfl
  obtain ⟨hcertificate, htrust⟩ := (hpeer hsession).2 (.ofFiles "key" "cert") rfl
  exact ⟨hsession, hproxy (by decide), hcertificate rfl, htrust rfl⟩

end Service
end SyslogIntake

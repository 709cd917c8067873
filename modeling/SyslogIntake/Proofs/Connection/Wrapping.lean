import SyslogIntake.Proofs.Connection.Survey

/-!
# What is wrapped around the messages

In front of the messages of a connection there may stand a header and the record that
begins a session, in one order or the other.  The stages of a transport that allows for
them take off exactly these, and the header only once: what is left are the messages as
they would have come over a bare connection, even if they look like a header again.

**Results.**

* `Detector.survey_wraps` : behind the stages the messages are left, and the header is known;
* `Detector.survey_path` : every connection that gets through goes through the same stages.
-/

namespace SyslogIntake

namespace Connection

/-- Where a connection is, and where it was. -/
def path (c : Connection) : Stage × List Stage :=
  (c.stage, c.left)

/-- Moving forward, as far as it concerns the stages. -/
def advancePath (next : Stage) (path : Stage × List Stage) : Stage × List Stage :=
  if path.1 = .failed ∨ next.rank ≤ path.1.rank then path else (next, path.1 :: path.2)

@[simp]
theorem path_advance
    (next : Stage) (c : Connection) :
    (c.advance next).path = advancePath next c.path := by
  unfold advance advancePath path
  dsimp only
  split
  · rfl
  · rfl

theorem path_fail
    {c d : Connection}
    (h : c.path = d.path) :
    c.fail.2.path = d.fail.2.path := by
  obtain ⟨hstage, hleft⟩ : c.stage = d.stage ∧ c.left = d.left := by simpa [path] using h
  unfold fail
  dsimp only
  rw [hstage]
  split
  · exact h
  · simp [path, enter, hstage, hleft]

/-- The path through all stages in front of the messages. -/
def behindStages (c : Connection) : Stage × List Stage :=
  advancePath .framingSniff (advancePath .tlsHandshake (advancePath .proxyHeader c.path))

/-- The endpoints of a connection itself. -/
def ends (c : Connection) : Endpoint × Endpoint :=
  (c.peer, c.localEnd)

@[simp]
theorem ends_advance
    (next : Stage) (c : Connection) :
    (c.advance next).ends = c.ends := by
  simp [ends]

end Connection

namespace ProxyHeader

/-- Octets that do not begin with a header, and are no beginning of one that is cut off. -/
def Headless (text : Octets) : Prop :=
  parse text = .ok .absent ∨
    ∃ needed, parse text = .ok (.incomplete needed) ∧ text.length < signatureLength text

/-- A header that takes up all of some octets is found in front of any others. -/
theorem whole_of_complete
    {front : Octets} {header : ProxyHeader}
    (h : parse front = .ok (.complete header front.length))
    (required : Bool) (close : Option String) (text : Octets) :
    (inquiry required).whole close () (front ++ text) = .ok (.ok (some header), text) := by
  have hdecided : Decided (parse front) := by
    intro needed hother
    rw [h] at hother
    cases hother
  have hparse := (parse_append hdecided text).trans h
  simp [Inquiry.whole, inquiry, look, hparse]

/-- Octets without a header are left as they are. -/
theorem whole_of_headless
    {text : Octets}
    (h : Headless text) :
    (inquiry false).whole none () text = .ok (.ok none, text) := by
  rcases h with habsent | ⟨needed, hmore, hshort⟩
  · simp [Inquiry.whole, inquiry, look, habsent]
  · by_cases hempty : text = []
    · subst hempty
      rfl
    · have hcut : ¬ signatureLength text ≤ text.length := Nat.not_le.2 hshort
      simp [Inquiry.whole, inquiry, look, hmore, finish, hempty, hcut]

end ProxyHeader

namespace Tls

/--
A record with which a session begins and which is all that its handshake takes, and a library
that accepts it from a peer that meets the demand.
-/
structure Admits (acceptor : Acceptor) (demand : PeerVerify) (record : Octets) : Prop where
  begins : check record = .session
  taken : recordRest? record = some []
  started : acceptor.answers.failure? .session = none ∧ acceptor.answers.failure? .stream = none
  shaken : acceptor.answers.handshakeHangs = false ∧ acceptor.answers.handshakeReport = none
  passed : ∃ peer, acceptor.answers.identity = .ok peer ∧
    checkPeer demand peer (acceptor.answers.verifyReport.getD "") = .ok ()

theorem recordRest?_append
    {record rest : Octets}
    (h : recordRest? record = some rest)
    (text : Octets) :
    recordRest? (record ++ text) = some (rest ++ text) := by
  rcases record with _ | ⟨a, _ | ⟨b, _ | ⟨c, _ | ⟨high, _ | ⟨low, body⟩⟩⟩⟩⟩
  · cases h
  · cases h
  · cases h
  · cases h
  · cases h
  · simp only [recordRest?, List.cons_append] at h ⊢
    split at h
    · rename_i hle
      have hmore : Octets.bigEndian high low ≤ (body ++ text).length := by
        rw [List.length_append]
        omega
      rw [if_pos hmore, List.drop_append_of_le_length hle]
      simpa using h
    · cases h

/-- An admitted record is all that a session takes off. -/
theorem Admits.accepted
    {acceptor : Acceptor} {demand : PeerVerify} {record : Octets}
    (h : Admits acceptor demand record)
    (close : Option String) (text : Octets) :
    ∃ peer, acceptWhole acceptor demand close (record ++ text) = .ok (peer, text) := by
  obtain ⟨peer, hidentity, hpassed⟩ := h.passed
  have hrest := recordRest?_append h.taken text
  refine ⟨peer, ?_⟩
  unfold acceptWhole
  dsimp only
  rw [h.started.1, h.started.2]
  simp [handshakeWhole, hrest, h.shaken.1, h.shaken.2, hidentity, hpassed]

theorem whole_eq
    (text : Octets) :
    inquiry.whole none () text = .ok (check text, text) := by
  unfold Inquiry.whole inquiry
  dsimp only
  cases hcheck : check text with
  | session | other | undecided =>
      rfl

/-- Octets that begin with a record of a session do not begin with a header. -/
theorem absent_of_session
    {record : Octets}
    (h : check record = .session)
    (text : Octets) :
    ProxyHeader.parse (record ++ text) = .ok .absent := by
  cases record with
  | nil =>
      cases h
  | cons first rest =>
      have hfirst : first = handshakeType := by
        by_contra hother
        rw [check_of_first hother] at h
        cases h
      subst hfirst
      rfl

end Tls

namespace Detector

theorem ofSettings_ok
    {settings : Settings} {acceptor : Option Tls.Acceptor} {d : Detector}
    (h : ofSettings settings acceptor = .ok d) :
    d.plan = .ofTransport settings.transport d.acceptor.isSome ∧
      d.framing = settings.framing ∧ d.most = settings.maxMessageSize.toNat := by
  unfold ofSettings at h
  split at h
  · cases h
  · obtain rfl := Except.ok.inj h
    exact ⟨rfl, rfl, rfl⟩

theorem awaits_at_once
    (d : Detector) :
    d.Awaits ⟨0, 0⟩ where
  data := Nat.zero_le _
  handshake := Nat.zero_le _

/-- A session begins in front of a whole text exactly with an admitted record. -/
theorem surveySession_admits
    {d : Detector} {acceptor : Tls.Acceptor} {record : Octets}
    (hacceptor : d.acceptor = some acceptor)
    (hpolicy : d.plan.tls ≠ .disabled)
    (hadmits : Tls.Admits acceptor d.peerVerify record)
    (text : Octets) :
    ∃ peer, d.surveySession none (record ++ text) = .ok ⟨true, peer, text⟩ := by
  obtain ⟨peer, haccept⟩ := hadmits.accepted none text
  have hdecided : Tls.check record ≠ .undecided := by
    rw [hadmits.begins]
    exact fun h => by cases h
  have hcheck : Tls.check (record ++ text) = .session := by
    rw [Tls.check_append hdecided, hadmits.begins]
  refine ⟨peer, ?_⟩
  unfold surveySession
  rw [hacceptor]
  dsimp only
  rw [if_neg hpolicy, Tls.whole_eq, hcheck]
  simp only [choose, haccept]

/-- No session begins where none is looked for, or where none must be and none is offered. -/
theorem surveySession_plain
    {d : Detector} {text : Octets}
    (h : d.plan.tls = .disabled ∨
      d.plan.tls = .optional ∧ (d.acceptor.isSome = true → Tls.check text ≠ .session)) :
    d.surveySession none text = .ok ⟨false, none, text⟩ := by
  unfold surveySession
  cases hacceptor : d.acceptor with
  | none =>
      rfl
  | some acceptor =>
      rcases h with hdisabled | ⟨hoptional, hother⟩
      · dsimp only
        rw [if_pos hdisabled]
      · have hcheck := hother (by rw [hacceptor]; rfl)
        dsimp only
        rw [if_neg (by simp [hoptional]), Tls.whole_eq, hoptional]
        cases hverdict : Tls.check text with
        | session =>
            exact absurd hverdict hcheck
        | other flaw =>
            simp [choose]
        | undecided =>
            simp [choose]

theorem surveyHeader_complete
    {policy : StagePolicy} {front : Octets} {header : ProxyHeader}
    (hpolicy : policy ≠ .disabled)
    (h : ProxyHeader.parse front = .ok (.complete header front.length))
    (close : Option String) (text : Octets) :
    surveyHeader policy close (front ++ text) = .ok (some header, text) := by
  unfold surveyHeader
  rw [if_neg hpolicy, ProxyHeader.whole_of_complete h]

theorem surveyHeader_headless
    {policy : StagePolicy} {text : Octets}
    (hpolicy : policy = .disabled ∨ policy = .optional ∧ ProxyHeader.Headless text) :
    surveyHeader policy none text = .ok (none, text) := by
  unfold surveyHeader
  rcases hpolicy with hdisabled | ⟨hoptional, hheadless⟩
  · rw [if_pos hdisabled]
  · have hother : policy ≠ .disabled := by simp [hoptional]
    have hrequired : (decide (policy = .required)) = false := by simp [hoptional]
    rw [if_neg hother, hrequired, ProxyHeader.whole_of_headless hheadless]

/-- What is found on the way changes neither the path of a connection nor its ends. -/
theorem path_through
    (found other : Option ProxyHeader) (isTls : Bool) (peer : Option PeerIdentity)
    (c : Connection) :
    let middle := { c.advance .proxyHeader with proxy := found }.advance .tlsHandshake
    let inside := if isTls then { middle with isTls := true, tlsPeer := peer } else middle
    ({ inside with proxy := other }.advance .framingSniff).path = c.behindStages ∧
      ({ inside with proxy := other }.advance .framingSniff).ends = c.ends := by
  intro middle inside
  have hinside : inside.path = middle.path ∧ inside.ends = middle.ends := by
    cases isTls <;> exact ⟨rfl, rfl⟩
  constructor
  · rw [Connection.path_advance]
    change Connection.advancePath _ inside.path = _
    rw [hinside.1, Connection.path_advance]
    change Connection.advancePath _ (Connection.advancePath _ (c.advance .proxyHeader).path) = _
    rw [Connection.path_advance]
    rfl
  · rw [Connection.ends_advance]
    change inside.ends = _
    rw [hinside.2, Connection.ends_advance]
    exact Connection.ends_advance .proxyHeader c

/-- Inside a session, or without one, a connection may only get another header. -/
theorem surveyInside_after
    {d : Detector} {close : Option String} {text rest : Octets} {isTls : Bool}
    {c after : Connection}
    (h : d.surveyInside close text isTls c = (.ok rest, after)) :
    ∃ other, after = { c with proxy := other }.advance .framingSniff := by
  unfold surveyInside at h
  split at h
  · rcases hinner : surveyHeader d.plan.innerProxy close text with fault | ⟨other, inner⟩
    · simp [hinner] at h
    · simp only [hinner, Prod.mk.injEq] at h
      exact ⟨other, h.2.symm⟩
  · simp only [Prod.mk.injEq] at h
    exact ⟨c.proxy, h.2.symm⟩

/-- Every connection that gets through goes through the same stages. -/
theorem survey_path
    {d : Detector} {close : Option String} {text rest : Octets} {c after : Connection}
    (h : d.survey close text c = (.ok rest, after)) :
    after.path = c.behindStages ∧ after.ends = c.ends := by
  unfold survey at h
  rcases houter : surveyHeader d.plan.outerProxy close text with fault | ⟨found, left⟩
  · simp [houter] at h
  · rcases hsession : d.surveySession close left with fault | ⟨isTls, peer, behind⟩
    · simp [houter, hsession] at h
    · simp only [houter, hsession] at h
      obtain ⟨other, rfl⟩ := surveyInside_after h
      exact path_through found other isTls peer c

/-- What the stages leave of a text: the messages, and a connection that has found a header. -/
def Leaves (d : Detector) (text messages : Octets) (header : Option ProxyHeader) : Prop :=
  ∀ c, ∃ after, d.survey none text c = (.ok messages, after) ∧ after.proxy = header

theorem leaves_plain
    {d : Detector} {text messages : Octets} {header : Option ProxyHeader}
    (houter : surveyHeader d.plan.outerProxy none text = .ok (header, messages))
    (hsession : d.surveySession none messages = .ok ⟨false, none, messages⟩) :
    d.Leaves text messages header := by
  intro c
  refine ⟨({ c.advance .proxyHeader with proxy := header }.advance .tlsHandshake).advance
    .framingSniff, ?_, ?_⟩
  · simp [survey, houter, hsession, surveyInside]
  · rw [Connection.advance_proxy, Connection.advance_proxy]

/-- Behind a header outside the session, none is looked for inside. -/
theorem leaves_outside
    {d : Detector} {text rest messages : Octets} {header : ProxyHeader}
    {peer : Option PeerIdentity}
    (houter : surveyHeader d.plan.outerProxy none text = .ok (some header, rest))
    (hsession : d.surveySession none rest = .ok ⟨true, peer, messages⟩) :
    d.Leaves text messages (some header) := by
  intro c
  refine ⟨({ { c.advance .proxyHeader with proxy := some header }.advance .tlsHandshake with
    isTls := true, tlsPeer := peer } : Connection).advance .framingSniff, ?_, ?_⟩
  · simp [survey, houter, hsession, surveyInside]
  · rw [Connection.advance_proxy]
    exact Connection.advance_proxy _ _

/-- Without one outside, a header is taken off inside the session. -/
theorem leaves_inside
    {d : Detector} {text rest behind messages : Octets} {header : Option ProxyHeader}
    {peer : Option PeerIdentity}
    (houter : surveyHeader d.plan.outerProxy none text = .ok (none, rest))
    (hsession : d.surveySession none rest = .ok ⟨true, peer, behind⟩)
    (hinner : surveyHeader d.plan.innerProxy none behind = .ok (header, messages)) :
    d.Leaves text messages header := by
  intro c
  refine ⟨({ { c.advance .proxyHeader with proxy := none }.advance .tlsHandshake with
    isTls := true, tlsPeer := peer, proxy := header } : Connection).advance .framingSniff,
    ?_, ?_⟩
  · simp [survey, houter, hsession, surveyInside, hinner]
  · rw [Connection.advance_proxy]

theorem auto_stages
    {d : Detector}
    (hplan : d.plan = .ofTransport .auto d.acceptor.isSome) :
    d.plan.outerProxy = .optional ∧ (d.plan.tls = .disabled ∨ d.plan.tls = .optional) := by
  rw [hplan]
  cases d.acceptor.isSome <;> decide

/--
The ways in which messages may be wrapped, by transport: the text that arrives, and the header
in it, if there is one.
-/
inductive Wraps (d : Detector) (messages : Octets) :
    Transport → Octets → Option ProxyHeader → Prop
  | bare :
      Wraps d messages .tcp messages none
  | proxied
      {front : Octets} {header : ProxyHeader}
      (hheader : ProxyHeader.parse front = .ok (.complete header front.length)) :
      Wraps d messages .proxiedTcp (front ++ messages) (some header)
  | detected
      {front : Octets} {header : ProxyHeader}
      (hheader : ProxyHeader.parse front = .ok (.complete header front.length))
      (hplain : d.acceptor.isSome = true → Tls.check messages ≠ .session) :
      Wraps d messages .auto (front ++ messages) (some header)
  | undetected
      (hheadless : ProxyHeader.Headless messages)
      (hplain : d.acceptor.isSome = true → Tls.check messages ≠ .session) :
      Wraps d messages .auto messages none
  | passedThrough
      {front record : Octets} {header : ProxyHeader} {acceptor : Tls.Acceptor}
      (hheader : ProxyHeader.parse front = .ok (.complete header front.length))
      (hacceptor : d.acceptor = some acceptor)
      (hadmits : Tls.Admits acceptor d.peerVerify record)
      {transport : Transport}
      (htransport : transport = .proxiedTlsPassthrough ∨ transport = .auto) :
      Wraps d messages transport (front ++ (record ++ messages)) (some header)
  | secured
      {front record : Octets} {header : ProxyHeader} {acceptor : Tls.Acceptor}
      (hheader : ProxyHeader.parse front = .ok (.complete header front.length))
      (hacceptor : d.acceptor = some acceptor)
      (hadmits : Tls.Admits acceptor d.peerVerify record)
      {transport : Transport}
      (htransport : transport = .proxiedTls ∨ transport = .auto) :
      Wraps d messages transport (record ++ (front ++ messages)) (some header)

/-- Behind the stages the messages are left, and the header is known. -/
theorem survey_wraps
    {d : Detector} {transport : Transport} {text messages : Octets}
    {header : Option ProxyHeader}
    (hplan : d.plan = .ofTransport transport d.acceptor.isSome)
    (h : d.Wraps messages transport text header) :
    d.Leaves text messages header := by
  cases h with
  | bare =>
      have houter : d.plan.outerProxy = .disabled := by rw [hplan]; rfl
      have htls : d.plan.tls = .disabled := by rw [hplan]; rfl
      exact leaves_plain (surveyHeader_headless (Or.inl houter))
        (surveySession_plain (Or.inl htls))
  | proxied hheader =>
      have houter : d.plan.outerProxy = .required := by rw [hplan]; rfl
      have htls : d.plan.tls = .disabled := by rw [hplan]; rfl
      exact leaves_plain (surveyHeader_complete (by simp [houter]) hheader none messages)
        (surveySession_plain (Or.inl htls))
  | detected hheader hplain =>
      obtain ⟨houter, htls⟩ := auto_stages hplan
      exact leaves_plain (surveyHeader_complete (by simp [houter]) hheader none messages)
        (surveySession_plain (htls.imp_right fun h => ⟨h, hplain⟩))
  | undetected hheadless hplain =>
      obtain ⟨houter, htls⟩ := auto_stages hplan
      exact leaves_plain (surveyHeader_headless (Or.inr ⟨houter, hheadless⟩))
        (surveySession_plain (htls.imp_right fun h => ⟨h, hplain⟩))
  | @passedThrough front record header acceptor hheader hacceptor hadmits transport htransport =>
      have hpolicies : d.plan.outerProxy ≠ .disabled ∧ d.plan.tls ≠ .disabled := by
        rw [hplan, hacceptor]
        rcases htransport with rfl | rfl <;> simp [Plan.ofTransport]
      obtain ⟨peer, hsession⟩ := surveySession_admits hacceptor hpolicies.2 hadmits messages
      exact leaves_outside
        (surveyHeader_complete hpolicies.1 hheader none (record ++ messages)) hsession
  | @secured front record header acceptor hheader hacceptor hadmits transport htransport =>
      have hpolicies : (d.plan.outerProxy = .disabled ∨ d.plan.outerProxy = .optional) ∧
          d.plan.tls ≠ .disabled ∧ d.plan.innerProxy ≠ .disabled := by
        rw [hplan, hacceptor]
        rcases htransport with rfl | rfl <;> simp [Plan.ofTransport]
      obtain ⟨houter, htls, hinner⟩ := hpolicies
      have hheadless : ProxyHeader.Headless (record ++ (front ++ messages)) :=
        Or.inl (Tls.absent_of_session hadmits.begins (front ++ messages))
      obtain ⟨peer, hsession⟩ := surveySession_admits hacceptor htls hadmits (front ++ messages)
      exact leaves_inside
        (surveyHeader_headless (houter.imp_right fun h => ⟨h, hheadless⟩)) hsession
        (surveyHeader_complete hinner hheader none messages)

end Detector
end SyslogIntake

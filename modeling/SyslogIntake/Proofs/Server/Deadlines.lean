import SyslogIntake.Proofs.Connection.Blame
import SyslogIntake.Proofs.Server.Stages
import SyslogIntake.Proofs.Stream.Clocks

/-!
# Deadlines

Each stage of a connection has a time for all that it waits for, and so has the first message,
together with everything that is skipped before it.  What a peer sends in the meantime does not
lengthen this time.  So a connection has handed something over, or is over, after the times of
its stages, and it fails for the time exactly if one of them has passed in vain.

**Results.**

* `Passage.within_of_goes` : no errand takes longer than it may;
* `Passage.budget_of_goes` : what is left of all the times, as long as nothing was handed over;
* `Passage.late_of_goes` : a step fails for the time if the time of its errand passes in vain;
* `Service.serve_deadlines` : so a connection is decided in time.
-/

namespace SyslogIntake

open StateTransition (Reaches)
open ByteStream (Until Punctual)

theorem ByteStream.Until.within
    {σ τ : Type} [ByteStream σ] [ByteStream τ] {s : σ} {t : τ} {seconds : Nat}
    (h : Until (after seconds s) s t) :
    now s ≤ now t ∧ now t ≤ now s + seconds * 1000 := by
  have hlate := h.now_le
  simp only [after] at hlate
  exact ⟨h.le_now, by omega⟩

section Stages

variable {σ : Type} [ByteStream σ] [Punctual σ]

namespace Tls

theorem takeRecord_until
    (limit : Nat)
    (raw : Lookahead σ) :
    Until limit raw (takeRecord (some limit) raw).2 := by
  have hheader := ByteStream.readExact_until 5 limit [] raw
  unfold takeRecord
  split
  · rename_i header next hread
    rw [hread] at hheader
    split
    · exact hheader.trans (ByteStream.readExact_until _ limit [] next)
    · exact hheader
  · exact hheader

theorem handshake_until
    (answers : Answers)
    (limit : Nat)
    (raw : Lookahead σ) :
    Until limit raw (handshake answers limit raw).2 := by
  have hrecord := takeRecord_until limit raw
  unfold handshake
  split <;> rename_i next hread <;> rw [hread] at hrecord
  · exact hrecord
  · exact hrecord
  · exact hrecord
  · split
    · exact hrecord.trans (Punctual.pass_until limit next)
    · split <;> exact hrecord

theorem accept_until
    (acceptor : Acceptor)
    (demand : PeerVerify)
    (seconds : Nat)
    (raw : Lookahead σ) :
    Until (ByteStream.after seconds raw) raw (accept acceptor demand seconds raw).2 := by
  have hshaken := handshake_until acceptor.answers (ByteStream.after seconds raw) raw
  unfold accept
  dsimp only
  split
  · exact .refl raw
  · exact .refl raw
  · split <;> rename_i next hshake <;> rw [hshake] at hshaken
    · exact hshaken
    · split
      · exact hshaken
      · split <;> exact hshaken

end Tls

namespace Detector

theorem peel_until
    (d : Detector)
    (policy : StagePolicy)
    (l : Lookahead σ) :
    Until (ByteStream.after d.dataTimeout l) l (d.peel policy l).2 := by
  have hrun := (ProxyHeader.inquiry (policy = .required)).run_until
    (ByteStream.after d.dataTimeout l) () l
  unfold peel
  split
  · exact .refl l
  · split <;> rename_i next hreached <;> rw [hreached] at hrun <;> exact hrun

theorem greet_until
    (d : Detector)
    (raw : Lookahead σ) :
    Until (ByteStream.after d.dataTimeout raw) raw (d.greet raw).2 := by
  have hrun := Tls.inquiry.run_until (ByteStream.after d.dataTimeout raw) () raw
  unfold greet
  split
  · exact .refl raw
  split
  · exact .refl raw
  split <;> rename_i next hreached <;> rw [hreached] at hrun
  · exact hrun
  · exact hrun
  · split <;> exact hrun

end Detector

/-- A message is found, or given up, by the limit, with all that is skipped before it. -/
theorem Framing.Search.attempt_until
    (limit : Nat)
    (s : Search)
    (stream : Lookahead σ) :
    Until limit stream (s.attempt (some limit) stream).stream := by
  have hrun := inquiry.run_until limit s stream
  unfold attempt
  split <;> rename_i next hreached <;> rw [hreached] at hrun <;> exact hrun

end Stages

namespace Errand

variable {σ : Type} [ByteStream σ]

/-- How long an errand may take, in milliseconds, if it may not take for ever. -/
def allowance? (d : Detector) : Errand σ → Option Nat
  | .outerHeader _ | .clientHello _ | .innerHeader _ => some (d.dataTimeout * 1000)
  | .handshake _ _ => some (d.handshakeTimeout * 1000)
  | .message limit _ _ => limit.map fun _ => d.dataTimeout * 1000
  | .handover _ _ _ => some 0
  | .finished _ _ => none

/-- How long it may take from an errand until something is handed over. -/
def budget (d : Detector) : Errand σ → Nat
  | .outerHeader _ => (4 * d.dataTimeout + d.handshakeTimeout) * 1000
  | .clientHello _ => (3 * d.dataTimeout + d.handshakeTimeout) * 1000
  | .handshake _ _ => (2 * d.dataTimeout + d.handshakeTimeout) * 1000
  | .innerHeader _ => 2 * d.dataTimeout * 1000
  | .message limit _ _ => if limit.isSome then d.dataTimeout * 1000 else 0
  | .handover _ _ _ | .finished _ _ => 0

end Errand

namespace Passage

variable {σ : Type} [ByteStream σ]

/-- The limit for the first message is as far away as the detector says. -/
def Timed (d : Detector) (p : Passage σ) : Prop :=
  ∀ limit search stream, p.errand = .message (some limit) search stream →
    limit = ByteStream.after d.dataTimeout stream

theorem timed_of_goes
    {d : Detector} {p q : Passage σ}
    (hgoes : Goes d p q) :
    q.Timed d := by
  intro limit search stream herrand
  cases hgoes with
  | plain | headedSession | innerHeader => cases herrand; rfl
  | headerFault | header | helloFault | hello | handshakeFault | session | innerFault | frame
  | ended | messageFault | late | refused | taken => cases herrand

/-- Before something is handed over, what is left of all the times covers the next errand. -/
theorem allowance_of_goes
    {d : Detector} {p q : Passage σ}
    (hgoes : Goes d p q)
    (hplaced : p.Placed)
    (hnone : p.serving.handed = []) :
    ∃ allowance, p.errand.allowance? d = some allowance ∧
      allowance + q.errand.budget d ≤ p.errand.budget d := by
  cases hgoes with
  | headerFault | header | plain | helloFault | hello | handshakeFault | session
  | headedSession | innerFault | innerHeader =>
      refine ⟨_, rfl, ?_⟩
      simp only [Errand.budget, fail, finish, stayPlain, listen, Option.isSome_some, if_true]
      omega
  | @frame s limit | @ended s limit | @messageFault s limit | @late s limit =>
      cases limit with
      -- Only behind a message that was handed over there is no limit.
      | none => exact absurd hnone (hplaced.2.1 rfl)
      | some limit =>
          refine ⟨_, rfl, ?_⟩
          simp [Errand.budget, finish]
  | refused | taken =>
      refine ⟨_, rfl, ?_⟩
      simp [Errand.budget, finish]

variable [Punctual σ]

/-- No errand takes longer than it may. -/
theorem within_of_goes
    {d : Detector} {p q : Passage σ} {allowance : Nat}
    (hgoes : Goes d p q)
    (htimed : p.Timed d)
    (h : p.errand.allowance? d = some allowance) :
    p.errand.time ≤ q.errand.time ∧ q.errand.time ≤ p.errand.time + allowance := by
  cases hgoes with
  | @headerFault s raw next fault hpeeled | @header s raw next found hpeeled =>
      have hpeel := (d.peel_until d.plan.outerProxy raw).within
      rw [hpeeled] at hpeel
      cases h
      exact hpeel
  | @plain s raw next hgreeted | @helloFault s raw next cause hgreeted
  | @hello s raw next acceptor hgreeted =>
      have hgreet := (d.greet_until raw).within
      rw [hgreeted] at hgreet
      cases h
      exact hgreet
  | @handshakeFault s raw next acceptor fault haccepted
  | @session s raw next acceptor peer haccepted hproxy
  | @headedSession s raw next acceptor peer haccepted hproxy =>
      have haccept := (Tls.accept_until acceptor d.peerVerify d.handshakeTimeout raw).within
      rw [haccepted] at haccept
      cases h
      exact haccept
  | @innerFault s decoded next fault hpeeled | @innerHeader s decoded next found hpeeled =>
      have hpeel := (d.peel_until d.plan.innerProxy decoded).within
      rw [hpeeled] at hpeel
      cases h
      exact hpeel
  | @frame s limit search found stream rest frame hfound
  | @ended s limit search found stream rest hfound
  | @messageFault s limit search found stream rest fault hfound
  | @late s limit search found stream rest hfound =>
      cases limit with
      | none => cases h
      | some limit =>
          have hattempt := search.attempt_until limit stream
          rw [htimed limit search stream rfl] at hattempt hfound
          rw [hfound] at hattempt
          cases h
          exact hattempt.within
  -- The output takes a frame, or turns it away, at once.
  | refused | taken =>
      cases h
      exact ⟨Nat.le_refl _, Nat.le_refl _⟩

/-- Each step takes its time from what is left of all the times. -/
theorem budget_of_goes
    {d : Detector} {p q : Passage σ}
    (hgoes : Goes d p q)
    (htimed : p.Timed d)
    (hplaced : p.Placed)
    (hnone : p.serving.handed = []) :
    q.errand.time + q.errand.budget d ≤ p.errand.time + p.errand.budget d := by
  obtain ⟨allowance, hallowance, hcovered⟩ := allowance_of_goes hgoes hplaced hnone
  have hwithin := (within_of_goes hgoes htimed hallowance).2
  calc q.errand.time + q.errand.budget d
      ≤ p.errand.time + allowance + q.errand.budget d := Nat.add_le_add_right hwithin _
    _ = p.errand.time + (allowance + q.errand.budget d) := Nat.add_assoc _ _ _
    _ ≤ p.errand.time + p.errand.budget d := Nat.add_le_add_left hcovered _

end Passage

namespace Passage

variable {σ : Type}

/-- Whether it is decided what becomes of a connection: something was taken, or it is over. -/
def Decided (p : Passage σ) : Prop :=
  (∃ handover ∈ p.serving.handed, handover.taken = true) ∨
    ∃ progress time, p.errand = .finished progress time ∧ progress.isOver = true

/-- Whether everything was taken that was handed over, as long as the connection goes on. -/
def Kept (p : Passage σ) : Prop :=
  (∀ handover ∈ p.serving.handed, handover.taken = true) ∧
      (p.errand.isOver = true → p.serving.handed ≠ []) ∨
    ∃ progress time, p.errand = .finished progress time ∧ progress.isOver = true

/-- As long as nothing is decided, a connection goes on and has handed nothing over. -/
theorem Kept.undecided
    {p : Passage σ}
    (h : p.Kept)
    (hundecided : ¬p.Decided) :
    p.serving.handed = [] ∧ p.errand.isOver = false := by
  rcases h with ⟨htaken, hover⟩ | hover
  · have hnone : p.serving.handed = [] := by
      refine List.eq_nil_iff_forall_not_mem.2 fun handover hmem => ?_
      exact hundecided (.inl ⟨handover, hmem, htaken handover hmem⟩)
    refine ⟨hnone, ?_⟩
    by_contra hnot
    exact hover (Bool.not_eq_false _ ▸ hnot) hnone
  · exact absurd (.inr hover) hundecided

theorem Kept.taken
    {p : Passage σ}
    (h : p.Kept)
    (hgoes : p.errand.isOver = false) :
    ∀ handover ∈ p.serving.handed, handover.taken = true := by
  rcases h with ⟨htaken, -⟩ | ⟨progress, time, herrand, -⟩
  · exact htaken
  · rw [herrand] at hgoes
    cases hgoes

theorem kept_of_taken
    {p : Passage σ}
    (htaken : ∀ handover ∈ p.serving.handed, handover.taken = true)
    (hgoes : p.errand.isOver = false) :
    p.Kept :=
  .inl ⟨htaken, fun hover => absurd hover (Bool.not_eq_true _ ▸ hgoes)⟩

variable [ByteStream σ]

theorem kept_of_goes
    {d : Detector} {p q : Passage σ}
    (hgoes : Goes d p q)
    (hplaced : p.Placed)
    (h : p.Kept) :
    q.Kept := by
  cases hgoes with
  | headerFault | helloFault | handshakeFault | innerFault | ended | messageFault | refused =>
      exact .inr ⟨_, _, rfl, rfl⟩
  | header | hello | session | frame =>
      have htaken := h.taken rfl
      exact kept_of_taken (by simpa using htaken) rfl
  | plain | headedSession | innerHeader =>
      have htaken := h.taken rfl
      exact kept_of_taken (by simpa [stayPlain, listen] using htaken) rfl
  | @late s limit search found stream rest hfound =>
      cases limit with
      | none =>
          have htaken := h.taken rfl
          have hsome := hplaced.2.1 rfl
          exact .inl ⟨by simpa [finish] using htaken, fun _ => by simpa [finish] using hsome⟩
      | some limit => exact .inr ⟨_, _, rfl, rfl⟩
  | taken hdelivered =>
      have htaken := h.taken rfl
      cases Serving.delivered_of_deliver hdelivered with
      | taken hsend hconnection htime hhanded hcounters =>
          refine kept_of_taken ?_ rfl
          rw [hhanded]
          simpa [or_imp, forall_and] using htaken

end Passage

/-- Whether a question was given up. -/
def Reached.isLate {s a : Type} : Reached s a → Bool
  | .late _ => true
  | .answer _ | .failed _ _ => false

section Late

variable {σ : Type} [ByteStream σ]

namespace Tls

/-- What is waited for in vain while a session is set up. -/
def late? (acceptor : Acceptor) (seconds : Nat) (raw : Lookahead σ) : Option Wait :=
  match acceptor.answers.failure? .session, acceptor.answers.failure? .stream with
  | none, none =>
      match (takeRecord (some (ByteStream.after seconds raw)) raw).1 with
      | .late => some .handshake
      | .octets _ => if acceptor.answers.handshakeHangs then some .handshake else none
      | .ended _ | .failed _ => none
  | _, _ => none

theorem identity_ne_late
    {answers : Answers} {fault : Fault}
    (h : answers.identity = .error fault)
    (wait : Wait) :
    fault ≠ .late wait := by
  unfold Answers.identity Certificate.identity Certificate.fingerprint at h
  split at h
  · cases h
  · split at h <;> cases h
    exact nofun

theorem checkPeer_ne_late
    {demand : PeerVerify} {peer : Option PeerIdentity} {report : String} {fault : Fault}
    (h : checkPeer demand peer report = .error fault)
    (wait : Wait) :
    fault ≠ .late wait := by
  unfold checkPeer at h
  split at h <;> split at h <;> cases h <;> exact nofun

/-- Setting up a session fails for the time exactly if the time passes in vain. -/
theorem late?_eq_some_iff
    (demand : PeerVerify) {acceptor : Acceptor} {seconds : Nat} {raw : Lookahead σ} {wait : Wait} :
    late? acceptor seconds raw = some wait ↔
      (accept acceptor demand seconds raw).1 = .error (.late wait) := by
  unfold late? accept handshake
  dsimp only
  cases acceptor.answers.failure? .session with
  | some report => simp
  | none =>
      cases acceptor.answers.failure? .stream with
      | some report => simp
      | none =>
          rcases takeRecord (some (ByteStream.after seconds raw)) raw with
            ⟨text | text | report | _, next⟩
          · cases acceptor.answers.handshakeHangs with
            | true => simp
            | false =>
                cases acceptor.answers.handshakeReport with
                | some report => simp
                | none =>
                    cases hidentity : acceptor.answers.identity with
                    | error fault => simpa using identity_ne_late hidentity wait
                    | ok peer =>
                        cases hpassed : checkPeer demand peer
                            (acceptor.answers.verifyReport.getD "") with
                        | error fault =>
                            simpa [hpassed] using checkPeer_ne_late hpassed wait
                        | ok passed => simp [hpassed]
          · simp
          · simp
          · simp

end Tls

namespace Detector

/-- What is waited for in vain while a header is looked for. -/
def lateHeader? (d : Detector) (policy : StagePolicy) (l : Lookahead σ) : Option Wait :=
  if policy = .disabled then none
  else if ((ProxyHeader.inquiry (policy = .required)).run
      (some (ByteStream.after d.dataTimeout l)) () l).1.isLate then some .header
  else none

/-- What is waited for in vain while the beginning of a session is looked for. -/
def lateHello? (d : Detector) (raw : Lookahead σ) : Option Wait :=
  if d.acceptor.isNone ∨ d.plan.tls = .disabled then none
  else if (Tls.inquiry.run (some (ByteStream.after d.dataTimeout raw)) () raw).1.isLate then
    some .clientHello
  else none

/-- Looking for a header fails for the time exactly if the time passes in vain. -/
theorem lateHeader?_eq_some_iff
    {d : Detector} {policy : StagePolicy} {l : Lookahead σ} {wait : Wait} :
    d.lateHeader? policy l = some wait ↔ (d.peel policy l).1 = .error (.late wait) := by
  unfold lateHeader? peel
  by_cases hpolicy : policy = .disabled
  · simp [hpolicy]
  rw [if_neg hpolicy, if_neg hpolicy]
  rcases hrun : (ProxyHeader.inquiry (policy = .required)).run
      (some (ByteStream.after d.dataTimeout l)) () l with ⟨found | ⟨_, report⟩ | _, next⟩
  · have hblames : ProxyHeader.Blames found :=
      Inquiry.run_holds ProxyHeader.Blames ProxyHeader.look_blames
        (fun _ text => ProxyHeader.finish_blames _ text) hrun
    refine ⟨nofun, fun hlate => ?_⟩
    cases hblames (.late wait) hlate
  · simp [Reached.isLate]
  · simp [Reached.isLate]

/-- Looking for a session fails for the time exactly if the time passes in vain. -/
theorem lateHello?_eq_some_iff
    {d : Detector} {raw : Lookahead σ} {wait : Wait} :
    d.lateHello? raw = some wait ↔ (d.greet raw).1 = .fault (.late wait) := by
  unfold lateHello? greet
  cases hacceptor : d.acceptor with
  | none => simp
  | some acceptor =>
      by_cases hpolicy : d.plan.tls = .disabled
      · simp [hpolicy]
      rcases hrun : Tls.inquiry.run (some (ByteStream.after d.dataTimeout raw)) () raw with
        ⟨verdict | ⟨_, report⟩ | _, next⟩
      · cases hchoice : choose d.plan.tls verdict (next.ended && next.buffer.isEmpty) <;>
          simp [hpolicy, hchoice, Reached.isLate]
      · simp [hpolicy, Reached.isLate]
      · simp [hpolicy, Reached.isLate]

end Detector

/-- A message that is malformed does not fail for the time. -/
theorem Framing.Search.attempt_ne_late
    {limit : Option Nat} {s : Search} {stream : Lookahead σ} {fault : Fault}
    (h : (s.attempt limit stream).next = .fault fault)
    (wait : Wait) :
    fault ≠ .late wait := by
  unfold attempt at h
  split at h
  · rename_i result next hrun
    have hblames : Blames result :=
      Inquiry.run_holds Blames look_blames finish_blames hrun
    rintro rfl
    cases houtcome : result.outcome with
    | frame found => rw [houtcome] at h; cases h
    | ended => rw [houtcome] at h; cases h
    | fault cause =>
        rw [houtcome] at h
        cases h
        cases hblames _ houtcome
  · cases h
    exact nofun
  · cases h

end Late

/-- What is waited for in vain at an errand. -/
def Errand.late? {σ : Type} [ByteStream σ] (d : Detector) : Errand σ → Option Wait
  | .outerHeader raw => d.lateHeader? d.plan.outerProxy raw
  | .clientHello raw => d.lateHello? raw
  | .handshake acceptor raw => Tls.late? acceptor d.handshakeTimeout raw
  | .innerHeader decoded => d.lateHeader? d.plan.innerProxy decoded
  | .message limit search stream =>
      if limit.isSome ∧ (search.attempt limit stream).next = .late then some .firstMessage
      else none
  | .handover _ _ _ | .finished _ _ => none

/-- A step fails for the time exactly if the time of its errand passes in vain. -/
theorem Passage.late_of_goes
    {σ : Type} [ByteStream σ] {d : Detector} {p q : Passage σ}
    (hgoes : Goes d p q)
    (wait : Wait) :
    p.errand.late? d = some wait ↔
      ∃ time, q.errand = .finished (.failed (.late wait)) time := by
  cases hgoes with
  | headerFault hpeeled | innerFault hpeeled =>
      refine Detector.lateHeader?_eq_some_iff.trans ?_
      simp [hpeeled, fail, finish]
  | header hpeeled | innerHeader hpeeled =>
      refine Detector.lateHeader?_eq_some_iff.trans ?_
      simp [hpeeled, listen]
  | plain hgreeted | helloFault hgreeted | hello hgreeted =>
      refine Detector.lateHello?_eq_some_iff.trans ?_
      simp [hgreeted, fail, finish, stayPlain, listen]
  | handshakeFault haccepted | session haccepted | headedSession haccepted =>
      refine (Tls.late?_eq_some_iff d.peerVerify).trans ?_
      simp [haccepted, fail, finish, listen]
  | frame hfound | ended hfound => simp [Errand.late?, hfound, finish]
  | messageFault hfound =>
      have hne := Framing.Search.attempt_ne_late (congrArg Framing.Attempt.next hfound) wait
      simpa [Errand.late?, hfound, finish] using hne
  | @late s limit search found stream rest hfound =>
      cases limit <;> simp [Errand.late?, hfound, finish, Progress.lapse, eq_comm]
  | refused hdelivered =>
      cases Serving.delivered_of_deliver hdelivered
      simp [Errand.late?, finish]
  | taken hdelivered => simp [Errand.late?]

/-- A connection that waits in vain for one of its times has handed nothing over. -/
theorem Passage.unhanded_of_late
    {σ : Type} [ByteStream σ] {d : Detector} {p : Passage σ} {wait : Wait}
    (hplaced : p.Placed)
    (hlate : p.errand.late? d = some wait) :
    p.serving.handed = [] ∧ p.frame? = none := by
  obtain ⟨s, errand⟩ := p
  cases errand with
  | outerHeader | clientHello | handshake | innerHeader => exact ⟨hplaced.2, rfl⟩
  | message limit search stream =>
      cases limit with
      | none => simp [Errand.late?] at hlate
      | some limit =>
          refine ⟨?_, rfl⟩
          by_contra hsome
          cases hplaced.2.2 hsome
  | handover | finished => cases hlate

namespace Service

section Streams

variable {σ : Type} [ByteStream σ] {service : Service} {d : Detector} {octets : σ}
  {id : Nat} {peer localEnd : Endpoint} {q : Passage σ}

theorem ComesTo.timed
    {c : Connection}
    (h : service.ComesTo d octets c q) :
    q.Timed d := by
  refine Passage.reached_induction (Passage.Timed d) h ?_ fun hgoes _ =>
    Passage.timed_of_goes hgoes
  intro limit search stream herrand
  cases herrand

theorem ComesTo.kept
    (h : service.ComesTo d octets (.accepted id peer localEnd) q) :
    q.Kept := by
  have hstart : (Passage.start octets
      (.start service (.accepted id peer localEnd) (ByteStream.now octets))).Kept :=
    Passage.kept_of_taken (by simp [Passage.start, Serving.start]) rfl
  exact (Passage.reached_induction (fun p => p.Placed ∧ p.Kept) h
    ⟨Passage.start_placed _ _ _ _ _ _, hstart⟩ fun hgoes hp =>
      ⟨Passage.placed_of_goes hgoes hp.1, Passage.kept_of_goes hgoes hp.1 hp.2⟩).2

/--
A connection has been decided by the time that all its stages have, or what is left of this time
is enough for the rest of them.
-/
theorem ComesTo.decided_or_within
    [Punctual σ]
    (h : service.ComesTo d octets (.accepted id peer localEnd) q) :
    (∃ p, service.ComesTo d octets (.accepted id peer localEnd) p ∧ p.Decided ∧
        p.errand.time ≤
          ByteStream.now octets + (4 * d.dataTimeout + d.handshakeTimeout) * 1000) ∨
      ¬q.Decided ∧ q.errand.time + q.errand.budget d ≤
        ByteStream.now octets + (4 * d.dataTimeout + d.handshakeTimeout) * 1000 := by
  -- As long as nothing is decided, the time and what is left do not add up to more than at first.
  induction h with
  | refl =>
      refine .inr ⟨?_, ?_⟩
      · rintro (⟨handover, hmem, -⟩ | ⟨progress, time, herrand, -⟩)
        · cases hmem
        · cases herrand
      · have hnow : ByteStream.now (Lookahead.fresh octets) = ByteStream.now octets := rfl
        simp only [Passage.start, Errand.time, Errand.budget, hnow]
        exact Nat.le_refl _
  | @tail p q hbefore hnext ih =>
      have hp : service.ComesTo d octets (.accepted id peer localEnd) p := hbefore
      rcases ih with hdecided | ⟨hundecided, hbudget⟩
      · exact .inl hdecided
      · have hnone := (hp.kept.undecided hundecided).1
        have hstep := Passage.budget_of_goes (Passage.goes_of_step hnext) hp.timed hp.placed hnone
        have hwithin := Nat.le_trans hstep hbudget
        by_cases hq : q.Decided
        · exact .inl ⟨q, hp.tail hnext, hq, Nat.le_trans (Nat.le_add_right _ _) hwithin⟩
        · exact .inr ⟨hq, hwithin⟩

/-- A connection fails for the time exactly if it comes to an errand that waits in vain. -/
theorem late_iff
    (service : Service)
    (d : Detector)
    (octets : σ)
    (c : Connection)
    (wait : Wait) :
    (∃ p, service.ComesTo d octets c p ∧ p.errand.late? d = some wait) ↔
      (service.progress d octets c).fault? = some (.late wait) := by
  constructor
  · rintro ⟨p, hp, hlate⟩
    obtain ⟨time, hend⟩ := service.comesTo_end d octets c
    rcases (hp.reached_end hend rfl).cases_head with rfl | ⟨q, hstep, -⟩
    · cases hlate
    · obtain ⟨ended, herrand⟩ := (Passage.late_of_goes (Passage.goes_of_step hstep) wait).1 hlate
      have hq : service.ComesTo d octets c q := hp.tail hstep
      obtain ⟨last, rfl⟩ := hq.eq_end (by rw [herrand]; rfl)
      obtain ⟨hprogress, -⟩ : service.progress d octets c = .failed (.late wait) ∧
          last = ended := by simpa [Passage.finish] using herrand
      rw [hprogress]
      rfl
  · intro hfault
    -- The errand that leads to the end is the one that waits in vain.
    obtain ⟨p, time, hp, hstep⟩ := service.exists_last d octets c
    rw [Progress.eq_of_fault? hfault] at hstep
    exact ⟨p, hp, (Passage.late_of_goes (Passage.goes_of_step hstep) wait).2 ⟨time, rfl⟩⟩

end Streams

/--
Looking for a header takes no longer than the time for data, so does looking for a session and
looking for a header inside of it; setting up a session takes no longer than the time for that;
and waiting for the first message takes no longer than the time for data.  So after four times
the one and once the other, something was taken from the connection or it is over.  It fails for
the time exactly if one of these times passes in vain, and then nothing was handed over.
-/
theorem serve_deadlines
    (service : Service)
    (d : Detector)
    (wire : Wire)
    (id : Nat)
    (peer localEnd : Endpoint) :
    let c := Connection.accepted id peer localEnd
    (∀ p q allowance, service.ComesTo d wire c p → q ∈ p.step d →
        p.errand.allowance? d = some allowance →
          p.errand.time ≤ q.errand.time ∧ q.errand.time ≤ p.errand.time + allowance) ∧
      (∃ p, service.ComesTo d wire c p ∧ p.Decided ∧
        p.errand.time ≤ wire.clock + (4 * d.dataTimeout + d.handshakeTimeout) * 1000) ∧
      ∀ wait, ((∃ p, service.ComesTo d wire c p ∧ p.errand.late? d = some wait) ↔
          (service.progress d wire c).fault? = some (.late wait)) ∧
        ((service.progress d wire c).fault? = some (.late wait) →
          (service.serve d wire c).handed = []) := by
  intro c
  refine ⟨fun p q allowance hp hstep hallowance => ?_, ?_, fun wait => ⟨?_, ?_⟩⟩
  · exact Passage.within_of_goes (Passage.goes_of_step hstep) hp.timed hallowance
  · obtain ⟨time, hend⟩ := service.comesTo_end d wire c
    rcases ComesTo.decided_or_within hend with hdecided | ⟨hundecided, -⟩
    · exact hdecided
    · cases (ComesTo.kept hend |>.undecided hundecided).2
  · exact service.late_iff d wire c wait
  · intro hfault
    obtain ⟨p, time, hp, hstep⟩ := service.exists_last d wire c
    rw [Progress.eq_of_fault? hfault] at hstep
    have hgoes := Passage.goes_of_step hstep
    have hlate := (Passage.late_of_goes hgoes wait).2 ⟨time, rfl⟩
    obtain ⟨hnone, hdue⟩ := Passage.unhanded_of_late hp.placed hlate
    have hhanded := Passage.handed_of_goes hgoes
    rw [hnone, hdue] at hhanded
    rw [serve_eq, Serving.close_handed]
    exact List.map_eq_nil_iff.1 hhanded

end Service
end SyslogIntake

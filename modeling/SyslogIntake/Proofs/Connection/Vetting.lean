import SyslogIntake.Connection.Detector
import SyslogIntake.Proofs.Stream.Questions

/-!
# Stages that cannot be passed by

A stage that is required lets a connection through that has ended before it brought
anything.  Such a connection goes on without a header, or without a session, and nothing
comes of it: its end was met, and a look-ahead that has met the end never reads again, even
if the stream below it could bring more.

**Results.**

* `Detector.detect_vetted` : behind the stages, a connection has been through those that are
  required, or nothing more comes from it.
-/

namespace SyslogIntake

namespace Lookahead

variable {σ : Type} [ByteStream σ]

/-- Nothing more comes: the buffer is empty, and filling it adds nothing. -/
def Exhausted (l : Lookahead σ) : Prop :=
  l.buffer = [] ∧ ∀ limit, ∃ next, l.fillMore limit = (.octets [], next) ∧ next.buffer = []

/-- A look-ahead that has met the end with nothing left in its buffer. -/
structure Dry (l : Lookahead σ) : Prop where
  ended : l.ended = true
  buffer : l.buffer = []

theorem Dry.exhausted
    {l : Lookahead σ}
    (h : l.Dry) :
    l.Exhausted :=
  ⟨h.buffer, fun limit => ⟨l, fillMore_ended limit h.ended, h.buffer⟩⟩

/-- Look-ahead over what is dry is exhausted, though it has not met the end itself. -/
theorem Dry.exhausted_fresh
    {raw : Lookahead σ}
    (h : raw.Dry) :
    (fresh (Channel.plain raw)).Exhausted := by
  refine ⟨rfl, fun limit => ⟨⟨.plain raw, [], true⟩, ?_, rfl⟩⟩
  have hread : ByteStream.read portion limit (Channel.plain raw) =
      (.octets [], Channel.plain raw) := by
    simp [ByteStream.read, Channel.read, Channel.raw, Channel.withRaw, read, h.ended, h.buffer]
  simp [fillMore, fresh, hread]

end Lookahead

namespace Inquiry

variable {s a σ : Type} [ByteStream σ]

/-- What a look does not settle is finished where filling the buffer adds nothing. -/
theorem run_of_fillMore
    {inquiry : Inquiry s a} {l filled : Lookahead σ} {state next : s} {rest : Octets}
    {limit : Option Nat}
    (hlook : inquiry.look state l.buffer = .wanting next rest)
    (hfill : (l.leaving rest).fillMore limit = (.octets [], filled)) :
    inquiry.run limit state l =
      (.answer (inquiry.finish next filled.buffer).1,
        filled.leaving (inquiry.finish next filled.buffer).2) := by
  rw [run, hlook]
  dsimp only
  split
  · rename_i other hother
    rw [hfill] at hother
    simp only [Prod.mk.injEq, true_and] at hother
    subst hother
    rfl
  · rename_i hother
    simp [hfill] at hother
  · rename_i hother
    simp [hfill] at hother
  · rename_i hother
    simp [hfill] at hother

end Inquiry

namespace Framing.Search

variable {σ : Type} [ByteStream σ]

theorem look_nil
    (framer : Framer) :
    ∃ next, (start framer).look [] = .wanting next [] ∧
      (next.finish []).1.outcome = .ended := by
  by_cases hline : framer.lock = some .line
  · refine ⟨⟨framer.noting .line, .line, []⟩, ?_, ?_⟩
    · have hstep : (start framer).step [] =
          .wanting ⟨framer.noting .line, .line, []⟩ [] := by
        simp [step, start, takeBoundary, boundaryText, boundaryStart, hline, takeLine,
          Octets.splitLine, holdLine]
      rw [look, hstep]
    · simp [finish, finishLine, result]
  · refine ⟨start framer, ?_, ?_⟩
    · have htext : (start framer).boundaryText [] = [] := by
        unfold boundaryText
        split <;> rfl
      have hundecided : (start framer).boundaryStart [] = .undecided :=
        (if_neg hline).trans sniff_nil
      have hstep : (start framer).step [] = .wanting (start framer) [] := by
        change takeBoundary (start framer) [] = _
        unfold takeBoundary
        rw [htext]
        dsimp only
        rw [hundecided]
      rw [look, hstep]
    · simp [finish, start, result]

/-- No message is found where nothing more comes. -/
theorem attempt_exhausted
    {l : Lookahead σ}
    (h : l.Exhausted)
    (framer : Framer) (limit : Option Nat) :
    ((start framer).attempt limit l).next = .ended := by
  obtain ⟨hbuffer, hfill⟩ := h
  obtain ⟨next, hlook, hended⟩ := look_nil framer
  obtain ⟨filled, hfilled, hnothing⟩ := hfill limit
  have hleaving : l.leaving [] = l := by
    cases l
    simp_all [Lookahead.leaving]
  have hwanting : inquiry.look (start framer) l.buffer = .wanting next [] := by
    rw [hbuffer]
    exact hlook
  have hrun := Inquiry.run_of_fillMore hwanting (hleaving.symm ▸ hfilled)
  rw [hnothing] at hrun
  have hfinish : (inquiry.finish next []).1.outcome = .ended := hended
  simp [attempt, hrun, hfinish, Outcome.next]

end Framing.Search

namespace Tls

variable {σ : Type} [ByteStream σ]

/-- A session that is accepted has had its handshake, and its peer meets the demand. -/
theorem accept_ok
    {acceptor : Acceptor} {demand : PeerVerify} {seconds : Nat} {raw next : Lookahead σ}
    {peer : Option PeerIdentity}
    (h : accept acceptor demand seconds raw = (.ok peer, next)) :
    handshake acceptor.answers (ByteStream.after seconds raw) raw = (.ok (), next) ∧
      (demand.requiresCertificate = true → peer.isSome = true) ∧
      (demand.requiresTrust = true → ∀ identity ∈ peer, identity.trusted = true) := by
  unfold accept at h
  dsimp only at h
  split at h
  · simp at h
  · simp at h
  · split at h
    · simp at h
    · rename_i after hshake
      split at h
      · simp at h
      · rename_i other hidentity
        split at h
        · simp at h
        · rename_i hpassed
          simp only [Prod.mk.injEq, Except.ok.injEq] at h
          obtain ⟨rfl, rfl⟩ := h
          exact ⟨hshake, (checkPeer_ok_iff _ _ _).1 hpassed⟩

end Tls

namespace Detector

variable {σ : Type} [ByteStream σ]

/-- A stage that requires a header and finds none leaves a dry stream. -/
theorem peel_none
    {d : Detector} {l next : Lookahead σ}
    (h : d.peel .required l = (.ok none, next)) :
    next.Dry := by
  unfold peel at h
  rw [if_neg (by decide)] at h
  split at h
  · rename_i found after hrun
    simp only [Prod.mk.injEq] at h
    obtain ⟨rfl, rfl⟩ := h
    rcases Inquiry.run_answer hrun with ⟨state, text, hlook⟩ | ⟨hended, state, text, hfinish⟩
    · simp only [ProxyHeader.inquiry, ProxyHeader.look] at hlook
      split at hlook
      · simp at hlook
      · simp at hlook
      · simp at hlook
      · simp at hlook
    · simp only [ProxyHeader.inquiry, Prod.mk.injEq] at hfinish
      obtain ⟨hnone, hbuffer⟩ := hfinish
      unfold ProxyHeader.finish at hnone
      split at hnone
      · rename_i hempty
        exact ⟨hended, hbuffer.symm.trans hempty⟩
      · split at hnone
        · simp at hnone
        · simp at hnone
  · simp at h
  · simp at h

/-- On a dry stream no session begins. -/
theorem negotiate_dry
    {raw : Lookahead σ}
    (h : raw.Dry)
    (d : Detector) :
    ∃ next time, d.negotiate raw = (.ok ⟨.plain next, none⟩, time) ∧ next.Dry := by
  unfold negotiate
  cases d.acceptor with
  | none =>
      exact ⟨raw, _, rfl, h⟩
  | some acceptor =>
      dsimp only
      by_cases hpolicy : d.plan.tls = .disabled
      · rw [if_pos hpolicy]
        exact ⟨raw, _, rfl, h⟩
      · have hlook : Tls.inquiry.look () raw.buffer = .wanting () [] := by
          rw [h.buffer]
          rfl
        have hfill : (raw.leaving []).fillMore (some (ByteStream.after d.dataTimeout raw)) =
            (.octets [], raw.leaving []) :=
          Lookahead.fillMore_ended _ h.ended
        rw [if_neg hpolicy, Inquiry.run_of_fillMore hlook hfill]
        refine ⟨raw.leaving [], ByteStream.now (raw.leaving []), ?_, h.ended, rfl⟩
        simp [Tls.inquiry, choose, Lookahead.leaving, h.ended]

/-- Where a channel comes from: it is plain, or a session was accepted for it. -/
theorem negotiate_cases
    {d : Detector} {raw : Lookahead σ} {found : Negotiated σ} {time : Nat}
    (h : d.negotiate raw = (.ok found, time)) :
    (∃ next, found = ⟨.plain next, none⟩ ∧
        (d.plan.tls = .required → d.acceptor.isSome = true → next.Dry)) ∨
      (∃ acceptor before next peer, found = ⟨.session next, peer⟩ ∧
        d.acceptor = some acceptor ∧
        Tls.accept acceptor d.peerVerify d.handshakeTimeout before = (.ok peer, next)) := by
  unfold negotiate at h
  split at h
  · rename_i hnone
    simp only [Prod.mk.injEq, Except.ok.injEq] at h
    exact Or.inl ⟨raw, h.1.symm, fun _ hsome => by simp [hnone] at hsome⟩
  · rename_i acceptor hacceptor
    split at h
    · rename_i hpolicy
      simp only [Prod.mk.injEq, Except.ok.injEq] at h
      exact Or.inl ⟨raw, h.1.symm, fun hrequired => by simp [hpolicy] at hrequired⟩
    · split at h
      · simp at h
      · simp at h
      · rename_i verdict after hrun
        split at h
        · rename_i hchoice
          simp only [Prod.mk.injEq, Except.ok.injEq] at h
          refine Or.inl ⟨after, h.1.symm, fun hrequired _ => ?_⟩
          -- a required session is only left out on a stream that has ended
          rw [hrequired] at hchoice
          unfold choose at hchoice
          split at hchoice
          · simp at hchoice
          · split at hchoice
            · rename_i hempty
              simp only [Bool.and_eq_true, List.isEmpty_iff] at hempty
              exact ⟨hempty.1, hempty.2⟩
            · simp at hchoice
          · simp at hchoice
        · simp at h
        · split at h
          · simp at h
          · rename_i peer next haccept
            simp only [Prod.mk.injEq, Except.ok.injEq] at h
            exact Or.inr ⟨acceptor, after, next, peer, h.1.symm, hacceptor, haccept⟩

/--
Whether a reader is what the stage inside a session leaves, of which the handshake succeeded
and the peer was accepted.
-/
def ReadsSession (d : Detector) (reader : Reader (Channel σ)) (peer : Option PeerIdentity) :
    Prop :=
  ∃ acceptor raw next c, d.acceptor = some acceptor ∧
    Tls.handshake acceptor.answers (ByteStream.after d.handshakeTimeout raw) raw =
      (.ok (), next) ∧
    Tls.accept acceptor d.peerVerify d.handshakeTimeout raw = (.ok peer, next) ∧
      (d.detectInside (.session next) c).1 = .reader reader

/-- What a connection has been through behind the stages. -/
structure Vetted (d : Detector) (reader : Reader (Channel σ)) (c : Connection) : Prop where
  /-- A header that is required was there. -/
  proxied : d.plan.outerProxy = .required ∨
    d.plan.tls = .required ∧ d.plan.innerProxy = .required → c.proxy.isSome = true
  /-- A session that is required has begun. -/
  secured : d.plan.tls = .required → c.isTls = true
  /-- With a session, the messages come from it, and its peer is the one that was accepted. -/
  session : c.isTls = true → d.ReadsSession reader c.tlsPeer

theorem detectInside_vetted
    {d : Detector} {acceptor : Tls.Acceptor} {before next : Lookahead σ}
    {peer : Option PeerIdentity} {c after : Connection} {reader : Reader (Channel σ)}
    (hacceptor : d.acceptor = some acceptor)
    (haccept : Tls.accept acceptor d.peerVerify d.handshakeTimeout before = (.ok peer, next))
    (hproxy : d.plan.outerProxy = .required → c.proxy.isSome = true)
    (htls : c.isTls = true)
    (hpeer : c.tlsPeer = peer)
    (h : d.detectInside (.session next) c = (.reader reader, after)) :
    reader.stream.Exhausted ∨ d.Vetted reader after := by
  have hsession : d.ReadsSession reader peer :=
    ⟨acceptor, before, next, c, hacceptor, (Tls.accept_ok haccept).1, haccept,
      congrArg Prod.fst h⟩
  unfold detectInside at h
  dsimp only at h
  split at h
  · rename_i hnone
    split at h
    · simp at h
    · rename_i found decoded hpeel
      simp only [Prod.mk.injEq, Detected.reader.injEq] at h
      obtain ⟨rfl, rfl⟩ := h
      by_cases hdry : d.plan.innerProxy = .required ∧ found = none
      · obtain ⟨hrequired, rfl⟩ := hdry
        rw [hrequired] at hpeel
        exact Or.inl (peel_none hpeel).exhausted
      · refine Or.inr ⟨?_, fun _ => ?_, fun _ => ?_⟩
        · rintro (houter | ⟨_, hinner⟩)
          · simp [hnone.2] at hproxy
            exact absurd houter hproxy
          · rw [Connection.advance_proxy]
            exact Option.isSome_iff_ne_none.2 fun hfound => hdry ⟨hinner, hfound⟩
        · rw [Connection.advance_isTls]
          exact htls
        · rw [Connection.advance_tlsPeer]
          exact hpeer ▸ hsession
  · rename_i hsome
    simp only [Prod.mk.injEq, Detected.reader.injEq] at h
    obtain ⟨rfl, rfl⟩ := h
    refine Or.inr ⟨fun _ => ?_, fun _ => ?_, fun _ => ?_⟩
    · rw [Connection.advance_proxy]
      exact Option.isSome_iff_ne_none.2 fun hnone => hsome ⟨rfl, hnone⟩
    · rw [Connection.advance_isTls]
      exact htls
    · rw [Connection.advance_tlsPeer]
      exact hpeer ▸ hsession

theorem detectInside_plain
    (d : Detector) (next : Lookahead σ) (c : Connection) :
    d.detectInside (.plain next) c =
      (.reader (d.readerOf (.fresh (.plain next))), c.advance .framingSniff) := by
  unfold detectInside
  dsimp only
  rw [if_neg]
  rintro ⟨hsession, _⟩
  exact Bool.false_ne_true hsession

/--
Behind the stages, a connection has been through those that are required, or nothing more
comes from it.
-/
theorem detect_vetted
    {d : Detector} {stream : σ} {c after : Connection} {reader : Reader (Channel σ)}
    (hacceptor : d.plan.tls = .required → d.acceptor.isSome = true)
    (hplain : c.isTls = false)
    (h : d.detect stream c = (.reader reader, after)) :
    reader.stream.Exhausted ∨ d.Vetted reader after := by
  unfold detect at h
  dsimp only at h
  split at h
  · simp at h
  · rename_i found raw hpeel
    by_cases hdry : d.plan.outerProxy = .required ∧ found = none
    · -- the connection ended in front of a required header
      obtain ⟨hrequired, rfl⟩ := hdry
      rw [hrequired] at hpeel
      obtain ⟨next, time, hnegotiate, hnext⟩ := negotiate_dry (peel_none hpeel) d
      rw [hnegotiate] at h
      simp only [Channel.isSession, detectInside_plain, Bool.false_eq_true, if_false,
        Prod.mk.injEq, Detected.reader.injEq] at h
      rw [← h.1]
      exact Or.inl hnext.exhausted_fresh
    · have hproxy : d.plan.outerProxy = .required → found.isSome = true := fun hrequired =>
        Option.isSome_iff_ne_none.2 fun hfound => hdry ⟨hrequired, hfound⟩
      split at h
      · simp at h
      · rename_i channel peer time hnegotiate
        rcases negotiate_cases hnegotiate with
          ⟨next, hfound, hnothing⟩ | ⟨acceptor, before, next, other, hfound, hsome, haccept⟩
        · simp only [Negotiated.mk.injEq] at hfound
          obtain ⟨rfl, rfl⟩ := hfound
          simp only [Channel.isSession, detectInside_plain, Bool.false_eq_true, if_false,
            Prod.mk.injEq, Detected.reader.injEq] at h
          obtain ⟨rfl, rfl⟩ := h
          by_cases hrequired : d.plan.tls = .required
          · exact Or.inl (hnothing hrequired (hacceptor hrequired)).exhausted_fresh
          · refine Or.inr ⟨?_, fun htls => absurd htls hrequired, fun htls => ?_⟩
            · rintro (houter | ⟨htls, _⟩)
              · simpa using hproxy houter
              · exact absurd htls hrequired
            · simp [hplain] at htls
        · simp only [Negotiated.mk.injEq] at hfound
          obtain ⟨rfl, rfl⟩ := hfound
          refine detectInside_vetted hsome haccept ?_ ?_ ?_ h
          · intro houter
            simpa [Channel.isSession] using hproxy houter
          · simp [Channel.isSession]
          · simp [Channel.isSession]

end Detector
end SyslogIntake

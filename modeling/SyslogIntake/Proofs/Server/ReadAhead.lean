import SyslogIntake.Proofs.Framing.Room
import SyslogIntake.Proofs.ProxyHeader.Pending
import SyslogIntake.Proofs.Server.Passage

/-!
# What is read ahead

Every stage of a connection reads ahead only as long as it wants more octets, and what it wants
more octets behind is short: a header that has not all arrived, the first octets of a record, a
length, a message that is not too long.  One read adds to that what one read can add, so there is a
bound for each stage, and one for what a stage leaves to the next one, whatever a peer sends.

**Results.**

* `Detector.peel_frugal` : what a look for a header holds, and what it leaves;
* `Passage.spare_of_goes` : what one errand leaves to the next one;
* `Service.serve_frugal` : what is held at each errand of a connection.
-/

namespace SyslogIntake

variable {σ : Type} [ByteStream σ]

namespace ProxyHeader

/-- A look that settles what stands there leaves what stands behind a header, or everything. -/
theorem left_of_look
    {required : Bool} {state : Unit} {text rest : Octets} {found : Option ProxyHeader}
    (h : (inquiry required).look state text = .settled (.ok found) rest) :
    (∃ header length, parse text = .ok (.complete header length) ∧ rest = text.drop length) ∨
      (parse text = .ok .absent ∧ rest = text) := by
  simp only [inquiry, look] at h
  split at h
  · cases h
  · rename_i header length hparse
    cases h
    exact Or.inl ⟨header, length, hparse, rfl⟩
  · rename_i hparse
    simp only [Looked.settled.injEq] at h
    exact Or.inr ⟨hparse, h.2.symm⟩
  · cases h

/-- What is no header at the end of the stream does not even have a signature. -/
theorem length_of_finish
    {required : Bool} {text : Octets} {found : Option ProxyHeader}
    (h : finish required text = .ok found) :
    text.length ≤ 11 := by
  have hsignature := signatureLength_le text
  unfold finish at h
  split_ifs at h with hnone hlong
  · simp [hnone]
  · omega

end ProxyHeader

namespace Tls

/-- A record of which the header has not all arrived. -/
theorem length_of_undecided
    {text : Octets}
    (h : check text = .undecided) :
    text.length ≤ 4 := by
  unfold check at h
  split at h
  · exact Nat.zero_le _
  · rename_i first rest
    split at h
    · cases h
    split at h
    · dsimp only at h
      split_ifs at h
    · rename_i hshort
      rcases rest with _ | ⟨major, _ | ⟨minor, _ | ⟨high, _ | ⟨low, rest⟩⟩⟩⟩
      · simp
      · simp
      · simp
      · simp
      · exact absurd rfl (hshort major minor high low rest)

/-- A look for a session that wants more octets leaves fewer than a record header has. -/
theorem length_of_look
    {state next : Unit} {text rest : Octets}
    (h : inquiry.look state text = .wanting next rest) :
    rest.length ≤ 4 := by
  simp only [inquiry] at h
  split at h
  · cases h
    exact length_of_undecided ‹_›
  · cases h

theorem inquiry_takes :
    inquiry.Takes fun _ => 0 where
  settled h := by
    simp only [inquiry] at h
    split at h <;> cases h
    exact Nat.le_refl _
  wanting h := by
    simp only [inquiry] at h
    split at h <;> cases h
    exact Nat.le_refl _
  finished _ _ := Nat.le_refl _

end Tls

namespace Detector

/-- The reads of a look for a header. -/
def peelFills (d : Detector) (policy : StagePolicy) (l : Lookahead σ) : List Fill :=
  if policy = .disabled then []
  else
    (ProxyHeader.inquiry (policy = .required)).fills (some (ByteStream.after d.dataTimeout l)) () l

/-- The reads of a look for the beginning of a session. -/
def greetFills (d : Detector) (raw : Lookahead σ) : List Fill :=
  match d.acceptor with
  | none => []
  | some _ =>
      if d.plan.tls = .disabled then []
      else Tls.inquiry.fills (some (ByteStream.after d.dataTimeout raw)) () raw

/--
How much a look for a header holds, if its reads add no more than so much, how much of that may be
a header of text, and how much it leaves.
-/
structure Frugal (d : Detector) (most : Nat) (policy : StagePolicy) (l : Lookahead σ) : Prop where
  /-- The longest header is a binary one. -/
  held : ∀ text ∈ Fill.held l.buffer (d.peelFills policy l), text.length ≤ 65550 + most
  /-- A header of text is one line. -/
  line : ∀ text ∈ Fill.held l.buffer (d.peelFills policy l),
    ProxyHeader.textSignature <+: text → text.length ≤ 106 + most
  /-- What is left is no header, or stands behind one. -/
  left : ∀ found next, d.peel policy l = (.ok found, next) → next.buffer.length ≤ 11 + most

/-- A look for a header reads behind what may still become one. -/
theorem incomplete_of_fill
    {d : Detector} {policy : StagePolicy} {l : Lookahead σ} {fill : Fill}
    (h : fill ∈ d.peelFills policy l) :
    fill.before <+: fill.after ∧
      ∃ needed, ProxyHeader.parse fill.before = .ok (.incomplete needed) := by
  unfold peelFills at h
  split at h
  · cases h
  · obtain ⟨hgrown, state, text, next, -, hlook⟩ :=
      Inquiry.fill_wanting (fun _ => True) (fun _ _ => trivial) trivial h
    exact ⟨hgrown, ProxyHeader.incomplete_of_look hlook⟩

/-- Behind a header, or where there is none, no more is left than one read brings beyond it. -/
theorem peel_left
    {d : Detector} {most : Nat} {policy : StagePolicy} {l next : Lookahead σ}
    {found : Option ProxyHeader}
    (hfresh : l.buffer = [])
    (hreads : ∀ fill ∈ d.peelFills policy l, fill.after.length ≤ fill.before.length + most)
    (h : d.peel policy l = (.ok found, next)) :
    next.buffer.length ≤ 11 + most := by
  unfold peel at h
  split at h
  · cases h
    simp [hfresh]
  rename_i hlooks
  rw [peelFills, if_neg hlooks] at hreads
  split at h
  · rename_i answer left hrun
    cases h
    rcases Inquiry.run_answered hrun with
      ⟨text, hshown, state, hlook⟩ | ⟨fill, hfill, state, hfinish⟩
    · rcases hshown with rfl | ⟨fill, hfill, rfl⟩
      · rw [hfresh] at hlook
        cases hlook
      have hread : fill ∈ d.peelFills policy l := by rwa [peelFills, if_neg hlooks]
      obtain ⟨hgrown, needed, hpart⟩ := incomplete_of_fill hread
      have hadded := hreads fill hfill
      obtain ⟨more, hmore⟩ := hgrown
      rcases ProxyHeader.left_of_look hlook with ⟨header, length, hparse, hleft⟩ | ⟨hparse, hleft⟩
      · rw [← hmore] at hparse
        have hbefore := ProxyHeader.lt_of_incomplete hpart hparse
        rw [hleft, List.length_drop]
        omega
      · rw [← hmore] at hparse
        have hbefore := ProxyHeader.length_of_absent hpart hparse
        rw [hleft]
        omega
    · obtain ⟨hnone, hleft⟩ := Prod.mk.inj hfinish
      have hshort := ProxyHeader.length_of_finish hnone
      rw [← hleft]
      omega
  · cases h
  · cases h

theorem peel_frugal
    {d : Detector} {most : Nat} {policy : StagePolicy} {l : Lookahead σ}
    (hfresh : l.buffer = [])
    (hreads : ∀ fill ∈ d.peelFills policy l, fill.after.length ≤ fill.before.length + most) :
    d.Frugal most policy l where
  held text h := by
    rcases Fill.mem_held.1 h with rfl | ⟨fill, hfill, htext⟩
    · simp [hfresh]
    · obtain ⟨-, needed, hpart⟩ := incomplete_of_fill hfill
      have hbefore := ProxyHeader.length_of_incomplete hpart
      have hadded := hreads fill hfill
      rcases htext with rfl | rfl <;> omega
  line text h hsignature := by
    rcases Fill.mem_held.1 h with rfl | ⟨fill, hfill, htext⟩
    · simp [hfresh]
    · obtain ⟨hgrown, needed, hpart⟩ := incomplete_of_fill hfill
      have hadded := hreads fill hfill
      have hbefore : fill.before.length ≤ 106 := by
        have hwhole : ProxyHeader.textSignature <+: fill.after := by
          rcases htext with rfl | rfl
          · exact hsignature.trans hgrown
          · exact hsignature
        rcases List.prefix_or_prefix_of_prefix hwhole hgrown with hbegun | hbefore
        · exact ProxyHeader.length_of_incomplete_text hbegun hpart
        · exact Nat.le_trans hbefore.length_le (by decide)
      rcases htext with rfl | rfl <;> omega
  left found next := peel_left hfresh hreads

/-- A look for a session leaves what it holds, and holds little beyond what was there. -/
theorem greet_frugal
    {d : Detector} {most : Nat} {raw : Lookahead σ}
    (hreads : ∀ fill ∈ d.greetFills raw, fill.after.length ≤ fill.before.length + most) :
    (∀ text ∈ Fill.held raw.buffer (d.greetFills raw),
        text.length ≤ max raw.buffer.length (4 + most)) ∧
      (d.greet raw).2.buffer.length ≤ max raw.buffer.length (4 + most) := by
  unfold greetFills at hreads ⊢
  unfold greet
  cases hacceptor : d.acceptor with
  | none => simp [Fill.held]
  | some acceptor =>
      simp only [hacceptor] at hreads ⊢
      split_ifs at hreads ⊢ with hdisabled
      · simp [Fill.held]
      have hheld : ∀ text ∈ Fill.held raw.buffer
          (Tls.inquiry.fills (some (ByteStream.after d.dataTimeout raw)) () raw),
          text.length ≤ max raw.buffer.length (4 + most) :=
        fun text => Inquiry.held_le (fun _ => True)
          (fun _ hlook => ⟨trivial, Tls.length_of_look hlook⟩) trivial hreads
      refine ⟨hheld, ?_⟩
      obtain ⟨text, htext, hle⟩ := Inquiry.run_buffer Tls.inquiry_takes
        (some (ByteStream.after d.dataTimeout raw)) () raw
      have hbound := Nat.le_trans hle (hheld text htext)
      split <;> rename_i hrun <;> rw [hrun] at hbound
      · exact hbound
      · exact hbound
      · split <;> exact hbound

end Detector

namespace Errand

def fills (d : Detector) : Errand σ → List Fill
  | .outerHeader raw => d.peelFills d.plan.outerProxy raw
  | .clientHello raw => d.greetFills raw
  | .innerHeader decoded => d.peelFills d.plan.innerProxy decoded
  | .message limit search stream => Framing.Search.inquiry.fills limit search stream
  | .handshake _ _ | .handover _ _ _ | .finished _ _ => []

/--
What an errand holds of what was read ahead, and what it leaves, if its reads add no more than so
much.
-/
def Frugal (d : Detector) (most : Nat) : Errand σ → Prop
  | .outerHeader raw => d.Frugal most d.plan.outerProxy raw
  | .clientHello raw =>
      raw.buffer.length ≤ 11 + most ∧
        ∀ text ∈ Fill.held raw.buffer (d.greetFills raw),
          text.length ≤ max raw.buffer.length (4 + most)
  | .handshake _ raw => raw.buffer.length ≤ 11 + most
  | .innerHeader decoded => d.Frugal most d.plan.innerProxy decoded
  | .message limit search stream =>
      ∀ text ∈ Fill.held stream.buffer (Framing.Search.inquiry.fills limit search stream),
        text.length ≤ max d.most 11 + most
  | .handover _ _ stream => stream.buffer.length ≤ max d.most 11 + most
  | .finished _ _ => True

/-- A stream that brings no more than it is asked for adds at most a portion at a time. -/
theorem fill_length
    [Portioned σ] {d : Detector} {errand : Errand σ} {fill : Fill}
    (h : fill ∈ errand.fills d) :
    fill.after.length ≤ fill.before.length + Lookahead.portion := by
  cases errand with
  | outerHeader raw | innerHeader decoded =>
      simp only [fills, Detector.peelFills] at h
      split_ifs at h
      · cases h
      · exact Inquiry.fill_length h
  | clientHello raw =>
      simp only [fills, Detector.greetFills] at h
      split at h
      · cases h
      split_ifs at h
      · cases h
      · exact Inquiry.fill_length h
  | message limit search stream => exact Inquiry.fill_length h
  | handshake | handover | finished => cases h

/-- What an errand begins with, if the reads before it added no more than so much. -/
def Spare (d : Detector) (most : Nat) : Errand σ → Prop
  | .outerHeader raw => raw.buffer = []
  | .clientHello raw | .handshake _ raw => raw.buffer.length ≤ 11 + most
  | .innerHeader decoded => decoded.buffer = []
  | .message _ search stream =>
      search.framer.most = d.most ∧ search.Modest ∧ stream.buffer.length ≤ max d.most 11 + most
  | .handover _ framer stream =>
      framer.most = d.most ∧ stream.buffer.length ≤ max d.most 11 + most
  | .finished _ _ => True

end Errand

theorem Framing.Search.held_spare
    {d : Detector} {most : Nat} {limit : Option Nat} {search : Framing.Search}
    {stream : Lookahead (Channel σ)}
    (hspare : (Errand.message limit search stream).Spare d most)
    (hreads : ∀ fill ∈ Framing.Search.inquiry.fills limit search stream,
      fill.after.length ≤ fill.before.length + most)
    {text : Octets}
    (h : text ∈ Fill.held stream.buffer (Framing.Search.inquiry.fills limit search stream)) :
    text.length ≤ max d.most 11 + most := by
  obtain ⟨hmost, hmodest, hbuffer⟩ := hspare
  have hle := Framing.Search.held_keeps hmodest hreads h
  have hahead : search.framer.ahead ≤ max d.most 11 := by
    rw [Framer.ahead, hmost, Framing.mostDigits]
    omega
  omega

/-- A message is found within the room that there is for it, and so is what takes its place. -/
theorem Framing.Search.attempt_spare
    {d : Detector} {most : Nat} {limit : Option Nat} {search : Framing.Search}
    {stream : Lookahead (Channel σ)}
    (hspare : (Errand.message limit search stream).Spare d most)
    (hreads : ∀ fill ∈ Framing.Search.inquiry.fills limit search stream,
      fill.after.length ≤ fill.before.length + most) :
    (search.attempt limit stream).search.framer.most = d.most ∧
      (search.attempt limit stream).stream.buffer.length ≤ max d.most 11 + most := by
  obtain ⟨text, hheld, hle⟩ :=
    Inquiry.run_buffer Framing.Search.inquiry_takes limit search stream
  have hbuffer := Nat.le_trans hle (held_spare hspare hreads hheld)
  have hmost := (run_most limit hspare.2.1 stream).trans hspare.1
  unfold attempt
  split <;> rename_i hrun <;> rw [hrun] at hbuffer hmost <;> exact ⟨hmost, hbuffer⟩

namespace Passage

theorem spare_of_goes
    {d : Detector} {p q : Passage σ} {most : Nat}
    (hgoes : Goes d p q)
    (hspare : p.errand.Spare d most)
    (hreads : ∀ fill ∈ p.errand.fills d, fill.after.length ≤ fill.before.length + most) :
    q.errand.Spare d most := by
  cases hgoes with
  | headerFault | helloFault | handshakeFault | innerFault | ended | messageFault | late
  | refused => trivial
  | header h => exact Detector.peel_left hspare hreads h
  | plain h => exact ⟨rfl, Framing.Search.modest_start _, Nat.zero_le _⟩
  | @hello s raw next acceptor h =>
      have hleft := (Detector.greet_frugal hreads).2
      rw [h] at hleft
      exact Nat.le_trans hleft
        (Nat.max_le.2 ⟨hspare, Nat.add_le_add_right (Nat.le_add_left 4 7) most⟩)
  | session h hproxy => rfl
  | headedSession h hproxy => exact ⟨rfl, Framing.Search.modest_start _, Nat.zero_le _⟩
  | @innerHeader s decoded next found h =>
      have hleft := Detector.peel_left hspare hreads h
      refine ⟨rfl, Framing.Search.modest_start _, ?_⟩
      change next.buffer.length ≤ max d.most 11 + most
      omega
  | @frame s limit search found stream rest frame h =>
      have hattempt := Framing.Search.attempt_spare hspare hreads
      rwa [h] at hattempt
  | taken h => exact ⟨hspare.1, Framing.Search.modest_start _, hspare.2⟩

/-- An errand that begins with little holds little. -/
theorem frugal_of_spare
    {d : Detector} {most : Nat} {errand : Errand σ}
    (hspare : errand.Spare d most)
    (hreads : ∀ fill ∈ errand.fills d, fill.after.length ≤ fill.before.length + most) :
    errand.Frugal d most := by
  cases errand with
  | outerHeader raw => exact Detector.peel_frugal hspare hreads
  | clientHello raw => exact ⟨hspare, (Detector.greet_frugal hreads).1⟩
  | handshake acceptor raw => exact hspare
  | innerHeader decoded => exact Detector.peel_frugal hspare hreads
  | message limit search stream =>
      exact fun text => Framing.Search.held_spare hspare hreads
  | handover frame framer stream => exact hspare.2
  | finished progress time => trivial

end Passage

namespace Service

/--
What a connection holds of what was read ahead, at each of its errands, if no read of it adds more
than so much: a look for a header holds one header but for its last octet, and leaves fewer octets
than a signature has; a look for a session holds four octets or what was left to it; and a reader
of messages holds one message, or a length, however long the line is that it drops.  To each of
these one read is added.
-/
theorem serve_frugal
    (service : Service) (d : Detector) (octets : σ) (c : Connection) (most : Nat)
    (hreads : ∀ p, service.ComesTo d octets c p → ∀ fill ∈ p.errand.fills d,
      fill.after.length ≤ fill.before.length + most)
    {p : Passage σ}
    (hp : service.ComesTo d octets c p) :
    p.errand.Frugal d most := by
  have hspare : p.errand.Spare d most := by
    induction hp with
    | refl => rfl
    | @tail p q hbefore hnext ih =>
        exact Passage.spare_of_goes (Passage.goes_of_step hnext) ih (hreads p hbefore)
  exact Passage.frugal_of_spare hspare (hreads p hp)

/-- While a line is dropped that is too long, what is held of it is one read and a few octets. -/
theorem serve_frugal_line :
    let d : Detector := ⟨⟨.disabled, .disabled, .disabled⟩, none, .none, .nonTransparent, 2, 5, 5⟩
    let wire := Wire.ofSegments [.octets [97, 98, 99, 100], .pause 3, .octets [101, 10]]
    let service := start ⟨"out", 8, [], [], ⟨[], none⟩, none⟩
    let c := Connection.accepted 1 (.v4 ⟨192, 0, 2, 1⟩ 5000) (.v4 ⟨192, 0, 2, 2⟩ 514)
    ∃ p limit search stream, service.ComesTo d wire c p ∧
      p.errand = .message limit search stream ∧
        ∀ text ∈ Fill.held stream.buffer (Framing.Search.inquiry.fills limit search stream),
          text.length ≤ 11 + 4096 := by
  intro d wire service c
  have hmessage : service.ComesTo d wire c _ := .tail (.tail .refl rfl) rfl
  exact ⟨_, _, _, _, hmessage, rfl,
    serve_frugal service d wire c 4096 (fun _ _ _ => Errand.fill_length) hmessage⟩

end Service
end SyslogIntake

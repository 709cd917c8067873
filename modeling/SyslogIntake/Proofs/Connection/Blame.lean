import SyslogIntake.Proofs.Server.Handing
import SyslogIntake.Stream.Wire

/-!
# Who is to blame

Without a session, and on a stream that itself never fails, there are three ways for a connection
to fail: its peer has sent something malformed, it was waited for in vain, or the writer of the
output has stopped.  Every stage is gone through for the faults that it can give.

**Results.**

* `ProxyHeader.parse_blames`, `Framing.Search.attempt_blames` : malformed octets are held against
  the peer;
* `Detector.detect_foreseen` : how the stages of a connection fail;
* `Serving.run_fails` : how a connection fails.
-/

namespace SyslogIntake

/-- Streams of which some never fail. -/
class Steadfast (σ : Type) [ByteStream σ] where
  /-- Reading from the stream never fails. -/
  Sound : σ → Prop
  /-- A read does not fail, and what is left does not either. -/
  read_sound : ∀ {s : σ}, Sound s → ∀ (want : Nat) (limit : Option Nat),
    (∀ report, (ByteStream.read want limit s).1 ≠ .failed report) ∧
      Sound (ByteStream.read want limit s).2

open Steadfast

namespace Wire

/-- Nothing on a wire makes a read fail. -/
def Sound (w : Wire) : Prop :=
  ∀ report, Segment.fault report ∉ w.segments

theorem readFrom_sound
    {segments : List Segment}
    (h : ∀ report, Segment.fault report ∉ segments)
    (want : Nat)
    (limit : Option Nat)
    (clock : Nat) :
    (∀ report, (readFrom want limit clock segments).1 ≠ .failed report) ∧
      ∀ report, Segment.fault report ∉ (readFrom want limit clock segments).2.1 := by
  fun_induction readFrom want limit clock segments with
  | case1 clock => exact ⟨by simp, h⟩
  | case2 clock rest =>
      exact ⟨by simp, fun report hmem => h report (List.mem_cons_of_mem _ hmem)⟩
  | case3 clock b text rest hlt =>
      exact ⟨by simp, fun report hmem => h report (List.mem_cons_of_mem _ hmem)⟩
  | case4 clock b text rest hlt =>
      refine ⟨by simp, fun report hmem => ?_⟩
      rcases List.mem_cons.1 hmem with hfirst | hrest
      · cases hfirst
      · exact h report (List.mem_cons_of_mem _ hrest)
  | case5 clock length rest hwithin ih =>
      exact ih fun report hmem => h report (List.mem_cons_of_mem _ hmem)
  | case6 clock length rest hwithin =>
      refine ⟨by simp, fun report hmem => ?_⟩
      rcases List.mem_cons.1 hmem with hfirst | hrest
      · cases hfirst
      · exact h report (List.mem_cons_of_mem _ hrest)
  | case7 clock report rest => exact absurd List.mem_cons_self (h report)
  | case8 clock rest => exact ⟨by simp, h⟩

instance : Steadfast Wire where
  Sound := Sound
  read_sound h want limit := readFrom_sound h want limit _

end Wire

variable {σ : Type} [ByteStream σ] [Steadfast σ]

namespace Lookahead

theorem read_sound
    {l : Lookahead σ}
    (h : Sound l.inner)
    (want : Nat)
    (limit : Option Nat) :
    (∀ report, (l.read want limit).1 ≠ .failed report) ∧ Sound (l.read want limit).2.inner := by
  by_cases hbuffer : l.buffer = []
  case neg =>
    rw [read_of_buffer want limit hbuffer]
    exact ⟨by simp, h⟩
  by_cases hended : l.ended = true
  · simp only [read, hbuffer, ne_eq, not_true_eq_false, if_false, hended, if_true]
    exact ⟨by simp, h⟩
  · have hinner := Steadfast.read_sound h want limit
    simp only [read, hbuffer, ne_eq, not_true_eq_false, if_false, hended, Bool.false_eq_true]
    exact hinner

instance : Steadfast (Lookahead σ) where
  Sound l := Sound l.inner
  read_sound h want limit := read_sound h want limit

theorem fillMore_sound
    {l : Lookahead σ}
    (h : Sound l)
    (limit : Option Nat) :
    (∀ report, (l.fillMore limit).1 ≠ .failed report) ∧ Sound (l.fillMore limit).2 := by
  by_cases hended : l.ended = true
  · rw [fillMore_ended limit hended]
    exact ⟨by simp, h⟩
  · have hinner := Steadfast.read_sound (show Sound l.inner from h) portion limit
    rw [fillMore, if_neg hended]
    rcases hread : ByteStream.read portion limit l.inner with ⟨delivery, next⟩
    rw [hread] at hinner
    cases delivery with
    | octets text => exact ⟨by simp, hinner.2⟩
    | failed report => exact absurd rfl (hinner.1 report)
    | late => exact ⟨by simp, hinner.2⟩

end Lookahead

instance : Steadfast (Channel σ) where
  Sound channel := Sound channel.raw
  read_sound {channel} h want limit := by
    have hraw := Steadfast.read_sound h want limit
    refine ⟨hraw.1, ?_⟩
    have hnext : (ByteStream.read want limit channel).2.raw =
        (ByteStream.read want limit channel.raw).2 := Channel.raw_withRaw ..
    rw [hnext]
    exact hraw.2

/-- An inquiry that never takes the stream for failed. -/
theorem Inquiry.run_sound
    {s a : Type}
    (inquiry : Inquiry s a)
    (limit : Option Nat)
    (state : s)
    {l : Lookahead σ}
    (h : Sound l) :
    (∀ left report, (inquiry.run limit state l).1 ≠ .failed left report) ∧
      Sound (inquiry.run limit state l).2 := by
  fun_induction Inquiry.run inquiry limit state l with
  | case1 state l answer rest hlook => exact ⟨by simp, h⟩
  | case2 state l next rest hlook filled hfill answer left hfinish =>
      have hfilled := Lookahead.fillMore_sound (show Sound (l.leaving rest) from h) limit
      rw [hfill] at hfilled
      exact ⟨by simp, hfilled.2⟩
  | case3 state l next rest hlook b text filled hfill ih =>
      have hfilled := Lookahead.fillMore_sound (show Sound (l.leaving rest) from h) limit
      rw [hfill] at hfilled
      exact ih hfilled.2
  | case4 state l next rest hlook report filled hfill =>
      have hfilled := Lookahead.fillMore_sound (show Sound (l.leaving rest) from h) limit
      rw [hfill] at hfilled
      exact absurd rfl (hfilled.1 report)
  | case5 state l next rest hlook filled hfill =>
      have hfilled := Lookahead.fillMore_sound (show Sound (l.leaving rest) from h) limit
      rw [hfill] at hfilled
      exact ⟨by simp, hfilled.2⟩

/-- A fault that is counted against the peer of a connection, or that time ran out. -/
def Fault.Foreseen (fault : Fault) : Prop :=
  fault.blamesPeer = true ∨ ∃ wait, fault = .late wait

omit [Steadfast σ] in
/-- What goes for all answers of an inquiry goes for the one that it comes to. -/
theorem Inquiry.run_holds
    {s a : Type} {inquiry : Inquiry s a}
    (holds : a → Prop)
    (hlook : ∀ {state text answer rest}, inquiry.look state text = .settled answer rest →
      holds answer)
    (hfinish : ∀ state text, holds (inquiry.finish state text).1)
    {limit : Option Nat} {state : s} {l next : Lookahead σ} {answer : a}
    (h : inquiry.run limit state l = (.answer answer, next)) :
    holds answer := by
  fun_induction Inquiry.run inquiry limit state l with
  | case1 state l found rest hsettled =>
      cases h
      exact hlook hsettled
  | case2 state l after rest hwanting filled hfill found left hfinished =>
      cases h
      have hend := hfinish after filled.buffer
      rwa [hfinished] at hend
  | case3 state l after rest hwanting b text filled hfill ih => exact ih h
  | case4 => cases h
  | case5 => cases h

namespace ProxyHeader

theorem parseBinary_blames
    {text : Octets}
    {fault : Fault}
    (h : parseBinary text = .error fault) :
    fault.blamesPeer = true := by
  unfold parseBinary at h
  split at h
  · dsimp only at h
    split at h
    · cases h; rfl
    split at h
    · cases h; rfl
    split at h
    · cases h; rfl
    split at h
    · cases h
    split at h <;> cases h
    rfl
  · cases h

theorem parseText_blames
    {text : Octets}
    {fault : Fault}
    (h : parseText text = .error fault) :
    fault.blamesPeer = true := by
  unfold parseText at h
  split at h
  · split at h <;> cases h
    rfl
  · split at h <;> cases h
    rfl

theorem parse_blames
    {text : Octets}
    {fault : Fault}
    (h : parse text = .error fault) :
    fault.blamesPeer = true := by
  unfold parse at h
  split at h
  · exact parseBinary_blames h
  split at h
  · exact parseText_blames h
  split at h <;> cases h

/-- A search for a header that comes to a fault blames the peer for it. -/
def Blames (search : Search) : Prop :=
  ∀ fault, search = .error fault → fault.blamesPeer = true

theorem look_blames
    {required : Bool}
    {text rest : Octets}
    {search : Search}
    (h : look required text = .settled search rest) :
    Blames search := by
  intro fault hfault
  subst hfault
  unfold look at h
  split at h
  · rename_i cause hparse
    cases h
    exact parse_blames hparse
  · cases h
  · cases required <;> cases h
    rfl
  · cases h

theorem finish_blames
    (required : Bool)
    (text : Octets) :
    Blames (finish required text) := by
  intro fault hfault
  unfold finish at hfault
  split at hfault
  · cases hfault
  split at hfault
  · cases hfault
    rfl
  · cases required <;> cases hfault
    rfl

end ProxyHeader

namespace Framing
namespace Search

/-- A search for a message that comes to a fault blames the peer for it. -/
def Blames (result : Result) : Prop :=
  ∀ fault, result.outcome = .fault fault → fault.blamesPeer = true

theorem takeCounted_blames
    {s : Search} {length : Nat} {text rest : Octets} {found : Result}
    (h : s.takeCounted length text = .settled found rest) :
    Blames found := by
  unfold takeCounted at h
  split at h
  · cases h
  split at h <;> cases h
  exact nofun

theorem takeLine_blames
    {s : Search} {text rest : Octets} {found : Result}
    (h : s.takeLine text = .settled found rest) :
    Blames found := by
  unfold takeLine at h
  split at h
  · cases h
  split at h
  · cases h
  split at h
  · cases h
  split at h <;> cases h
  exact nofun

theorem takeBoundary_blames
    {s : Search} {text rest : Octets} {found : Result}
    (h : s.takeBoundary text = .settled found rest) :
    Blames found := by
  unfold takeBoundary at h
  dsimp only at h
  split at h
  · cases h
  · split at h
    · cases h
      rintro fault ⟨⟩
      rfl
    · exact takeLine_blames h
  · split at h
    · cases h
      rintro fault ⟨⟩
      rfl
    · exact takeCounted_blames h

theorem look_blames
    {s : Search} {text rest : Octets} {found : Result}
    (h : s.look text = .settled found rest) :
    Blames found := by
  fun_induction look s text with
  | case1 s text result left hstep =>
      cases h
      unfold step at hstep
      split at hstep
      · exact takeBoundary_blames hstep
      · exact takeCounted_blames hstep
      · exact takeLine_blames hstep
  | case2 s text next left hstep => cases h
  | case3 s text next left hstep ih => exact ih h

theorem finishLine_blames
    (s : Search)
    (text : Octets) :
    Blames (s.finishLine text).1 := by
  unfold finishLine
  split <;> exact nofun

theorem finish_blames
    (s : Search)
    (text : Octets) :
    Blames (s.finish text).1 := by
  unfold finish
  split
  · exact finishLine_blames s text
  · rintro fault ⟨⟩
    rfl
  split
  · exact nofun
  split
  · rintro fault ⟨⟩
    rfl
  · exact finishLine_blames _ _

/-- On a stream that never fails, a search that fails blames the peer. -/
theorem attempt_blames
    (limit : Option Nat)
    (s : Search)
    {stream : Lookahead σ}
    (h : Sound stream) :
    (∀ fault, (s.attempt limit stream).next = .fault fault → fault.blamesPeer = true) ∧
      Sound (s.attempt limit stream).stream := by
  have hsound := inquiry.run_sound limit s h
  unfold attempt
  split
  · rename_i result next hrun
    rw [hrun] at hsound
    have hblames : Blames result :=
      Inquiry.run_holds Blames look_blames finish_blames hrun
    refine ⟨fun fault hfault => hblames fault ?_, hsound.2⟩
    cases houtcome : result.outcome with
    | frame found => rw [houtcome] at hfault; cases hfault
    | ended => rw [houtcome] at hfault; cases hfault
    | fault cause => rw [houtcome] at hfault; cases hfault; rfl
  · rename_i search report next hrun
    rw [hrun] at hsound
    exact absurd rfl (hsound.1 search report)
  · rename_i search next hrun
    rw [hrun] at hsound
    exact ⟨by simp, hsound.2⟩

end Search
end Framing

namespace Detector

theorem peel_foreseen
    (d : Detector)
    (policy : StagePolicy)
    {l : Lookahead σ}
    (h : Sound l) :
    (∀ fault, (d.peel policy l).1 = .error fault → fault.Foreseen) ∧
      Sound (d.peel policy l).2 := by
  unfold peel
  split
  · exact ⟨by simp, h⟩
  · have hsound := (ProxyHeader.inquiry (policy = .required)).run_sound
      (some (ByteStream.after d.dataTimeout l)) () h
    split
    · rename_i found next hrun
      rw [hrun] at hsound
      have hblames : ProxyHeader.Blames found :=
        Inquiry.run_holds ProxyHeader.Blames ProxyHeader.look_blames
          (fun _ text => ProxyHeader.finish_blames _ text) hrun
      exact ⟨fun fault hfault => .inl (hblames fault hfault), hsound.2⟩
    · rename_i report next hrun
      rw [hrun] at hsound
      exact absurd rfl (hsound.1 () report)
    · rename_i next hrun
      rw [hrun] at hsound
      refine ⟨?_, hsound.2⟩
      rintro fault ⟨⟩
      exact .inr ⟨.header, rfl⟩

/-- What the stages of a connection come to, if they come to nothing unforeseen. -/
def Leads : Detected σ → Prop
  | .fault cause _ => cause.Foreseen
  | .reader found => Sound found.stream

/-- Without a session, the stages of a connection fail in a foreseen way. -/
theorem detect_foreseen
    {d : Detector}
    (hplan : d.plan.tls = .disabled)
    {stream : σ}
    (h : Sound stream)
    (c : Connection) :
    Leads (d.detect stream c).1 := by
  have hpeel := d.peel_foreseen d.plan.outerProxy (show Sound (Lookahead.fresh stream) from h)
  unfold detect
  dsimp only
  split
  · rename_i fault raw hfound
    rw [hfound] at hpeel
    exact hpeel.1 fault rfl
  · rename_i found raw hfound
    rw [hfound] at hpeel
    have hplain : d.negotiate raw = (.ok ⟨.plain raw, none⟩, ByteStream.now raw) := by
      unfold negotiate
      split
      · rfl
      · exact if_pos hplan
    rw [hplain]
    exact hpeel.2

end Detector

namespace Serving

/-- A writer that does not take a record has stopped. -/
theorem stopped_of_refused
    {frame : Frame} {s after : Serving} {fault : Fault}
    (h : s.deliver frame = (.error fault, after)) :
    fault = .writerStopped ∧ after.service.sink.stopped ≠ none := by
  cases delivered_of_deliver h with
  | refused hsend hconnection htime hhanded hcounters =>
      refine ⟨rfl, ?_⟩
      unfold Sink.send at hsend
      split at hsend
      · cases hsend
      · rename_i hstopped
        rw [← (Prod.mk.inj hsend).2]
        simpa [Sink.isRunning] using hstopped

/-- A connection fails in a foreseen way, or because the writer of the output has stopped. -/
def Fails (fault : Fault) (after : Serving) : Prop :=
  fault.Foreseen ∨ fault = .writerStopped ∧ after.service.sink.stopped ≠ none

/-- Behind the stages, messages are malformed or nobody takes them. -/
theorem stream_fails
    {limit : Option Nat} {search : Framing.Search} {octets : Lookahead (Channel σ)}
    {s after : Serving} {fault : Fault}
    (hoctets : Sound octets)
    (h : s.stream limit search octets = (.failed fault, after)) :
    Fails fault after := by
  fun_induction stream limit search octets s with
  | case1 limit search octets s frame found rest htried cause refused hdeliver =>
      cases h
      exact .inr (stopped_of_refused hdeliver)
  | case2 limit search octets s frame found rest htried taken unit hdeliver ih =>
      have hsound := search.attempt_blames limit hoctets
      rw [htried] at hsound
      exact ih hsound.2 h
  | case3 => cases h
  | case4 limit search octets s cause found rest htried =>
      cases h
      have hsound := search.attempt_blames limit hoctets
      rw [htried] at hsound
      exact .inl (.inl (hsound.1 fault rfl))
  | case5 => cases h

/-- Without a session and on a stream that never fails, a connection fails in a foreseen way, or
because the writer of the output has stopped. -/
theorem run_fails
    {d : Detector} {octets : σ} {s after : Serving} {fault : Fault}
    (hplan : d.plan.tls = .disabled)
    (hoctets : Sound octets)
    (h : s.run d octets = (.failed fault, after)) :
    Fails fault after := by
  have hstages := Detector.detect_foreseen hplan hoctets s.connection
  unfold run at h
  split at h
  · rename_i cause time connection hdetect
    rw [hdetect] at hstages
    cases h
    exact .inl hstages
  · rename_i reader connection hdetect
    rw [hdetect] at hstages
    rcases hbegin : { s with connection }.begin d reader with ⟨progress, left⟩
    rw [hbegin] at h
    cases progress with
    | closed => cases h
    | failed cause =>
        cases h
        unfold begin at hbegin
        exact stream_fails hstages hbegin
    | waiting limit search stream =>
        cases limit <;> cases h
        exact .inl (.inr ⟨.firstMessage, rfl⟩)

end Serving
end SyslogIntake

import SyslogIntake.Proofs.Framing.Searching

/-!
# Reading to the end

A reader that is asked for one message after the other, until there are no more or
something fails, has gone through the decoding of the whole text.

**Results.**

* `Reader.readAll_brings` : what a reader gives is the decoding of what its stream brings;
* `Reader.readAll_decodes` : in particular of a text that arrives on a wire, however it is cut;
* `Reader.readAll_cut` : what is so read as lines never fails.
-/

namespace SyslogIntake

/-- How a decoding ends, said of the last thing that a reader gives. -/
def Framing.Next.Ends (last : Next) (fault : Option Fault) : Prop :=
  match fault with
  | none => last = .ended
  | some fault => ∃ cause, last = .fault cause ∧ cause.bare = fault

namespace Framing

/-- Lines are decoded without a fault, as long as the stream just ends. -/
theorem decode_lines_fault
    (most : Nat) (text : Octets) :
    (decode none most .lines text).fault = none := by
  refine (decode_keeps (P := fun _ => True) (Q := (· = none)) (fun _ => rfl)
    (fun _ _ _ => trivial) (fun text => ?_) text).2
  simp only [Rule.portion, linePortion]
  split <;> rfl

end Framing

namespace Reader

variable {σ : Type} [ByteStream σ]

/-- Ask for messages until there are no more: the messages, and what came instead of one. -/
def readAll (r : Reader σ) : List Frame × Framing.Next :=
  match _h : r.next none with
  | (.frame found, _, after) => (found :: (readAll after).1, (readAll after).2)
  | (last, _, _) => ([], last)
termination_by r.stream.backlog
decreasing_by
  all_goals exact next_frame_backlog _h

theorem readAll_last
    {r after : Reader σ} {last : Framing.Next} {notices : List Framing.Notice}
    (h : r.next none = (last, notices, after))
    (hlast : ∀ found, last ≠ .frame found) :
    r.readAll = ([], last) := by
  rw [readAll]
  split
  · rename_i found _ _ hnext
    rw [h] at hnext
    simp only [Prod.mk.injEq] at hnext
    exact absurd hnext.1 (hlast found)
  · rename_i hnext
    rw [h] at hnext
    simp only [Prod.mk.injEq] at hnext
    rw [hnext.1]

theorem readAll_frame
    {r after : Reader σ} {found : Frame} {notices : List Framing.Notice}
    (h : r.next none = (.frame found, notices, after)) :
    r.readAll = (found :: after.readAll.1, after.readAll.2) := by
  rw [readAll]
  split
  · rename_i other _ next hnext
    rw [h] at hnext
    simp only [Prod.mk.injEq, Framing.Next.frame.injEq] at hnext
    obtain ⟨rfl, _, rfl⟩ := hnext
    rfl
  · rename_i hother hnext
    rw [h] at hnext
    simp only [Prod.mk.injEq] at hnext
    exact absurd hnext.1.symm (hother found)

variable [Supplied σ]

/-- What a reader gives is the decoding of what its stream brings. -/
theorem readAll_brings
    {span : Span} {close : Option String} {text : Octets} {r : Reader σ}
    (hkeep : r.framer.discarding = false)
    (hstream : Supplied.Brings span close text r.stream) :
    r.readAll.1 = (Framing.decode close r.framer.most r.framer.rule text).frames ∧
      r.readAll.2.Ends (Framing.decode close r.framer.most r.framer.rule text).fault := by
  induction hbacklog : r.stream.backlog using Nat.strong_induction_on
    generalizing r text with
  | _ backlog ih =>
      subst hbacklog
      have hkeeps : (Framing.Search.start r.framer).Keeps := by
        intro h
        exact absurd (hkeep.symm.trans h) Bool.false_ne_true
      have hstart : (Framing.Search.start r.framer).decode close text =
          Framing.decode close r.framer.most r.framer.rule text := rfl
      have hagrees := Framing.Search.attempt_decodes hkeeps hstream (Span.meets_none span)
      rw [← hstart]
      rcases htried : (Framing.Search.start r.framer).attempt none r.stream with
        ⟨came, after, stream⟩
      have hr : r.next none = (came, after.notices, ⟨after.framer, stream⟩) := by
        simp [next, htried]
      rw [htried] at hagrees
      cases came with
      | frame found =>
          obtain ⟨hnext, rest, hbrings, hdecode⟩ := hagrees
          obtain ⟨hframes, hfault⟩ := ih _ (next_frame_backlog hr) hnext hbrings rfl
          rw [readAll_frame hr, hdecode]
          exact ⟨congrArg (found :: ·) hframes, hfault⟩
      | ended =>
          obtain ⟨_, hdecode⟩ := hagrees
          rw [readAll_last hr (by simp), hdecode]
          exact ⟨rfl, rfl⟩
      | fault cause =>
          obtain ⟨_, hdecode⟩ := hagrees
          rw [readAll_last hr (by simp), hdecode]
          exact ⟨rfl, cause, rfl, rfl⟩
      | late =>
          exact hagrees.elim

end Reader

namespace Reader

/-- What arrives on a wire, however it is cut, is read as it is decoded. -/
theorem readAll_decodes
    {text : Octets} {wait : Nat} {segments : List Segment}
    (hcut : Cut text wait segments)
    (policy : FramingPolicy) (most : Nat) :
    let given := readAll
      ⟨Framer.start policy most, Lookahead.fresh (Wire.ofSegments segments)⟩
    let decoded := Framing.decode none most (.ofPolicy policy) text
    given.1 = decoded.frames ∧ given.2.Ends decoded.fault := by
  have hwire := Wire.brings_ofSegments hcut none
  rw [Segment.closing, List.append_nil] at hwire
  have hread := readAll_brings
    (r := ⟨Framer.start policy most, Lookahead.fresh (Wire.ofSegments segments)⟩) rfl
    (Lookahead.brings_fresh hwire)
  rw [Framer.rule_start] at hread
  exact hread

/--
A reader in front of a text that arrives on a wire, however it is cut, gives the messages of
the decoding of the text and ends as the decoding does; lines never fail.
-/
theorem readAll_cut
    {text : Octets} {wait : Nat} {segments : List Segment}
    (hcut : Cut text wait segments)
    (policy : FramingPolicy) (most : Nat) :
    let given := readAll
      ⟨Framer.start policy most, Lookahead.fresh (Wire.ofSegments segments)⟩
    let decoded := Framing.decode none most (.ofPolicy policy) text
    given.1 = decoded.frames ∧ given.2.Ends decoded.fault ∧
      (policy = .nonTransparent → given.2 = .ended) := by
  have hread := readAll_decodes hcut policy most
  refine ⟨hread.1, hread.2, ?_⟩
  rintro rfl
  have hlast := hread.2
  change Framing.Next.Ends _ (Framing.decode none most .lines text).fault at hlast
  rw [Framing.decode_lines_fault] at hlast
  exact hlast

/-- A counted message whose length arrives in two pieces, and a line that nothing ends. -/
theorem readAll_cut_two :
    Cut [49, 32, 65, 66] 7 [.octets [49], .pause 7, .octets [32, 65, 66]] ∧
      readAll ⟨Framer.start .auto 8, Lookahead.fresh
        (Wire.ofSegments [.octets [49], .pause 7, .octets [32, 65, 66]])⟩ =
          ([⟨some 1, [65]⟩, ⟨none, [66]⟩], .ended) := by
  have hcut : Cut [49, 32, 65, 66] 7 [.octets [49], .pause 7, .octets [32, 65, 66]] :=
    @Cut.piece [49] [32, 65, 66] 7 _ (by decide)
      (.pause 7 (@Cut.piece [32, 65, 66] [] 0 _ (by decide) .nil))
  refine ⟨hcut, ?_⟩
  have hdecode : Framing.decode none 8 .each [49, 32, 65, 66] =
      ⟨[⟨some 1, [65]⟩, ⟨none, [66]⟩], none⟩ := by
    have hfirst : Framing.Rule.portion none 8 .each [49, 32, 65, 66] =
        (.before (some ⟨some 1, [65]⟩) [66], .each) := rfl
    have hsecond : Framing.Rule.portion none 8 .each [66] =
        (.last (some ⟨none, [66]⟩) none, .each) := rfl
    rw [Framing.decode_eq, hfirst]
    simp [Framing.Portion.decoding, Framing.decode_eq, hsecond, Framing.Decoding.behind]
  obtain ⟨hframes, hlast, _⟩ := readAll_cut hcut .auto 8
  change _ = (Framing.decode none 8 .each [49, 32, 65, 66]).frames at hframes
  change Framing.Next.Ends _ (Framing.decode none 8 .each [49, 32, 65, 66]).fault at hlast
  rw [hdecode] at hframes hlast
  exact Prod.ext hframes hlast

end Reader
end SyslogIntake

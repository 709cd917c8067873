import SyslogIntake.Framing.Reader
import SyslogIntake.Proofs.Stream.Fills
import SyslogIntake.Stream.Channel
import SyslogIntake.Stream.Wire

/-!
# The room that reading ahead takes

What settles nothing is short: the digits of a length, the octets of a message that are fewer than
its length says, or a line that may still fit.  One more portion is read behind it, so a reader
gets by with the same room for as long as it reads, whatever its peer sends.

**Results.**

* `Search.step_keeps`, `Search.look_keeps` : what a search leaves that needs more octets;
* `Reader.room_next` : the next message takes no more room than the one before it.
-/

namespace SyslogIntake

/-- Streams that bring no more than they are asked for. -/
class Portioned (σ : Type) [ByteStream σ] : Prop where
  /-- A read is no longer than what was asked for. -/
  read_length : ∀ {want : Nat} {limit : Option Nat} {s : σ} {text : Octets},
    (ByteStream.read want limit s).1 = .octets text → text.length ≤ want

theorem Wire.readFrom_length
    {want : Nat} {limit : Option Nat} {clock : Nat} {segments : List Segment} {text : Octets}
    (h : (readFrom want limit clock segments).1 = .octets text) :
    text.length ≤ want := by
  fun_induction readFrom want limit clock segments with
  | case1 => cases h; exact Nat.zero_le _
  | case2 => cases h; exact Nat.zero_le _
  | case3 clock b rest found hlt => cases h; exact hlt
  | case4 clock b rest found hlt => cases h; exact List.length_take_le ..
  | case5 clock length rest hwithin ih => exact ih h
  | case6 => cases h
  | case7 => cases h
  | case8 => cases h

instance : Portioned Wire where
  read_length h := Wire.readFrom_length h

variable {σ : Type} [ByteStream σ] [Portioned σ]

namespace Lookahead

theorem read_length
    {want : Nat} {limit : Option Nat} {l : Lookahead σ} {text : Octets}
    (h : (l.read want limit).1 = .octets text) :
    text.length ≤ want := by
  unfold read at h
  split at h
  · cases h
    exact List.length_take_le ..
  split at h
  · cases h
    exact Nat.zero_le _
  · exact Portioned.read_length h

instance : Portioned (Lookahead σ) where
  read_length h := read_length h

theorem fillMore_length
    (limit : Option Nat)
    (l : Lookahead σ) :
    (l.fillMore limit).2.buffer.length ≤ l.buffer.length + portion := by
  unfold fillMore
  split
  · exact Nat.le_add_right ..
  split
  · rename_i text inner hread
    have hle : text.length ≤ portion := Portioned.read_length (congrArg Prod.fst hread)
    simp only [List.length_append]
    omega
  · exact Nat.le_add_right ..

end Lookahead

theorem Inquiry.fill_length
    {s a : Type} {inquiry : Inquiry s a} {limit : Option Nat} {state : s} {l : Lookahead σ}
    {fill : Fill}
    (h : fill ∈ inquiry.fills limit state l) :
    fill.after.length ≤ fill.before.length + Lookahead.portion := by
  fun_induction fills inquiry limit state l with
  | case1 => cases h
  | case2 state l next rest hlook b piece filled hfill ih =>
      rcases List.mem_cons.1 h with rfl | hlater
      · have hfilled := (l.leaving rest).fillMore_length limit
        rwa [hfill] at hfilled
      · exact ih hlater
  | case3 state l next rest hlook delivery filled hother hfill =>
      obtain rfl := List.mem_singleton.1 h
      have hfilled := (l.leaving rest).fillMore_length limit
      rwa [hfill] at hfilled

instance : Portioned (Channel σ) where
  read_length h := Lookahead.read_length h

/-- The most octets at the front of a stream that may settle nothing. -/
def Framer.ahead (f : Framer) : Nat :=
  max f.most Framing.mostDigits

namespace Framing

/-- No message is waited for that is longer than one may be. -/
def Search.Modest (s : Search) : Prop :=
  ∀ length, s.phase = .counted length → length ≤ s.framer.most

theorem Search.modest_start
    (f : Framer) :
    (start f).Modest :=
  fun _ hphase => Phase.noConfusion hphase

/-- A step keeps the limit for messages, and what it needs more octets behind is short. -/
def Step.Keeps (f : Framer) : Step → Prop
  | .settled result _ => result.framer.most = f.most
  | .wanting next rest => next.framer.most = f.most ∧ next.Modest ∧ rest.length ≤ f.ahead
  | .again next _ => next.framer.most = f.most ∧ next.Modest

/-- A look keeps the limit for messages, and what it needs more octets behind is short. -/
def Keeps (f : Framer) : Looked Search Result → Prop
  | .settled result _ => result.framer.most = f.most
  | .wanting next rest => next.framer.most = f.most ∧ next.Modest ∧ rest.length ≤ f.ahead

/-- Digits that may still become a length are few. -/
theorem length_of_undecided
    {text : Octets}
    (h : sniff text = .undecided) :
    text.length ≤ mostDigits := by
  unfold sniff at h
  dsimp only at h
  split at h
  · split at h
    · rename_i hempty
      rw [List.isEmpty_iff.1 hempty]
      exact Nat.zero_le _
    · cases h
  split at h
  · cases h
  · rename_i hfew
    split at h
    · rename_i hrest
      have hwithin : text.length ≤ (leadingDigits text).length := List.drop_eq_nil_iff.1 hrest
      omega
    · split at h <;> cases h

namespace Search

theorem takeCounted_keeps
    {s : Search}
    {length : Nat}
    (hlength : length ≤ s.framer.most)
    (text : Octets) :
    (s.takeCounted length text).Keeps s.framer := by
  unfold takeCounted
  split
  · rename_i hlacking
    refine ⟨rfl, ?_, ?_⟩
    · rintro _ ⟨⟩
      exact hlength
    · exact Nat.le_trans (Nat.le_of_lt hlacking) (Nat.le_trans hlength (Nat.le_max_left ..))
  split
  · exact ⟨rfl, nofun⟩
  · rfl

/-- What is held of a line that has no end yet may still fit. -/
theorem holdLine_keeps
    (s : Search)
    (text : Octets) :
    (s.holdLine text).1.framer.most = s.framer.most ∧ (s.holdLine text).1.Modest ∧
      (s.holdLine text).2.length ≤ s.framer.ahead := by
  unfold holdLine
  split
  · exact ⟨rfl, fun _ hphase => (nomatch hphase), Nat.zero_le _⟩
  · rename_i hfits
    exact ⟨rfl, fun _ hphase => (nomatch hphase),
      Nat.le_trans (Nat.le_of_not_lt hfits) (Nat.le_max_left ..)⟩

theorem takeLine_keeps
    (s : Search)
    (text : Octets) :
    (s.takeLine text).Keeps s.framer := by
  unfold takeLine
  split
  · exact holdLine_keeps s text
  · split
    · exact ⟨rfl, nofun⟩
    split
    · exact ⟨rfl, nofun⟩
    split
    · exact ⟨rfl, nofun⟩
    · rfl

theorem takeBoundary_keeps
    {s : Search}
    (hmodest : s.Modest)
    (text : Octets) :
    (s.takeBoundary text).Keeps s.framer := by
  unfold takeBoundary
  dsimp only
  split
  · rename_i hstart
    have hsniff : sniff (s.boundaryText text) = .undecided := by
      unfold boundaryStart at hstart
      split at hstart
      · cases hstart
      · exact hstart
    exact ⟨rfl, hmodest, Nat.le_trans (length_of_undecided hsniff) (Nat.le_max_right ..)⟩
  · split
    · rfl
    · exact takeLine_keeps { s with framer := s.framer.noting .line } _
  · split
    · rfl
    · rename_i hfits
      exact takeCounted_keeps (s := { s with framer := s.framer.noting .counted })
        (Nat.le_of_not_lt hfits) _

theorem step_keeps
    {s : Search}
    (hmodest : s.Modest)
    (text : Octets) :
    (s.step text).Keeps s.framer := by
  unfold step
  cases hphase : s.phase with
  | boundary => exact takeBoundary_keeps hmodest text
  | counted length => exact takeCounted_keeps (hmodest length hphase) text
  | line => exact takeLine_keeps s text

theorem look_keeps
    {s : Search}
    (hmodest : s.Modest)
    (text : Octets) :
    Keeps s.framer (s.look text) := by
  fun_induction look s text with
  | case1 s text result rest hstep =>
      have hkeeps := step_keeps hmodest text
      rwa [hstep] at hkeeps
  | case2 s text next rest hstep =>
      have hkeeps := step_keeps hmodest text
      rwa [hstep] at hkeeps
  | case3 s text next rest hstep ih =>
      have hkeeps := step_keeps hmodest text
      rw [hstep] at hkeeps
      obtain ⟨hmost, hnext⟩ := hkeeps
      have hahead : next.framer.ahead = s.framer.ahead := by rw [Framer.ahead, hmost, Framer.ahead]
      have hlook := ih hnext
      cases hlooked : next.look rest with
      | settled result left =>
          rw [hlooked] at hlook
          exact hlook.trans hmost
      | wanting after left =>
          rw [hlooked] at hlook
          exact ⟨hlook.1.trans hmost, hlook.2.1, hahead ▸ hlook.2.2⟩

theorem finish_most
    (s : Search)
    (text : Octets) :
    (s.finish text).1.framer.most = s.framer.most := by
  have hline : ∀ (s : Search) (text : Octets),
      (s.finishLine text).1.framer.most = s.framer.most := by
    intro s text
    unfold finishLine
    split <;> rfl
  unfold finish
  split
  · exact hline s text
  · rfl
  split
  · rfl
  split
  · rfl
  · exact (hline _ _).trans (holdLine_keeps { s with framer := s.framer.noting .line } text).1

/-- The framer behind a search. -/
def framerOf : Reached Search Result → Framer
  | .answer result => result.framer
  | .failed s _ => s.framer
  | .late s => s.framer

/-- Behind what settles nothing, filling needs no more than a portion. -/
theorem filled_keeps
    {limit : Option Nat} {s next : Search} {l filled : Lookahead σ} {rest : Octets}
    {delivery : Delivery}
    (hmodest : s.Modest)
    (hlook : inquiry.look s l.buffer = .wanting next rest)
    (hfill : (l.leaving rest).fillMore limit = (delivery, filled)) :
    next.framer.most = s.framer.most ∧ next.Modest ∧
      filled.buffer.length ≤ s.framer.ahead + Lookahead.portion := by
  have hkeeps := look_keeps hmodest l.buffer
  rw [show s.look l.buffer = _ from hlook] at hkeeps
  obtain ⟨hmost, hnext, hshort⟩ := hkeeps
  have hfilled := Lookahead.fillMore_length limit (l.leaving rest)
  rw [hfill] at hfilled
  exact ⟨hmost, hnext, Nat.le_trans hfilled (Nat.add_le_add_right hshort _)⟩

omit [Portioned σ] in
theorem run_most
    (limit : Option Nat)
    {s : Search}
    (hmodest : s.Modest)
    (l : Lookahead σ) :
    (framerOf (inquiry.run limit s l).1).most = s.framer.most := by
  have hwanting : ∀ {s next : Search} {text rest : Octets}, s.Modest →
      inquiry.look s text = .wanting next rest →
        next.framer.most = s.framer.most ∧ next.Modest := by
    intro s next text rest hmodest hlook
    have hkeeps := look_keeps hmodest text
    rw [show s.look text = _ from hlook] at hkeeps
    exact ⟨hkeeps.1, hkeeps.2.1⟩
  fun_induction Inquiry.run inquiry limit s l with
  | case1 s l result rest hlook =>
      have hkeeps := look_keeps hmodest l.buffer
      rwa [show s.look l.buffer = _ from hlook] at hkeeps
  | case2 s l next rest hlook filled hfill result left hfinish =>
      have hlast := finish_most next filled.buffer
      rw [show next.finish filled.buffer = _ from hfinish] at hlast
      exact hlast.trans (hwanting hmodest hlook).1
  | case3 s l next rest hlook b text filled hfill ih =>
      obtain ⟨hmost, hnext⟩ := hwanting hmodest hlook
      exact (ih hnext).trans hmost
  | case4 s l next rest hlook report filled hfill => exact (hwanting hmodest hlook).1
  | case5 s l next rest hlook filled hfill => exact (hwanting hmodest hlook).1

omit [Portioned σ] in
/-- What a search holds while it reads, if its reads add no more than so much. -/
theorem held_keeps
    {limit : Option Nat} {s : Search} {l : Lookahead σ} {most : Nat} {text : Octets}
    (hmodest : s.Modest)
    (hreads : ∀ fill ∈ inquiry.fills limit s l, fill.after.length ≤ fill.before.length + most)
    (h : text ∈ Fill.held l.buffer (inquiry.fills limit s l)) :
    text.length ≤ max l.buffer.length (s.framer.ahead + most) := by
  refine Inquiry.held_le (fun next => next.Modest ∧ next.framer.ahead = s.framer.ahead)
    ?_ ⟨hmodest, rfl⟩ hreads h
  rintro state text next rest ⟨hstate, hahead⟩ hlook
  have hkeeps := look_keeps hstate text
  rw [show state.look text = _ from hlook] at hkeeps
  obtain ⟨hmost, hnext, hshort⟩ := hkeeps
  refine ⟨⟨hnext, ?_⟩, hahead ▸ hshort⟩
  rw [← hahead, Framer.ahead, hmost, Framer.ahead]

theorem run_keeps
    (limit : Option Nat)
    {s : Search}
    {l : Lookahead σ}
    {room : Nat}
    (hmodest : s.Modest)
    (hroom : s.framer.ahead + Lookahead.portion ≤ room)
    (hbuffer : l.buffer.length ≤ room) :
    (framerOf (inquiry.run limit s l).1).most = s.framer.most ∧
      (inquiry.run limit s l).2.buffer.length ≤ room := by
  obtain ⟨text, hheld, hle⟩ := Inquiry.run_buffer inquiry_takes limit s l
  have hshort := held_keeps hmodest (fun _ => Inquiry.fill_length) hheld
  exact ⟨run_most limit hmodest l, by omega⟩

end Search
end Framing

namespace Reader

/-- The room that a reader needs for what it reads ahead. -/
def room (r : Reader σ) : Nat :=
  max r.stream.buffer.length (r.framer.ahead + Lookahead.portion)

/-- The next message takes no more room than the one before it. -/
theorem room_next
    (limit : Option Nat)
    (r : Reader σ) :
    (r.next limit).2.2.room ≤ r.room := by
  have hkeeps := Framing.Search.run_keeps limit (l := r.stream)
    (Framing.Search.modest_start r.framer) (Nat.le_max_right ..) (Nat.le_max_left ..)
  have hnext : (r.next limit).2.2 =
      ⟨Framing.Search.framerOf (Framing.Search.inquiry.run limit (.start r.framer) r.stream).1,
        (Framing.Search.inquiry.run limit (.start r.framer) r.stream).2⟩ := by
    unfold next Framing.Search.attempt
    split <;> rename_i heq <;> rw [heq] <;> rfl
  rw [hnext]
  refine Nat.max_le.2 ⟨hkeeps.2, Nat.le_trans (Nat.le_of_eq ?_) (Nat.le_max_right ..)⟩
  rw [Framer.ahead, hkeeps.1]
  rfl

end Reader
end SyslogIntake

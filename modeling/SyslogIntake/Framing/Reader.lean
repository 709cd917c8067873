import SyslogIntake.Framing.Framer
import SyslogIntake.Stream.Inquiry

/-!
# Reading frames

A reader takes one message after the other off a stream.  Whatever the octets read ahead
settle is settled without reading; else a portion is read and the search goes on where it
was.  A search that finds nothing in time can go on later.  One that is given up keeps what
the framer has noted and the octets read ahead, and the next search starts at a boundary
again.

**Results.**

* `look_of_settled` : a step that settles on something settles the search;
* `attempt_frame_backlog`, `next_frame_backlog` : a frame takes octets off the stream.
-/

namespace SyslogIntake
namespace Framing

namespace Search

/-- Step over what is no message until something is settled or octets are wanting. -/
def look (s : Search) (text : Octets) : Looked Search Result :=
  match _h : s.step text with
  | .settled result rest => .settled result rest
  | .wanting next rest => .wanting next rest
  | .again next rest => look next rest
termination_by s.weight text
decreasing_by
  exact step_again_weight _h

/-- The last line of a stream, which no line feed ends. -/
def finishLine (s : Search) (text : Octets) : Result × Octets :=
  if s.framer.discarding ∨ text = [] then
    ({ s with framer := { s.framer with discarding := false } }.result .ended, [])
  else
    (s.result (.frame ⟨none, text⟩), [])

/-- Settle a search at the end of the stream. -/
def finish (s : Search) (text : Octets) : Result × Octets :=
  match s.phase with
  | .line => s.finishLine text
  | .counted length => (s.result (.fault (.truncated length text.length)), text)
  | .boundary =>
      if text = [] then (s.result .ended, [])
      else if s.framer.lock = some .counted then
        (s.result (.fault (.frameHeader .endedInLength)), text)
      else
        let (s, rest) := { s with framer := s.framer.noting .line }.holdLine text
        s.finishLine rest

def inquiry : Inquiry Search Result :=
  ⟨look, finish⟩

/-- A search leaves no more than it was shown, and a frame takes up octets. -/
theorem inquiry_takes :
    inquiry.Takes Result.cost := by
  refine ⟨?_, ?_, ?_⟩
  · intro s text result rest h
    replace h : s.look text = .settled result rest := h
    fun_induction look s text with
    | case1 s text found left hstep =>
        have hwithin := step_within s text
        simp only [Looked.settled.injEq] at h
        rw [hstep] at hwithin
        rw [← h.1, ← h.2]
        exact hwithin
    | case2 s text next left hstep => simp at h
    | case3 s text next left hstep ih =>
        have hwithin := step_within s text
        rw [hstep] at hwithin
        have hleft : left.length ≤ text.length := hwithin
        have hrest := ih h
        omega
  · intro s text after rest h
    replace h : s.look text = .wanting after rest := h
    fun_induction look s text with
    | case1 s text found left hstep => simp at h
    | case2 s text next left hstep =>
        have hwithin := step_within s text
        simp only [Looked.wanting.injEq] at h
        rw [hstep] at hwithin
        rw [← h.2]
        exact hwithin
    | case3 s text next left hstep ih =>
        have hwithin := step_within s text
        rw [hstep] at hwithin
        have hleft : left.length ≤ text.length := hwithin
        have hrest := ih h
        omega
  · intro s text
    have hline : ∀ (s : Search) (text : Octets),
        (s.finishLine text).2.length + (s.finishLine text).1.cost ≤ text.length := by
      intro s text
      unfold finishLine
      split
      · exact Nat.zero_le _
      · rename_i hsome
        have hpos : text ≠ [] := fun h => hsome (Or.inr h)
        exact List.length_pos_iff.2 hpos
    change (s.finish text).2.length + (s.finish text).1.cost ≤ text.length
    unfold finish
    split
    · exact hline s text
    · exact Nat.le_refl _
    · split
      · exact Nat.zero_le _
      · split
        · exact Nat.le_refl _
        · exact Nat.le_trans (hline _ _) (holdLine_length _ _)

theorem look_of_settled
    {s : Search}
    {text rest : Octets}
    {result : Result}
    (h : s.step text = .settled result rest) :
    s.look text = .settled result rest := by
  rw [look, h]

end Search

/-- What the next message is: a frame, the end, a fault, or nothing within a limit. -/
inductive Next
  | frame (frame : Frame)
  | ended
  | fault (fault : Fault)
  | late
  deriving DecidableEq, Repr

/-- The next message that an outcome gives. -/
def Outcome.next : Outcome → Next
  | .frame found => .frame found
  | .ended => .ended
  | .fault cause => .fault cause

/-- What a search came to: the next message, where the search is, and the stream. -/
structure Attempt (σ : Type) where
  next : Next
  search : Search
  stream : Lookahead σ

namespace Search

variable {σ : Type} [ByteStream σ]

/-- Go on with a search until a message is found or the limit is reached. -/
def attempt (limit : Option Nat) (s : Search) (stream : Lookahead σ) : Attempt σ :=
  match inquiry.run limit s stream with
  | (.answer result, stream) =>
      ⟨result.outcome.next, ⟨result.framer, .boundary, result.notices⟩, stream⟩
  | (.failed search report, stream) => ⟨.fault (.io report), search, stream⟩
  | (.late search, stream) => ⟨.late, search, stream⟩

/-- A frame takes octets off the stream. -/
theorem attempt_frame_backlog
    {limit : Option Nat}
    {s after : Search}
    {stream rest : Lookahead σ}
    {found : Frame}
    (h : s.attempt limit stream = ⟨.frame found, after, rest⟩) :
    rest.backlog < stream.backlog := by
  unfold attempt at h
  split at h
  · rename_i result left hrun
    simp only [Attempt.mk.injEq] at h
    obtain ⟨houtcome, _, hrest⟩ := h
    have hle := Inquiry.run_backlog inquiry_takes hrun
    have hcost : result.cost = 1 := by
      cases hresult : result.outcome with
      | frame other => simp [Result.cost, hresult]
      | ended => simp [Outcome.next, hresult] at houtcome
      | fault cause => simp [Outcome.next, hresult] at houtcome
    rw [← hrest]
    omega
  · simp at h
  · simp at h

end Search

end Framing

/-- A framer and the stream that it reads. -/
structure Reader (σ : Type) where
  framer : Framer
  stream : Lookahead σ

namespace Reader

variable {σ : Type} [ByteStream σ]

/-- Search for the next message, and the lines dropped meanwhile. -/
def next (limit : Option Nat) (r : Reader σ) :
    Framing.Next × List Framing.Notice × Reader σ :=
  let tried := (Framing.Search.start r.framer).attempt limit r.stream
  (tried.next, tried.search.notices, ⟨tried.search.framer, tried.stream⟩)

theorem next_frame_backlog
    {limit : Option Nat}
    {r after : Reader σ}
    {found : Frame}
    {notices : List Framing.Notice}
    (h : r.next limit = (.frame found, notices, after)) :
    after.stream.backlog < r.stream.backlog := by
  cases htried : (Framing.Search.start r.framer).attempt limit r.stream with
  | mk found search stream =>
      simp only [next, htried, Prod.mk.injEq] at h
      obtain ⟨hnext, _, hafter⟩ := h
      subst hnext hafter
      exact Framing.Search.attempt_frame_backlog htried

end Reader
end SyslogIntake

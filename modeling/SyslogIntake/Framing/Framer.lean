import SyslogIntake.Framing.Basic
import SyslogIntake.Journal

/-!
# Taking frames off a text

A framer has a policy, a limit for messages and what it remembers between messages: the
framing it is locked to, the framing of the latest boundary, and whether it is in the
middle of a line that is too long and is being dropped.  One step looks at the octets
read ahead: it settles on a frame or a fault, skips something that is no message, or
needs more octets.

**Results.**

* `step_again_weight` : a step that skips something makes progress;
* `step_within` : a step leaves no more than it was shown, and a frame takes up octets.
-/

namespace SyslogIntake

/-- What a framer remembers between messages. -/
structure Framer where
  policy : FramingPolicy
  most : Nat
  lock : Option Mode
  latest : Option Mode
  discarding : Bool
  deriving DecidableEq, Repr

namespace Framer

/-- A framer in front of the first message. -/
def start (policy : FramingPolicy) (most : Nat) : Framer where
  policy := policy
  most := most
  lock := match policy with
    | .octetCounted => some .counted
    | .nonTransparent => some .line
    | .auto | .autoOnce => none
  latest := none
  discarding := false

/-- The framer after the framing of a boundary is known. -/
def noting (mode : Mode) (f : Framer) : Framer :=
  { f with
    lock := if f.policy = .autoOnce ∧ f.lock = none then some mode else f.lock
    latest := some mode }

end Framer

namespace Framing

/-- Lines that were dropped. -/
inductive Notice
  | line (length most : Nat)
  | beginning (most : Nat)
  deriving DecidableEq, Repr

/-- What the journal says about a line that was dropped. -/
def Notice.entry : Notice → Entry
  | .line length most =>
      ⟨.warn, "Dropping " ++ Numeral.decimal length ++ " byte line, max_message_size is " ++
        Numeral.decimal most⟩
  | .beginning most =>
      ⟨.warn, "Dropping line longer than max_message_size (" ++ Numeral.decimal most ++
        " bytes)"⟩

/-- How far a framer is into a message. -/
inductive Phase
  | boundary
  | counted (length : Nat)
  | line
  deriving DecidableEq, Repr

/-- A framer in the middle of a search for a message, and the lines it dropped. -/
structure Search where
  framer : Framer
  phase : Phase
  notices : List Notice
  deriving DecidableEq, Repr

/-- What a search came to. -/
inductive Outcome
  | frame (frame : Frame)
  | ended
  | fault (fault : Fault)
  deriving DecidableEq, Repr

/-- The end of a search. -/
structure Result where
  outcome : Outcome
  framer : Framer
  notices : List Notice
  deriving DecidableEq, Repr

/-- What one step of a search comes to. -/
inductive Step
  | settled (result : Result) (rest : Octets)
  | wanting (search : Search) (rest : Octets)
  | again (search : Search) (rest : Octets)

namespace Search

/-- A search at a boundary. -/
def start (framer : Framer) : Search :=
  ⟨framer, .boundary, []⟩

/-- The end of a search with an outcome. -/
def result (s : Search) (outcome : Outcome) : Result :=
  ⟨outcome, s.framer, s.notices⟩

/-- The search at the next boundary. -/
def skip (s : Search) : Search :=
  { s with phase := .boundary }

/-- The search at the next boundary, with a line dropped. -/
def drop (notice : Notice) (s : Search) : Search :=
  ⟨s.framer, .boundary, s.notices ++ [notice]⟩

/-- Whether an octet ends a line or stands before one that does. -/
def isLineEnd (b : UInt8) : Bool :=
  b == Octets.lineFeed || b == Octets.carriageReturn

/-- The text at a boundary; line ends in front of a length are passed over. -/
def boundaryText (s : Search) (text : Octets) : Octets :=
  if s.framer.lock = some .counted then text.dropWhile isLineEnd else text

/-- What stands at a boundary; without lengths everything is a line. -/
def boundaryStart (s : Search) (text : Octets) : Start :=
  if s.framer.lock = some .line then .line else sniff text

/-- The octets of a message whose length is known. -/
def takeCounted (s : Search) (length : Nat) (text : Octets) : Step :=
  if text.length < length then .wanting { s with phase := .counted length } text
  else if length = 0 then .again s.skip text
  else
    .settled (s.result (.frame ⟨some length, text.take length⟩)) (text.drop length)

/-- The part of a line that has arrived; what is already too long is dropped at once. -/
def holdLine (s : Search) (text : Octets) : Search × Octets :=
  if s.framer.most < text.length then
    (⟨{ s.framer with discarding := true }, .line,
      if s.framer.discarding then s.notices
      else s.notices ++ [.beginning s.framer.most]⟩, [])
  else
    ({ s with phase := .line }, text)

/-- A line: the rest of one that is too long, blank ones and long ones are no messages. -/
def takeLine (s : Search) (text : Octets) : Step :=
  match Octets.splitLine text with
  | none =>
      let (s, rest) := s.holdLine text
      .wanting s rest
  | some (line, rest) =>
      if s.framer.discarding then
        .again { s.skip with framer := { s.framer with discarding := false } } rest
      else if line = [] ∨ line = [Octets.carriageReturn] then .again s.skip rest
      else if s.framer.most < line.length then
        .again (s.drop (.line line.length s.framer.most)) rest
      else .settled (s.result (.frame ⟨none, line⟩)) rest

/-- Decide what stands at a boundary, and take it. -/
def takeBoundary (s : Search) (text : Octets) : Step :=
  let text := s.boundaryText text
  match s.boundaryStart text with
  | .undecided => .wanting s text
  | .line =>
      if s.framer.lock = some .counted then
        .settled (s.result (.fault (.frameHeader (.noLength (text.take 16))))) text
      else takeLine { s with framer := s.framer.noting .line } text
  | .counted length headerLength =>
      let s := { s with framer := s.framer.noting .counted }
      if s.framer.most < length then
        .settled (s.result (.fault (.oversized length s.framer.most))) text
      else takeCounted s length (text.drop headerLength)

def step (s : Search) (text : Octets) : Step :=
  match s.phase with
  | .boundary => takeBoundary s text
  | .counted length => takeCounted s length text
  | .line => takeLine s text

/-- What remains to be done: the octets, and the message that is begun. -/
def weight (s : Search) (text : Octets) : Nat :=
  2 * text.length + (if s.phase = .boundary then 0 else 1)

/-- A length that was recognised takes up octets. -/
theorem sniff_counted_drop
    {text : Octets}
    {length headerLength : Nat}
    (h : sniff text = .counted length headerLength) :
    (text.drop headerLength).length < text.length := by
  unfold sniff at h
  dsimp only at h
  split at h
  · split at h <;> simp at h
  · rename_i hpos
    split at h
    · simp at h
    · split at h
      · simp at h
      · rename_i b rest hrest
        split at h
        · simp only [Start.counted.injEq] at h
          have hlength : (text.drop (leadingDigits text).length).length ≠ 0 := by
            rw [hrest]
            simp
          simp only [List.length_drop] at hlength ⊢
          omega
        · simp at h

/-- Passing over line ends leaves no more than there was. -/
theorem boundaryText_length
    (s : Search)
    (text : Octets) :
    (s.boundaryText text).length ≤ text.length := by
  unfold boundaryText
  split
  · exact (List.dropWhile_suffix isLineEnd).length_le
  · exact Nat.le_refl _

/-- A step over a counted message leaves its octets and a boundary. -/
theorem takeCounted_again
    {s next : Search}
    {length : Nat}
    {text rest : Octets}
    (h : takeCounted s length text = .again next rest) :
    next.phase = .boundary ∧ rest.length = text.length := by
  unfold takeCounted at h
  split at h
  · simp at h
  · split at h
    · simp only [Step.again.injEq] at h
      obtain ⟨hnext, hrest⟩ := h
      subst hnext hrest
      exact ⟨rfl, rfl⟩
    · simp at h

/-- A step over a line takes up octets and leaves a boundary. -/
theorem takeLine_again
    {s next : Search}
    {text rest : Octets}
    (h : takeLine s text = .again next rest) :
    next.phase = .boundary ∧ rest.length < text.length := by
  unfold takeLine at h
  split at h
  · simp at h
  · rename_i line tail hsplit
    have hlength : tail.length < text.length := by
      rw [Octets.splitLine_eq_some hsplit]
      simp only [List.length_append, List.length_cons]
      omega
    split at h
    · simp only [Step.again.injEq] at h
      obtain ⟨hnext, hrest⟩ := h
      subst hnext hrest
      exact ⟨rfl, hlength⟩
    · split at h
      · simp only [Step.again.injEq] at h
        obtain ⟨hnext, hrest⟩ := h
        subst hnext hrest
        exact ⟨rfl, hlength⟩
      · split at h
        · simp only [Step.again.injEq] at h
          obtain ⟨hnext, hrest⟩ := h
          subst hnext hrest
          exact ⟨rfl, hlength⟩
        · simp at h

/-- A step over what stands at a boundary takes up octets and leaves a boundary. -/
theorem takeBoundary_again
    {s next : Search}
    {text rest : Octets}
    (h : takeBoundary s text = .again next rest) :
    next.phase = .boundary ∧ rest.length < text.length := by
  have hle := boundaryText_length s text
  unfold takeBoundary at h
  dsimp only at h
  split at h
  · simp at h
  · split at h
    · simp at h
    · have hline := takeLine_again h
      exact ⟨hline.1, by omega⟩
  · rename_i length headerLength hstart
    split at h
    · simp at h
    · have hcounted := takeCounted_again h
      have hsniff : sniff (s.boundaryText text) = .counted length headerLength := by
        unfold boundaryStart at hstart
        split at hstart
        · simp at hstart
        · exact hstart
      have hdrop := sniff_counted_drop hsniff
      exact ⟨hcounted.1, by omega⟩

/-- A step that skips something makes progress. -/
theorem step_again_weight
    {s next : Search}
    {text rest : Octets}
    (h : s.step text = .again next rest) :
    next.weight rest < s.weight text := by
  unfold step at h
  unfold weight
  split at h
  · have hnext := takeBoundary_again h
    rw [if_pos hnext.1]
    omega
  · rename_i length hphase
    have hnext := takeCounted_again h
    have hboundary : s.phase ≠ .boundary := by simp [hphase]
    rw [if_pos hnext.1, if_neg hboundary]
    omega
  · have hnext := takeLine_again h
    rw [if_pos hnext.1]
    omega

end Search

/-- The octets that an outcome takes up at least. -/
def Result.cost (result : Result) : Nat :=
  match result.outcome with
  | .frame _ => 1
  | _ => 0

/-- What a step leaves, and what it takes up. -/
def Step.Within (room : Nat) : Step → Prop
  | .settled result rest => rest.length + result.cost ≤ room
  | .wanting _ rest => rest.length ≤ room
  | .again _ rest => rest.length ≤ room

/-- A step that stays within some octets stays within more. -/
theorem Step.Within.mono
    {step : Step}
    {room more : Nat}
    (h : step.Within room)
    (hle : room ≤ more) :
    step.Within more := by
  cases step with
  | settled result rest => exact Nat.le_trans h hle
  | wanting search rest => exact Nat.le_trans h hle
  | again search rest => exact Nat.le_trans h hle

namespace Search

theorem takeCounted_within
    (s : Search)
    (length : Nat)
    (text : Octets) :
    (takeCounted s length text).Within text.length := by
  unfold takeCounted
  split
  · exact Nat.le_refl _
  · split
    · exact Nat.le_refl _
    · simp only [Step.Within, Result.cost, result, List.length_drop]
      omega

/-- Holding a part of a line keeps at most the text. -/
theorem holdLine_length
    (s : Search)
    (text : Octets) :
    (s.holdLine text).2.length ≤ text.length := by
  unfold holdLine
  split <;> simp

theorem takeLine_within
    (s : Search)
    (text : Octets) :
    (takeLine s text).Within text.length := by
  unfold takeLine
  split
  · exact holdLine_length s text
  · rename_i line rest hsplit
    have hlength : rest.length + 1 ≤ text.length := by
      rw [Octets.splitLine_eq_some hsplit]
      simp only [List.length_append, List.length_cons]
      omega
    split
    · simp only [Step.Within]
      omega
    · split
      · simp only [Step.Within]
        omega
      · split
        · simp only [Step.Within]
          omega
        · exact hlength

theorem takeBoundary_within
    (s : Search)
    (text : Octets) :
    (takeBoundary s text).Within text.length := by
  have hle := boundaryText_length s text
  unfold takeBoundary
  dsimp only
  split
  · exact hle
  · split
    · exact hle
    · exact (takeLine_within _ _).mono hle
  · split
    · exact hle
    · refine (takeCounted_within _ _ _).mono ?_
      rw [List.length_drop]
      omega

theorem step_within
    (s : Search)
    (text : Octets) :
    (s.step text).Within text.length := by
  unfold step
  split
  · exact takeBoundary_within s text
  · exact takeCounted_within s _ text
  · exact takeLine_within s text

end Search
end Framing
end SyslogIntake

import SyslogIntake.Framing.Reader
import SyslogIntake.Proofs.Careful.Message
import SyslogIntake.Proofs.Framing.Decoding
import SyslogIntake.Proofs.Framing.Room

/-!
# Reading messages by position

One search for a message after the other, step by step and by position, over any stream.  The
octets read ahead are a text in memory, so their positions fit a word; a text that memory cannot
hold is not looked at.  Nothing else ends a search but what ends the search by patterns.

**Results.**

* `step_eq`, `look_eq`, `finish_eq` : what is done with the octets read ahead;
* `run_eq` : looking and reading by turns;
* `next_eq` : the next message of a reader.
-/

namespace SyslogIntake
namespace Careful

open Framing

/-- Octets without some at their front; no more are dropped than there are. -/
def consume (count : Nat) (text : Octets) : Except Mishap Octets :=
  slice text (min count text.length) text.length

/-- Some octets at the front, no more than there are, and the rest. -/
def split (count : Nat) (text : Octets) : Except Mishap (Octets × Octets) := do
  let front ← slice text 0 (min count text.length)
  let rest ← consume count text
  return (front, rest)

theorem consume_eq
    (count : Nat)
    (text : Octets) :
    consume count text = .ok (text.drop count) := by
  rw [consume, slice_back (Nat.min_le_right ..)]
  congr 1
  rcases Nat.le_total count text.length with hle | hle
  · rw [Nat.min_eq_left hle]
  · rw [Nat.min_eq_right hle, List.drop_length, List.drop_of_length_le hle]

theorem split_eq
    (count : Nat)
    (text : Octets) :
    split count text = .ok (text.take count, text.drop count) := by
  have hfront : slice text 0 (min count text.length) = .ok (text.take count) := by
    rw [slice_front (Nat.min_le_right ..), ← List.take_take, List.take_length]
  rw [split, hfront, consume_eq]
  rfl

/-- The octets of a message whose length is known. -/
def takeCounted (s : Search) (length : Nat) (text : Octets) : Except Mishap Step := do
  if text.length < length then return .wanting { s with phase := .counted length } text
  let (payload, rest) ← split length text
  if payload = [] then return .again s.skip rest
  return .settled (s.result (.frame ⟨some length, payload⟩)) rest

theorem takeCounted_eq
    (s : Search)
    (length : Nat)
    (text : Octets) :
    takeCounted s length text = .ok (s.takeCounted length text) := by
  rw [takeCounted, Search.takeCounted, split_eq]
  by_cases hlacking : text.length < length
  · rw [if_pos hlacking, if_pos hlacking]
    rfl
  · rw [if_neg hlacking, if_neg hlacking]
    cases length with
    | zero => simp
    | succ length =>
        have hsome : text.take (length + 1) ≠ [] := by
          have hpos : 0 < text.length := by omega
          simpa using List.ne_nil_of_length_pos hpos
        simp [hsome]

/-- A line: the rest of one that is too long, blank ones and long ones are no messages. -/
def takeLine (s : Search) (text : Octets) : Except Mishap Step := do
  match text.idxOf? Octets.lineFeed with
  | some place =>
      let stop ← sum wordBits place 1
      let (line, rest) ← split stop text
      if s.framer.discarding then
        return .again { s.skip with framer := { s.framer with discarding := false } } rest
      let payload ← slice line 0 place
      if payload = [] ∨ payload = [Octets.carriageReturn] then return .again s.skip rest
      if s.framer.most < payload.length then
        return .again (s.drop (.line payload.length s.framer.most)) rest
      return .settled (s.result (.frame ⟨none, payload⟩)) rest
  | none =>
      if s.framer.most < text.length then
        let rest ← consume text.length text
        return .wanting ⟨{ s.framer with discarding := true }, .line,
          if s.framer.discarding then s.notices
          else s.notices ++ [.beginning s.framer.most]⟩ rest
      return .wanting { s with phase := .line } text

/-- Behind the last octet of a line in memory there is still a position. -/
theorem takeLine_eq
    (s : Search)
    {text : Octets}
    (hsize : text.length < 2 ^ wordBits) :
    takeLine s text = .ok (s.takeLine text) := by
  rw [takeLine, Search.takeLine, splitLine_eq_idxOf?]
  cases hplace : text.idxOf? Octets.lineFeed with
  | none =>
      dsimp only [Option.map_none]
      rw [Search.holdLine]
      split
      · rw [consume_eq, List.drop_length]
        rfl
      · rfl
  | some place =>
      have hwithin : place < text.length := (List.idxOf?_eq_some_iff.1 hplace).1
      have hsum : sum wordBits place 1 = .ok (place + 1) := sum_of_lt (by omega)
      have hline : slice (text.take (place + 1)) 0 place = .ok (text.take place) := by
        rw [slice_front (by rw [List.length_take]; omega), List.take_take,
          Nat.min_eq_left (Nat.le_succ place)]
      simp only [Option.map_some, hsum, split_eq, ok_bind, hline]
      split
      · rfl
      split
      · rfl
      split <;> rfl

/-- The text at a boundary; line ends in front of a length are passed over. -/
def boundaryText (s : Search) (text : Octets) : Except Mishap Octets := do
  if s.framer.lock = some .counted then
    consume (text.takeWhile Search.isLineEnd).length text
  else
    return text

theorem boundaryText_eq
    (s : Search)
    (text : Octets) :
    boundaryText s text = .ok (s.boundaryText text) := by
  have hdrop : text.drop (text.takeWhile Search.isLineEnd).length =
      text.dropWhile Search.isLineEnd := by
    have hparts : text.takeWhile Search.isLineEnd ++ text.dropWhile Search.isLineEnd = text :=
      List.takeWhile_append_dropWhile
    calc text.drop (text.takeWhile Search.isLineEnd).length
        = (text.takeWhile Search.isLineEnd ++ text.dropWhile Search.isLineEnd).drop
            (text.takeWhile Search.isLineEnd).length := by rw [hparts]
      _ = text.dropWhile Search.isLineEnd := List.drop_left
  rw [boundaryText, Search.boundaryText]
  split
  · rw [consume_eq, hdrop]
  · rfl

/-- What stands at a boundary; without lengths everything is a line. -/
def boundaryStart (s : Search) (text : Octets) : Except Mishap Start :=
  if s.framer.lock = some .line then .ok .line else sniff text

theorem boundaryStart_eq
    (s : Search)
    (text : Octets) :
    boundaryStart s text = .ok (s.boundaryStart text) := by
  rw [boundaryStart, Search.boundaryStart, sniff_eq]
  split <;> rfl

/-- Decide what stands at a boundary, and take it. -/
def takeBoundary (s : Search) (text : Octets) : Except Mishap Step := do
  let text ← boundaryText s text
  let start ← boundaryStart s text
  match start with
  | .undecided => return .wanting s text
  | .line =>
      if s.framer.lock = some .counted then
        let head ← slice text 0 (min text.length 16)
        return .settled (s.result (.fault (.frameHeader (.noLength head)))) text
      takeLine { s with framer := s.framer.noting .line } text
  | .counted length headerLength =>
      let s := { s with framer := s.framer.noting .counted }
      if s.framer.most < length then
        return .settled (s.result (.fault (.oversized length s.framer.most))) text
      let rest ← consume headerLength text
      takeCounted s length rest

theorem takeBoundary_eq
    (s : Search)
    {text : Octets}
    (hsize : text.length < 2 ^ wordBits) :
    takeBoundary s text = .ok (s.takeBoundary text) := by
  have hfits : (s.boundaryText text).length < 2 ^ wordBits :=
    Nat.lt_of_le_of_lt (Search.boundaryText_length s text) hsize
  rw [takeBoundary, Search.takeBoundary, boundaryText_eq]
  simp only [ok_bind, boundaryStart_eq]
  generalize s.boundaryText text = text at hfits ⊢
  cases s.boundaryStart text with
  | undecided => rfl
  | line =>
      have hhead : slice text 0 (min text.length 16) = .ok (text.take 16) := by
        rw [slice_front (Nat.min_le_left ..), Nat.min_comm, ← List.take_take, List.take_length]
      dsimp only
      split
      · rw [hhead]
        rfl
      · exact takeLine_eq _ hfits
  | counted length headerLength =>
      dsimp only
      split
      · rfl
      · rw [consume_eq]
        exact takeCounted_eq _ _ _

def step (s : Search) (text : Octets) : Except Mishap Step :=
  match s.phase with
  | .boundary => takeBoundary s text
  | .counted length => takeCounted s length text
  | .line => takeLine s text

theorem step_eq
    (s : Search)
    {text : Octets}
    (hsize : text.length < 2 ^ wordBits) :
    step s text = .ok (s.step text) := by
  rw [step, Search.step]
  cases s.phase with
  | boundary => exact takeBoundary_eq s hsize
  | counted length => exact takeCounted_eq s length text
  | line => exact takeLine_eq s hsize

/-- Step over what is no message until something is settled or octets are wanting. -/
def look (s : Search) (text : Octets) : Except Mishap (Looked Search Result) :=
  if _hsize : text.length < 2 ^ wordBits then
    match _hstep : step s text with
    | .error mishap => .error mishap
    | .ok (.settled result rest) => .ok (.settled result rest)
    | .ok (.wanting next rest) => .ok (.wanting next rest)
    | .ok (.again next rest) => look next rest
  else
    .error .memory
termination_by s.weight text
decreasing_by
  rw [step_eq s _hsize] at _hstep
  exact Search.step_again_weight (Except.ok.inj _hstep)

theorem look_of_step
    {s : Search}
    {text : Octets}
    (hsize : text.length < 2 ^ wordBits) :
    look s text =
      match s.step text with
      | .settled result rest => .ok (.settled result rest)
      | .wanting next rest => .ok (.wanting next rest)
      | .again next rest => look next rest := by
  have hstep := step_eq s hsize
  rw [look, dif_pos hsize]
  cases hmodel : s.step text <;> rw [hmodel] at hstep <;> split <;> simp_all

theorem look_eq
    (s : Search)
    {text : Octets}
    (hsize : text.length < 2 ^ wordBits) :
    look s text = .ok (s.look text) := by
  fun_induction Search.look s text with
  | case1 s text result rest hstep =>
      rw [look_of_step hsize, hstep]
  | case2 s text next rest hstep =>
      rw [look_of_step hsize, hstep]
  | case3 s text next rest hstep ih =>
      have hwithin := Search.step_within s text
      rw [hstep] at hwithin
      rw [look_of_step hsize, hstep]
      exact ih (Nat.lt_of_le_of_lt hwithin hsize)

/-- The last line of a stream, which no line feed ends. -/
def finishLine (s : Search) (text : Octets) : Except Mishap (Result × Octets) := do
  if s.framer.discarding ∨ text = [] then
    let rest ← consume text.length text
    return ({ s with framer := { s.framer with discarding := false } }.result .ended, rest)
  let (payload, rest) ← split text.length text
  return (s.result (.frame ⟨none, payload⟩), rest)

theorem finishLine_eq
    (s : Search)
    (text : Octets) :
    finishLine s text = .ok (s.finishLine text) := by
  rw [finishLine, Search.finishLine, consume_eq, split_eq, List.drop_length, List.take_length]
  split <;> rfl

/-- Settle a search at the end of the stream. -/
def finish (s : Search) (text : Octets) : Except Mishap (Result × Octets) := do
  match s.phase with
  | .line => finishLine s text
  | .counted length => return (s.result (.fault (.truncated length text.length)), text)
  | .boundary =>
      if text = [] then return (s.result .ended, [])
      if s.framer.lock = some .counted then
        return (s.result (.fault (.frameHeader .endedInLength)), text)
      let (s, rest) := { s with framer := s.framer.noting .line }.holdLine text
      finishLine s rest

theorem finish_eq
    (s : Search)
    (text : Octets) :
    finish s text = .ok (s.finish text) := by
  rw [finish, Search.finish]
  cases s.phase with
  | line => exact finishLine_eq s text
  | counted length => rfl
  | boundary =>
      dsimp only
      split
      · rfl
      split
      · rfl
      · exact finishLine_eq _ _

/-- Look and read by turns until a message is found or the limit is reached. -/
def run {σ : Type} [ByteStream σ] (limit : Option Nat) (s : Search) (l : Lookahead σ) :
    Except Mishap (Reached Search Result × Lookahead σ) :=
  match look s l.buffer with
  | .error mishap => .error mishap
  | .ok (.settled answer rest) => .ok (.answer answer, l.leaving rest)
  | .ok (.wanting next rest) =>
      match _hfill : (l.leaving rest).fillMore limit with
      | (.octets [], filled) =>
          match finish next filled.buffer with
          | .error mishap => .error mishap
          | .ok (answer, rest) => .ok (.answer answer, filled.leaving rest)
      | (.octets (_ :: _), filled) => run limit next filled
      | (.failed report, filled) => .ok (.failed next report, filled)
      | (.late, filled) => .ok (.late next, filled)
termination_by ByteStream.backlog l.inner
decreasing_by
  have hlt := Lookahead.fillMore_inner _hfill
  exact hlt

theorem look_error
    {s : Search}
    {text : Octets}
    (hsize : ¬ text.length < 2 ^ wordBits) :
    look s text = .error .memory := by
  rw [look, dif_neg hsize]

section Run

variable {σ : Type} [ByteStream σ] {limit : Option Nat} {s next : Search} {l filled : Lookahead σ}
  {rest : Octets}

theorem run_of_large
    (hsize : ¬ l.buffer.length < 2 ^ wordBits) :
    run limit s l = .error .memory := by
  rw [run, look_error hsize]

theorem run_of_settled
    {answer : Result}
    (h : look s l.buffer = .ok (.settled answer rest)) :
    run limit s l = .ok (.answer answer, l.leaving rest) := by
  rw [run, h]

theorem run_of_ended
    {left : Octets}
    {answer : Result}
    (h : look s l.buffer = .ok (.wanting next rest))
    (hfill : (l.leaving rest).fillMore limit = (.octets [], filled))
    (hfinish : finish next filled.buffer = .ok (answer, left)) :
    run limit s l = .ok (.answer answer, filled.leaving left) := by
  rw [run, h]
  dsimp only
  split <;> simp_all

theorem run_of_more
    {b : UInt8}
    {text : Octets}
    (h : look s l.buffer = .ok (.wanting next rest))
    (hfill : (l.leaving rest).fillMore limit = (.octets (b :: text), filled)) :
    run limit s l = run limit next filled := by
  rw [run, h]
  dsimp only
  split <;> simp_all

theorem run_of_failed
    {report : String}
    (h : look s l.buffer = .ok (.wanting next rest))
    (hfill : (l.leaving rest).fillMore limit = (.failed report, filled)) :
    run limit s l = .ok (.failed next report, filled) := by
  rw [run, h]
  dsimp only
  split <;> simp_all

theorem run_of_late
    (h : look s l.buffer = .ok (.wanting next rest))
    (hfill : (l.leaving rest).fillMore limit = (.late, filled)) :
    run limit s l = .ok (.late next, filled) := by
  rw [run, h]
  dsimp only
  split <;> simp_all

end Run

/-- Looking and reading comes to what it comes to by patterns, unless memory cannot hold the
octets read ahead; then there are so many, and they may be as many. -/
theorem run_eq
    {σ : Type} [ByteStream σ] [Portioned σ]
    (limit : Option Nat)
    {s : Search}
    {l : Lookahead σ}
    {room : Nat}
    (hmodest : s.Modest)
    (hroom : s.framer.ahead + Lookahead.portion ≤ room)
    (hbuffer : l.buffer.length ≤ room) :
    run limit s l = .ok (Search.inquiry.run limit s l) ∨
      run limit s l = .error .memory ∧ 2 ^ wordBits ≤ room ∧ 2 ^ wordBits ≤ l.backlog := by
  fun_induction Inquiry.run Search.inquiry limit s l with
  | case1 s l answer rest hlook =>
      by_cases hsize : l.buffer.length < 2 ^ wordBits
      · exact .inl (run_of_settled ((look_eq s hsize).trans (congrArg _ hlook)))
      · exact .inr ⟨run_of_large hsize, by omega, by rw [Lookahead.backlog]; omega⟩
  | case2 s l next rest hlook filled hfill answer left hfinish =>
      by_cases hsize : l.buffer.length < 2 ^ wordBits
      · exact .inl (run_of_ended ((look_eq s hsize).trans (congrArg _ hlook)) hfill
          ((finish_eq next filled.buffer).trans (congrArg _ hfinish)))
      · exact .inr ⟨run_of_large hsize, by omega, by rw [Lookahead.backlog]; omega⟩
  | case3 s l next rest hlook b text filled hfill ih =>
      by_cases hsize : l.buffer.length < 2 ^ wordBits
      case neg =>
        exact .inr ⟨run_of_large hsize, by omega, by rw [Lookahead.backlog]; omega⟩
      obtain ⟨hmost, hnext, hfilled⟩ := Search.filled_keeps hmodest hlook hfill
      have hahead : next.framer.ahead = s.framer.ahead := by rw [Framer.ahead, hmost, Framer.ahead]
      have hrest : (l.leaving rest).backlog ≤ l.backlog :=
        Nat.add_le_add_right (Search.inquiry_takes.wanting hlook) _
      have hbacklog : filled.backlog ≤ (l.leaving rest).backlog := by
        have hle := Lookahead.fillMore_backlog limit (l.leaving rest) (b :: text) (by rw [hfill])
        rwa [hfill] at hle
      rw [run_of_more ((look_eq s hsize).trans (congrArg _ hlook)) hfill]
      rcases ih hnext (by omega) (by omega) with hrun | ⟨hrun, hlarge, hsent⟩
      · exact .inl hrun
      · exact .inr ⟨hrun, hlarge, by omega⟩
  | case4 s l next rest hlook report filled hfill =>
      by_cases hsize : l.buffer.length < 2 ^ wordBits
      · exact .inl (run_of_failed ((look_eq s hsize).trans (congrArg _ hlook)) hfill)
      · exact .inr ⟨run_of_large hsize, by omega, by rw [Lookahead.backlog]; omega⟩
  | case5 s l next rest hlook filled hfill =>
      by_cases hsize : l.buffer.length < 2 ^ wordBits
      · exact .inl (run_of_late ((look_eq s hsize).trans (congrArg _ hlook)) hfill)
      · exact .inr ⟨run_of_large hsize, by omega, by rw [Lookahead.backlog]; omega⟩

/-- What a search has come to. -/
def attempted {σ : Type} : Reached Search Result × Lookahead σ → Attempt σ
  | (.answer result, stream) =>
      ⟨result.outcome.next, ⟨result.framer, .boundary, result.notices⟩, stream⟩
  | (.failed search report, stream) => ⟨.fault (.io report), search, stream⟩
  | (.late search, stream) => ⟨.late, search, stream⟩

/-- Search for the next message, and the lines dropped meanwhile. -/
def next {σ : Type} [ByteStream σ] (limit : Option Nat) (r : Reader σ) :
    Except Mishap (Next × List Framing.Notice × Reader σ) := do
  let reached ← run limit (.start r.framer) r.stream
  let tried := attempted reached
  return (tried.next, tried.search.notices, ⟨tried.search.framer, tried.stream⟩)

/-- The next message of a reader, unless memory cannot hold the octets read ahead: then its limit
for messages allows for so many, and its peer sends as many. -/
theorem next_eq
    {σ : Type} [ByteStream σ] [Portioned σ]
    (limit : Option Nat)
    (r : Reader σ) :
    next limit r = .ok (r.next limit) ∨
      next limit r = .error .memory ∧ 2 ^ wordBits ≤ r.room ∧
        2 ^ wordBits ≤ r.stream.backlog := by
  have htried : (Search.start r.framer).attempt limit r.stream =
      attempted (Search.inquiry.run limit (.start r.framer) r.stream) := by
    rw [Search.attempt]
    split <;> rename_i heq <;> rw [heq] <;> rfl
  have hrun := run_eq limit (l := r.stream) (Search.modest_start r.framer)
    (Nat.le_max_right ..) (Nat.le_max_left ..)
  rcases hrun with hrun | ⟨hrun, hlarge⟩
  · refine .inl ?_
    rw [next, hrun, Reader.next, htried]
    rfl
  · refine .inr ⟨?_, hlarge⟩
    rw [next, hrun]
    rfl

end Careful
end SyslogIntake

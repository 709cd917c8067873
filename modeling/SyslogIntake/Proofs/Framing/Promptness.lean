import SyslogIntake.Proofs.Framing.Searching
import SyslogIntake.Stream.Wire

/-!
# Promptness

What has been read ahead may hold a whole message, or something that can never become one, behind
what is no message and is passed over: lengths of zero, blank lines, lines that are too long.  Then
it is settled what comes next, whatever the stream still brings, and a reader gives it without
reading.  In every other case the stream decides, and it may just as well fail.

**Results.**

* `Search.settles_of_look`, `Search.look_of_settles` : where a search comes to an end by itself;
* `Reader.next_prompt` : what does not depend on the stream is given without reading from it.
-/

namespace SyslogIntake

namespace Framer

/-- What a framer sees at a boundary: line ends in front of a length are passed over. -/
def sees (f : Framer) (text : Octets) : Octets :=
  (Framing.Search.start f).boundaryText text

/-- A length stands at a boundary, with its number and what follows it. -/
def LengthAt (f : Framer) (text : Octets) (length : Nat) (body : Octets) : Prop :=
  f.lock ≠ some .line ∧ Framing.lengthAt? (f.sees text) = some (length, body)

/-- A line with its line feed stands at a boundary, and what follows them. -/
def LineAt (f : Framer) (text line rest : Octets) : Prop :=
  f.lock ≠ some .counted ∧ (f.lock = none → Framing.lengthAt? text = none) ∧
    Octets.lineFeed ∉ line ∧ text = line ++ Octets.lineFeed :: rest

/-- A line is no message: it is the rest of one that was too long, it is blank or too long. -/
def Drops (f : Framer) (line : Octets) : Prop :=
  f.discarding = true ∨ line = [] ∨ line = [Octets.carriageReturn] ∨ f.most < line.length

end Framer

namespace Framing

/-- What is no message at the front of a text is passed over. -/
inductive Skips (f : Framer) (text : Octets) : Framer → Octets → Prop
  /-- A length of zero announces nothing. -/
  | empty {body : Octets}
      (hlength : f.LengthAt text 0 body) :
      Skips f text (f.noting .counted) body
  /-- A line may be no message. -/
  | line {line rest : Octets}
      (hline : f.LineAt text line rest)
      (hdrops : f.Drops line) :
      Skips f text { f.noting .line with discarding := false } rest

/-- What the front of a text gives, and what it leaves. -/
inductive Gives (f : Framer) (text : Octets) : Outcome → Octets → Prop
  /-- The octets that a length announces are there. -/
  | counted {length : Nat} {body : Octets}
      (hlength : f.LengthAt text length body)
      (hpos : 0 < length)
      (hmost : length ≤ f.most)
      (hwhole : length ≤ body.length) :
      Gives f text (.frame ⟨some length, body.take length⟩) (body.drop length)
  /-- A line is there with its line feed. -/
  | line {line rest : Octets}
      (hline : f.LineAt text line rest)
      (hkeeps : ¬ f.Drops line) :
      Gives f text (.frame ⟨none, line⟩) rest
  /-- A length announces more than a message may have. -/
  | oversized {length : Nat} {body : Octets}
      (hlength : f.LengthAt text length body)
      (hlong : f.most < length) :
      Gives f text (.fault (.oversized length f.most)) (f.sees text)
  /-- Nothing else than a length may come, and there is none. -/
  | lacking
      (hlock : f.lock = some .counted)
      (hnone : lengthAt? (f.sees text) = none)
      (hnever : ¬ mayBecomeLength (f.sees text)) :
      Gives f text (.fault (.frameHeader (.noLength ((f.sees text).take 16)))) (f.sees text)

/-- What a text gives behind everything that is passed over, and what it leaves. -/
inductive Settles : Framer → Octets → Outcome → Octets → Prop
  | here {f : Framer} {text rest : Octets} {outcome : Outcome}
      (hgives : Gives f text outcome rest) :
      Settles f text outcome rest
  | behind {f next : Framer} {text left rest : Octets} {outcome : Outcome}
      (hskips : Skips f text next left)
      (hsettles : Settles next left outcome rest) :
      Settles f text outcome rest

/-- What is no length and cannot become one is a line. -/
theorem sniff_of_never
    {text : Octets}
    (hnone : lengthAt? text = none)
    (hnever : ¬ mayBecomeLength text) :
    sniff text = .line := by
  rcases sniff_spec text with ⟨length, headerLength, _, hlength⟩ | ⟨hline, _⟩ | ⟨_, _, hmay⟩
  · have hsome := hlength []
    simp [hnone] at hsome
  · exact hline
  · exact absurd hmay hnever

theorem sniff_of_lengthAt?
    {text body : Octets} {length : Nat}
    (h : lengthAt? text = some (length, body)) :
    ∃ headerLength, sniff text = .counted length headerLength ∧ text.drop headerLength = body := by
  rcases sniff_spec text with ⟨found, headerLength, hsniff, hfound⟩ | ⟨_, hnone⟩ | ⟨_, hnone, _⟩
  · have hsame := hfound []
    simp only [List.append_nil, h, Option.some.injEq, Prod.mk.injEq] at hsame
    obtain ⟨rfl, rfl⟩ := hsame
    exact ⟨headerLength, hsniff, rfl⟩
  · have hsame := (hnone []).1
    simp [h] at hsame
  · simp [h] at hnone

namespace Search

theorem takeBoundary_of_length
    {s : Search} {text body : Octets} {length : Nat}
    (h : s.framer.LengthAt text length body) :
    s.takeBoundary text =
      if s.framer.most < length then
        .settled ({ s with framer := s.framer.noting .counted }.result
          (.fault (.oversized length s.framer.most))) (s.framer.sees text)
      else takeCounted { s with framer := s.framer.noting .counted } length body := by
  obtain ⟨hlock, hlength⟩ := h
  obtain ⟨headerLength, hsniff, hbody⟩ := sniff_of_lengthAt? hlength
  have hsees : s.boundaryText text = s.framer.sees text := rfl
  have hmost : (s.framer.noting .counted).most = s.framer.most := rfl
  simp only [takeBoundary, boundaryStart, hsees, if_neg hlock, hsniff, hbody, hmost]

theorem takeBoundary_of_line
    {s : Search} {text : Octets}
    (hlock : s.framer.lock ≠ some .counted)
    (hnone : s.framer.lock = none → lengthAt? text = none ∧ ¬ mayBecomeLength text) :
    s.takeBoundary text = takeLine { s with framer := s.framer.noting .line } text := by
  have htext : s.boundaryText text = text := if_neg hlock
  have hstart : s.boundaryStart text = .line := by
    unfold boundaryStart
    rcases hheld : s.framer.lock with _ | (_ | _)
    · obtain ⟨hlength, hnever⟩ := hnone hheld
      simpa using sniff_of_never hlength hnever
    · exact absurd hheld hlock
    · rfl
  simp only [takeBoundary, htext, hstart, if_neg hlock]

theorem takeBoundary_of_lacking
    {s : Search} {text : Octets}
    (hlock : s.framer.lock = some .counted)
    (hnone : lengthAt? (s.framer.sees text) = none)
    (hnever : ¬ mayBecomeLength (s.framer.sees text)) :
    s.takeBoundary text =
      .settled (s.result (.fault (.frameHeader (.noLength ((s.framer.sees text).take 16)))))
        (s.framer.sees text) := by
  have hsees : s.boundaryText text = s.framer.sees text := rfl
  have hother : s.framer.lock ≠ some .line := by simp [hlock]
  simp only [takeBoundary, boundaryStart, hsees, if_neg hother, sniff_of_never hnone hnever,
    if_pos hlock]

/-- What stands at a boundary: a length, a line, neither, or what may still become a length. -/
theorem boundary_cases
    (s : Search)
    (text : Octets) :
    (∃ length body, s.framer.LengthAt text length body) ∨
      (s.framer.lock ≠ some .counted ∧
        (s.framer.lock = none → lengthAt? text = none ∧ ¬ mayBecomeLength text)) ∨
      (s.framer.lock = some .counted ∧ lengthAt? (s.framer.sees text) = none ∧
        ¬ mayBecomeLength (s.framer.sees text)) ∨
      s.takeBoundary text = .wanting s (s.framer.sees text) := by
  by_cases hline : s.framer.lock = some .line
  · refine Or.inr (Or.inl ⟨?_, ?_⟩)
    · simp [hline]
    · simp [hline]
  have hsees : s.boundaryText text = s.framer.sees text := rfl
  rcases sniff_spec (s.framer.sees text) with
    ⟨length, headerLength, -, hlength⟩ | ⟨-, hnone⟩ | ⟨hsniff, -, -⟩
  · have hfound := hlength []
    rw [List.append_nil] at hfound
    exact Or.inl ⟨length, _, hline, hfound⟩
  · have hnever := hnone []
    rw [List.append_nil] at hnever
    by_cases hcounted : s.framer.lock = some .counted
    · exact Or.inr (Or.inr (Or.inl ⟨hcounted, hnever.1, hnever.2⟩))
    · have htext : s.framer.sees text = text := if_neg hcounted
      rw [htext] at hnever
      exact Or.inr (Or.inl ⟨hcounted, fun _ => hnever⟩)
  · refine Or.inr (Or.inr (Or.inr ?_))
    simp only [takeBoundary, boundaryStart, hsees, if_neg hline, hsniff]

/-- A line that has its line feed is given or dropped. -/
theorem takeLine_of_split
    {s : Search} {text line rest : Octets}
    (hsplit : Octets.splitLine text = some (line, rest)) :
    (¬ s.framer.Drops line ∧
        s.takeLine text = .settled (s.result (.frame ⟨none, line⟩)) rest) ∨
      (s.framer.Drops line ∧ ∃ notices,
        s.takeLine text =
          .again ⟨{ s.framer with discarding := false }, .boundary, notices⟩ rest) := by
  unfold takeLine Framer.Drops
  rw [hsplit]
  by_cases hdiscarding : s.framer.discarding = true
  · exact Or.inr ⟨Or.inl hdiscarding, s.notices, if_pos hdiscarding⟩
  have hsame : { s.framer with discarding := false } = s.framer := by
    have hfalse : s.framer.discarding = false := by simpa using hdiscarding
    rw [← hfalse]
  simp only [if_neg hdiscarding, hsame]
  by_cases hblank : line = [] ∨ line = [Octets.carriageReturn]
  · refine Or.inr ⟨Or.inr ?_, s.notices, if_pos hblank⟩
    rcases hblank with hblank | hblank
    · exact Or.inl hblank
    · exact Or.inr (Or.inl hblank)
  rw [if_neg hblank]
  by_cases hlong : s.framer.most < line.length
  · exact Or.inr ⟨Or.inr (Or.inr (Or.inr hlong)), _, if_pos hlong⟩
  · refine Or.inl ⟨?_, if_neg hlong⟩
    rintro (h | h | h | h)
    · exact hdiscarding h
    · exact hblank (Or.inl h)
    · exact hblank (Or.inr h)
    · exact hlong h

end Search

theorem splitLine_of_lineAt
    {f : Framer} {text line rest : Octets}
    (h : f.LineAt text line rest) :
    Octets.splitLine text = some (line, rest) := by
  obtain ⟨-, -, hfeed, rfl⟩ := h
  have hplace : (line ++ Octets.lineFeed :: rest).idxOf? Octets.lineFeed = some line.length := by
    rw [Search.idxOf?_append_of_notMem hfeed]
    simp [List.idxOf?_cons]
  rw [splitLine_eq_idxOf?, hplace]
  simp

/-- A text with a line feed in it cannot become a length. -/
theorem not_mayBecomeLength_of_lineAt
    {f : Framer} {text line rest : Octets}
    (h : f.LineAt text line rest) :
    ¬ mayBecomeLength text := by
  obtain ⟨-, -, -, rfl⟩ := h
  intro hmay
  exact Search.lineFeed_notMem hmay (by simp)

namespace Search

/-- A line that stands at a boundary is split off there, and is given or dropped. -/
theorem takeBoundary_of_lineAt
    {s : Search} {text line rest : Octets}
    (h : s.framer.LineAt text line rest) :
    (¬ s.framer.Drops line ∧ ∃ framer,
        s.takeBoundary text = .settled ⟨.frame ⟨none, line⟩, framer, s.notices⟩ rest) ∨
      (s.framer.Drops line ∧ ∃ notices,
        s.takeBoundary text =
          .again ⟨{ s.framer.noting .line with discarding := false }, .boundary, notices⟩
            rest) := by
  rw [takeBoundary_of_line h.1 fun hlock => ⟨h.2.1 hlock, not_mayBecomeLength_of_lineAt h⟩]
  rcases takeLine_of_split (s := { s with framer := s.framer.noting .line })
    (splitLine_of_lineAt h) with ⟨hkeeps, htaken⟩ | hdropped
  · exact Or.inl ⟨hkeeps, _, htaken⟩
  · exact Or.inr hdropped

theorem takeBoundary_of_gives
    {s : Search} {text rest : Octets} {outcome : Outcome}
    (h : Gives s.framer text outcome rest) :
    ∃ framer notices, s.takeBoundary text = .settled ⟨outcome, framer, notices⟩ rest := by
  cases h with
  | @counted length body hlength hpos hmost hwhole =>
      rw [takeBoundary_of_length hlength, if_neg (Nat.not_lt.2 hmost), takeCounted,
        if_neg (Nat.not_lt.2 hwhole), if_neg (Nat.ne_of_gt hpos)]
      exact ⟨_, _, rfl⟩
  | line hline hkeeps =>
      rcases takeBoundary_of_lineAt hline with ⟨-, framer, htaken⟩ | ⟨hdrops, -⟩
      · exact ⟨framer, _, htaken⟩
      · exact absurd hdrops hkeeps
  | oversized hlength hlong =>
      rw [takeBoundary_of_length hlength, if_pos hlong]
      exact ⟨_, _, rfl⟩
  | lacking hlock hnone hnever =>
      rw [takeBoundary_of_lacking hlock hnone hnever]
      exact ⟨_, _, rfl⟩

theorem takeBoundary_of_skips
    {s : Search} {text rest : Octets} {next : Framer}
    (h : Skips s.framer text next rest) :
    ∃ notices, s.takeBoundary text = .again ⟨next, .boundary, notices⟩ rest := by
  cases h with
  | empty hlength =>
      rw [takeBoundary_of_length hlength, if_neg (Nat.not_lt_zero _), takeCounted,
        if_neg (Nat.not_lt_zero _), if_pos rfl]
      exact ⟨_, rfl⟩
  | line hline hdrops =>
      rcases takeBoundary_of_lineAt hline with ⟨hkeeps, -⟩ | ⟨-, htaken⟩
      · exact absurd hdrops hkeeps
      · exact htaken

/-- A step at a boundary gives something or passes over something, as the octets there say. -/
def Tells (f : Framer) (text : Octets) : Step → Prop
  | .settled result rest => Gives f text result.outcome rest
  | .again next rest => Skips f text next.framer rest
  | .wanting _ _ => True

theorem takeBoundary_tells
    (s : Search)
    (text : Octets) :
    Tells s.framer text (s.takeBoundary text) := by
  rcases boundary_cases s text with
    ⟨length, body, hlength⟩ | ⟨hlock, hnone⟩ | ⟨hlock, hnone, hnever⟩ | hwanting
  · rw [takeBoundary_of_length hlength]
    by_cases hlong : s.framer.most < length
    · rw [if_pos hlong]
      exact .oversized hlength hlong
    rw [if_neg hlong, takeCounted]
    by_cases hpart : body.length < length
    · rw [if_pos hpart]
      trivial
    rw [if_neg hpart]
    by_cases hzero : length = 0
    · rw [if_pos hzero]
      subst hzero
      exact .empty hlength
    · rw [if_neg hzero]
      exact .counted hlength (Nat.pos_of_ne_zero hzero) (Nat.not_lt.1 hlong) (Nat.not_lt.1 hpart)
  · cases hsplit : Octets.splitLine text with
    | none =>
        simp only [takeBoundary_of_line hlock hnone, takeLine, hsplit]
        trivial
    | some found =>
        obtain ⟨line, rest⟩ := found
        have hat : s.framer.LineAt text line rest :=
          ⟨hlock, fun hheld => (hnone hheld).1, notMem_of_splitLine hsplit,
            Octets.splitLine_eq_some hsplit⟩
        rcases takeBoundary_of_lineAt hat with
          ⟨hkeeps, framer, htaken⟩ | ⟨hdrops, notices, htaken⟩
        · rw [htaken]
          exact .line hat hkeeps
        · rw [htaken]
          exact .line hat hdrops
  · rw [takeBoundary_of_lacking hlock hnone hnever]
    exact .lacking hlock hnone hnever
  · rw [hwanting]
    trivial

/-- A search that comes to an end by itself at what the octets before it settle. -/
theorem settles_of_look
    {s : Search} {text rest : Octets} {result : Result}
    (hphase : s.phase = .boundary)
    (h : s.look text = .settled result rest) :
    Settles s.framer text result.outcome rest := by
  have hstep : ∀ {s : Search} (text : Octets), s.phase = .boundary →
      s.step text = s.takeBoundary text := by
    intro s text hphase
    simp only [step, hphase]
  fun_induction look s text with
  | case1 s text found left hfound =>
      have htells := takeBoundary_tells s text
      rw [← hstep text hphase, hfound] at htells
      cases h
      exact .here htells
  | case2 => cases h
  | case3 s text next left hnext ih =>
      have htells := takeBoundary_tells s text
      rw [← hstep text hphase, hnext] at htells
      rw [hstep text hphase] at hnext
      exact .behind htells (ih (takeBoundary_again hnext).1 h)

theorem look_of_settles
    {f : Framer} {text rest : Octets} {outcome : Outcome}
    (h : Settles f text outcome rest)
    (notices : List Notice) :
    ∃ framer later, look ⟨f, .boundary, notices⟩ text = .settled ⟨outcome, framer, later⟩ rest := by
  induction h generalizing notices with
  | @here f text rest outcome hgives =>
      obtain ⟨framer, later, hstep⟩ :=
        takeBoundary_of_gives (s := ⟨f, .boundary, notices⟩) hgives
      exact ⟨framer, later, look_of_settled hstep⟩
  | @behind f next text left rest outcome hskips hsettles ih =>
      obtain ⟨later, hstep⟩ := takeBoundary_of_skips (s := ⟨f, .boundary, notices⟩) hskips
      obtain ⟨framer, last, hlook⟩ := ih later
      refine ⟨framer, last, ?_⟩
      rw [look, show step ⟨f, .boundary, notices⟩ text = _ from hstep]
      exact hlook

end Search

theorem Outcome.next_injective :
    Function.Injective Outcome.next := by
  intro one other h
  cases one <;> cases other <;> simp_all [Outcome.next]

end Framing

namespace Reader

/-- What the octets read ahead settle is given without reading. -/
theorem next_of_settles
    {σ : Type} [ByteStream σ]
    {f : Framer} {text rest : Octets} {outcome : Framing.Outcome}
    (h : Framing.Settles f text outcome rest)
    (limit : Option Nat)
    (inner : σ)
    (ended : Bool) :
    ∃ framer notices, next limit ⟨f, inner, text, ended⟩ =
      (outcome.next, notices, ⟨framer, inner, rest, ended⟩) := by
  obtain ⟨framer, notices, hlook⟩ := Framing.Search.look_of_settles h []
  have hrun : Framing.Search.inquiry.run limit (.start f) ⟨inner, text, ended⟩ = _ :=
    Inquiry.run_of_settled hlook
  refine ⟨framer, notices, ?_⟩
  simp only [next, Framing.Search.attempt, hrun, Lookahead.leaving]

/-- Where the octets read ahead settle nothing, a stream that fails settles it. -/
theorem next_of_wanting
    {f : Framer} {text rest : Octets} {after : Framing.Search}
    (h : (Framing.Search.start f).look text = .wanting after rest)
    (report : String) :
    (next none ⟨f, Wire.ofSegments [.fault report], text, false⟩).1 = .fault (.io report) := by
  have hrun : Framing.Search.inquiry.run none (.start f)
      (⟨Wire.ofSegments [.fault report], text, false⟩ : Lookahead Wire) =
        (.failed after report, ⟨Wire.ofSegments [], rest, false⟩) := by
    rw [Inquiry.run, show Framing.Search.inquiry.look (.start f) text = _ from h]
    rfl
  simp only [next, Framing.Search.attempt, hrun]

/--
Where the next message, or the fault in its place, is the same whatever the stream brings, the
octets read ahead hold it behind what is passed over, and the other way round.  It is given then
without reading from the stream, whatever the stream is, within any limit.
-/
theorem next_prompt
    (f : Framer)
    (text : Octets)
    (outcome : Framing.Outcome) :
    ((∀ wire : Wire, (next none ⟨f, wire, text, false⟩).1 = outcome.next) ↔
      ∃ rest, Framing.Settles f text outcome rest) ∧
    ∀ rest, Framing.Settles f text outcome rest →
      ∀ {σ : Type} [ByteStream σ] (limit : Option Nat) (inner : σ) (ended : Bool),
        ∃ framer notices, next limit ⟨f, inner, text, ended⟩ =
          (outcome.next, notices, ⟨framer, inner, rest, ended⟩) := by
  refine ⟨⟨fun hsame => ?_, ?_⟩, fun rest h => next_of_settles h⟩
  · cases hlook : (Framing.Search.start f).look text with
    | settled result rest =>
        have hsettles : Framing.Settles f text result.outcome rest :=
          Framing.Search.settles_of_look rfl hlook
        obtain ⟨framer, notices, hnext⟩ :=
          next_of_settles hsettles none (Wire.ofSegments []) false
        have hgiven := hsame (Wire.ofSegments [])
        rw [hnext] at hgiven
        exact ⟨rest, Framing.Outcome.next_injective hgiven ▸ hsettles⟩
    | wanting after rest =>
        -- two streams that fail with different reports give different faults
        have hone := (next_of_wanting hlook "one").symm.trans (hsame _)
        have hother := (next_of_wanting hlook "other").symm.trans (hsame _)
        have hreports : Framing.Next.fault (.io "one") = .fault (.io "other") :=
          hone.trans hother.symm
        simp at hreports
  · rintro ⟨rest, hsettles⟩ wire
    obtain ⟨framer, notices, hnext⟩ := next_of_settles hsettles none wire false
    rw [hnext]

/--
Behind a blank line and a length of zero a counted message is given at once: nobody waits for the
octet behind it, or for those that silence keeps back.
-/
theorem next_prompt_sample :
    let f := Framer.start .auto 8
    let text : Octets := [10, 48, 32, 51, 32, 97, 98, 99, 88]
    Framing.Settles f text (.frame ⟨some 3, [97, 98, 99]⟩) [88] ∧
      ∃ framer notices, next none ⟨f, Wire.ofSegments [.silence], text, false⟩ =
        (.frame ⟨some 3, [97, 98, 99]⟩, notices,
          ⟨framer, Wire.ofSegments [.silence], [88], false⟩) := by
  intro f text
  have hblank : Framing.Skips f text { f.noting .line with discarding := false }
      [48, 32, 51, 32, 97, 98, 99, 88] :=
    @Framing.Skips.line f text [] _ ⟨by decide, fun _ => rfl, by decide, rfl⟩ (Or.inr (Or.inl rfl))
  have hempty : Framing.Skips { f.noting .line with discarding := false }
      [48, 32, 51, 32, 97, 98, 99, 88]
      (Framer.noting .counted { f.noting .line with discarding := false })
      [51, 32, 97, 98, 99, 88] :=
    .empty ⟨by decide, rfl⟩
  have hcounted : Framing.Gives
      (Framer.noting .counted { f.noting .line with discarding := false })
      [51, 32, 97, 98, 99, 88] (.frame ⟨some 3, [97, 98, 99]⟩) [88] :=
    @Framing.Gives.counted _ _ 3 [97, 98, 99, 88] ⟨by decide, rfl⟩ (by decide) (by decide)
      (by decide)
  have hsettles : Framing.Settles f text (.frame ⟨some 3, [97, 98, 99]⟩) [88] :=
    .behind hblank (.behind hempty (.here hcounted))
  exact ⟨hsettles, (next_prompt f text _).2 _ hsettles none _ false⟩

end Reader
end SyslogIntake

import SyslogIntake.Stream.Channel
import SyslogIntake.Stream.Wire

/-!
# What a stream brings

A stream brings a text and then ends or fails.  How the text is cut into pieces and when
they arrive is left open, as long as everything has arrived at a known point in time.  A
wire brings a text if its segments are a cut of it; look-ahead and channels bring what the
stream below them brings, behind what was read ahead.

**Results.**

* `Wire.brings_ofSegments` : the segments of a cut bring the text that was cut;
* `Lookahead.fillMore_brings` : what filling a buffer comes to.
-/

namespace SyslogIntake

/-- A span of time, at the end of which everything has arrived. -/
structure Span where
  start : Nat
  due : Nat

namespace Span

/-- Whether a limit leaves time for everything to arrive. -/
def Meets (limit : Option Nat) (span : Span) : Prop :=
  ∀ time ∈ limit, span.due ≤ time

theorem meets_none
    (span : Span) :
    span.Meets none := by
  intro time htime
  cases htime

end Span

/--
Streams of which can be said what they bring: `Brings span close text s` if `s` is going to
deliver `text` within `span`, and then fails with the report `close` or, without one, ends.
-/
class Supplied (σ : Type) [ByteStream σ] where
  /-- Whether a stream brings a text. -/
  Brings : Span → Option String → Octets → σ → Prop
  /-- The span has begun. -/
  start_le : ∀ {span close text s}, Brings span close text s →
    span.start ≤ ByteStream.now s
  /-- The span is not over. -/
  le_due : ∀ {span close text s}, Brings span close text s →
    ByteStream.now s ≤ span.due
  /-- A read delivers a part of a text that is not empty. -/
  read_some : ∀ {span close text s} (want : Nat) {limit : Option Nat},
    Brings span close text s → text ≠ [] → 0 < want → span.Meets limit →
      ∃ piece rest next, piece ≠ [] ∧ piece.length ≤ want ∧ text = piece ++ rest ∧
        ByteStream.read want limit s = (.octets piece, next) ∧ Brings span close rest next
  /-- Behind the text the stream is at its end. -/
  read_end : ∀ {span s} (want : Nat) {limit : Option Nat},
    Brings span none [] s → span.Meets limit →
      ∃ next, ByteStream.read want limit s = (.octets [], next) ∧ Brings span none [] next
  /-- Or it fails. -/
  read_fault : ∀ {span report s} (want : Nat) {limit : Option Nat},
    Brings span (some report) [] s → span.Meets limit →
      ∃ next, ByteStream.read want limit s = (.failed report, next) ∧
        ByteStream.now next ≤ span.due

/-- What a delivery says about the text that a stream brings: it is a part of it, or all of
it has been delivered. -/
def Supplied.Delivers {σ : Type} [ByteStream σ] [Supplied σ] (span : Span)
    (close : Option String) (text : Octets) (want : Nat) : Delivery × σ → Prop
  | (.octets [], next) => text = [] ∧ close = none ∧ Brings span none [] next
  | (.octets (b :: piece), next) =>
      (b :: piece).length ≤ want ∧
        ∃ rest, text = b :: piece ++ rest ∧ Brings span close rest next
  | (.failed report, next) =>
      text = [] ∧ close = some report ∧ ByteStream.now next ≤ span.due
  | (.late, _) => False

/-- A read delivers a part of the text, and behind it comes to the end or the fault. -/
theorem Supplied.read_brings
    {σ : Type} [ByteStream σ] [Supplied σ]
    {span : Span} {close : Option String} {text : Octets} {s : σ}
    {want : Nat} {limit : Option Nat}
    (h : Brings span close text s)
    (hwant : 0 < want)
    (hmeets : span.Meets limit) :
    Delivers span close text want (ByteStream.read want limit s) := by
  by_cases htext : text = []
  · subst htext
    cases close with
    | none =>
        obtain ⟨next, hread, hnext⟩ := read_end want h hmeets
        rw [hread]
        exact ⟨rfl, rfl, hnext⟩
    | some report =>
        obtain ⟨next, hread, hnow⟩ := read_fault want h hmeets
        rw [hread]
        exact ⟨rfl, rfl, hnow⟩
  · obtain ⟨piece, rest, next, hpiece, hle, hsplit, hread, hnext⟩ :=
      read_some want h htext hwant hmeets
    obtain ⟨b, tail, rfl⟩ := List.exists_cons_of_ne_nil hpiece
    rw [hread]
    exact ⟨hle, rest, hsplit, hnext⟩

/--
A cut of a text: its pieces in their order, none of them empty, and pauses of the given
length in total.
-/
inductive Cut : Octets → Nat → List Segment → Prop
  | nil :
      Cut [] 0 []
  | piece
      {piece rest : Octets} {wait : Nat} {segments : List Segment}
      (hpiece : piece ≠ [])
      (hrest : Cut rest wait segments) :
      Cut (piece ++ rest) wait (.octets piece :: segments)
  | pause
      {text : Octets} {wait : Nat} {segments : List Segment}
      (length : Nat)
      (hrest : Cut text wait segments) :
      Cut text (length + wait) (.pause length :: segments)

/-- What stands behind the octets on a wire that fails with a report, or just ends. -/
def Segment.closing : Option String → List Segment
  | none => []
  | some report => [.fault report]

namespace Wire

theorem within_of_le
    {time : Nat}
    {limit : Option Nat}
    (h : ∀ last ∈ limit, time ≤ last) :
    within time limit = true := by
  cases limit with
  | none =>
      rfl
  | some last =>
      simpa [within] using h last rfl

/-- A limit behind everything lies behind a pause, and behind what comes after it. -/
theorem limit_pause
    {limit : Option Nat} {clock length wait : Nat}
    (h : ∀ last ∈ limit, clock + (length + wait) ≤ last) :
    (∀ last ∈ limit, clock + length ≤ last) ∧ ∀ last ∈ limit, clock + length + wait ≤ last := by
  constructor
  · intro last hlast
    have hle := h last hlast
    omega
  · intro last hlast
    have hle := h last hlast
    omega

/-- A read takes the front of the first piece of a cut, behind the pauses before it. -/
theorem readFrom_cut
    {text : Octets} {wait : Nat} {segments : List Segment}
    (hcut : Cut text wait segments)
    (htext : text ≠ [])
    {want : Nat} {limit : Option Nat} {clock : Nat}
    (hwant : 0 < want)
    (hlimit : ∀ last ∈ limit, clock + wait ≤ last)
    (behind : List Segment) :
    ∃ piece rest left later pending, piece ≠ [] ∧ piece.length ≤ want ∧
      text = piece ++ rest ∧ Cut rest left pending ∧
      clock ≤ later ∧ later + left = clock + wait ∧
      readFrom want limit clock (segments ++ behind) =
        (.octets piece, pending ++ behind, later) := by
  induction hcut generalizing clock with
  | nil =>
      exact absurd rfl htext
  | @piece piece rest wait segments hpiece hrest ih =>
      obtain ⟨b, tail, rfl⟩ := List.exists_cons_of_ne_nil hpiece
      by_cases hlt : tail.length < want
      · refine ⟨b :: tail, rest, wait, clock, segments, hpiece, hlt, rfl, hrest,
          Nat.le_refl _, rfl, ?_⟩
        simp [readFrom, hlt]
      · have hdrop : (b :: tail).drop want ≠ [] := by
          intro hnil
          have hlength := List.drop_eq_nil_iff.1 hnil
          simp only [List.length_cons] at hlength
          omega
        have htake : (b :: tail).take want ≠ [] := by
          simp [List.take_eq_nil_iff]
          omega
        refine ⟨(b :: tail).take want, (b :: tail).drop want ++ rest, wait, clock,
          .octets ((b :: tail).drop want) :: segments, htake, List.length_take_le _ _, ?_,
          Cut.piece hdrop hrest, Nat.le_refl _, rfl, ?_⟩
        · rw [← List.append_assoc, List.take_append_drop]
        · simp [readFrom, hlt]
  | @pause text wait segments length hrest ih =>
      obtain ⟨hnow, hthen⟩ := limit_pause hlimit
      obtain ⟨piece, rest, left, later, pending, hne, hle, hsplit, hcut, hlater, hsum, hread⟩ :=
        ih htext hthen
      refine ⟨piece, rest, left, later, pending, hne, hle, hsplit, hcut, by omega, by omega, ?_⟩
      simp only [List.cons_append, readFrom, within_of_le hnow, if_true]
      exact hread

/-- Behind the last piece of a cut a read comes to what stands there. -/
theorem readFrom_closing
    {text : Octets} {wait : Nat} {segments : List Segment}
    (hcut : Cut text wait segments)
    (htext : text = [])
    {limit : Option Nat} {clock : Nat}
    (hlimit : ∀ last ∈ limit, clock + wait ≤ last)
    (want : Nat)
    (behind : List Segment) :
    readFrom want limit clock (segments ++ behind) =
      readFrom want limit (clock + wait) behind := by
  induction hcut generalizing clock with
  | nil =>
      rfl
  | piece hpiece hrest ih =>
      exact absurd (List.append_eq_nil_iff.1 htext).1 hpiece
  | @pause text wait segments length hrest ih =>
      obtain ⟨hnow, hthen⟩ := limit_pause hlimit
      simp only [List.cons_append, readFrom, within_of_le hnow, if_true]
      rw [ih htext hthen, Nat.add_assoc]

/-- A wire brings a text if its segments are a cut of it, up to the fault or the end. -/
def Brings (span : Span) (close : Option String) (text : Octets) (w : Wire) : Prop :=
  ∃ wait segments, Cut text wait segments ∧ w.segments = segments ++ Segment.closing close ∧
    span.start ≤ w.clock ∧ w.clock + wait ≤ span.due

theorem read_some_brings
    {span : Span} {close : Option String} {text : Octets} {w : Wire}
    {want : Nat} {limit : Option Nat}
    (h : Brings span close text w)
    (htext : text ≠ []) (hwant : 0 < want) (hmeets : span.Meets limit) :
    ∃ piece rest next, piece ≠ [] ∧ piece.length ≤ want ∧ text = piece ++ rest ∧
      ByteStream.read want limit w = (.octets piece, next) ∧ Brings span close rest next := by
  obtain ⟨wait, segments, hcut, hsegments, hstart, hdue⟩ := h
  have hlimit : ∀ last ∈ limit, w.clock + wait ≤ last := fun last hlast =>
    Nat.le_trans hdue (hmeets last hlast)
  obtain ⟨piece, rest, left, later, pending, hne, hle, hsplit, hrest, hlater, hsum, hread⟩ :=
    readFrom_cut hcut htext hwant hlimit (Segment.closing close)
  refine ⟨piece, rest, ⟨pending ++ Segment.closing close, later, w.sent⟩, hne, hle, hsplit, ?_,
    left, pending, hrest, rfl, ?_, ?_⟩
  · simp only [ByteStream.read, read, hsegments, hread]
  · exact Nat.le_trans hstart hlater
  · exact hsum ▸ hdue

theorem read_end_brings
    {span : Span} {w : Wire} {limit : Option Nat}
    (want : Nat)
    (h : Brings span none [] w)
    (hmeets : span.Meets limit) :
    ∃ next, ByteStream.read want limit w = (.octets [], next) ∧ Brings span none [] next := by
  obtain ⟨wait, segments, hcut, hsegments, hstart, hdue⟩ := h
  have hlimit : ∀ last ∈ limit, w.clock + wait ≤ last := fun last hlast =>
    Nat.le_trans hdue (hmeets last hlast)
  have hread := readFrom_closing hcut rfl hlimit want (Segment.closing none)
  refine ⟨⟨[], w.clock + wait, w.sent⟩, ?_, 0, [], Cut.nil, rfl, ?_, ?_⟩
  · simp only [ByteStream.read, read, hsegments, hread]
    rfl
  · exact Nat.le_trans hstart (Nat.le_add_right _ _)
  · exact hdue

theorem read_fault_brings
    {span : Span} {report : String} {w : Wire} {limit : Option Nat}
    (want : Nat)
    (h : Brings span (some report) [] w)
    (hmeets : span.Meets limit) :
    ∃ next, ByteStream.read want limit w = (.failed report, next) ∧
      ByteStream.now next ≤ span.due := by
  obtain ⟨wait, segments, hcut, hsegments, hstart, hdue⟩ := h
  have hlimit : ∀ last ∈ limit, w.clock + wait ≤ last := fun last hlast =>
    Nat.le_trans hdue (hmeets last hlast)
  have hread := readFrom_closing hcut rfl hlimit want (Segment.closing (some report))
  refine ⟨⟨[], w.clock + wait, w.sent⟩, ?_, hdue⟩
  simp only [ByteStream.read, read, hsegments, hread]
  rfl

instance : Supplied Wire where
  Brings := Brings
  start_le h := by
    obtain ⟨wait, segments, hcut, hsegments, hstart, hdue⟩ := h
    exact hstart
  le_due h := by
    obtain ⟨wait, segments, hcut, hsegments, hstart, hdue⟩ := h
    exact Nat.le_trans (Nat.le_add_right _ _) hdue
  read_some _ := read_some_brings
  read_end want := read_end_brings want
  read_fault want := read_fault_brings want

/-- The segments of a cut bring the text that was cut, as long as its pauses last. -/
theorem brings_ofSegments
    {text : Octets} {wait : Nat} {segments : List Segment}
    (hcut : Cut text wait segments)
    (close : Option String) :
    Supplied.Brings ⟨0, wait⟩ close text
      (ofSegments (segments ++ Segment.closing close)) :=
  ⟨wait, segments, hcut, rfl, Nat.le_refl _, Nat.le_of_eq (Nat.zero_add wait)⟩

end Wire

namespace Lookahead

variable {σ : Type} [ByteStream σ] [Supplied σ]

/--
Look-ahead brings its buffer and what the stream below brings, which is nothing once its
end was met.
-/
def Brings (span : Span) (close : Option String) (text : Octets) (l : Lookahead σ) : Prop :=
  ∃ rest, text = l.buffer ++ rest ∧ Supplied.Brings span close rest l.inner ∧
    (l.ended = true → rest = [] ∧ close = none)

theorem read_some_brings
    {span : Span} {close : Option String} {text : Octets} {l : Lookahead σ}
    {want : Nat} {limit : Option Nat}
    (h : Brings span close text l)
    (hne : text ≠ []) (hwant : 0 < want) (hmeets : span.Meets limit) :
    ∃ piece rest next, piece ≠ [] ∧ piece.length ≤ want ∧ text = piece ++ rest ∧
      ByteStream.read want limit l = (.octets piece, next) ∧ Brings span close rest next := by
  obtain ⟨rest, htext, hinner, hended⟩ := h
  by_cases hbuffer : l.buffer = []
  · have hrest : rest ≠ [] := by simpa [htext, hbuffer] using hne
    have hopen : l.ended ≠ true := fun h => hrest (hended h).1
    obtain ⟨piece, left, next, hpiece, hle, hsplit, hread, hnext⟩ :=
      Supplied.read_some want hinner hrest hwant hmeets
    refine ⟨piece, left, { l with inner := next }, hpiece, hle, ?_, ?_, left, ?_, hnext, ?_⟩
    · simpa [htext, hbuffer] using hsplit
    · simp [ByteStream.read, read, hbuffer, hopen, hread]
    · simp [hbuffer]
    · exact fun h => absurd h hopen
  · have htake : l.buffer.take want ≠ [] := by
      simp [List.take_eq_nil_iff, hbuffer]
      omega
    refine ⟨l.buffer.take want, l.buffer.drop want ++ rest, l.consume want, htake,
      List.length_take_le _ _, ?_, read_of_buffer want limit hbuffer, rest, rfl, hinner, hended⟩
    rw [← List.append_assoc, List.take_append_drop, htext]

theorem read_end_brings
    {span : Span} {l : Lookahead σ} {limit : Option Nat}
    (want : Nat)
    (h : Brings span none [] l)
    (hmeets : span.Meets limit) :
    ∃ next, ByteStream.read want limit l = (.octets [], next) ∧ Brings span none [] next := by
  obtain ⟨rest, htext, hinner, hended⟩ := h
  obtain ⟨hbuffer, hrest⟩ := List.append_eq_nil_iff.1 htext.symm
  subst hrest
  by_cases hend : l.ended = true
  · refine ⟨l, ?_, [], htext, hinner, hended⟩
    simp [ByteStream.read, read, hbuffer, hend]
  · obtain ⟨next, hread, hnext⟩ := Supplied.read_end want hinner hmeets
    refine ⟨{ l with inner := next }, ?_, [], htext, hnext, fun h => absurd h hend⟩
    simp [ByteStream.read, read, hbuffer, hend, hread]

theorem read_fault_brings
    {span : Span} {report : String} {l : Lookahead σ} {limit : Option Nat}
    (want : Nat)
    (h : Brings span (some report) [] l)
    (hmeets : span.Meets limit) :
    ∃ next, ByteStream.read want limit l = (.failed report, next) ∧
      ByteStream.now next ≤ span.due := by
  obtain ⟨rest, htext, hinner, hended⟩ := h
  obtain ⟨hbuffer, hrest⟩ := List.append_eq_nil_iff.1 htext.symm
  subst hrest
  have hopen : l.ended ≠ true := fun h => Option.some_ne_none report (hended h).2
  obtain ⟨next, hread, hnow⟩ := Supplied.read_fault want hinner hmeets
  refine ⟨{ l with inner := next }, ?_, hnow⟩
  simp [ByteStream.read, read, hbuffer, hopen, hread]

instance : Supplied (Lookahead σ) where
  Brings := Brings
  start_le h := by
    obtain ⟨rest, htext, hinner, hended⟩ := h
    exact Supplied.start_le (σ := σ) hinner
  le_due h := by
    obtain ⟨rest, htext, hinner, hended⟩ := h
    exact Supplied.le_due (σ := σ) hinner
  read_some _ := read_some_brings
  read_end want := read_end_brings want
  read_fault want := read_fault_brings want

/-- Look-ahead with nothing in its buffer brings what the stream below brings. -/
theorem brings_fresh
    {span : Span} {close : Option String} {text : Octets} {inner : σ}
    (h : Supplied.Brings span close text inner) :
    Supplied.Brings span close text (fresh inner) :=
  ⟨text, rfl, h, fun hended => by cases hended⟩

/-- Leaving something else in the buffer changes the front of the text. -/
theorem brings_leaving
    {span : Span} {close : Option String} {rest : Octets} {l : Lookahead σ}
    (hinner : Supplied.Brings span close rest l.inner)
    (hended : l.ended = true → rest = [] ∧ close = none)
    (buffer : Octets) :
    Supplied.Brings span close (buffer ++ rest) (l.leaving buffer) :=
  ⟨rest, rfl, hinner, hended⟩

/--
What filling a buffer says about the text that look-ahead brings: a part of it was added, or
all of it is in the buffer.
-/
def Fills (span : Span) (close : Option String) (text : Octets) (l : Lookahead σ) :
    Delivery × Lookahead σ → Prop
  | (.octets [], next) =>
      close = none ∧ l.buffer = text ∧ next.buffer = text ∧ Supplied.Brings span close text next
  | (.octets (b :: piece), next) =>
      next.buffer = l.buffer ++ b :: piece ∧ Supplied.Brings span close text next
  | (.failed report, next) =>
      close = some report ∧ l.buffer = text ∧ ByteStream.now next ≤ span.due
  | (.late, _) => False

/-- Filling a buffer adds a part of what the stream below brings, up to its end or fault. -/
theorem fillMore_brings
    {span : Span} {close : Option String} {text : Octets} {l : Lookahead σ}
    {limit : Option Nat}
    (h : Supplied.Brings span close text l)
    (hmeets : span.Meets limit) :
    Fills span close text l (l.fillMore limit) := by
  obtain ⟨rest, htext, hinner, hended⟩ := h
  by_cases hend : l.ended = true
  · obtain ⟨hrest, hclose⟩ := hended hend
    have hbuffer : l.buffer = text := by simpa [hrest] using htext.symm
    rw [fillMore_ended limit hend]
    exact ⟨hclose, hbuffer, hbuffer, rest, htext, hinner, hended⟩
  · have hportion : 0 < portion := by decide
    have hdelivers := Supplied.read_brings hinner hportion hmeets
    unfold fillMore
    rw [if_neg hend]
    rcases hread : ByteStream.read portion limit l.inner with ⟨(_ | ⟨b, piece⟩) | report | _, next⟩
    · rw [hread] at hdelivers
      obtain ⟨hrest, rfl, hnext⟩ := hdelivers
      have hbuffer : l.buffer = text := by simpa [hrest] using htext.symm
      refine ⟨rfl, hbuffer, ?_, [], ?_, hnext, fun _ => ⟨rfl, rfl⟩⟩
      · simpa using hbuffer
      · simpa using hbuffer.symm
    · rw [hread] at hdelivers
      obtain ⟨hle, left, hsplit, hnext⟩ := hdelivers
      refine ⟨rfl, left, ?_, hnext, fun h => by cases h⟩
      rw [htext, hsplit, List.append_assoc]
    · rw [hread] at hdelivers
      obtain ⟨hrest, hclose, hnow⟩ := hdelivers
      exact ⟨hclose, by simpa [hrest] using htext.symm, hnow⟩
    · rw [hread] at hdelivers
      exact hdelivers.elim

end Lookahead

namespace Channel

variable {σ : Type} [ByteStream σ] [Supplied σ]

instance : Supplied (Channel σ) where
  Brings span close text channel := Supplied.Brings span close text channel.raw
  start_le h := Supplied.start_le (σ := Lookahead σ) h
  le_due h := Supplied.le_due (σ := Lookahead σ) h
  read_some {span close text channel} want {limit} h hne hwant hmeets := by
    obtain ⟨piece, rest, next, hpiece, hle, hsplit, hread, hnext⟩ :=
      Supplied.read_some want h hne hwant hmeets
    refine ⟨piece, rest, channel.withRaw next, hpiece, hle, hsplit, ?_, ?_⟩
    · exact congrArg (fun found => (found.1, channel.withRaw found.2)) hread
    · rw [raw_withRaw]
      exact hnext
  read_end {span channel} want {limit} h hmeets := by
    obtain ⟨next, hread, hnext⟩ := Supplied.read_end want h hmeets
    refine ⟨channel.withRaw next, ?_, ?_⟩
    · exact congrArg (fun found => (found.1, channel.withRaw found.2)) hread
    · rw [raw_withRaw]
      exact hnext
  read_fault {span report channel} want {limit} h hmeets := by
    obtain ⟨next, hread, hnow⟩ := Supplied.read_fault want h hmeets
    refine ⟨channel.withRaw next, ?_, ?_⟩
    · exact congrArg (fun found => (found.1, channel.withRaw found.2)) hread
    · change ByteStream.now (channel.withRaw next).raw ≤ span.due
      rw [raw_withRaw]
      exact hnow

end Channel
end SyslogIntake

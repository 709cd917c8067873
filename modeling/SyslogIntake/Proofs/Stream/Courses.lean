import SyslogIntake.Proofs.Stream.Recording

/-!
# Courses of operations

Look-ahead is filled, looked at, cut and read in any order.  Whatever is done with it, the
octets that were taken out of it and those that it still holds are the octets that were
delivered to it, each once and in their order; a failure costs nothing, and behind the end
the stream below is left alone.  The same goes for look-ahead over look-ahead.

**Results.**

* `Course.step_accounted`, `Course.run_accounted` : every operation keeps the account;
* `Course.run_ended`, `Course.run_closed` : behind the end nothing is read;
* `courses_keep` : what can be relied on at every point of every course of operations.
-/

namespace SyslogIntake

open Recording

namespace Lookahead

/-- What can be done with look-ahead. -/
inductive Operation
  | fillMore (limit : Option Nat)
  | fill (count : Nat) (limit : Option Nat)
  | consume (count : Nat)
  | split (count : Nat)
  | read (want : Nat) (limit : Option Nat)
  deriving DecidableEq, Repr

/-- Look-ahead that is in use: the octets that were taken out of it, and how it is now. -/
structure Course (τ : Type) where
  taken : Octets
  ahead : Lookahead τ

namespace Course

variable {τ : Type} [ByteStream τ]

/-- A course after an operation. -/
def step (c : Course τ) : Operation → Course τ
  | .fillMore limit => ⟨c.taken, (c.ahead.fillMore limit).2⟩
  | .fill count limit => ⟨c.taken, (c.ahead.fill count limit).2⟩
  | .consume count => ⟨c.taken ++ c.ahead.buffer.take count, c.ahead.consume count⟩
  | .split count => ⟨c.taken ++ (c.ahead.split count).1, (c.ahead.split count).2⟩
  | .read want limit =>
      ⟨c.taken ++ (c.ahead.read want limit).1.text, (c.ahead.read want limit).2⟩

/-- A course after operations. -/
def run (c : Course τ) (operations : List Operation) : Course τ :=
  operations.foldl step c

/-- The course of look-ahead over a stream, with octets taken out in front of it. -/
def above (taken : Octets) (inner : τ) : Course τ :=
  ⟨taken, fresh inner⟩

/-- Behind the end, an operation leaves the stream below alone. -/
theorem step_ended
    {c : Course τ}
    (h : c.ahead.ended = true)
    (operation : Operation) :
    (c.step operation).ahead.ended = true ∧ (c.step operation).ahead.inner = c.ahead.inner := by
  cases operation with
  | fillMore limit =>
      simp only [step, fillMore_ended limit h]
      exact ⟨h, trivial⟩
  | fill count limit =>
      rcases Nat.lt_or_ge c.ahead.buffer.length count with hlt | hle
      · simp only [step, fill_of_lt hlt, fillMore_ended limit h]
        exact ⟨h, trivial⟩
      · simp only [step, fill_of_le hle]
        exact ⟨h, trivial⟩
  | consume count | split count =>
      exact ⟨h, rfl⟩
  | read want limit =>
      by_cases hbuffer : c.ahead.buffer = []
      · simp [step, read, hbuffer, h]
      · simp only [step, read_of_buffer want limit hbuffer]
        exact ⟨h, rfl⟩

/-- Behind the end, the stream below is left alone for ever. -/
theorem run_ended
    {c : Course τ}
    (h : c.ahead.ended = true)
    (operations : List Operation) :
    (c.run operations).ahead.inner = c.ahead.inner := by
  induction operations generalizing c with
  | nil =>
      rfl
  | cons operation operations ih =>
      obtain ⟨hended, hinner⟩ := step_ended h operation
      exact (ih hended).trans hinner

variable [Recorded τ]

/-- The octets that were taken out, and those that are held, are the ones delivered. -/
structure Accounted (c : Course τ) : Prop where
  account : c.taken ++ held c.ahead = Delivery.textOf (heard c.ahead)
  isSealed : Sealed c.ahead

/-- Every operation keeps the account. -/
theorem step_accounted
    {c : Course τ}
    (h : c.Accounted)
    (operation : Operation) :
    (c.step operation).Accounted := by
  obtain ⟨haccount, hsealed⟩ := h
  cases operation with
  | fillMore limit =>
      obtain ⟨news, hfills⟩ := fillMore_records limit c.ahead
      refine ⟨?_, hfills.isSealed hsealed⟩
      simp only [step]
      rw [hfills.heard, Delivery.textOf_append, ← haccount, ← hfills.kept, List.append_assoc]
  | fill count limit =>
      obtain ⟨news, hfills⟩ := fill_records count limit c.ahead
      refine ⟨?_, hfills.isSealed hsealed⟩
      simp only [step]
      rw [hfills.heard, Delivery.textOf_append, ← haccount, ← hfills.kept, List.append_assoc]
  | consume count | split count =>
      refine ⟨?_, hsealed⟩
      have hcut : c.ahead.buffer.take count ++ c.ahead.buffer.drop count = c.ahead.buffer :=
        List.take_append_drop count c.ahead.buffer
      have haccount : c.taken ++ (c.ahead.buffer ++ held c.ahead.inner) =
          Delivery.textOf (heard c.ahead.inner) := haccount
      rw [← hcut, List.append_assoc, ← List.append_assoc] at haccount
      exact haccount
  | read want limit =>
      have hread := read_reads want limit c.ahead
      obtain ⟨news, hheard, hkept, _⟩ := hread.account
      constructor
      · simp only [step]
        rw [hheard, Delivery.textOf_append, ← haccount, List.append_assoc, List.append_assoc,
          hkept]
      · intro hclosed
        have hclosed : Closed c.ahead := (closed_read want limit c.ahead).1 hclosed
        simp only [step]
        rw [hread.closed hclosed]
        exact hsealed hclosed

theorem run_accounted
    {c : Course τ}
    (h : c.Accounted)
    (operations : List Operation) :
    (c.run operations).Accounted := by
  induction operations generalizing c with
  | nil =>
      exact h
  | cons operation operations ih =>
      exact ih (step_accounted h operation)

/-- Behind the end of any layer, an operation does not read the recorder. -/
theorem step_closed
    {c : Course τ}
    (h : Closed c.ahead)
    (operation : Operation) :
    Closed (c.step operation).ahead ∧ heard (c.step operation).ahead = heard c.ahead := by
  cases operation with
  | fillMore limit =>
      obtain ⟨news, hfills⟩ := fillMore_records limit c.ahead
      exact hfills.closed h
  | fill count limit =>
      obtain ⟨news, hfills⟩ := fill_records count limit c.ahead
      exact hfills.closed h
  | consume count | split count =>
      exact ⟨h, rfl⟩
  | read want limit =>
      exact ⟨(closed_read want limit c.ahead).2 h, (read_reads want limit c.ahead).closed h⟩

/-- Behind the end of any layer, the recorder is not read any more. -/
theorem run_closed
    {c : Course τ}
    (h : Closed c.ahead)
    (operations : List Operation) :
    heard (c.run operations).ahead = heard c.ahead := by
  induction operations generalizing c with
  | nil =>
      rfl
  | cons operation operations ih =>
      obtain ⟨hclosed, hheard⟩ := step_closed h operation
      exact (ih hclosed).trans hheard

/-- What can be relied on at a point of a course, and of whatever is done next. -/
structure Keeps (c : Course τ) : Prop where
  /-- What was taken out, what is in the buffer and what is held below it was delivered. -/
  account : c.taken ++ c.ahead.buffer ++ held c.ahead.inner = Delivery.textOf (heard c.ahead)
  /-- While anything is in the buffer, a read leaves the stream below alone. -/
  read_buffered : c.ahead.buffer ≠ [] → ∀ want limit,
    (c.ahead.read want limit).2.inner = c.ahead.inner
  /-- While anything is held, a read does not read the recorder. -/
  read_held : held c.ahead ≠ [] → ∀ want limit,
    heard (c.ahead.read want limit).2 = heard c.ahead
  /-- A read that fails leaves everything as it was. -/
  read_failed : ∀ want limit report, (c.ahead.read want limit).1 = .failed report →
    (c.ahead.read want limit).2.buffer = c.ahead.buffer ∧
      (c.ahead.read want limit).2.ended = c.ahead.ended ∧
      heard (c.ahead.read want limit).2 = heard c.ahead ++ [.failed report]
  /-- So does filling that fails. -/
  fillMore_failed : ∀ limit report, (c.ahead.fillMore limit).1 = .failed report →
    (c.ahead.fillMore limit).2.buffer = c.ahead.buffer ∧
      (c.ahead.fillMore limit).2.ended = c.ahead.ended ∧
      heard (c.ahead.fillMore limit).2 = heard c.ahead ++ [.failed report]
  /-- Filling up that fails keeps what was delivered before it. -/
  fill_failed : ∀ count limit report,
    (c.ahead.fill count limit).1 = .failed () report →
      (c.ahead.fill count limit).2.ended = c.ahead.ended ∧
        ∃ news more, heard (c.ahead.fill count limit).2 =
            heard c.ahead ++ news ++ [.failed report] ∧
          (c.ahead.fill count limit).2.buffer = c.ahead.buffer ++ more ∧
          held c.ahead.inner ++ Delivery.textOf news =
            more ++ held (c.ahead.fill count limit).2.inner
  /-- Enough is said only of a buffer that holds so many octets. -/
  fill_true : ∀ count limit, (c.ahead.fill count limit).1 = .answer true →
    count ≤ (c.ahead.fill count limit).2.buffer.length
  /-- Once they are there, nothing is done. -/
  fill_there : ∀ count limit, count ≤ c.ahead.buffer.length →
    c.ahead.fill count limit = (.answer true, c.ahead)
  /-- Until then, every single read is made while octets are missing. -/
  fill_frugal : ∀ count limit front d back,
    heard (c.ahead.fill count limit).2 = heard c.ahead ++ front ++ d :: back →
      (held c.ahead ++ Delivery.textOf front).length < count
  /-- Too few is said only behind the end, where a read brought nothing, and all is kept. -/
  fill_false : ∀ count limit, (c.ahead.fill count limit).1 = .answer false →
    (c.ahead.fill count limit).2.buffer.length < count ∧
      (heard (c.ahead.fill count limit).2).getLast? = some (.octets []) ∧
      ∃ news more, heard (c.ahead.fill count limit).2 = heard c.ahead ++ news ∧
        (c.ahead.fill count limit).2.buffer = c.ahead.buffer ++ more ∧
        held c.ahead.inner ++ Delivery.textOf news =
          more ++ held (c.ahead.fill count limit).2.inner
  /-- Once filling has met the end, no operation touches the stream below. -/
  final : ∀ limit, (c.ahead.fillMore limit).1 = .octets [] → ∀ operations,
    ((c.step (.fillMore limit)).run operations).ahead.inner =
      (c.ahead.fillMore limit).2.inner
  /-- Once any layer has met the end, no operation reads the recorder. -/
  closed : Closed c.ahead → ∀ operations, heard (c.run operations).ahead = heard c.ahead

/-- Where the account is kept, all of that can be relied on. -/
theorem Accounted.keeps
    {c : Course τ}
    (h : c.Accounted) :
    c.Keeps where
  account := by
    rw [List.append_assoc]
    exact h.account
  read_buffered hbuffer want limit := by
    rw [read_of_buffer want limit hbuffer]
    rfl
  read_held hheld want limit := by
    obtain ⟨news, hheard, _, hnone | hread⟩ := (read_reads want limit c.ahead).account
    · rw [hheard, hnone, List.append_nil]
    · exact absurd hread.1 hheld
  read_failed want limit report hreport := by
    obtain ⟨hbuffer, hended⟩ := Lookahead.read_failed hreport
    have hread := read_reads want limit c.ahead
    rw [hreport] at hread
    exact ⟨hbuffer, hended, hread.failed.2.2⟩
  fillMore_failed limit report hreport := by
    obtain ⟨news, hfills⟩ := fillMore_records limit c.ahead
    refine ⟨?_, ?_, ?_⟩
    · simpa [hreport, Delivery.text] using hfills.added
    · exact Bool.eq_iff_iff.2 (by simpa [hreport] using hfills.ended)
    · rw [hfills.heard, hfills.failed hreport]
  fill_failed count limit report hreport := by
    obtain ⟨news, hfills⟩ := fill_records count limit c.ahead
    have htold := hfills.told
    rw [hreport] at htold
    obtain ⟨early, rfl⟩ := List.getLast?_eq_some_iff.1 htold.1
    obtain ⟨more, hadded, hmoved⟩ := hfills.moved
    refine ⟨htold.2, early, more, ?_, hadded, ?_⟩
    · rw [hfills.heard, List.append_assoc]
    · simpa [Delivery.text] using hmoved
  fill_true count limit hreached := by
    obtain ⟨news, hfills⟩ := fill_records count limit c.ahead
    have htold := hfills.told
    rw [hreached] at htold
    exact htold.1
  fill_there count limit hle := fill_of_le hle limit
  fill_frugal count limit front d back hheard := by
    obtain ⟨news, hfills⟩ := fill_records count limit c.ahead
    have hnews : news = front ++ d :: back := by
      rw [hfills.heard, List.append_assoc] at hheard
      exact List.append_cancel_left hheard
    exact (hfills.frugal front d back hnews).2
  fill_false count limit hreached := by
    obtain ⟨news, hfills⟩ := fill_records count limit c.ahead
    have htold := hfills.told
    rw [hreached] at htold
    obtain ⟨more, hadded, hmoved⟩ := hfills.moved
    exact ⟨htold.1, hfills.isSealed h.isSealed (Or.inl htold.2), news, more, hfills.heard, hadded,
      hmoved⟩
  final limit hnothing operations := by
    obtain ⟨news, hfills⟩ := fillMore_records limit c.ahead
    exact run_ended (hfills.ended.2 (Or.inr hnothing)) operations
  closed hclosed operations := run_closed hclosed operations

end Course

/--
What can be relied on at every point of every course of operations on look-ahead, over a
stream as well as over a channel whose own look-ahead was used in any way before.
-/
theorem courses_keep
    {σ : Type} [ByteStream σ]
    (s : σ)
    (before after : List Operation) :
    let below := (Course.above [] (Recorder.start s)).run before
    below.Keeps ∧ ((Course.above below.taken (Channel.plain below.ahead)).run after).Keeps := by
  have hstart : (Course.above [] (Recorder.start s)).Accounted :=
    ⟨rfl, fun hclosed => hclosed.elim Bool.noConfusion False.elim⟩
  have hbelow := Course.run_accounted hstart before
  have hover : (Course.above ((Course.above [] (Recorder.start s)).run before).taken
      (Channel.plain ((Course.above [] (Recorder.start s)).run before).ahead)).Accounted :=
    ⟨hbelow.account, fun hclosed => hbelow.isSealed (hclosed.resolve_left Bool.noConfusion)⟩
  exact ⟨hbelow.keeps, (Course.run_accounted hover after).keeps⟩

end Lookahead
end SyslogIntake

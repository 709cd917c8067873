import SyslogIntake.Proofs.Stream.Supply
import SyslogIntake.Stream.Inquiry

/-!
# Questions about a whole text

A question about the front of a stream is looked at whenever a piece has arrived.  If every
look agrees with what the question means for the whole text, so does the answer, however
the text is cut into pieces.  Most questions keep no state: once a look settles them, more
octets behind the ones looked at change nothing.

**Results.**

* `Inquiry.run_means` : an answer agrees with what the question means for the whole text;
* `Inquiry.run_whole` : a steady question is answered as if the text arrived at once;
* `Inquiry.run_answer` : an answer was settled by a look, or given at the end of the stream;
* `ByteStream.readExact_brings` : reading a number of octets takes them off the whole text.
-/

namespace SyslogIntake

namespace Lookahead

variable {σ : Type} [ByteStream σ]

/-- A filling that adds nothing has met the end of the stream. -/
theorem ended_of_fillMore
    {limit : Option Nat} {l next : Lookahead σ}
    (h : l.fillMore limit = (.octets [], next)) :
    next.ended = true := by
  unfold fillMore at h
  split at h
  · rename_i hended
    simp only [Prod.mk.injEq, true_and] at h
    rw [← h]
    exact hended
  · split at h
    · rename_i text inner hread
      simp only [Prod.mk.injEq, Delivery.octets.injEq] at h
      rw [← h.2, h.1]
      rfl
    · rename_i other inner hother hread
      simp only [Prod.mk.injEq] at h
      exact absurd h.1 (hother [])

omit [ByteStream σ] in
theorem eq_nil_of_leaving
    {l : Lookahead σ} {rest more : Octets}
    (h : (l.leaving rest).buffer = rest ++ more) :
    more = [] :=
  List.self_eq_append_right.1 h

end Lookahead

namespace Inquiry

variable {s a x σ : Type}

/--
What a question means for a whole text, in which `stuck` are the states that want more than
the octets in front of them, and `answered` and `broken` say how an answer, or a fault of
the stream, agrees with the meaning.
-/
structure Means (inquiry : Inquiry s a) (close : Option String) (keep : s → Prop)
    (stuck : s → Octets → Prop) (meaning : s → Octets → x)
    (answered : a → Octets → x → Prop) (broken : String → x → Prop) : Prop where
  /-- A look that settles the question agrees, whatever follows. -/
  settled : ∀ {state text answer rest}, keep state →
    inquiry.look state text = .settled answer rest →
      ∀ more, answered answer (rest ++ more) (meaning state (text ++ more))
  /-- A look that does not settle the question keeps its meaning. -/
  wanting : ∀ {state text next rest}, keep state →
    inquiry.look state text = .wanting next rest →
      keep next ∧ stuck next rest ∧
        ∀ more, meaning state (text ++ more) = meaning next (rest ++ more)
  /-- The answer at the end of the stream agrees. -/
  ended : ∀ {state text}, keep state → stuck state text → close = none →
    answered (inquiry.finish state text).1 (inquiry.finish state text).2 (meaning state text)
  /-- The fault that ends the stream agrees. -/
  failed : ∀ {state text report}, keep state → stuck state text → close = some report →
    broken report (meaning state text)

section Run

variable [ByteStream σ]

/-- An answer was settled by a look, or given at the end of the stream. -/
theorem run_answer
    {inquiry : Inquiry s a} {limit : Option Nat} {state : s} {l next : Lookahead σ} {answer : a}
    (h : inquiry.run limit state l = (.answer answer, next)) :
    (∃ state text, inquiry.look state text = .settled answer next.buffer) ∨
      (next.ended = true ∧ ∃ state text, inquiry.finish state text = (answer, next.buffer)) := by
  fun_induction run inquiry limit state l with
  | case1 state l found rest hlook =>
      simp only [Prod.mk.injEq, Reached.answer.injEq] at h
      obtain ⟨rfl, rfl⟩ := h
      exact Or.inl ⟨state, l.buffer, hlook⟩
  | case2 state l after rest hlook filled hfill found left hfinish =>
      simp only [Prod.mk.injEq, Reached.answer.injEq] at h
      obtain ⟨rfl, rfl⟩ := h
      have hended : filled.ended = true := Lookahead.ended_of_fillMore hfill
      exact Or.inr ⟨hended, after, filled.buffer, hfinish⟩
  | case3 state l after rest hlook b piece filled hfill ih =>
      exact ih h
  | case4 => simp at h
  | case5 => simp at h

variable [Supplied σ]

/-- An answer agrees with what the question means for the whole text. -/
theorem run_means
    {inquiry : Inquiry s a} {close : Option String} {keep : s → Prop}
    {stuck : s → Octets → Prop} {meaning : s → Octets → x}
    {answered : a → Octets → x → Prop} {broken : String → x → Prop}
    (means : inquiry.Means close keep stuck meaning answered broken)
    {span : Span} {text : Octets} {limit : Option Nat} {state : s} {l : Lookahead σ}
    (hkeep : keep state)
    (hl : Supplied.Brings span close text l)
    (hmeets : span.Meets limit) :
    (∃ answer rest next, inquiry.run limit state l = (.answer answer, next) ∧
        Supplied.Brings span close rest next ∧ answered answer rest (meaning state text)) ∨
      (∃ report after next, inquiry.run limit state l = (.failed after report, next) ∧
        close = some report ∧ ByteStream.now next ≤ span.due ∧
        broken report (meaning state text)) := by
  fun_induction run inquiry limit state l generalizing text with
  | case1 state l found rest hlook =>
      obtain ⟨more, rfl, hinner, hended⟩ := hl
      exact Or.inl ⟨found, rest ++ more, l.leaving rest, rfl,
        Lookahead.brings_leaving hinner hended rest, means.settled hkeep hlook more⟩
  | case2 state l after rest hlook filled hfill found left hfinish =>
      obtain ⟨more, rfl, hinner, hended⟩ := hl
      obtain ⟨hnext, hstuck, hmeaning⟩ := means.wanting hkeep hlook
      have hfills := Lookahead.fillMore_brings
        (Lookahead.brings_leaving hinner hended rest) hmeets
      rw [hfill] at hfills
      obtain ⟨hclose, hbuffer, hheld, behind, htext, hinside, hend⟩ := hfills
      obtain rfl : more = [] := Lookahead.eq_nil_of_leaving hbuffer
      rw [List.append_nil] at hheld htext
      obtain rfl : behind = [] := by simpa [hheld] using htext
      have hagree := means.ended hnext hstuck hclose
      rw [hheld] at hfinish
      rw [hfinish] at hagree
      rw [hmeaning [], List.append_nil]
      refine Or.inl ⟨found, left, filled.leaving left, rfl, ?_, hagree⟩
      simpa using Lookahead.brings_leaving hinside hend left
  | case3 state l after rest hlook b piece filled hfill ih =>
      obtain ⟨more, rfl, hinner, hended⟩ := hl
      obtain ⟨hnext, hstuck, hmeaning⟩ := means.wanting hkeep hlook
      have hfills := Lookahead.fillMore_brings
        (Lookahead.brings_leaving hinner hended rest) hmeets
      rw [hfill] at hfills
      obtain ⟨_, hbrings⟩ := hfills
      rw [hmeaning more]
      exact ih hnext hbrings
  | case4 state l after rest hlook report filled hfill =>
      obtain ⟨more, rfl, hinner, hended⟩ := hl
      obtain ⟨hnext, hstuck, hmeaning⟩ := means.wanting hkeep hlook
      have hfills := Lookahead.fillMore_brings
        (Lookahead.brings_leaving hinner hended rest) hmeets
      rw [hfill] at hfills
      obtain ⟨hclose, hbuffer, hnow⟩ := hfills
      obtain rfl : more = [] := Lookahead.eq_nil_of_leaving hbuffer
      have hagree := means.failed hnext hstuck hclose
      rw [hmeaning [], List.append_nil]
      exact Or.inr ⟨report, after, filled, rfl, hclose, hnow, hagree⟩
  | case5 state l after rest hlook filled hfill =>
      obtain ⟨more, rfl, hinner, hended⟩ := hl
      have hfills := Lookahead.fillMore_brings
        (Lookahead.brings_leaving hinner hended rest) hmeets
      rw [hfill] at hfills
      exact hfills.elim

end Run

/-- What a question comes to if the whole text arrives at once. -/
def whole (inquiry : Inquiry s a) (close : Option String) (state : s) (text : Octets) :
    Except String (a × Octets) :=
  match inquiry.look state text with
  | .settled answer rest => .ok (answer, rest)
  | .wanting next rest =>
      match close with
      | none => .ok (inquiry.finish next rest)
      | some report => .error report

/--
A question without a state of its own: once it is settled, more octets change nothing, and
until then it takes none.
-/
structure Steady (inquiry : Inquiry s a) : Prop where
  /-- More octets are left as they are. -/
  settled : ∀ {state text answer rest}, inquiry.look state text = .settled answer rest →
    ∀ more, inquiry.look state (text ++ more) = .settled answer (rest ++ more)
  /-- What is not settled is left as it was. -/
  wanting : ∀ {state text next rest}, inquiry.look state text = .wanting next rest →
    next = state ∧ rest = text

/-- What a steady question means is what it comes to for the whole text. -/
theorem Steady.means
    {inquiry : Inquiry s a}
    (steady : inquiry.Steady)
    (close : Option String) :
    inquiry.Means close (fun _ => True)
      (fun state text => inquiry.look state text = .wanting state text)
      (inquiry.whole close) (fun answer rest found => found = .ok (answer, rest))
      (fun report found => found = .error report) where
  settled := by
    intro state text answer rest _ hlook more
    simp [whole, steady.settled hlook more]
  wanting := by
    intro state text next rest _ hlook
    obtain ⟨rfl, rfl⟩ := steady.wanting hlook
    exact ⟨trivial, hlook, fun more => rfl⟩
  ended := by
    intro state text _ hstuck hclose
    simp [whole, hstuck, hclose]
  failed := by
    intro state text report _ hstuck hclose
    simp [whole, hstuck, hclose]

/-- A steady question is answered as if the text arrived at once. -/
theorem run_whole
    [ByteStream σ] [Supplied σ]
    {inquiry : Inquiry s a}
    (steady : inquiry.Steady)
    {span : Span} {close : Option String} {text : Octets} {limit : Option Nat}
    {l : Lookahead σ}
    (hl : Supplied.Brings span close text l)
    (hmeets : span.Meets limit)
    (state : s) :
    (∃ answer rest next, inquiry.whole close state text = .ok (answer, rest) ∧
        inquiry.run limit state l = (.answer answer, next) ∧
        Supplied.Brings span close rest next) ∨
      (∃ report after next, inquiry.whole close state text = .error report ∧
        inquiry.run limit state l = (.failed after report, next) ∧
        ByteStream.now next ≤ span.due) := by
  have hkeep : (fun _ : s => True) state := trivial
  rcases run_means (steady.means close) hkeep hl hmeets with
    ⟨answer, rest, next, hrun, hbrings, hwhole⟩ |
    ⟨report, after, next, hrun, hclose, hnow, hwhole⟩
  · exact Or.inl ⟨answer, rest, next, hwhole, hrun, hbrings⟩
  · exact Or.inr ⟨report, after, next, hwhole, hrun, hnow⟩

end Inquiry

namespace ByteStream

variable {σ : Type} [ByteStream σ] [Supplied σ]

/-- What comes of reading more octets than a text has: it ends, or the stream fails. -/
def Gathered.short (close : Option String) (text : Octets) : Gathered :=
  match close with
  | none => .ended text
  | some report => .failed report

/-- Reading a number of octets takes them off the whole text, if it has so many. -/
theorem readExact_brings
    {span : Span} {close : Option String} {text : Octets} {limit : Option Nat} {s : σ}
    (h : Supplied.Brings span close text s)
    (hmeets : span.Meets limit)
    (count : Nat)
    (front : Octets) :
    (count ≤ text.length →
      ∃ next, readExact count limit front s = (.octets (front ++ text.take count), next) ∧
        Supplied.Brings span close (text.drop count) next) ∧
    (text.length < count →
      ∃ next, readExact count limit front s = (.short close (front ++ text), next)) := by
  fun_induction readExact count limit front s generalizing text with
  | case1 front s =>
      constructor
      · intro _
        exact ⟨s, by simp, by simpa using h⟩
      · intro hlt
        exact absurd hlt (Nat.not_lt_zero _)
  | case2 count front s hcount next hread =>
      have hdelivers := Supplied.read_brings h (Nat.pos_of_ne_zero hcount) hmeets
      rw [hread] at hdelivers
      obtain ⟨rfl, rfl, _⟩ := hdelivers
      constructor
      · intro hle
        exact absurd (Nat.le_zero.1 hle) hcount
      · intro _
        exact ⟨next, by simp [Gathered.short]⟩
  | case3 count front s hcount b piece next hread ih =>
      have hdelivers := Supplied.read_brings h (Nat.pos_of_ne_zero hcount) hmeets
      rw [hread] at hdelivers
      obtain ⟨hle, rest, rfl, hbrings⟩ := hdelivers
      have hnext := ih hbrings
      have hlength : (b :: piece ++ rest).length = (b :: piece).length + rest.length :=
        List.length_append
      constructor
      · intro hcount
        obtain ⟨after, hafter, hrest⟩ := hnext.1 (by omega)
        refine ⟨after, ?_, ?_⟩
        · rw [hafter, List.take_append, List.take_of_length_le hle, List.append_assoc]
        · rw [List.drop_append, List.drop_of_length_le hle, List.nil_append]
          exact hrest
      · intro hcount
        obtain ⟨after, hafter⟩ := hnext.2 (by omega)
        exact ⟨after, by rw [hafter, List.append_assoc]⟩
  | case4 count front s hcount report next hread =>
      have hdelivers := Supplied.read_brings h (Nat.pos_of_ne_zero hcount) hmeets
      rw [hread] at hdelivers
      obtain ⟨rfl, rfl, _⟩ := hdelivers
      constructor
      · intro hle
        exact absurd (Nat.le_zero.1 hle) hcount
      · intro _
        exact ⟨next, rfl⟩
  | case5 count front s hcount next hread =>
      have hdelivers := Supplied.read_brings h (Nat.pos_of_ne_zero hcount) hmeets
      rw [hread] at hdelivers
      exact hdelivers.elim

end ByteStream
end SyslogIntake

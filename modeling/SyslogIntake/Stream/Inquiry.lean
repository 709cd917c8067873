import SyslogIntake.Stream.Lookahead

/-!
# Inquiries

A stage of a connection asks a question about the octets at the front of a stream.  It
looks at what was read ahead; if that does not settle the question, the stage says what
it takes from the front already, keeps a state, and one more portion is read.  At the
end of the stream the question is settled with what is there.

**Results.**

* `run_of_settled` : a question that the buffer settles reads nothing;
* `run_backlog` : an answer costs octets of the stream.
-/

namespace SyslogIntake

/-- What a look at the octets read ahead says. -/
inductive Looked (s a : Type)
  | settled (answer : a) (rest : Octets)
  | wanting (state : s) (rest : Octets)

/-- A question about the front of a stream. -/
structure Inquiry (s a : Type) where
  /-- Look at the octets read ahead. -/
  look : s → Octets → Looked s a
  /-- Settle the question at the end of the stream. -/
  finish : s → Octets → a × Octets

/-- How an inquiry ended. -/
inductive Reached (s a : Type)
  | answer (found : a)
  | failed (state : s) (report : String)
  | late (state : s)

namespace Inquiry

variable {s a σ : Type} [ByteStream σ]

/-- Look and read by turns until the question is settled. -/
def run (inquiry : Inquiry s a) (limit : Option Nat) (state : s) (l : Lookahead σ) :
    Reached s a × Lookahead σ :=
  match inquiry.look state l.buffer with
  | .settled answer rest => (.answer answer, l.leaving rest)
  | .wanting state rest =>
      match _h : (l.leaving rest).fillMore limit with
      | (.octets [], next) =>
          let (answer, rest) := inquiry.finish state next.buffer
          (.answer answer, next.leaving rest)
      | (.octets (_ :: _), next) => run inquiry limit state next
      | (.failed report, next) => (.failed state report, next)
      | (.late, next) => (.late state, next)
termination_by ByteStream.backlog l.inner
decreasing_by
  have hlt := Lookahead.fillMore_inner _h
  exact hlt

/--
An inquiry that never gives back more than it was shown, and takes at least `cost answer`
octets for an answer.
-/
structure Takes (inquiry : Inquiry s a) (cost : a → Nat) : Prop where
  /-- What a settled look leaves. -/
  settled : ∀ {state text answer rest}, inquiry.look state text = .settled answer rest →
    rest.length + cost answer ≤ text.length
  /-- What a look leaves that does not settle the question. -/
  wanting : ∀ {state text next rest}, inquiry.look state text = .wanting next rest →
    rest.length ≤ text.length
  /-- What is left at the end of the stream. -/
  finished : ∀ (state : s) (text : Octets),
    (inquiry.finish state text).2.length + cost (inquiry.finish state text).1 ≤ text.length

/-- An answer costs octets of the stream. -/
theorem run_backlog
    {inquiry : Inquiry s a}
    {cost : a → Nat}
    (takes : inquiry.Takes cost)
    {limit : Option Nat}
    {state : s}
    {l next : Lookahead σ}
    {answer : a}
    (h : inquiry.run limit state l = (.answer answer, next)) :
    next.backlog + cost answer ≤ l.backlog := by
  fun_induction run inquiry limit state l with
  | case1 state l found rest hlook =>
      simp only [Prod.mk.injEq, Reached.answer.injEq] at h
      have hle := takes.settled hlook
      rw [← h.2, ← h.1]
      simp only [Lookahead.backlog, Lookahead.leaving]
      omega
  | case2 state l after rest hlook filled hfill answer' rest' hfinish =>
      simp only [Prod.mk.injEq, Reached.answer.injEq] at h
      have hwant := takes.wanting hlook
      have hle := Lookahead.fillMore_backlog limit (l.leaving rest) [] (by rw [hfill])
      have hend := takes.finished after filled.buffer
      rw [hfill] at hle
      rw [hfinish] at hend
      rw [← h.2, ← h.1]
      simp only [Lookahead.backlog, Lookahead.leaving] at hle hend ⊢
      omega
  | case3 state l after rest hlook b text filled hfill ih =>
      have hnext := ih h
      have hwant := takes.wanting hlook
      have hle := Lookahead.fillMore_backlog limit (l.leaving rest) (b :: text) (by rw [hfill])
      rw [hfill] at hle
      simp only [Lookahead.backlog, Lookahead.leaving] at hle hnext ⊢
      omega
  | case4 => simp at h
  | case5 => simp at h

/-- A question that the buffer settles reads nothing. -/
theorem run_of_settled
    {inquiry : Inquiry s a}
    {limit : Option Nat}
    {state : s}
    {l : Lookahead σ}
    {answer : a}
    {rest : Octets}
    (h : inquiry.look state l.buffer = .settled answer rest) :
    inquiry.run limit state l = (.answer answer, l.leaving rest) := by
  rw [run, h]

end Inquiry

namespace Lookahead

/-- The question whether a number of octets can be read ahead. -/
def filling (count : Nat) : Inquiry Unit Bool where
  look _ text := if count ≤ text.length then .settled true text else .wanting () text
  finish _ text := (false, text)

end Lookahead

namespace ByteStream

variable {σ : Type} [ByteStream σ]

/-- How reading to the end or reading a number of octets went. -/
inductive Gathered
  | octets (text : Octets)
  | ended (text : Octets)
  | failed (report : String)
  | late
  deriving DecidableEq, Repr

/-- Read portions until a read delivers nothing; what came before goes in front. -/
def readAll (portion : Nat) (limit : Option Nat) (front : Octets) (s : σ) : Gathered × σ :=
  match _h : read portion limit s with
  | (.octets [], next) => (.ended front, next)
  | (.octets (b :: text), next) => readAll portion limit (front ++ b :: text) next
  | (.failed report, next) => (.failed report, next)
  | (.late, next) => (.late, next)
termination_by backlog s
decreasing_by
  exact backlog_lt _h

/-- Read a number of octets; what came before goes in front. -/
def readExact (count : Nat) (limit : Option Nat) (front : Octets) (s : σ) : Gathered × σ :=
  if count = 0 then (.octets front, s)
  else
    match _h : read count limit s with
    | (.octets [], next) => (.ended front, next)
    | (.octets (b :: text), next) =>
        readExact (count - (b :: text).length) limit (front ++ b :: text) next
    | (.failed report, next) => (.failed report, next)
    | (.late, next) => (.late, next)
termination_by backlog s
decreasing_by
  exact backlog_lt _h

end ByteStream
end SyslogIntake

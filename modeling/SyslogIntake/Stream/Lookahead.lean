import SyslogIntake.Stream.Basic

/-!
# Look-ahead

A stream with a buffer of octets that were read and not used yet.  Stages look at the
buffer, take from its front what belongs to them and leave the rest to whoever comes
next.  A read of the look-ahead itself is served from the buffer while there is
anything in it.  Once filling the buffer meets the end of the stream, the stream is
not read again.

**Results.**

* `fillMore_ended` : after the end, filling changes nothing;
* `read_of_buffer` : a read is served from a buffer that is not empty.
-/

namespace SyslogIntake

/-- A stream, the octets read ahead, and whether its end was met. -/
structure Lookahead (σ : Type) where
  inner : σ
  buffer : Octets
  ended : Bool
  deriving Repr

namespace Lookahead

variable {σ : Type}

/-- A stream with nothing read ahead. -/
def fresh (inner : σ) : Lookahead σ :=
  ⟨inner, [], false⟩

/-- The look-ahead with other octets in its buffer. -/
def leaving (buffer : Octets) (l : Lookahead σ) : Lookahead σ :=
  { l with buffer }

/-- Drop octets from the front of the buffer. -/
def consume (n : Nat) (l : Lookahead σ) : Lookahead σ :=
  l.leaving (l.buffer.drop n)

/-- Take octets from the front of the buffer. -/
def split (n : Nat) (l : Lookahead σ) : Octets × Lookahead σ :=
  (l.buffer.take n, l.consume n)

variable [ByteStream σ]

/-- The octets that filling the buffer asks for at a time. -/
def portion : Nat := 4096

/-- Read once into the buffer. -/
def fillMore (limit : Option Nat) (l : Lookahead σ) : Delivery × Lookahead σ :=
  if l.ended then
    (.octets [], l)
  else
    match ByteStream.read portion limit l.inner with
    | (.octets text, inner) => (.octets text, ⟨inner, l.buffer ++ text, text.isEmpty⟩)
    | (other, inner) => (other, { l with inner })

/-- Read at most so many octets, from the buffer while there is anything in it. -/
def read (want : Nat) (limit : Option Nat) (l : Lookahead σ) : Delivery × Lookahead σ :=
  if l.buffer ≠ [] then
    (.octets (l.buffer.take want), l.consume want)
  else if l.ended then
    (.octets [], l)
  else
    match ByteStream.read want limit l.inner with
    | (delivery, inner) => (delivery, { l with inner })

/-- A bound on the octets that can still be read. -/
def backlog (l : Lookahead σ) : Nat :=
  l.buffer.length + ByteStream.backlog l.inner

/-- What a read delivers counts against the bound. -/
theorem read_backlog
    (want : Nat)
    (limit : Option Nat)
    (l : Lookahead σ)
    (text : Octets)
    (h : (l.read want limit).1 = .octets text) :
    (l.read want limit).2.backlog + text.length ≤ l.backlog := by
  unfold read at h ⊢
  split at h
  · rename_i hbuffer
    simp only [Delivery.octets.injEq] at h
    simp only [hbuffer, ← h, backlog, consume, leaving, List.length_drop, List.length_take, ne_eq,
      not_false_eq_true, if_true]
    omega
  · rename_i hbuffer
    rw [if_neg hbuffer]
    split at h
    · rename_i hended
      simp only [Delivery.octets.injEq] at h
      simp [hended, ← h]
    · rename_i hended
      have hle := ByteStream.backlog_read want limit l.inner text h
      simp only [backlog, if_neg hended]
      omega

instance : ByteStream (Lookahead σ) where
  read := read
  now l := ByteStream.now l.inner
  pass time l := { l with inner := ByteStream.pass time l.inner }
  backlog := backlog
  backlog_read want limit l text h := read_backlog want limit l text h

instance [ByteSink σ] : ByteSink (Lookahead σ) where
  send what l := { l with inner := ByteSink.send what l.inner }

theorem fillMore_ended
    (limit : Option Nat)
    {l : Lookahead σ}
    (h : l.ended = true) :
    l.fillMore limit = (.octets [], l) := by
  simp [fillMore, h]

/-- A read is served from a buffer that is not empty. -/
theorem read_of_buffer
    (want : Nat)
    (limit : Option Nat)
    {l : Lookahead σ}
    (h : l.buffer ≠ []) :
    l.read want limit = (.octets (l.buffer.take want), l.consume want) := by
  simp [read, h]

/-- What filling adds to the buffer was on the inner stream. -/
theorem fillMore_backlog
    (limit : Option Nat)
    (l : Lookahead σ)
    (text : Octets)
    (h : (l.fillMore limit).1 = .octets text) :
    (l.fillMore limit).2.backlog ≤ l.backlog := by
  unfold fillMore at h ⊢
  split
  · exact Nat.le_refl _
  · rename_i hended
    rw [if_neg hended] at h
    split at h
    · rename_i found inner hread
      have hle := ByteStream.backlog_read portion limit l.inner found (by rw [hread])
      rw [hread] at hle
      simp only [backlog, List.length_append] at hle ⊢
      omega
    · rename_i other inner hother hread
      exact absurd h (hother text)

/-- A portion that is not empty lowers the bound of the inner stream. -/
theorem fillMore_inner
    {limit : Option Nat}
    {l next : Lookahead σ}
    {b : UInt8}
    {text : Octets}
    (h : l.fillMore limit = (.octets (b :: text), next)) :
    ByteStream.backlog next.inner < ByteStream.backlog l.inner := by
  unfold fillMore at h
  split at h
  · simp at h
  · split at h
    · rename_i found inner hread
      simp only [Prod.mk.injEq, Delivery.octets.injEq] at h
      obtain ⟨htext, hnext⟩ := h
      subst htext
      rw [← hnext]
      exact ByteStream.backlog_lt hread
    · rename_i other inner hother hread
      simp only [Prod.mk.injEq] at h
      exact absurd h.1 (hother (b :: text))

end Lookahead
end SyslogIntake

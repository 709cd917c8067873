import SyslogIntake.Stream.Channel
import SyslogIntake.Stream.Inquiry
import SyslogIntake.Stream.Wire

/-!
# How long reading takes

Time does not go back while something is read, and a read is given up at its limit.  The limit
is a point in time, not a length of time: so a loop of reads with one limit, however many reads
these are and however little each of them brings, is over at that point as well.

**Results.**

* `Wire.readFrom_until` : reading from a wire keeps to the limit;
* `Inquiry.run_until` : so does a question about the front of a stream;
* `ByteStream.readExact_until` : so does reading a number of octets.
-/

namespace SyslogIntake

namespace ByteStream

/-- Whether time went on from one stream to another, but not beyond a limit that was ahead. -/
structure Until {σ τ : Type} [ByteStream σ] [ByteStream τ] (limit : Nat) (s : σ) (t : τ) :
    Prop where
  /-- Time has not gone back. -/
  le_now : now s ≤ now t
  /-- It has not gone on beyond the limit. -/
  now_le : now t ≤ max (now s) limit

/-- Streams of which the reads keep to their limits. -/
class Punctual (σ : Type) [ByteStream σ] : Prop where
  /-- A read is given up at its limit. -/
  read_until : ∀ (want limit : Nat) (s : σ), Until limit s (read want (some limit) s).2
  /-- Time passes up to a point and not beyond. -/
  pass_until : ∀ (time : Nat) (s : σ), Until time s (pass time s)

namespace Until

variable {σ τ υ : Type} [ByteStream σ] [ByteStream τ] [ByteStream υ] {limit : Nat}

theorem of_now_eq
    {s : σ} {t : τ}
    (h : now t = now s) :
    Until limit s t :=
  ⟨Nat.le_of_eq h.symm, h ▸ Nat.le_max_left _ _⟩

theorem refl
    (s : σ) :
    Until limit s s :=
  of_now_eq rfl

theorem trans
    {s : σ} {t : τ} {u : υ}
    (hst : Until limit s t)
    (htu : Until limit t u) :
    Until limit s u := by
  have h := hst.now_le
  have h' := htu.now_le
  exact ⟨Nat.le_trans hst.le_now htu.le_now, by omega⟩

end Until

end ByteStream

open ByteStream (Until Punctual)

namespace Wire

theorem readFrom_until
    (want limit clock : Nat)
    (segments : List Segment) :
    clock ≤ (readFrom want (some limit) clock segments).2.2 ∧
      (readFrom want (some limit) clock segments).2.2 ≤ max clock limit := by
  fun_induction readFrom want (some limit) clock segments with
  | case1 | case2 | case3 | case4 | case7 => exact ⟨Nat.le_refl _, Nat.le_max_left _ _⟩
  | case5 clock length rest hwithin ih =>
      simp only [within, decide_eq_true_eq] at hwithin
      omega
  | case6 | case8 => exact ⟨Nat.le_max_left _ _, Nat.le_refl _⟩

instance : Punctual Wire where
  read_until want limit w := by
    obtain ⟨hback, hbeyond⟩ := readFrom_until want limit w.clock w.segments
    exact ⟨hback, hbeyond⟩
  pass_until time w := ⟨Nat.le_max_left _ _, Nat.le_refl _⟩

end Wire

variable {σ : Type} [ByteStream σ] [Punctual σ]

namespace Lookahead

instance : Punctual (Lookahead σ) where
  read_until want limit l := by
    change Until limit l (l.read want (some limit)).2
    unfold read
    split
    · exact .of_now_eq rfl
    split
    · exact .refl l
    · obtain ⟨hback, hbeyond⟩ := Punctual.read_until want limit l.inner
      exact ⟨hback, hbeyond⟩
  pass_until time l := by
    obtain ⟨hback, hbeyond⟩ := Punctual.pass_until time l.inner
    exact ⟨hback, hbeyond⟩

theorem fillMore_until
    (limit : Nat)
    (l : Lookahead σ) :
    Until limit l (l.fillMore (some limit)).2 := by
  have hread := Punctual.read_until portion limit l.inner
  unfold fillMore
  split
  · exact .refl l
  split
  · rename_i text inner hdelivered
    rw [hdelivered] at hread
    exact ⟨hread.le_now, hread.now_le⟩
  · rename_i other inner hother hdelivered
    rw [hdelivered] at hread
    exact ⟨hread.le_now, hread.now_le⟩

theorem fillMore_leaving_until
    {limit : Nat} {rest : Octets} {l filled : Lookahead σ} {delivered : Delivery}
    (hfill : (l.leaving rest).fillMore (some limit) = (delivered, filled)) :
    Until limit l filled := by
  have hfilled := (l.leaving rest).fillMore_until limit
  rw [hfill] at hfilled
  exact ⟨hfilled.le_now, hfilled.now_le⟩

end Lookahead

namespace Channel

omit [Punctual σ] in
theorem now_withRaw
    (channel : Channel σ)
    (raw : Lookahead σ) :
    ByteStream.now (channel.withRaw raw) = ByteStream.now raw := by
  change ByteStream.now (channel.withRaw raw).raw = _
  rw [raw_withRaw]

instance : Punctual (Channel σ) where
  read_until want limit channel := by
    have hread := Punctual.read_until want limit channel.raw
    have hbelow : Until limit channel (ByteStream.read want (some limit) channel.raw).2 :=
      ⟨hread.le_now, hread.now_le⟩
    exact hbelow.trans (.of_now_eq (channel.now_withRaw _))
  pass_until time channel := by
    have hpass := Punctual.pass_until time channel.raw
    have hbelow : Until time channel (ByteStream.pass time channel.raw) :=
      ⟨hpass.le_now, hpass.now_le⟩
    exact hbelow.trans (.of_now_eq (channel.now_withRaw _))

end Channel

/-- A question is settled, or given up, by its limit, however many reads it takes. -/
theorem Inquiry.run_until
    {s a : Type}
    (inquiry : Inquiry s a)
    (limit : Nat)
    (state : s)
    (l : Lookahead σ) :
    Until limit l (inquiry.run (some limit) state l).2 := by
  fun_induction run inquiry (some limit) state l with
  | case1 state l answer rest hlook => exact .of_now_eq rfl
  | case2 state l after rest hlook filled hfill answer left hfinish =>
      have hfilled := Lookahead.fillMore_leaving_until hfill
      exact ⟨hfilled.le_now, hfilled.now_le⟩
  | case3 state l after rest hlook b text filled hfill ih =>
      -- The next round has the same limit, so that the two of them have it together.
      exact (Lookahead.fillMore_leaving_until hfill).trans ih
  | case4 state l after rest hlook report filled hfill
  | case5 state l after rest hlook filled hfill =>
      exact Lookahead.fillMore_leaving_until hfill

namespace ByteStream

/-- A number of octets is read, or given up, by the limit, however many reads it takes. -/
theorem readExact_until
    (count limit : Nat)
    (front : Octets)
    (s : σ) :
    Until limit s (readExact count (some limit) front s).2 := by
  fun_induction readExact count (some limit) front s with
  | case1 front s => exact .refl s
  | case2 count front s hcount next hread | case4 count front s hcount report next hread
  | case5 count front s hcount next hread =>
      have hnext := Punctual.read_until count limit s
      rwa [hread] at hnext
  | case3 count front s hcount b text next hread ih =>
      have hnext := Punctual.read_until count limit s
      rw [hread] at hnext
      exact hnext.trans ih

end ByteStream
end SyslogIntake

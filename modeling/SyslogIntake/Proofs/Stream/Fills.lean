import SyslogIntake.Stream.Inquiry

/-!
# Reads that a question takes

A question about the front of a stream reads only after a look has not settled it, and then it
reads once and looks again.  So the buffer never holds more than what a look wants more octets
behind, and what one read adds to that.  What a question leaves behind was shown to the look that
settled it, or is there at the end of the stream.

**Results.**

* `fill_wanting` : each read follows a look that wants more octets, and adds to what it left;
* `held_le` : how much the buffer holds while a question is asked;
* `growing_le` : how often something is read while it is asked;
* `run_answered`, `run_buffer` : what the buffer holds when it is answered, or given up.
-/

namespace SyslogIntake

/-- What a buffer holds in front of a read that fills it, and behind the read. -/
structure Fill where
  before : Octets
  after : Octets
  deriving DecidableEq, Repr

/-- All that a buffer holds at first, in front of each read and behind it. -/
def Fill.held (buffer : Octets) (fills : List Fill) : List Octets :=
  buffer :: fills.flatMap fun fill => [fill.before, fill.after]

theorem Fill.mem_held
    {buffer text : Octets} {fills : List Fill} :
    text ∈ held buffer fills ↔
      text = buffer ∨ ∃ fill ∈ fills, text = fill.before ∨ text = fill.after := by
  simp [held]

/-- Whether a read brought anything. -/
def Fill.grows (fill : Fill) : Bool :=
  fill.before.length < fill.after.length

namespace Inquiry

variable {s a σ : Type} [ByteStream σ]

/-- The reads that a question takes, one after the other. -/
def fills (inquiry : Inquiry s a) (limit : Option Nat) (state : s) (l : Lookahead σ) :
    List Fill :=
  match inquiry.look state l.buffer with
  | .settled _ _ => []
  | .wanting state rest =>
      match _h : (l.leaving rest).fillMore limit with
      | (.octets (_ :: _), next) => ⟨rest, next.buffer⟩ :: fills inquiry limit state next
      | (_, next) => [⟨rest, next.buffer⟩]
termination_by ByteStream.backlog l.inner
decreasing_by
  have hlt := Lookahead.fillMore_inner _h
  exact hlt

end Inquiry

variable {s a σ : Type} [ByteStream σ]

theorem Lookahead.prefix_fillMore
    (limit : Option Nat)
    (l : Lookahead σ) :
    l.buffer <+: (l.fillMore limit).2.buffer := by
  unfold fillMore
  split
  · exact List.prefix_rfl
  split
  · exact List.prefix_append _ _
  · exact List.prefix_rfl

/-- What filling brings stands behind what was there; if it brings nothing, only that stays. -/
theorem Lookahead.buffer_fillMore
    {limit : Option Nat} {l next : Lookahead σ} {delivery : Delivery}
    (h : l.fillMore limit = (delivery, next)) :
    (∃ b piece, delivery = .octets (b :: piece) ∧ next.buffer = l.buffer ++ b :: piece) ∨
      ((∀ b piece, delivery ≠ .octets (b :: piece)) ∧ next.buffer = l.buffer) := by
  unfold fillMore at h
  split at h
  · cases h
    exact Or.inr ⟨by simp, rfl⟩
  split at h
  · rename_i text inner hread
    cases h
    cases text with
    | nil => exact Or.inr ⟨by simp, List.append_nil _⟩
    | cons b piece => exact Or.inl ⟨b, piece, rfl, rfl⟩
  · rename_i other inner hother hread
    cases h
    exact Or.inr ⟨fun b piece => hother (b :: piece), rfl⟩

namespace Inquiry

variable {inquiry : Inquiry s a} {limit : Option Nat} {state : s} {l : Lookahead σ}

/-- Each read follows a look that wants more octets, and adds to what the look left. -/
theorem fill_wanting
    (keep : s → Prop)
    (hkeeps : ∀ {state text next rest}, keep state →
      inquiry.look state text = .wanting next rest → keep next)
    (hkeep : keep state)
    {fill : Fill}
    (h : fill ∈ inquiry.fills limit state l) :
    fill.before <+: fill.after ∧
      ∃ state text next, keep state ∧ inquiry.look state text = .wanting next fill.before := by
  fun_induction fills inquiry limit state l with
  | case1 => cases h
  | case2 state l after rest hlook b piece filled hfill ih =>
      rcases List.mem_cons.1 h with rfl | hlater
      · have hgrown := (l.leaving rest).prefix_fillMore limit
        rw [hfill] at hgrown
        exact ⟨hgrown, state, l.buffer, after, hkeep, hlook⟩
      · exact ih (hkeeps hkeep hlook) hlater
  | case3 state l after rest hlook delivery filled hother hfill =>
      obtain rfl := List.mem_singleton.1 h
      have hgrown := (l.leaving rest).prefix_fillMore limit
      rw [hfill] at hgrown
      exact ⟨hgrown, state, l.buffer, after, hkeep, hlook⟩

/-- What a buffer holds is short, if what a look leaves is, and if a read adds little. -/
theorem held_le
    (keep : s → Prop)
    {short most : Nat}
    (hkeeps : ∀ {state text next rest}, keep state →
      inquiry.look state text = .wanting next rest → keep next ∧ rest.length ≤ short)
    (hkeep : keep state)
    (hreads : ∀ fill ∈ inquiry.fills limit state l, fill.after.length ≤ fill.before.length + most)
    {text : Octets}
    (h : text ∈ Fill.held l.buffer (inquiry.fills limit state l)) :
    text.length ≤ max l.buffer.length (short + most) := by
  rcases Fill.mem_held.1 h with rfl | ⟨fill, hfill, htext⟩
  · exact Nat.le_max_left ..
  · obtain ⟨-, before, shown, next, hbefore, hlook⟩ :=
      fill_wanting keep (fun hkeep hlook => (hkeeps hkeep hlook).1) hkeep hfill
    have hshort := (hkeeps hbefore hlook).2
    have hadded := hreads fill hfill
    refine Nat.le_trans ?_ (Nat.le_max_right ..)
    rcases htext with rfl | rfl
    · omega
    · omega

/--
If looks that want more octets leave all of them, and are shown few, then only so many reads
bring something: each of them makes the buffer longer.
-/
theorem growing_le
    {short : Nat}
    (hwants : ∀ {state text next rest}, inquiry.look state text = .wanting next rest →
      rest = text ∧ text.length ≤ short) :
    (inquiry.fills limit state l).countP Fill.grows ≤ short + 1 - l.buffer.length := by
  fun_induction fills inquiry limit state l with
  | case1 => exact Nat.zero_le _
  | case2 state l after rest hlook b piece filled hfill ih =>
      obtain ⟨rfl, hshort⟩ := hwants hlook
      obtain ⟨c, more, -, hbuffer⟩ | ⟨hnothing, -⟩ := Lookahead.buffer_fillMore hfill
      · have hlonger : l.buffer.length < filled.buffer.length := by
          rw [hbuffer, List.length_append, List.length_cons]
          exact Nat.lt_add_of_pos_right (Nat.succ_pos _)
        have hgrows : Fill.grows ⟨l.buffer, filled.buffer⟩ = true := decide_eq_true hlonger
        rw [List.countP_cons_of_pos hgrows]
        omega
      · exact absurd rfl (hnothing b piece)
  | case3 state l after rest hlook delivery filled hother hfill =>
      obtain ⟨b, piece, rfl, -⟩ | ⟨-, hbuffer⟩ := Lookahead.buffer_fillMore hfill
      · exact absurd rfl (hother b piece)
      · have hsame : Fill.grows ⟨rest, filled.buffer⟩ = false := by
          rw [hbuffer]
          exact decide_eq_false (Nat.lt_irrefl _)
        rw [List.countP_singleton, hsame]
        exact Nat.zero_le _

theorem fills_of_more
    {next : s} {rest piece : Octets} {b : UInt8} {filled : Lookahead σ}
    (hlook : inquiry.look state l.buffer = .wanting next rest)
    (hfill : (l.leaving rest).fillMore limit = (.octets (b :: piece), filled)) :
    inquiry.fills limit state l =
      ⟨rest, filled.buffer⟩ :: inquiry.fills limit next filled := by
  rw [fills, hlook]
  dsimp only
  split
  · rename_i hagain
    rw [hfill] at hagain
    cases hagain
    rfl
  · rename_i hother hagain
    rw [hfill] at hagain
    cases hagain
    exact absurd rfl (hother b piece)

theorem fills_of_last
    {next : s} {rest : Octets} {delivery : Delivery} {filled : Lookahead σ}
    (hlook : inquiry.look state l.buffer = .wanting next rest)
    (hfill : (l.leaving rest).fillMore limit = (delivery, filled))
    (hlast : ∀ b piece, delivery ≠ .octets (b :: piece)) :
    inquiry.fills limit state l = [⟨rest, filled.buffer⟩] := by
  rw [fills, hlook]
  dsimp only
  split
  · rename_i hagain
    rw [hfill] at hagain
    cases hagain
    exact absurd rfl (hlast _ _)
  · rename_i hagain
    rw [hfill] at hagain
    cases hagain
    rfl

/-- What the last read leaves is held. -/
theorem mem_held_of_last
    {next : s} {rest : Octets} {delivery : Delivery} {filled : Lookahead σ}
    (hlook : inquiry.look state l.buffer = .wanting next rest)
    (hfill : (l.leaving rest).fillMore limit = (delivery, filled))
    (hlast : ∀ b piece, delivery ≠ .octets (b :: piece)) :
    filled.buffer ∈ Fill.held l.buffer (inquiry.fills limit state l) := by
  rw [fills_of_last hlook hfill hlast]
  exact Fill.mem_held.2 (Or.inr ⟨_, List.mem_singleton_self _, Or.inr rfl⟩)

/-- What answers a question was read ahead, or it is what there is at the end of the stream. -/
theorem run_answered
    {answer : a} {next : Lookahead σ}
    (h : inquiry.run limit state l = (.answer answer, next)) :
    (∃ text, (text = l.buffer ∨ ∃ fill ∈ inquiry.fills limit state l, text = fill.after) ∧
        ∃ state, inquiry.look state text = .settled answer next.buffer) ∨
      ∃ fill ∈ inquiry.fills limit state l, ∃ state,
        inquiry.finish state fill.after = (answer, next.buffer) := by
  fun_induction run inquiry limit state l with
  | case1 state l found rest hlook =>
      cases h
      exact Or.inl ⟨l.buffer, Or.inl rfl, state, hlook⟩
  | case2 state l after rest hlook filled hfill found left hfinish =>
      cases h
      rw [fills_of_last hlook hfill (by simp)]
      exact Or.inr ⟨_, List.mem_singleton_self _, after, hfinish⟩
  | case3 state l after rest hlook b piece filled hfill ih =>
      rw [fills_of_more hlook hfill]
      rcases ih h with ⟨text, hshown, hsettled⟩ | ⟨fill, hmem, hfinished⟩
      · refine Or.inl ⟨text, Or.inr ?_, hsettled⟩
        rcases hshown with rfl | ⟨fill, hmem, rfl⟩
        · exact ⟨_, List.mem_cons_self, rfl⟩
        · exact ⟨fill, List.mem_cons_of_mem _ hmem, rfl⟩
      · exact Or.inr ⟨fill, List.mem_cons_of_mem _ hmem, hfinished⟩
  | case4 => cases h
  | case5 => cases h

/-- When a question is answered or given up, no more is left than was held. -/
theorem run_buffer
    {cost : a → Nat}
    (takes : inquiry.Takes cost)
    (limit : Option Nat)
    (state : s)
    (l : Lookahead σ) :
    ∃ text ∈ Fill.held l.buffer (inquiry.fills limit state l),
      (inquiry.run limit state l).2.buffer.length ≤ text.length := by
  fun_induction run inquiry limit state l with
  | case1 state l found rest hlook =>
      have hle := takes.settled hlook
      exact ⟨l.buffer, Fill.mem_held.2 (Or.inl rfl), Nat.le_trans (Nat.le_add_right ..) hle⟩
  | case2 state l after rest hlook filled hfill found left hfinish =>
      have hle := takes.finished after filled.buffer
      rw [hfinish] at hle
      exact ⟨filled.buffer, mem_held_of_last hlook hfill (by simp),
        Nat.le_trans (Nat.le_add_right ..) hle⟩
  | case3 state l after rest hlook b piece filled hfill ih =>
      obtain ⟨text, hheld, hle⟩ := ih
      refine ⟨text, Fill.mem_held.2 (Or.inr ?_), hle⟩
      rw [fills_of_more hlook hfill]
      rcases Fill.mem_held.1 hheld with rfl | ⟨fill, hmem, htext⟩
      · exact ⟨_, List.mem_cons_self, Or.inr rfl⟩
      · exact ⟨fill, List.mem_cons_of_mem _ hmem, htext⟩
  | case4 state l after rest hlook report filled hfill =>
      exact ⟨filled.buffer, mem_held_of_last hlook hfill (by simp), Nat.le_refl _⟩
  | case5 state l after rest hlook filled hfill =>
      exact ⟨filled.buffer, mem_held_of_last hlook hfill (by simp), Nat.le_refl _⟩

end Inquiry
end SyslogIntake

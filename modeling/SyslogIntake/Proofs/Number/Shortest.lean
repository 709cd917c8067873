import SyslogIntake.Number.Shortest
import SyslogIntake.Proofs.Number.Rounding

/-!
# The shortest digits stand for their number

The digits of a number are looked for among the multiples of powers of ten next to it.  A
multiple is taken only if the number stands for it; and among those of seventeen digits there
is one, for they are closer to each other than the midpoints to the neighbours are to the number.

**Results.**

* `holds_iff` : a multiple lies in the span of a number exactly if the number stands for it;
* `position_le` : the place of the first digit is not too high;
* `covers_neighbour` : seventeen digits are enough;
* `shortest_covers` : the shortest digits of a number are a value that it stands for.
-/

namespace SyslogIntake
namespace Binary64

/-- A span has the ends of the values that a number stands for, and the number itself. -/
structure Span.Describes (s : Span) (m : Nat) (e : Int) : Prop where
  unit : 0 < s.unit
  low : (s.low : ℚ) / s.unit = lowest m e * 2 ^ e
  value : (s.value : ℚ) / s.unit = m * 2 ^ e
  high : (s.high : ℚ) / s.unit = (m + 1 / 2) * 2 ^ e
  closed : s.closed = true ↔ m % 2 = 0

/-- The parts of a span.  The power of two is a variable, so that nothing here works it out. -/
theorem span_eq
    {m half below size unit : Nat} {e : Int}
    (hhalf : Nat.pow 2 52 = half)
    (hbelow : (if m = half ∧ leastExponent < e then 1 else 2) = below)
    (hquot : quotient 1 (e - 2) = (size, unit)) :
    span m e =
      ⟨(4 * m - below) * size, 4 * m * size, (4 * m + 2) * size, unit, m % 2 = 0⟩ := by
  rw [span, hhalf]
  simp only [hbelow, hquot]

theorem span_describes
    {m : Nat}
    (hm : 0 < m)
    (e : Int) :
    (span m e).Describes m e := by
  obtain ⟨below, hbelow⟩ :
      ∃ below, (if m = 2 ^ 52 ∧ leastExponent < e then 1 else 2) = below := ⟨_, rfl⟩
  obtain ⟨size, unit, hquot⟩ : ∃ size unit, quotient 1 (e - 2) = (size, unit) := ⟨_, _, rfl⟩
  obtain ⟨hunit, hsize⟩ := quotient_spec 1 (e - 2)
  simp only [hquot, Nat.cast_one, one_mul] at hunit hsize
  rw [zpow_sub₀ (by norm_num)] at hsize
  norm_num at hsize
  have hle : below ≤ 4 * m := by
    rw [← hbelow]
    split_ifs <;> omega
  have hend : (4 * m - below : ℚ) = 4 * lowest m e := by
    rw [lowest, ← hbelow]
    split_ifs <;> push_cast <;> ring
  rw [span_eq Nat.pow_eq hbelow hquot]
  constructor
  · exact hunit
  · dsimp only
    rw [Nat.cast_mul, Nat.cast_sub hle, mul_div_assoc, hsize]
    push_cast
    rw [hend]
    ring
  · dsimp only
    rw [Nat.cast_mul, mul_div_assoc, hsize]
    push_cast
    ring
  · dsimp only
    rw [Nat.cast_mul, mul_div_assoc, hsize]
    push_cast
    ring
  · simp

section Describes

variable {s : Span} {m : Nat} {e : Int}

/-- A multiple of a power of ten is compared with the ends of a span after all of them have been
made whole. -/
theorem exists_holds
    (hunit : 0 < s.unit)
    (n : Nat) (grid : Int) :
    ∃ whole scale : Nat, 0 < scale ∧ (whole : ℚ) / (s.unit * scale) = n * 10 ^ grid ∧
      s.holds n grid =
        if s.closed then decide (s.low * scale ≤ whole) && decide (whole ≤ s.high * scale)
        else decide (s.low * scale < whole) && decide (whole < s.high * scale) := by
  have hunitq : (s.unit : ℚ) ≠ 0 := by exact_mod_cast hunit.ne'
  cases grid with
  | ofNat g =>
      refine ⟨n * Nat.pow 10 g * s.unit, 1, Nat.one_pos, ?_, ?_⟩
      · simp [Nat.pow_eq, hunitq]
      · simp only [Span.holds, Nat.mul_one]
  | negSucc g =>
      refine ⟨n * s.unit, Nat.pow 10 (g + 1), ?_, ?_, ?_⟩
      · rw [Nat.pow_eq]
        exact Nat.pow_pos (by decide)
      · simp only [Nat.pow_eq, zpow_negSucc]
        push_cast
        field_simp
      · simp only [Span.holds]

/-- A multiple lies in the span of a number exactly if the number stands for it. -/
theorem holds_iff
    (h : s.Describes m e)
    (n : Nat) (grid : Int) :
    s.holds n grid = true ↔ Covers m e (n * 10 ^ grid) := by
  obtain ⟨whole, scale, hscale, hvalue, hholds⟩ := exists_holds h.unit n grid
  have hunitq : (0 : ℚ) < s.unit := by exact_mod_cast h.unit
  have hscaleq : (0 : ℚ) < scale := by exact_mod_cast hscale
  have hle : ∀ a b : Nat, (a : ℚ) / s.unit ≤ b / (s.unit * scale) ↔ a * scale ≤ b := by
    intro a b
    rw [← mul_div_mul_right (a : ℚ) s.unit hscaleq.ne',
      div_le_div_iff_of_pos_right (mul_pos hunitq hscaleq)]
    exact_mod_cast Iff.rfl
  have hge : ∀ a b : Nat, (b / (s.unit * scale) : ℚ) ≤ a / s.unit ↔ b ≤ a * scale := by
    intro a b
    rw [← mul_div_mul_right (a : ℚ) s.unit hscaleq.ne',
      div_le_div_iff_of_pos_right (mul_pos hunitq hscaleq)]
    exact_mod_cast Iff.rfl
  rw [hholds, Covers, ← h.low, ← h.high, ← hvalue]
  by_cases heven : m % 2 = 0
  · rw [if_pos (h.closed.2 heven), if_pos heven, hle, hge]
    simp
  · rw [if_neg (mt h.closed.1 heven), if_neg heven, lt_iff_lt_of_le_iff_le (hge _ _),
      lt_iff_lt_of_le_iff_le (hle _ _)]
    simp

theorem around_bounds
    (h : s.Describes m e)
    (tie : Tie) (grid : Int) :
    ((s.around tie grid).1 : ℚ) * 10 ^ grid ≤ m * 2 ^ e ∧
      (m * 2 ^ e : ℚ) < ((s.around tie grid).1 + 1) * 10 ^ grid := by
  obtain ⟨n, d, hd, hquot, haround⟩ : ∃ n d : Nat, 0 < d ∧
      (n / d : ℚ) * 10 ^ grid = s.value / s.unit ∧ (s.around tie grid).1 = n / d := by
    have hunitq : (s.unit : ℚ) ≠ 0 := by exact_mod_cast h.unit.ne'
    cases grid with
    | ofNat g =>
        refine ⟨s.value, s.unit * Nat.pow 10 g, ?_, ?_, rfl⟩
        · rw [Nat.pow_eq]
          exact Nat.mul_pos h.unit (Nat.pow_pos (by decide))
        · simp only [Nat.pow_eq, Int.ofNat_eq_natCast, zpow_natCast]
          push_cast
          field_simp
    | negSucc g =>
        refine ⟨s.value * Nat.pow 10 (g + 1), s.unit, h.unit, ?_, rfl⟩
        simp only [Nat.pow_eq, zpow_negSucc]
        push_cast
        field_simp
  have hpos : (0 : ℚ) < 10 ^ grid := zpow_pos (by norm_num) grid
  have hdq : (0 : ℚ) < d := by exact_mod_cast hd
  have hsplit := Nat.div_add_mod n d
  have hrest := Nat.mod_lt n hd
  rw [haround, ← h.value, ← hquot]
  constructor
  · gcongr
    rw [le_div_iff₀ hdq, mul_comm]
    exact_mod_cast Nat.mul_div_le n d
  · gcongr
    rw [div_lt_iff₀ hdq, mul_comm]
    exact_mod_cast (show n < d * (n / d + 1) by rw [Nat.mul_add]; omega)

end Describes

theorem position_le
    {value unit : Nat}
    (hvalue : 0 < value) (hunit : 0 < unit) :
    (10 : ℚ) ^ (position value unit - 1) ≤ value / unit := by
  obtain ⟨a, ha, hlow, -⟩ := Numeral.exists_length_digits (show 2 ≤ 10 by decide) hvalue
  obtain ⟨b, hb, -, hhigh⟩ := Numeral.exists_length_digits (show 2 ≤ 10 by decide) hunit
  have hunitq : (0 : ℚ) < unit := by exact_mod_cast hunit
  have hlowq : (10 : ℚ) ^ a ≤ value := by exact_mod_cast hlow
  have hhighq : (unit : ℚ) ≤ 10 ^ (b + 1) := by exact_mod_cast hhigh.le
  -- The numbers of digits fix the place up to one.
  have hguess : (10 : ℚ) ^ ((a : Int) - b - 1) ≤ value / unit := by
    rw [le_div_iff₀ hunitq]
    calc (10 : ℚ) ^ ((a : Int) - b - 1) * unit
        ≤ 10 ^ ((a : Int) - b - 1) * 10 ^ (b + 1) := by gcongr
      _ = 10 ^ a := by
          rw [← zpow_natCast, ← zpow_natCast, ← zpow_add₀ (by norm_num)]
          congr 1
          push_cast
          ring
      _ ≤ value := hlowq
  have hlength : ((Numeral.digits 10 value).length : Int) - (Numeral.digits 10 unit).length =
      a - b := by
    omega
  have hstep : ∀ {reached : Bool} {guess : Int},
      (reached = true → (10 : ℚ) ^ guess ≤ value / unit) →
      (10 : ℚ) ^ (guess - 1) ≤ value / unit →
      (10 : ℚ) ^ ((if reached then guess + 1 else guess) - 1) ≤ value / unit := by
    intro reached guess hreached hbelow
    cases reached with
    | true => simpa using hreached rfl
    | false => exact hbelow
  simp only [position, hlength]
  refine hstep ?_ hguess
  generalize (a : Int) - b = guess
  intro h
  rw [le_div_iff₀ hunitq]
  cases guess with
  | ofNat g =>
      have hle := of_decide_eq_true h
      rw [Nat.pow_eq, Nat.mul_comm] at hle
      rw [Int.ofNat_eq_natCast, zpow_natCast]
      exact_mod_cast hle
  | negSucc g =>
      have hle := of_decide_eq_true h
      rw [Nat.pow_eq] at hle
      rw [zpow_negSucc, inv_mul_le_iff₀ (by positivity), mul_comm]
      exact_mod_cast hle

section Search

variable {s : Span} {m : Nat} {e : Int} {tie : Tie}

/-- Multiples that are closer to each other than seventeen digits say are close enough: one of the
two next to a number is a value that it stands for. -/
theorem covers_neighbour
    {lower grid : ℚ}
    (hfits : Fits m e) (hgrid : 0 < grid)
    (hlow : lower * grid ≤ m * 2 ^ e) (hhigh : (m * 2 ^ e : ℚ) < (lower + 1) * grid)
    (hfine : 10 ^ 16 * grid ≤ m * 2 ^ e) :
    Covers m e (lower * grid) ∨ Covers m e ((lower + 1) * grid) := by
  have hpos := zpow_pos_two e
  have hmantissa : (m : ℚ) + 1 ≤ 2 ^ 53 := by exact_mod_cast hfits.mantissa
  have hhalf : grid / 2 < 1 / 2 * 2 ^ e := by nlinarith
  have hbelow : lowest m e * 2 ^ e < m * 2 ^ e - grid / 2 := by
    rw [lowest]
    split_ifs with hpower
    · -- A power of two: the neighbour below is half as far, and the number is half as large.
      have hm : (m : ℚ) = 2 ^ 52 := by exact_mod_cast hpower.1
      rw [hm] at hfine ⊢
      linarith
    · linarith
  have hlowest := (le_lowest m e).2
  by_cases hnear : m * 2 ^ e - lower * grid ≤ grid / 2
  · left
    refine covers_of_between ?_ ?_
    · linarith
    · linarith
  · right
    refine covers_of_between ?_ ?_
    · have : lowest m e * 2 ^ e < m * 2 ^ e := by gcongr
      linarith
    · linarith

/-- The nearest multiple is one that the span holds. -/
theorem holds_of_nearest
    {n : Nat} {grid : Int}
    (h : s.nearest tie grid = some n) :
    s.holds n grid = true := by
  rw [Span.nearest] at h
  exact List.find?_some (p := fun n => s.holds n grid) h

/-- The search ends with digits that lie in the span, if there are some for one of the counts. -/
theorem shortest_spec
    {place : Int} {counts : List Nat}
    (hsome : ∃ count ∈ counts, (s.nearest tie (place - count)).isSome = true) :
    ∃ (n : Nat) (grid : Int), s.holds n grid = true ∧
      ((s.shortest tie place counts).digits * 10 ^ (s.shortest tie place counts).exponent : ℚ) =
        n * 10 ^ grid := by
  induction counts with
  | nil =>
      obtain ⟨count, hcount, -⟩ := hsome
      cases hcount
  | cons count later ih =>
      cases hnear : s.nearest tie (place - count) with
      | none =>
          have hlater : ∃ count ∈ later, (s.nearest tie (place - count)).isSome = true := by
            obtain ⟨other, hother, hfound⟩ := hsome
            rcases List.mem_cons.1 hother with rfl | hmore
            · rw [hnear] at hfound
              cases hfound
            · exact ⟨other, hmore, hfound⟩
          simp only [Span.shortest, hnear]
          exact ih hlater
      | some n =>
          refine ⟨n, place - count, holds_of_nearest hnear, ?_⟩
          simp only [Span.shortest, hnear]
          split_ifs with hten
          · have hwhole : (n : ℚ) = (n / 10 : Nat) * 10 := by
              exact_mod_cast (Nat.div_mul_cancel (Nat.dvd_of_mod_eq_zero hten)).symm
            rw [hwhole, zpow_add_one₀ (by norm_num)]
            ring
          · rfl

/-- The shortest digits of a number are a value that it stands for. -/
theorem shortest_covers
    (hfits : Fits m e) (hm : 0 < m)
    (tie : Tie) :
    Covers m e ((shortest tie m e).digits * 10 ^ (shortest tie m e).exponent) := by
  have hdescribes := span_describes hm e
  have hpos := zpow_pos_two e
  have hone : (1 : ℚ) ≤ m := by exact_mod_cast hm
  have hvalue : 0 < (span m e).value := by
    rcases Nat.eq_zero_or_pos (span m e).value with hzero | hvalue
    · have hnone := hdescribes.value
      rw [hzero, Nat.cast_zero, zero_div] at hnone
      have : (0 : ℚ) < m * 2 ^ e := by positivity
      linarith
    · exact hvalue
  obtain ⟨place, hplace⟩ : ∃ place, position (span m e).value (span m e).unit = place := ⟨_, rfl⟩
  have hseventeen : ((span m e).nearest tie (place - (17 : Nat))).isSome = true := by
    by_contra hnone
    obtain ⟨hlower, hupper⟩ := nearest_of_none (Option.not_isSome_iff_eq_none.1 hnone)
    obtain ⟨hbelow, habove⟩ := around_bounds hdescribes tie (place - (17 : Nat))
    have hgrid : (0 : ℚ) < 10 ^ (place - (17 : Nat) : Int) := zpow_pos (by norm_num) _
    have hfine : 10 ^ 16 * (10 : ℚ) ^ (place - (17 : Nat) : Int) ≤ m * 2 ^ e := by
      rw [← hdescribes.value, ← zpow_natCast, ← zpow_add₀ (by norm_num)]
      refine le_trans (le_of_eq ?_) (position_le hvalue hdescribes.unit)
      rw [hplace]
      congr 1
      push_cast
      ring
    rcases covers_neighbour hfits hgrid hbelow habove hfine with hcovers | hcovers
    · rw [(holds_iff hdescribes _ _).2 hcovers] at hlower
      cases hlower
    · rw [(holds_iff hdescribes _ _).2 (by push_cast; exact hcovers)] at hupper
      cases hupper
  obtain ⟨n, grid, hholds, hsame⟩ :=
    @shortest_spec (span m e) tie place ((List.range 17).map (· + 1)) ⟨17, by simp, hseventeen⟩
  rw [shortest, hplace, hsame]
  exact (holds_iff hdescribes n grid).1 hholds

end Search

end Binary64
end SyslogIntake

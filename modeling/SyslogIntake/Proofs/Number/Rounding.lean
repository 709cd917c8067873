import Mathlib.Algebra.Order.Field.Power
import Mathlib.Tactic.FieldSimp
import Mathlib.Tactic.Linarith
import Mathlib.Tactic.Positivity
import Mathlib.Tactic.Ring
import SyslogIntake.Number.Binary64
import SyslogIntake.Proofs.Text.Numerals

/-!
# Rounding to a number

A number stands for the values between the midpoints to its neighbours, and for the midpoints
too if its mantissa is even.  A quotient is rounded to the number that stands for it, and so is
a decimal; what comes out of rounding is in canonical form, so that two numbers are equal if
they have the same value.

**Results.**

* `exponent_of_covers` : a value has the exponent of the number that stands for it, but for a
  value right below a power of two;
* `ofQuotient_of_covers` : a quotient is rounded to the number that stands for it;
* `ofDecimal_of_covers` : so is a decimal;
* `ofDecimal_canonical` : the number of a decimal is in canonical form.
-/

namespace SyslogIntake
namespace Binary64

/-- The mantissa and the exponent of a number in canonical form: the mantissa has all its bits,
unless the exponent is the least one. -/
structure Fits (m : Nat) (e : Int) : Prop where
  mantissa : m < 2 ^ 53
  least : leastExponent ≤ e
  most : e ≤ mostExponent
  full : 2 ^ 52 ≤ m ∨ e = leastExponent

/-- A number in canonical form. -/
def Canonical : Binary64 → Prop
  | .finite _ m e => Fits m e
  | .infinite _ | .nan => True

/-- The lower end of the values that a mantissa stands for: the neighbour below a power of two is
only half as far. -/
def lowest (m : Nat) (e : Int) : ℚ :=
  if m = 2 ^ 52 ∧ leastExponent < e then m - 1 / 4 else m - 1 / 2

/-- A number stands for a value: the value lies between the midpoints to its neighbours. -/
def Covers (m : Nat) (e : Int) (q : ℚ) : Prop :=
  if m % 2 = 0 then lowest m e * 2 ^ e ≤ q ∧ q ≤ (m + 1 / 2) * 2 ^ e
  else lowest m e * 2 ^ e < q ∧ q < (m + 1 / 2) * 2 ^ e

/-- The exponent at which a value has a mantissa of fifty-three bits, or the least exponent. -/
structure HasExponent (q : ℚ) (e : Int) : Prop where
  least : leastExponent ≤ e
  high : q < 2 ^ 53 * 2 ^ e
  low : 2 ^ 52 * 2 ^ e ≤ q ∨ e = leastExponent

theorem zpow_pos_two
    (e : Int) :
    (0 : ℚ) < 2 ^ e :=
  zpow_pos (by norm_num) e

theorem le_lowest
    (m : Nat) (e : Int) :
    (m : ℚ) - 1 / 2 ≤ lowest m e ∧ lowest m e < m := by
  rw [lowest]
  split_ifs
  · constructor <;> linarith
  · constructor <;> linarith

/-- What a number stands for lies between the ends, whether or not these count. -/
theorem Covers.bounds
    {m : Nat} {e : Int} {q : ℚ}
    (h : Covers m e q) :
    lowest m e * 2 ^ e ≤ q ∧ q ≤ (m + 1 / 2) * 2 ^ e := by
  rw [Covers] at h
  split_ifs at h
  · exact h
  · exact ⟨h.1.le, h.2.le⟩

/-- What lies strictly between the ends is stood for. -/
theorem covers_of_between
    {m : Nat} {e : Int} {q : ℚ}
    (hlow : lowest m e * 2 ^ e < q) (hhigh : q < (m + 1 / 2) * 2 ^ e) :
    Covers m e q := by
  rw [Covers]
  split_ifs
  · exact ⟨hlow.le, hhigh.le⟩
  · exact ⟨hlow, hhigh⟩

theorem quotient_spec
    (m : Nat) (e : Int) :
    0 < (quotient m e).2 ∧ ((quotient m e).1 : ℚ) / (quotient m e).2 = m * 2 ^ e := by
  cases e with
  | ofNat e =>
      simp [quotient, Nat.pow_eq]
  | negSucc e =>
      simp [quotient, Nat.pow_eq, zpow_negSucc, div_eq_mul_inv]

theorem scaled_spec
    {d : Nat}
    (hd : 0 < d)
    (n : Nat) (e : Int) :
    0 < (scaled n d e).2 ∧ ((scaled n d e).1 : ℚ) / (scaled n d e).2 = n / d / 2 ^ e := by
  cases e with
  | ofNat e =>
      simp [scaled, Nat.pow_eq, hd, div_div]
  | negSucc e =>
      simp [scaled, Nat.pow_eq, hd, zpow_negSucc]
      ring

/-- The logarithms of two numbers fix the size of their quotient up to a factor of four. -/
theorem quotient_bounds
    {n d : Nat}
    (hn : 0 < n) (hd : 0 < d) :
    (2 : ℚ) ^ ((n.log2 : Int) - d.log2 - 1) < n / d ∧
      (n / d : ℚ) < 2 ^ ((n.log2 : Int) - d.log2 + 1) := by
  have hnlow : ((2 : ℚ) ^ n.log2) ≤ n := by exact_mod_cast Nat.log2_self_le hn.ne'
  have hnhigh : (n : ℚ) < 2 ^ (n.log2 + 1) := by exact_mod_cast Nat.lt_log2_self
  have hdlow : ((2 : ℚ) ^ d.log2) ≤ d := by exact_mod_cast Nat.log2_self_le hd.ne'
  have hdhigh : (d : ℚ) < 2 ^ (d.log2 + 1) := by exact_mod_cast Nat.lt_log2_self
  have hdpos : (0 : ℚ) < d := by exact_mod_cast hd
  constructor
  · rw [lt_div_iff₀ hdpos]
    calc (2 : ℚ) ^ ((n.log2 : Int) - d.log2 - 1) * d
        < 2 ^ ((n.log2 : Int) - d.log2 - 1) * 2 ^ (d.log2 + 1) := by gcongr
      _ = 2 ^ n.log2 := by
          rw [← zpow_natCast, ← zpow_natCast, ← zpow_add₀ (by norm_num)]
          congr 1
          push_cast
          ring
      _ ≤ n := hnlow
  · rw [div_lt_iff₀ hdpos]
    calc (n : ℚ) < 2 ^ (n.log2 + 1) := hnhigh
      _ = 2 ^ ((n.log2 : Int) - d.log2 + 1) * 2 ^ d.log2 := by
          rw [← zpow_natCast, ← zpow_natCast, ← zpow_add₀ (by norm_num)]
          congr 1
          push_cast
          ring
      _ ≤ 2 ^ ((n.log2 : Int) - d.log2 + 1) * d := by gcongr

/-- A number with a rounded mantissa; one that has a bit too many is halved. -/
def ofRounded (negative : Bool) (m : Nat) (e : Int) : Binary64 :=
  if m = 2 ^ 53 then
    if mostExponent < e + 1 then .infinite negative else .finite negative (2 ^ 52) (e + 1)
  else
    if mostExponent < e then .infinite negative else .finite negative m e

/-- A quotient is rounded at an exponent that is found in two steps.  The bounds of a mantissa
are variables, so that nothing here works them out. -/
theorem ofQuotient_steps
    {n d a b c k full half : Nat} {guess e : Int}
    (hfull : Nat.pow 2 53 = full) (hhalf : Nat.pow 2 52 = half)
    (hn : 0 < n)
    (hguess : (n.log2 : Int) - d.log2 - 53 = guess)
    (hfirst : scaled n d guess = (a, b))
    (he : max (if a < b * full then guess else guess + 1) leastExponent = e)
    (hlast : scaled n d e = (c, k))
    (negative : Bool) :
    ofQuotient negative n d =
      if roundHalfEven c k = full then
        if mostExponent < e + 1 then .infinite negative else .finite negative half (e + 1)
      else
        if mostExponent < e then .infinite negative
        else .finite negative (roundHalfEven c k) e := by
  rw [ofQuotient, if_neg hn.ne', hfull, hhalf, hguess]
  simp only [hfirst, he, hlast]
  split_ifs <;> rfl

theorem exists_ofQuotient
    {n d : Nat}
    (hn : 0 < n) (hd : 0 < d)
    (negative : Bool) :
    ∃ (a b : Nat) (e : Int), 0 < b ∧ (a / b : ℚ) = n / d / 2 ^ e ∧ HasExponent (n / d) e ∧
      ofQuotient negative n d = ofRounded negative (roundHalfEven a b) e := by
  obtain ⟨hlow, hhigh⟩ := quotient_bounds hn hd
  -- `guess` is the exponent up to one: the mantissa has fifty-three bits or one more.
  obtain ⟨guess, hguess⟩ : ∃ guess, (n.log2 : Int) - d.log2 - 53 = guess := ⟨_, rfl⟩
  rw [show (n.log2 : Int) - d.log2 - 1 = 52 + guess by omega, zpow_add₀ (by norm_num)] at hlow
  rw [show (n.log2 : Int) - d.log2 + 1 = 54 + guess by omega, zpow_add₀ (by norm_num)] at hhigh
  norm_num at hlow hhigh
  obtain ⟨a, b, hfirst⟩ : ∃ a b, scaled n d guess = (a, b) := ⟨_, _, rfl⟩
  obtain ⟨hbpos, hquot⟩ := scaled_spec hd n guess
  simp only [hfirst] at hbpos hquot
  have hfit : a < b * 2 ^ 53 ↔ (n / d : ℚ) < 2 ^ 53 * 2 ^ guess := by
    rw [← div_lt_iff₀ (zpow_pos_two guess), ← hquot, div_lt_iff₀ (by exact_mod_cast hbpos),
      mul_comm (2 ^ 53 : ℚ)]
    norm_cast
  obtain ⟨raised, hraised⟩ : ∃ raised, (if a < b * 2 ^ 53 then guess else guess + 1) = raised :=
    ⟨_, rfl⟩
  have hexact : (n / d : ℚ) < 2 ^ 53 * 2 ^ raised ∧ (2 : ℚ) ^ 52 * 2 ^ raised ≤ n / d := by
    rw [← hraised]
    split_ifs with hsmall
    · constructor
      · exact hfit.1 hsmall
      · norm_num
        exact hlow.le
    · have hlarge := not_lt.1 (mt hfit.2 hsmall)
      rw [zpow_add_one₀ (by norm_num)]
      constructor <;> linarith
  obtain ⟨e, he⟩ : ∃ e, max raised leastExponent = e := ⟨_, rfl⟩
  obtain ⟨c, k, hlast⟩ : ∃ c k, scaled n d e = (c, k) := ⟨_, _, rfl⟩
  obtain ⟨hkpos, hscaled⟩ := scaled_spec hd n e
  simp only [hlast] at hkpos hscaled
  refine ⟨c, k, e, hkpos, hscaled, ?_, ?_⟩
  · have hmono : (2 : ℚ) ^ raised ≤ 2 ^ e := zpow_le_zpow_right₀ (by norm_num) (by omega)
    refine ⟨by omega, by linarith [hexact.1], ?_⟩
    rcases le_total leastExponent raised with hle | hle
    · left
      rw [← he, max_eq_left hle]
      exact hexact.2
    · right
      rw [← he, max_eq_right hle]
  · exact ofQuotient_steps Nat.pow_eq Nat.pow_eq hn hguess hfirst (by rw [hraised, he]) hlast
      negative

/-- A quotient is rounded to the whole number that it is near to. -/
theorem roundHalfEven_of_near
    {a b k : Nat}
    (hb : 0 < b)
    (hlow : (k : ℚ) - 1 / 2 ≤ a / b) (hhigh : (a / b : ℚ) ≤ k + 1 / 2)
    (htie : k % 2 = 0 ∨ (k : ℚ) - 1 / 2 < a / b ∧ (a / b : ℚ) < k + 1 / 2) :
    roundHalfEven a b = k := by
  have hbq : (0 : ℚ) < b := by exact_mod_cast hb
  rw [le_div_iff₀ hbq] at hlow
  rw [div_le_iff₀ hbq] at hhigh
  rw [lt_div_iff₀ hbq, div_lt_iff₀ hbq] at htie
  have hlow' : 2 * (k * b) ≤ 2 * a + b := by
    have : (2 * (k * b) : ℚ) ≤ 2 * a + b := by linarith
    exact_mod_cast this
  have hhigh' : 2 * a ≤ 2 * (k * b) + b := by
    have : (2 * a : ℚ) ≤ 2 * (k * b) + b := by linarith
    exact_mod_cast this
  have htie' : k % 2 = 0 ∨ 2 * (k * b) < 2 * a + b ∧ 2 * a < 2 * (k * b) + b := by
    refine htie.imp id fun ⟨hbelow, habove⟩ => ⟨?_, ?_⟩
    · have : (2 * (k * b) : ℚ) < 2 * a + b := by linarith
      exact_mod_cast this
    · have : (2 * a : ℚ) < 2 * (k * b) + b := by linarith
      exact_mod_cast this
  have hsplit := Nat.div_add_mod a b
  have hrest := Nat.mod_lt a hb
  have hcases : k = a / b ∨ k = a / b + 1 := by
    have hle : k ≤ a / b + 1 := by
      by_contra hgt
      have : b * (a / b + 2) ≤ k * b := by
        rw [mul_comm k b]
        exact Nat.mul_le_mul_left b (by omega)
      rw [Nat.mul_add] at this
      omega
    have hge : a / b ≤ k := by
      by_contra hlt
      have : b * (k + 1) ≤ b * (a / b) := Nat.mul_le_mul_left b (by omega)
      rw [Nat.mul_add, mul_comm b k] at this
      omega
    omega
  rw [roundHalfEven]
  rcases hcases with hk | hk
  · have hmul : k * b = b * (a / b) := by rw [hk, mul_comm]
    split_ifs <;> omega
  · have hmul : k * b = b * (a / b) + b := by rw [hk]; ring
    split_ifs <;> omega

section Covers

variable {m : Nat} {e : Int} {q : ℚ}

/-- A value has the exponent of the number that stands for it, unless it is right below the power
of two that the number is. -/
theorem exponent_of_covers
    {held : Int}
    (hfits : Fits m e) (hcovers : Covers m e q) (hheld : HasExponent q held) :
    held = e ∨ held = e - 1 ∧ m = 2 ^ 52 ∧ (2 ^ 53 - 1 / 2) * 2 ^ held ≤ q := by
  obtain ⟨hlow, hhigh⟩ := hcovers.bounds
  have hpos := zpow_pos_two e
  have hmantissa : (m : ℚ) + 1 ≤ 2 ^ 53 := by exact_mod_cast hfits.mantissa
  rcases lt_trichotomy held e with hbelow | hsame | habove
  · right
    have hfull : 2 ^ 52 ≤ m := by
      rcases hfits.full with hfull | hleast
      · exact hfull
      · have := hheld.least
        omega
    have hfullq : (2 : ℚ) ^ 52 ≤ m := by exact_mod_cast hfull
    have hleast : leastExponent < e := lt_of_le_of_lt hheld.least hbelow
    have hpred : (2 : ℚ) ^ e = 2 * 2 ^ (e - 1) := by
      rw [zpow_sub_one₀ (by norm_num)]
      ring
    have hmono : (2 : ℚ) ^ held ≤ 2 ^ (e - 1) :=
      zpow_le_zpow_right₀ (by norm_num) (by omega)
    have hupper : q < 2 ^ 52 * 2 ^ e := by linarith [hheld.high]
    have hm : m = 2 ^ 52 := by
      have hle := (le_lowest m e).1
      have hscaled : lowest m e < 2 ^ 52 := lt_of_mul_lt_mul_right (hlow.trans_lt hupper) hpos.le
      have hlt : (m : ℚ) < 2 ^ 52 + 1 := by linarith
      have hlt' : m < 2 ^ 52 + 1 := by exact_mod_cast hlt
      omega
    have hend : lowest m e = 2 ^ 52 - 1 / 4 := by
      rw [lowest, if_pos ⟨hm, hleast⟩, hm]
      norm_num
    have hheldeq : held = e - 1 := by
      by_contra hne
      have hmono' : (2 : ℚ) ^ held ≤ 2 ^ (e - 1 - 1) :=
        zpow_le_zpow_right₀ (by norm_num) (by omega)
      rw [zpow_sub_one₀ (by norm_num) (e - 1)] at hmono'
      rw [hend] at hlow
      have := hheld.high
      have := zpow_pos_two (e - 1)
      linarith
    refine ⟨hheldeq, hm, ?_⟩
    rw [hheldeq]
    rw [hend] at hlow
    linarith
  · exact Or.inl hsame
  · exfalso
    have hmono : (2 : ℚ) ^ (e + 1) ≤ 2 ^ held := zpow_le_zpow_right₀ (by norm_num) (by omega)
    rw [zpow_add_one₀ (by norm_num)] at hmono
    have hfull : (2 : ℚ) ^ 52 * 2 ^ held ≤ q := by
      refine hheld.low.resolve_right ?_
      have := hfits.least
      omega
    have hupper : (m + 1 / 2 : ℚ) * 2 ^ e < 2 ^ 53 * 2 ^ e := by
      gcongr
      linarith
    linarith

/-- A quotient is rounded to the number that stands for it. -/
theorem ofQuotient_of_covers
    {n d : Nat}
    (hfits : Fits m e) (hm : 0 < m) (hd : 0 < d) (hcovers : Covers m e (n / d))
    (negative : Bool) :
    ofQuotient negative n d = .finite negative m e := by
  obtain ⟨hlow, hhigh⟩ := hcovers.bounds
  have hpos := zpow_pos_two e
  have hone : (1 : ℚ) ≤ m := by exact_mod_cast hm
  have hn : 0 < n := by
    rcases Nat.eq_zero_or_pos n with rfl | hn
    · have hle := (le_lowest m e).1
      have : 0 < lowest m e * 2 ^ e := mul_pos (by linarith) hpos
      simp at hlow
      linarith
    · exact hn
  obtain ⟨a, b, held, hb, hquot, hheld, hround⟩ := exists_ofQuotient hn hd negative
  rw [hround]
  have hmantissa := hfits.mantissa
  rcases exponent_of_covers hfits hcovers hheld with rfl | ⟨hprev, hpower, hnear⟩
  · have hrounded : roundHalfEven a b = m := by
      have hle := (le_lowest m held).1
      refine roundHalfEven_of_near hb ?_ ?_ ?_
      · rw [hquot, le_div_iff₀ hpos]
        exact (mul_le_mul_of_nonneg_right hle hpos.le).trans hlow
      · rwa [hquot, div_le_iff₀ hpos]
      · rw [hquot, lt_div_iff₀ hpos, div_lt_iff₀ hpos]
        by_cases heven : m % 2 = 0
        · exact Or.inl heven
        · rw [Covers, if_neg heven] at hcovers
          exact Or.inr ⟨(mul_le_mul_of_nonneg_right hle hpos.le).trans_lt hcovers.1, hcovers.2⟩
    rw [hrounded, ofRounded, if_neg hmantissa.ne]
    exact if_neg (not_lt.2 hfits.most)
  · have hposheld := zpow_pos_two held
    have hrounded : roundHalfEven a b = 2 ^ 53 := by
      refine roundHalfEven_of_near hb ?_ ?_ (Or.inl (by norm_num))
      · rw [hquot, le_div_iff₀ hposheld]
        exact_mod_cast hnear
      · rw [hquot, div_le_iff₀ hposheld]
        have := hheld.high
        push_cast
        linarith
    rw [hrounded, ofRounded, if_pos rfl, hpower, hprev, Int.sub_add_cancel]
    exact if_neg (not_lt.2 hfits.most)

end Covers

theorem ofRounded_canonical
    {m : Nat} {e : Int}
    (hm : m ≤ 2 ^ 53) (hleast : leastExponent ≤ e) (hfull : 2 ^ 52 ≤ m ∨ e = leastExponent)
    (negative : Bool) :
    (ofRounded negative m e).Canonical := by
  rw [ofRounded]
  by_cases hcarry : m = 2 ^ 53
  · rw [if_pos hcarry]
    split_ifs with hmost
    · trivial
    · exact ⟨by norm_num, by omega, by omega, Or.inl (le_refl _)⟩
  · rw [if_neg hcarry]
    split_ifs with hmost
    · trivial
    · exact ⟨by omega, hleast, by omega, hfull⟩

theorem zero_canonical
    (negative : Bool) :
    (zero negative).Canonical :=
  ⟨by norm_num, le_refl _, by decide, Or.inr rfl⟩

theorem ofQuotient_canonical
    {d : Nat}
    (hd : 0 < d)
    (negative : Bool) (n : Nat) :
    (ofQuotient negative n d).Canonical := by
  rcases Nat.eq_zero_or_pos n with rfl | hn
  · exact zero_canonical negative
  · obtain ⟨a, b, e, hb, hquot, he, hround⟩ := exists_ofQuotient hn hd negative
    have hpos := zpow_pos_two e
    have hbq : (0 : ℚ) < b := by exact_mod_cast hb
    obtain ⟨hge, hle⟩ := roundHalfEven_le a b
    rw [hround]
    refine ofRounded_canonical ?_ he.least ?_ negative
    · have hlt : (a / b : ℚ) < 2 ^ 53 := by
        rw [hquot, div_lt_iff₀ hpos]
        exact he.high
      rw [div_lt_iff₀ hbq] at hlt
      have hlt' : a < 2 ^ 53 * b := by exact_mod_cast hlt
      have := (Nat.div_lt_iff_lt_mul hb).2 hlt'
      omega
    · refine he.low.imp ?_ id
      intro hlow
      have hfull : (2 : ℚ) ^ 52 ≤ a / b := by
        rw [hquot, le_div_iff₀ hpos]
        exact hlow
      rw [le_div_iff₀ hbq] at hfull
      have hfull' : 2 ^ 52 * b ≤ a := by exact_mod_cast hfull
      have := (Nat.le_div_iff_mul_le hb).2 hfull'
      omega

/-! Decimals. -/

/-- How many digits a number has, together with an exponent, says between which powers of ten it
lies. -/
theorem decimal_bounds
    {n : Nat}
    (hn : 0 < n)
    (exponent : Int) :
    (10 : ℚ) ^ ((Numeral.digits 10 n).length + exponent - 1) ≤ n * 10 ^ exponent ∧
      (n * 10 ^ exponent : ℚ) < 10 ^ ((Numeral.digits 10 n).length + exponent) := by
  obtain ⟨k, hlength, hge, hlt⟩ := Numeral.exists_length_digits (show 2 ≤ 10 by decide) hn
  have hgeq : (10 : ℚ) ^ k ≤ n := by exact_mod_cast hge
  have hltq : (n : ℚ) < 10 ^ (k + 1) := by exact_mod_cast hlt
  have hpos : (0 : ℚ) < 10 ^ exponent := zpow_pos (by norm_num) exponent
  rw [hlength]
  constructor
  · rw [show ((k + 1 : Nat) : Int) + exponent - 1 = k + exponent by omega,
      zpow_add₀ (by norm_num), zpow_natCast]
    gcongr
  · rw [zpow_add₀ (by norm_num), zpow_natCast]
    gcongr

theorem ofDecimal_eq
    {digits : Nat} {exponent : Int}
    (hdigits : 0 < digits)
    (hlow : -330 ≤ (Numeral.digits 10 digits).length + exponent)
    (hhigh : (Numeral.digits 10 digits).length + exponent ≤ 330)
    (negative : Bool) :
    ∃ n d : Nat, 0 < d ∧ (n / d : ℚ) = digits * 10 ^ exponent ∧
      ofDecimal negative digits exponent = ofQuotient negative n d := by
  have hzero : ¬ (digits = 0 ∨ ((Numeral.digits 10 digits).length : Int) + exponent < -330) := by
    omega
  have hmost : ¬ 330 < ((Numeral.digits 10 digits).length : Int) + exponent := by omega
  simp only [ofDecimal, if_neg hzero, if_neg hmost]
  cases exponent with
  | ofNat e =>
      exact ⟨digits * Nat.pow 10 e, 1, Nat.one_pos, by simp [Nat.pow_eq], rfl⟩
  | negSucc e =>
      refine ⟨digits, Nat.pow 10 (e + 1), ?_, ?_, rfl⟩
      · rw [Nat.pow_eq]
        exact Nat.pow_pos (by decide)
      · simp [Nat.pow_eq, zpow_negSucc, div_eq_mul_inv]

/-- Every power of two that is the size of a number lies between these powers of ten. -/
theorem two_zpow_le_ten_zpow :
    (2 : ℚ) ^ (1075 : Int) ≤ 10 ^ (330 : Int) := by
  calc (2 : ℚ) ^ (1075 : Int) ≤ 2 ^ (33 * 33 : Int) :=
        zpow_le_zpow_right₀ (by norm_num) (by norm_num)
    _ = (2 ^ (33 : Int)) ^ (33 : Int) := zpow_mul 2 33 33
    _ ≤ (10 ^ (10 : Int)) ^ (33 : Int) :=
        zpow_le_zpow_left₀ (by norm_num) (by norm_num) (by norm_num)
    _ = 10 ^ (10 * 33 : Int) := (zpow_mul 10 10 33).symm
    _ = 10 ^ (330 : Int) := by congr 1

/-- What a number stands for is neither too small nor too large to be worked out. -/
theorem magnitude_of_covers
    {m digits : Nat} {e exponent : Int}
    (hfits : Fits m e) (hm : 0 < m) (hcovers : Covers m e (digits * 10 ^ exponent)) :
    0 < digits ∧ -330 ≤ (Numeral.digits 10 digits).length + exponent ∧
      (Numeral.digits 10 digits).length + exponent ≤ 330 := by
  obtain ⟨hlow, hhigh⟩ := hcovers.bounds
  have hone : (1 : ℚ) ≤ m := by exact_mod_cast hm
  have hmantissa : (m : ℚ) + 1 ≤ 2 ^ 53 := by exact_mod_cast hfits.mantissa
  have hend := (le_lowest m e).1
  have hpos := zpow_pos_two e
  have hsmall : (2 : ℚ) ^ (-1074 : Int) ≤ 2 ^ e := zpow_le_zpow_right₀ (by norm_num) hfits.least
  have hlarge : (2 : ℚ) ^ e ≤ 2 ^ (971 : Int) := zpow_le_zpow_right₀ (by norm_num) hfits.most
  have habove : (2 : ℚ) ^ (-1075 : Int) ≤ digits * 10 ^ exponent := by
    calc (2 : ℚ) ^ (-1075 : Int) = 1 / 2 * 2 ^ (-1074 : Int) := by
          rw [show (-1075 : Int) = -1 + -1074 by norm_num, zpow_add₀ (by norm_num), zpow_neg_one,
            one_div]
      _ ≤ 1 / 2 * 2 ^ e := by gcongr
      _ ≤ lowest m e * 2 ^ e := by gcongr; linarith
      _ ≤ digits * 10 ^ exponent := hlow
  have hbelow : (digits * 10 ^ exponent : ℚ) < 2 ^ (1024 : Int) := by
    calc (digits * 10 ^ exponent : ℚ) ≤ (m + 1 / 2) * 2 ^ e := hhigh
      _ < 2 ^ 53 * 2 ^ e := by gcongr; linarith
      _ ≤ 2 ^ 53 * 2 ^ (971 : Int) := by gcongr
      _ = 2 ^ (1024 : Int) := by
          rw [show (1024 : Int) = (53 : Nat) + 971 by norm_num, zpow_add₀ (by norm_num),
            zpow_natCast]
  have hdigits : 0 < digits := by
    rcases Nat.eq_zero_or_pos digits with rfl | hdigits
    · rw [Nat.cast_zero, zero_mul] at habove
      exact absurd habove (not_le.2 (zpow_pos_two _))
    · exact hdigits
  obtain ⟨hge, hlt⟩ := decimal_bounds hdigits exponent
  refine ⟨hdigits, ?_, ?_⟩
  · by_contra hfar
    have hmono : (10 : ℚ) ^ ((Numeral.digits 10 digits).length + exponent) ≤ 10 ^ (-330 : Int) :=
      zpow_le_zpow_right₀ (by norm_num) (by omega)
    have hpowers : (10 : ℚ) ^ (-330 : Int) ≤ 2 ^ (-1075 : Int) := by
      rw [zpow_neg, zpow_neg]
      exact inv_anti₀ (zpow_pos_two _) two_zpow_le_ten_zpow
    exact absurd (habove.trans_lt hlt) (not_lt.2 (hmono.trans hpowers))
  · by_contra hfar
    have hmono : (10 : ℚ) ^ (330 : Int) ≤
        10 ^ ((Numeral.digits 10 digits).length + exponent - 1) :=
      zpow_le_zpow_right₀ (by norm_num) (by omega)
    have hpowers : (2 : ℚ) ^ (1024 : Int) ≤ 10 ^ (330 : Int) :=
      (zpow_le_zpow_right₀ (by norm_num) (by decide)).trans two_zpow_le_ten_zpow
    exact absurd (hge.trans_lt hbelow) (not_lt.2 (hpowers.trans hmono))

theorem ofDecimal_of_covers
    {m digits : Nat} {e exponent : Int}
    (hfits : Fits m e) (hm : 0 < m) (hcovers : Covers m e (digits * 10 ^ exponent))
    (negative : Bool) :
    ofDecimal negative digits exponent = .finite negative m e := by
  obtain ⟨hdigits, hlow, hhigh⟩ := magnitude_of_covers hfits hm hcovers
  obtain ⟨n, d, hd, hquot, hround⟩ := ofDecimal_eq hdigits hlow hhigh negative
  rw [hround]
  exact ofQuotient_of_covers hfits hm hd (by rwa [hquot]) negative

theorem ofDecimal_canonical
    (negative : Bool) (digits : Nat) (exponent : Int) :
    (ofDecimal negative digits exponent).Canonical := by
  by_cases hzero : digits = 0 ∨ ((Numeral.digits 10 digits).length : Int) + exponent < -330
  · simp only [ofDecimal, if_pos hzero]
    exact zero_canonical negative
  · by_cases hmost : 330 < ((Numeral.digits 10 digits).length : Int) + exponent
    · simp only [ofDecimal, if_neg hzero, if_pos hmost]
      trivial
    · obtain ⟨n, d, hd, -, hround⟩ :=
        @ofDecimal_eq digits exponent (by omega) (by omega) (by omega) negative
      rw [hround]
      exact ofQuotient_canonical hd negative n

end Binary64
end SyslogIntake

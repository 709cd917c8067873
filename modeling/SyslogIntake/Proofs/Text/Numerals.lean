import Mathlib.Algebra.Group.Nat.Defs
import Mathlib.Data.List.TakeWhile
import SyslogIntake.Text.Numeral

/-!
# Digits and their values

The digits of a number are read back as that number, in base ten and in base sixteen.  Digits
are found in front of a text that begins with none, and how many there are bounds the number
and is bounded by it.

**Results.**

* `value_digits` : the digits of a number have its value;
* `read_digits`, `readUpTo_digits` : the text of a number is read as it;
* `takeWhile_digits`, `dropWhile_digits` : digits end where a text begins with none;
* `length_digits_le` : a number below a power of the base has as many digits as the power says;
* `digits_mul_pow` : a number times a power of the base has that many zeros behind its digits;
* `read_padded` : zeros in front of a number do not change it;
* `readSigned_signed` : a number with a sign is read from its text if sixty-four bits suffice;
* `head?_digits` : only zero begins with a zero.
-/

namespace SyslogIntake
namespace Numeral

/-- A text that does not go on with a digit of a base. -/
def Ends (base : Nat) (rest : List Char) : Prop :=
  ∀ c ∈ rest.head?, isDigit base c = false

theorem ends_nil
    (base : Nat) :
    Ends base [] := by
  simp [Ends]

theorem ends_cons
    {base : Nat} {c : Char}
    (h : isDigit base c = false)
    (rest : List Char) :
    Ends base (c :: rest) := by
  simpa [Ends] using h

theorem toNat_digit
    {value : Nat}
    (h : value < 16) :
    (digit value).toNat = if value < 10 then 48 + value else 87 + value := by
  have hall : ∀ value < 16,
      (digit value).toNat = if value < 10 then 48 + value else 87 + value := by
    decide
  exact hall value h

theorem digitValue?_digit
    {base value : Nat}
    (hbase : base ≤ 16) (hvalue : value < base) :
    digitValue? base (digit value) = some value := by
  have hcode := toNat_digit (Nat.lt_of_lt_of_le hvalue hbase)
  by_cases hten : value < 10
  · rw [if_pos hten] at hcode
    rw [digitValue?, hcode]
    simp only [show 48 ≤ 48 + value ∧ 48 + value ≤ 57 by omega, and_self, if_true]
    simp [hvalue]
  · rw [if_neg hten] at hcode
    rw [digitValue?, hcode]
    simp only [show ¬ (48 ≤ 87 + value ∧ 87 + value ≤ 57) by omega,
      show 97 ≤ 87 + value ∧ 87 + value ≤ 102 by omega, and_self, if_true, if_false]
    simp [hvalue]

theorem isDigit_digit
    {base value : Nat}
    (hbase : base ≤ 16) (hvalue : value < base) :
    isDigit base (digit value) = true := by
  rw [isDigit, digitValue?_digit hbase hvalue]
  rfl

/-- The digits of base ten stand next to each other. -/
theorem range_of_isDigit
    {c : Char}
    (h : isDigit 10 c = true) :
    48 ≤ c.toNat ∧ c.toNat ≤ 57 := by
  simp only [isDigit, digitValue?] at h
  split_ifs at h <;> simp_all <;> omega

theorem isDigit_mono
    {base larger : Nat} {c : Char}
    (hle : base ≤ larger)
    (h : isDigit base c = true) :
    isDigit larger c = true := by
  simp only [isDigit, digitValue?] at h ⊢
  split_ifs at h ⊢ <;> simp_all <;> omega

theorem digits_of_lt
    {base n : Nat}
    (h : n < base) :
    digits base n = [digit n] := by
  rw [digits, dif_neg (by omega)]

theorem digits_of_le
    {base n : Nat}
    (hbase : 2 ≤ base) (h : base ≤ n) :
    digits base n = digits base (n / base) ++ [digit (n % base)] := by
  rw [digits, dif_pos ⟨hbase, h⟩]

section Base

variable {base : Nat}
variable (hlow : 2 ≤ base) (hhigh : base ≤ 16)

include hlow hhigh

theorem isDigit_of_mem_digits
    (n : Nat) :
    ∀ c ∈ digits base n, isDigit base c = true := by
  induction n using Nat.strong_induction_on with
  | _ n ih =>
      by_cases hsmall : n < base
      · rw [digits_of_lt hsmall]
        simpa using isDigit_digit hhigh hsmall
      · rw [digits_of_le hlow (Nat.le_of_not_lt hsmall)]
        intro c hc
        rcases List.mem_append.1 hc with hfront | hlast
        · exact ih (n / base) (Nat.div_lt_self (by omega) (by omega)) c hfront
        · rw [List.mem_singleton.1 hlast]
          exact isDigit_digit hhigh (Nat.mod_lt n (by omega))

theorem value_digits
    (n : Nat) :
    value base (digits base n) = n := by
  induction n using Nat.strong_induction_on with
  | _ n ih =>
      by_cases hsmall : n < base
      · rw [digits_of_lt hsmall, value]
        simp [digitValue?_digit hhigh hsmall]
      · have hfront := ih (n / base) (Nat.div_lt_self (by omega) (by omega))
        have hlast := digitValue?_digit hhigh (Nat.mod_lt n (show 0 < base by omega))
        rw [value] at hfront ⊢
        rw [digits_of_le hlow (Nat.le_of_not_lt hsmall), List.foldl_append, hfront]
        simp only [List.foldl_cons, List.foldl_nil, hlast, Option.getD_some]
        exact Nat.div_add_mod' n base

/-- Digits in front of a text that begins with none are all found. -/
theorem takeWhile_digits
    {rest : List Char}
    (hrest : Ends base rest)
    (n : Nat) :
    (digits base n ++ rest).takeWhile (isDigit base) = digits base n := by
  rw [List.takeWhile_append_of_pos (isDigit_of_mem_digits hlow hhigh n)]
  cases rest with
  | nil =>
      simp
  | cons c rest =>
      have hc := hrest c rfl
      simp [hc]

theorem dropWhile_digits
    {rest : List Char}
    (hrest : Ends base rest)
    (n : Nat) :
    (digits base n ++ rest).dropWhile (isDigit base) = rest := by
  rw [List.dropWhile_append_of_pos (isDigit_of_mem_digits hlow hhigh n)]
  cases rest with
  | nil =>
      rfl
  | cons c rest =>
      have hc := hrest c rfl
      simp [hc]

theorem read_digits
    (n : Nat) :
    read base (digits base n) = some n := by
  have hall : (digits base n).all (isDigit base) = true := by
    rw [List.all_eq_true]
    exact isDigit_of_mem_digits hlow hhigh n
  rw [read, if_pos ⟨digits_ne_nil base n, hall⟩, value_digits hlow hhigh]

omit hhigh in
/-- A number below a power of the base has at most as many digits as the power says. -/
theorem length_digits_le
    {n exponent : Nat}
    (hpos : 0 < exponent) (h : n < base ^ exponent) :
    (digits base n).length ≤ exponent := by
  induction exponent generalizing n with
  | zero =>
      omega
  | succ exponent ih =>
      by_cases hsmall : n < base
      · simp [digits_of_lt hsmall]
      · rw [digits_of_le hlow (Nat.le_of_not_lt hsmall), List.length_append,
          List.length_singleton, Nat.add_le_add_iff_right]
        have hfront : n / base < base ^ exponent := by
          rwa [Nat.div_lt_iff_lt_mul (by omega), ← Nat.pow_succ]
        refine ih ?_ hfront
        by_contra hzero
        have hnone : exponent = 0 := by omega
        subst hnone
        simp only [Nat.zero_add, Nat.pow_one] at h
        exact hsmall h

omit hhigh in
/-- How many digits a number has says between which powers of the base it lies. -/
theorem exists_length_digits
    {n : Nat}
    (hn : 0 < n) :
    ∃ k, (digits base n).length = k + 1 ∧ base ^ k ≤ n ∧ n < base ^ (k + 1) := by
  induction n using Nat.strong_induction_on with
  | _ n ih =>
      by_cases hsmall : n < base
      · exact ⟨0, by simp [digits_of_lt hsmall], by rwa [Nat.pow_zero], by simpa using hsmall⟩
      · have hle := Nat.le_of_not_lt hsmall
        have hbase : 0 < base := by omega
        obtain ⟨k, hlength, hge, hlt⟩ :=
          ih (n / base) (Nat.div_lt_self hn (by omega)) (Nat.div_pos hle hbase)
        refine ⟨k + 1, ?_, ?_, ?_⟩
        · rw [digits_of_le hlow hle, List.length_append, hlength, List.length_singleton]
        · rw [Nat.pow_succ]
          exact (Nat.le_div_iff_mul_le hbase).1 hge
        · rw [Nat.pow_succ]
          exact (Nat.div_lt_iff_lt_mul hbase).1 hlt

omit hhigh in
/-- A number times a power of the base has that many zeros behind its digits. -/
theorem digits_mul_pow
    {n : Nat}
    (hn : 0 < n) (k : Nat) :
    digits base (n * base ^ k) = digits base n ++ List.replicate k '0' := by
  induction k with
  | zero =>
      simp
  | succ k ih =>
      have hbase : 0 < base := by omega
      have hle : base ≤ n * base ^ (k + 1) := by
        rw [Nat.pow_succ, ← Nat.mul_assoc]
        exact Nat.le_mul_of_pos_left base (Nat.mul_pos hn (Nat.pow_pos hbase))
      rw [digits_of_le hlow hle, Nat.pow_succ, ← Nat.mul_assoc, Nat.mul_div_cancel _ hbase,
        Nat.mul_mod_left, ih, List.replicate_succ', ← List.append_assoc]
      rfl

/-- Zeros in front of the digits of a number do not change what is read. -/
theorem read_padded
    (k n : Nat) :
    read base (List.replicate k '0' ++ digits base n) = some n := by
  have hzero : digitValue? base '0' = some 0 := digitValue?_digit hhigh (show 0 < base by omega)
  have hvalue : value base (List.replicate k '0' ++ digits base n) = n := by
    induction k with
    | zero =>
        simpa using value_digits hlow hhigh n
    | succ k ih =>
        simpa [List.replicate_succ, value, hzero] using ih
  have hall : (List.replicate k '0' ++ digits base n).all (isDigit base) = true := by
    rw [List.all_eq_true]
    intro c hc
    rcases List.mem_append.1 hc with hpad | hdigit
    · rw [List.eq_of_mem_replicate hpad, isDigit, hzero]
      rfl
    · exact isDigit_of_mem_digits hlow hhigh n c hdigit
  have hsome : List.replicate k '0' ++ digits base n ≠ [] := by
    simp [digits_ne_nil]
  rw [read, if_pos ⟨hsome, hall⟩, hvalue]

theorem head?_digits
    {n : Nat}
    (h : (digits base n).head? = some '0') :
    n = 0 := by
  induction n using Nat.strong_induction_on with
  | _ n ih =>
      by_cases hsmall : n < base
      · have hzero : digitValue? base (digit 0) = some 0 := digitValue?_digit hhigh (by omega)
        rw [digits_of_lt hsmall, List.head?_cons, Option.some.injEq] at h
        have hdigit := digitValue?_digit hhigh hsmall
        rw [h] at hdigit
        exact Option.some.inj (hdigit.symm.trans hzero)
      · have hhead : (digits base (n / base)).head? = some '0' := by
          obtain ⟨c, more, hfront⟩ := List.exists_cons_of_ne_nil (digits_ne_nil base (n / base))
          rw [digits_of_le hlow (Nat.le_of_not_lt hsmall), hfront] at h
          rw [hfront]
          exact h
        have hfront := ih (n / base) (Nat.div_lt_self (by omega) (by omega)) hhead
        have hpos : 0 < n / base := Nat.div_pos (Nat.le_of_not_lt hsmall) (by omega)
        omega

end Base

/-- What is read is a text of digits. -/
theorem isDigit_of_read
    {base n : Nat} {text : List Char}
    (h : read base text = some n) :
    text ≠ [] ∧ ∀ c ∈ text, isDigit base c = true := by
  rw [read] at h
  split_ifs at h with htext
  exact ⟨htext.1, List.all_eq_true.1 htext.2⟩

theorem ne_cons_of_digits
    {sign : Char}
    (hsign : isDigit 10 sign = false)
    (n : Nat) (rest : List Char) :
    digits 10 n ≠ sign :: rest := by
  intro hrest
  have hdigit := isDigit_of_mem_digits (show 2 ≤ 10 by decide) (by decide) n sign
    (by simp [hrest])
  exact absurd hdigit (by simp [hsign])

/-- Digits are read up to a limit as their number, if it is below the limit. -/
theorem readUpTo_digits_eq
    (most n : Nat) :
    readUpTo most (digits 10 n) = if n ≤ most then some n else none := by
  have hread := read_digits (show 2 ≤ 10 by decide) (by decide) n
  unfold readUpTo
  split
  · rename_i rest hrest
    exact absurd hrest (ne_cons_of_digits (by decide) n rest)
  · simp [hread, Option.filter]

theorem readUpTo_digits
    {most n : Nat}
    (h : n ≤ most) :
    readUpTo most (digits 10 n) = some n := by
  rw [readUpTo_digits_eq, if_pos h]

/-! Numbers with a sign. -/

def signChars (negative : Bool) : List Char :=
  if negative then ['-'] else []

/-- Whether sixty-four bits with a sign are enough for a number. -/
abbrev Fits64 (n : Int) : Prop :=
  -9223372036854775808 ≤ n ∧ n ≤ 9223372036854775807

/-- The text of a number is its sign and its digits. -/
theorem toList_signed
    (n : Int) :
    (signed n).toList = signChars (n < 0) ++ digits 10 n.natAbs := by
  cases n with
  | ofNat n =>
      simp [signed, decimal, signChars]
  | negSucc n =>
      simp [signed, decimal, signChars, Int.negSucc_lt_zero]

/-- A sign in front of digits makes the text of a number; there is no zero below zero. -/
theorem exists_signed
    {negative : Bool} {k : Nat}
    (hk : negative = true → 0 < k) :
    ∃ n, (signed n).toList = signChars negative ++ digits 10 k := by
  cases negative with
  | true =>
      refine ⟨-k, ?_⟩
      rw [toList_signed]
      simp [hk rfl]
  | false =>
      have hsign : ¬ (k : Int) < 0 := by omega
      refine ⟨k, ?_⟩
      rw [toList_signed]
      simp [hsign]

/-- A number with a sign is digits behind an optional sign, and sixty-four bits are enough. -/
theorem exists_of_readSigned
    {text : List Char} {n : Int}
    (h : readSigned text = some n) :
    Fits64 n ∧ ∃ body k, read 10 body = some k ∧
      (text = '-' :: body ∨ text = '+' :: body ∨ text = body) := by
  rw [readSigned.eq_def] at h
  split at h
  · rename_i body
    simp only [Option.map_eq_some_iff, Option.bind_eq_bind, Option.bind_eq_some_iff,
      Option.pure_def, Option.some.injEq, Option.filter_eq_some_iff, decide_eq_true_eq] at h
    obtain ⟨_, ⟨k, ⟨hread, hle⟩, rfl⟩, rfl⟩ := h
    exact ⟨by constructor <;> omega, body, k, hread, Or.inl rfl⟩
  · simp only [readUpTo, Option.map_eq_some_iff, Option.bind_eq_bind, Option.bind_eq_some_iff,
      Option.pure_def, Option.some.injEq, Option.filter_eq_some_iff, decide_eq_true_eq] at h
    obtain ⟨_, ⟨k, ⟨hread, hle⟩, rfl⟩, rfl⟩ := h
    refine ⟨by constructor <;> omega, ?_⟩
    split at hread
    · rename_i body _
      exact ⟨body, k, hread, Or.inr (Or.inl rfl)⟩
    · exact ⟨text, k, hread, Or.inr (Or.inr rfl)⟩

/-- A text with a point is not read as a whole number. -/
theorem readSigned_eq_none_of_point
    {text : List Char}
    (hpoint : '.' ∈ text) :
    readSigned text = none := by
  cases h : readSigned text with
  | none =>
      rfl
  | some n =>
      obtain ⟨-, body, k, hread, hbody⟩ := exists_of_readSigned h
      have hin : '.' ∈ body := by rcases hbody with rfl | rfl | rfl <;> simpa using hpoint
      exact absurd ((isDigit_of_read hread).2 '.' hin) (by decide)

/-- The text of a number is read as it if sixty-four bits are enough, and else not at all. -/
theorem readSigned_signed
    (n : Int) :
    readSigned (signed n).toList = if Fits64 n then some n else none := by
  rw [toList_signed]
  by_cases hneg : n < 0
  · have hread := read_digits (show 2 ≤ 10 by decide) (by decide) n.natAbs
    have hvalue : -(n.natAbs : Int) = n := by omega
    have hfits : n.natAbs ≤ 9223372036854775808 ↔ Fits64 n := by
      constructor
      · intro hle
        constructor <;> omega
      · rintro ⟨hlow, -⟩
        omega
    simp only [signChars, hneg, decide_true, if_true, List.singleton_append, readSigned, hread,
      Option.filter, decide_eq_true_eq, hfits]
    split_ifs
    · exact congrArg some hvalue
    · rfl
  · have hvalue : (n.natAbs : Int) = n := by omega
    have hfits : n.natAbs ≤ 9223372036854775807 ↔ Fits64 n := by
      constructor
      · intro hle
        constructor <;> omega
      · rintro ⟨-, hhigh⟩
        omega
    simp only [signChars, hneg, decide_false, Bool.false_eq_true, if_false, List.nil_append]
    rw [readSigned.eq_def]
    split
    · rename_i rest hrest
      exact absurd hrest (ne_cons_of_digits (by decide) n.natAbs rest)
    · simp only [readUpTo_digits_eq, hfits]
      split_ifs
      · exact congrArg some hvalue
      · rfl

end Numeral
end SyslogIntake

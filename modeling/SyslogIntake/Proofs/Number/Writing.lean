import Mathlib.Data.Bool.AllAny
import SyslogIntake.Proofs.Number.Shortest

/-!
# The text of a number is read as it

The text of a number has a sign if the number is negative, and then digits with the point in its
place.  Its digits are a value that the number stands for, so they are read as the number again.

**Results.**

* `readPlain_whole`, `readPlain_point` : digits, without or with a point, are read as a decimal;
* `readPlain_positional` : digits with the point in its place are read as their value;
* `read_plain` : the text of a number in canonical form is read as the number;
* `numeric_of_read` : a number has no other characters than those that can stand in one;
* `plain_point_or_signed` : the text of a number has a point or is that of a whole number;
* `read_canonical` : what is read is in canonical form.
-/

namespace SyslogIntake
namespace Binary64

open Numeral

theorem readPlain_whole
    {text : List Char} {n : Nat}
    (hread : Numeral.read 10 text = some n)
    (negative : Bool) :
    readPlain negative text = some (ofDecimal negative n 0) := by
  obtain ⟨-, hdigits⟩ := isDigit_of_read hread
  have htake : text.takeWhile (isDigit 10) = text := List.takeWhile_eq_self_iff.2 hdigits
  have hdrop : text.dropWhile (isDigit 10) = [] := List.dropWhile_eq_nil_iff.2 hdigits
  simp [readPlain, htake, hdrop, hread]

theorem readPlain_point
    {whole part : List Char} {n : Nat}
    (hwhole : ∀ c ∈ whole, isDigit 10 c = true) (hpart : ∀ c ∈ part, isDigit 10 c = true)
    (hread : Numeral.read 10 (whole ++ part) = some n)
    (negative : Bool) :
    readPlain negative (whole ++ '.' :: part) = some (ofDecimal negative n (-part.length)) := by
  have hpoint : isDigit 10 '.' = false := by decide
  have htake : (whole ++ '.' :: part).takeWhile (isDigit 10) = whole := by
    rw [List.takeWhile_append_of_pos hwhole, List.takeWhile_cons, hpoint]
    simp
  have hdrop : (whole ++ '.' :: part).dropWhile (isDigit 10) = '.' :: part := by
    rw [List.dropWhile_append_of_pos hwhole, List.dropWhile_cons, hpoint]
    simp
  have htakePart : part.takeWhile (isDigit 10) = part := List.takeWhile_eq_self_iff.2 hpart
  have hdropPart : part.dropWhile (isDigit 10) = [] := List.dropWhile_eq_nil_iff.2 hpart
  simp [readPlain, htake, hdrop, htakePart, hdropPart, hread]

/-- Where the point is needed, it parts the digits, which may have zeros in front. -/
theorem positional_point
    (n e : Nat) :
    ∃ whole part k, (Digits.mk n (.negSucc e)).positional = whole ++ '.' :: part ∧ whole ≠ [] ∧
      part.length = e + 1 ∧ whole ++ part = List.replicate k '0' ++ digits 10 n := by
  simp only [Digits.positional]
  split_ifs with hinside
  · refine ⟨_, _, 0, rfl, ?_, ?_, ?_⟩
    · intro hnone
      rcases List.take_eq_nil_iff.1 hnone with hfront | hdigits
      · omega
      · exact digits_ne_nil 10 n hdigits
    · rw [List.length_drop]
      omega
    · rw [List.take_append_drop]
      rfl
  · refine ⟨['0'], List.replicate (e + 1 - (digits 10 n).length) '0' ++ digits 10 n,
      e + 1 - (digits 10 n).length + 1, rfl, by simp, ?_, rfl⟩
    rw [List.length_append, List.length_replicate]
    omega

theorem isDigit_of_mem_padded
    {c : Char} {k n : Nat}
    (hc : c ∈ List.replicate k '0' ++ digits 10 n) :
    isDigit 10 c = true := by
  rcases List.mem_append.1 hc with hpad | hdigit
  · rw [List.eq_of_mem_replicate hpad]
    decide
  · exact isDigit_of_mem_digits (by decide) (by decide) n c hdigit

/-- Digits with the point in its place begin with a digit. -/
theorem positional_head
    (d : Digits) :
    ∃ c rest, d.positional = c :: rest ∧ isDigit 10 c = true := by
  obtain ⟨n, exponent⟩ := d
  cases exponent with
  | ofNat e =>
      obtain ⟨c, more, hdigits⟩ := List.exists_cons_of_ne_nil (digits_ne_nil 10 n)
      refine ⟨c, more ++ List.replicate e '0', ?_, ?_⟩
      · simp [Digits.positional, hdigits]
      · exact isDigit_of_mem_digits (by decide) (by decide) n c (by simp [hdigits])
  | negSucc e =>
      obtain ⟨whole, part, k, htext, hsome, -, hpadded⟩ := positional_point n e
      obtain ⟨c, more, rfl⟩ := List.exists_cons_of_ne_nil hsome
      refine ⟨c, more ++ '.' :: part, htext, ?_⟩
      refine isDigit_of_mem_padded (k := k) (n := n) ?_
      rw [← hpadded]
      exact List.mem_cons_self

/-- Digits with the point in its place are read as their value. -/
theorem readPlain_positional
    {d : Digits}
    (hd : 0 < d.digits)
    (negative : Bool) :
    ∃ (n : Nat) (exponent : Int),
      readPlain negative d.positional = some (ofDecimal negative n exponent) ∧
        (n * 10 ^ exponent : ℚ) = d.digits * 10 ^ d.exponent := by
  obtain ⟨n, exponent⟩ := d
  cases exponent with
  | ofNat e =>
      refine ⟨n * 10 ^ e, 0, ?_, by simp⟩
      have hread := read_digits (show 2 ≤ 10 by decide) (by decide) (n * 10 ^ e)
      rw [digits_mul_pow (by decide) hd] at hread
      exact readPlain_whole hread negative
  | negSucc e =>
      obtain ⟨whole, part, k, htext, -, hlength, hpadded⟩ := positional_point n e
      have hall : ∀ c ∈ whole ++ part, isDigit 10 c = true := by
        intro c hc
        rw [hpadded] at hc
        exact isDigit_of_mem_padded hc
      refine ⟨n, -part.length, ?_, by rw [hlength]; rfl⟩
      rw [htext]
      refine readPlain_point ?_ ?_ ?_ negative
      · exact fun c hc => hall c (List.mem_append_left part hc)
      · exact fun c hc => hall c (List.mem_append_right whole hc)
      · rw [hpadded]
        exact read_padded (by decide) (by decide) k n

theorem lower_of_isDigit
    {c : Char}
    (hc : isDigit 10 c = true) :
    Text.lower c = c := by
  have hrange := range_of_isDigit hc
  rw [Text.lower, if_neg (by omega), if_neg (by omega)]

theorem readUnsigned_of_digit
    {c : Char}
    (hc : isDigit 10 c = true)
    (negative : Bool) (rest : List Char) :
    readUnsigned negative (c :: rest) = readPlain negative (c :: rest) := by
  have hhead : ∀ name : String, String.ofList (Text.fold (c :: rest)) = name →
      name.toList.head? = some c := by
    rintro name rfl
    simp [Text.fold, lower_of_isDigit hc]
  have hinf : ¬ (String.ofList (Text.fold (c :: rest)) = "inf" ∨
      String.ofList (Text.fold (c :: rest)) = "infinity") := by
    rintro (hname | hname)
    · have hc' : 'i' = c := Option.some.inj (hhead "inf" hname)
      exact absurd hc (by rw [← hc']; decide)
    · have hc' : 'i' = c := Option.some.inj (hhead "infinity" hname)
      exact absurd hc (by rw [← hc']; decide)
  have hnan : String.ofList (Text.fold (c :: rest)) ≠ "nan" := by
    intro hname
    have hc' : 'n' = c := Option.some.inj (hhead "nan" hname)
    exact absurd hc (by rw [← hc']; decide)
  simp only [readUnsigned, if_neg hinf, if_neg hnan]

/-- A text that begins with a digit is read behind a sign as the number without it. -/
theorem read_sign
    {c : Char}
    (hc : isDigit 10 c = true)
    (negative : Bool) (rest : List Char) :
    read (signChars negative ++ c :: rest) = readPlain negative (c :: rest) := by
  rw [← readUnsigned_of_digit hc]
  cases negative with
  | true =>
      rfl
  | false =>
      rw [signChars, if_neg (by decide), List.nil_append, read.eq_def]
      split
      · rename_i heq
        cases heq
        exact absurd hc (by decide)
      · rename_i heq
        cases heq
        exact absurd hc (by decide)
      · rfl

/-- The text of a finite number is its sign and its digits. -/
theorem toList_plain
    (negative : Bool) (m : Nat) (e : Int) :
    (plain (.finite negative m e)).toList =
      signChars negative ++ if m = 0 then ['0'] else (shortest .upward m e).positional := by
  rw [plain, signText, signChars, String.toList_append]
  split_ifs <;> simp

theorem read_plain
    {x : Binary64}
    (hx : x.Canonical) :
    read x.plain.toList = some x := by
  cases x with
  | finite negative m e =>
      rw [toList_plain]
      rcases Nat.eq_zero_or_pos m with rfl | hm
      · have he : e = leastExponent := hx.full.resolve_left (by norm_num)
        rw [if_pos rfl, read_sign (by decide), he]
        cases negative with
        | true => rfl
        | false => rfl
      · have hcovers := shortest_covers hx hm .upward
        have hdigits := (magnitude_of_covers hx hm hcovers).1
        obtain ⟨c, rest, htext, hc⟩ := positional_head (shortest .upward m e)
        obtain ⟨n, exponent, hread, hvalue⟩ := readPlain_positional hdigits negative
        rw [if_neg hm.ne', htext, read_sign hc, ← htext, hread]
        rw [← hvalue] at hcovers
        rw [ofDecimal_of_covers hx hm hcovers]
  | infinite negative =>
      cases negative with
      | true => decide
      | false => decide
  | nan =>
      decide

/-! The characters of numbers. -/

/-- The characters that numbers and their names have besides digits. -/
def markChars : List Char :=
  ['+', '-', '.', 'e', 'i', 'n', 'f', 't', 'y', 'a']

/-- Whether a character can stand in a number. -/
abbrev Numeric (c : Char) : Prop :=
  isDigit 10 c = true ∨ Text.lower c ∈ markChars

theorem numeric_of_readExponent
    {text : List Char} {exponent : Int}
    (h : readExponent text = some exponent) :
    ∀ c ∈ text, Numeric c := by
  have hdigits : ∀ {digits : List Char}, (∃ n, Numeral.read 10 digits = some n) →
      ∀ c ∈ digits, Numeric c :=
    fun ⟨_, hread⟩ c hc => Or.inl ((isDigit_of_read hread).2 c hc)
  rw [readExponent.eq_def] at h
  split at h
  all_goals
    simp only [Option.map_eq_some_iff, Option.bind_eq_bind, Option.bind_eq_some_iff] at h
    obtain ⟨-, ⟨n, hread, -⟩, -⟩ := h
  · exact List.forall_mem_cons.2 ⟨Or.inr (by decide), hdigits ⟨n, hread⟩⟩
  · exact List.forall_mem_cons.2 ⟨Or.inr (by decide), hdigits ⟨n, hread⟩⟩
  · exact hdigits ⟨n, hread⟩

theorem numeric_of_digits
    {text behind : List Char}
    (hbehind : text.dropWhile (isDigit 10) = behind)
    (h : ∀ c ∈ behind, Numeric c) :
    ∀ c ∈ text, Numeric c := by
  intro c hc
  rw [← List.takeWhile_append_dropWhile (p := isDigit 10) (l := text), hbehind] at hc
  rcases List.mem_append.1 hc with hdigits | hrest
  · exact Or.inl (List.mem_takeWhile_imp hdigits)
  · exact h c hrest

theorem numeric_of_readPlain
    {negative : Bool} {text : List Char} {x : Binary64}
    (h : readPlain negative text = some x) :
    ∀ c ∈ text, Numeric c := by
  simp only [readPlain, Option.bind_eq_bind, Option.bind_eq_some_iff] at h
  obtain ⟨digits, -, h⟩ := h
  refine numeric_of_digits rfl ?_
  generalize text.dropWhile (isDigit 10) = rest at h
  -- An exponent is behind the digits, or behind a point and more digits.
  split at h
  · rename_i hnone
    split at hnone
    · exact List.forall_mem_cons.2 ⟨Or.inr (by decide), numeric_of_digits hnone (by simp)⟩
    · have hrest : rest = [] := hnone
      simp [hrest]
  · rename_i mark behind hsome
    split_ifs at h with hmark
    · have hexponent : ∀ c ∈ mark :: behind, Numeric c := by
        obtain ⟨exponent, hread, -⟩ := Option.bind_eq_some_iff.1 h
        refine List.forall_mem_cons.2 ⟨Or.inr ?_, numeric_of_readExponent hread⟩
        rcases hmark with rfl | rfl
        · decide
        · decide
      split at hsome
      · exact List.forall_mem_cons.2 ⟨Or.inr (by decide), numeric_of_digits hsome hexponent⟩
      · have hrest : rest = mark :: behind := hsome
        rw [hrest]
        exact hexponent
    · cases h

theorem numeric_of_read
    {text : List Char} {x : Binary64}
    (h : read text = some x) :
    ∀ c ∈ text, Numeric c := by
  have hname : ∀ {text : List Char} {name : String}, String.ofList (Text.fold text) = name →
      (∀ letter ∈ name.toList, letter ∈ markChars) → ∀ c ∈ text, Numeric c := by
    rintro text name rfl hletters c hc
    refine Or.inr (hletters _ ?_)
    rw [String.toList_ofList]
    exact List.mem_map_of_mem hc
  have hunsigned : ∀ {negative : Bool} {text : List Char},
      readUnsigned negative text = some x → ∀ c ∈ text, Numeric c := by
    intro negative text h
    simp only [readUnsigned] at h
    split_ifs at h with hinf hnan
    · rcases hinf with hinf | hinf
      · exact hname hinf (List.all_iff_forall_prop.1 (by decide))
      · exact hname hinf (List.all_iff_forall_prop.1 (by decide))
    · exact hname hnan (List.all_iff_forall_prop.1 (by decide))
    · exact numeric_of_readPlain h
  rw [read.eq_def] at h
  split at h
  · exact List.forall_mem_cons.2 ⟨Or.inr (by decide), hunsigned h⟩
  · exact List.forall_mem_cons.2 ⟨Or.inr (by decide), hunsigned h⟩
  · exact hunsigned h

/-- A text that is read as a whole number is read as a number. -/
theorem exists_read_of_readSigned
    {text : List Char} {n : Int}
    (h : readSigned text = some n) :
    ∃ x, read text = some x := by
  obtain ⟨-, body, k, hread, hbody⟩ := exists_of_readSigned h
  obtain ⟨hsome, hdigits⟩ := isDigit_of_read hread
  obtain ⟨c, rest, rfl⟩ := List.exists_cons_of_ne_nil hsome
  have hc := hdigits c List.mem_cons_self
  have hwhole := readPlain_whole hread
  rcases hbody with rfl | rfl | rfl
  · exact ⟨_, (read_sign hc true rest).trans (hwhole true)⟩
  · exact ⟨_, (readUnsigned_of_digit hc false rest).trans (hwhole false)⟩
  · exact ⟨_, (read_sign hc false rest).trans (hwhole false)⟩

/-- The text of a number has a point or is that of a whole number, except for the zero below
zero. -/
theorem plain_point_or_signed
    {negative : Bool} {m : Nat} {e : Int}
    (hx : (Binary64.finite negative m e).Canonical) (hzero : m = 0 → negative = false) :
    '.' ∈ (plain (.finite negative m e)).toList ∨
      ∃ n, signed n = plain (.finite negative m e) := by
  simp only [← String.toList_inj, toList_plain]
  rcases Nat.eq_zero_or_pos m with rfl | hm
  · refine Or.inr ⟨0, ?_⟩
    rw [hzero rfl, if_pos rfl, toList_signed, Int.natAbs_zero, digits_of_lt (by decide)]
    rfl
  · have hdigits := (magnitude_of_covers hx hm (shortest_covers hx hm .upward)).1
    rw [if_neg hm.ne']
    generalize shortest .upward m e = d at hdigits
    obtain ⟨n, exponent⟩ := d
    cases exponent with
    | ofNat k =>
        have hpos : 0 < n * 10 ^ k := Nat.mul_pos hdigits (Nat.pow_pos (by decide))
        obtain ⟨whole, hwhole⟩ := exists_signed fun _ : negative = true => hpos
        refine Or.inr ⟨whole, ?_⟩
        rw [hwhole, digits_mul_pow (by decide) hdigits]
        rfl
    | negSucc k =>
        obtain ⟨whole, part, -, htext, -⟩ := positional_point n k
        refine Or.inl ?_
        rw [htext]
        simp

/-- What is read is in canonical form. -/
theorem read_canonical
    {text : List Char} {x : Binary64}
    (h : read text = some x) :
    x.Canonical := by
  have hplain : ∀ (negative : Bool) (text : List Char), readPlain negative text = some x →
      x.Canonical := by
    intro negative text h
    simp only [readPlain, Option.bind_eq_bind, Option.bind_eq_some_iff, Option.pure_def] at h
    obtain ⟨digits, -, h⟩ := h
    split at h
    · rw [← Option.some.inj h]
      exact ofDecimal_canonical negative digits _
    · split_ifs at h
      · obtain ⟨exponent, -, h⟩ := Option.bind_eq_some_iff.1 h
        rw [← Option.some.inj h]
        exact ofDecimal_canonical negative digits _
      · cases h
  have hunsigned : ∀ (negative : Bool) (text : List Char), readUnsigned negative text = some x →
      x.Canonical := by
    intro negative text h
    simp only [readUnsigned] at h
    split_ifs at h
    · rw [← Option.some.inj h]
      trivial
    · rw [← Option.some.inj h]
      trivial
    · exact hplain negative text h
  rw [read.eq_def] at h
  split at h
  · exact hunsigned true _ h
  · exact hunsigned false _ h
  · exact hunsigned false _ h

end Binary64
end SyslogIntake

import Mathlib.Data.Bool.AllAny
import SyslogIntake.Proofs.Text.Encoding
import SyslogIntake.Proofs.Text.Numerals

/-!
# Characters of one octet

Digits, and the letters and signs of the words that go with them, have one octet each.  A text of
such characters has as many octets as it has characters, and none of them ends a line.  The octets
of the digits of a number write that number.

**Results.**

* `Utf8.encode_ascii`, `Utf8.length_encode_ascii` : each character is written as its own code;
* `Utf8.notMem_encode_plain` : where there are no control characters, no octet is one;
* `Numeral.visible_digits` : digits are such characters, and no blanks;
* `Numeral.decimal_encode` : the octets of the digits of a number write it.
-/

namespace SyslogIntake
namespace Utf8

/-- A character of one octet that is no control character. -/
def Plain (c : Char) : Prop :=
  0x20 ≤ c.toNat ∧ c.toNat < 0x80

/-- A character of one octet that is no control character and no blank. -/
def Visible (c : Char) : Prop :=
  0x20 < c.toNat ∧ c.toNat < 0x80

instance : DecidablePred Plain :=
  fun c => inferInstanceAs (Decidable (0x20 ≤ c.toNat ∧ c.toNat < 0x80))

instance : DecidablePred Visible :=
  fun c => inferInstanceAs (Decidable (0x20 < c.toNat ∧ c.toNat < 0x80))

theorem Visible.plain
    {c : Char}
    (h : Visible c) :
    Plain c :=
  ⟨Nat.le_of_lt h.1, h.2⟩

theorem Visible.ne_blank
    {c : Char}
    (h : Visible c) :
    c ≠ ' ' := by
  rintro rfl
  exact Nat.lt_irrefl _ h.1

theorem encodeChar_ascii
    {c : Char}
    (h : c.toNat < 0x80) :
    encodeChar c = [UInt8.ofNat c.toNat] := by
  have hcode := encodeChar_one h
  rwa [Char.ofNat_toNat] at hcode

/-- A text of characters of one octet is written by their codes. -/
theorem encode_ascii
    {text : List Char}
    (h : ∀ c ∈ text, c.toNat < 0x80) :
    encode (String.ofList text) = text.map fun c => UInt8.ofNat c.toNat := by
  rw [encode, String.toList_ofList]
  induction text with
  | nil =>
      rfl
  | cons c text ih =>
      have hrest := ih fun d hd => h d (List.mem_cons_of_mem c hd)
      rw [List.flatMap_cons, encodeChar_ascii (h c List.mem_cons_self), hrest]
      rfl

theorem length_encode_ascii
    {text : List Char}
    (h : ∀ c ∈ text, c.toNat < 0x80) :
    (encode (String.ofList text)).length = text.length := by
  rw [encode_ascii h, List.length_map]

/-- No octet of a text without control characters is the one of a control character. -/
theorem notMem_encode_plain
    {text : List Char} {b : UInt8}
    (h : ∀ c ∈ text, Plain c)
    (hb : b.toNat < 0x20) :
    b ∉ encode (String.ofList text) := by
  rw [encode_ascii fun c hc => (h c hc).2]
  intro hmem
  obtain ⟨c, hc, rfl⟩ := List.mem_map.1 hmem
  obtain ⟨hlow, hhigh⟩ := h c hc
  rw [UInt8.toNat_ofNat'] at hb
  omega

end Utf8

namespace Numeral

open Utf8

/-- A digit of any base has one octet, and it is no blank. -/
theorem visible_of_isDigit
    {base : Nat} {c : Char}
    (h : isDigit base c = true) :
    Visible c := by
  simp only [isDigit, digitValue?] at h
  refine ⟨?_, ?_⟩
  · split_ifs at h <;> simp_all <;> omega
  · split_ifs at h <;> simp_all <;> omega

theorem visible_digits
    {base : Nat}
    (hlow : 2 ≤ base) (hhigh : base ≤ 16)
    (n : Nat) :
    ∀ c ∈ digits base n, Visible c :=
  fun c hc => visible_of_isDigit (isDigit_of_mem_digits hlow hhigh n c hc)

/-- The code of a digit in base ten is the octet of its value. -/
theorem code_of_isDigit
    {c : Char}
    (h : isDigit 10 c = true) :
    Octets.isDigit (UInt8.ofNat c.toNat) = true ∧
      digitValue? 10 c = some ((UInt8.ofNat c.toNat).toNat - 48) := by
  have hrange := range_of_isDigit h
  have hcode : (UInt8.ofNat c.toNat).toNat = c.toNat := by
    rw [UInt8.toNat_ofNat']
    omega
  constructor
  · simp only [Octets.isDigit, Bool.and_eq_true, decide_eq_true_eq, UInt8.le_iff_toNat_le, hcode]
    exact hrange
  · rw [digitValue?, hcode]
    simp only [hrange, and_self, if_true]
    rw [if_pos (by omega)]

/-- The octets of digits write the number of the digits. -/
theorem decimal_codes
    {text : List Char}
    (h : ∀ c ∈ text, isDigit 10 c = true) :
    Octets.decimal (text.map fun c => UInt8.ofNat c.toNat) = value 10 text := by
  suffices hfold : ∀ sum,
      text.foldl (fun sum c => sum * 10 + ((UInt8.ofNat c.toNat).toNat - 48)) sum =
        text.foldl (fun sum c => sum * 10 + (digitValue? 10 c).getD 0) sum by
    rw [Octets.decimal, value, List.foldl_map]
    exact hfold 0
  induction text with
  | nil =>
      intro sum
      rfl
  | cons c text ih =>
      intro sum
      obtain ⟨-, hvalue⟩ := code_of_isDigit (h c List.mem_cons_self)
      rw [List.foldl_cons, List.foldl_cons, hvalue, Option.getD_some]
      exact ih (fun d hd => h d (List.mem_cons_of_mem c hd)) _

section Decimal

variable (n : Nat)

theorem encode_decimal :
    encode (decimal n) = (digits 10 n).map fun c => UInt8.ofNat c.toNat :=
  encode_ascii fun c hc => (visible_digits (by decide) (by decide) n c hc).2

theorem isDigit_of_mem_decimal :
    ∀ b ∈ encode (decimal n), Octets.isDigit b = true := by
  intro b hb
  rw [encode_decimal] at hb
  obtain ⟨c, hc, rfl⟩ := List.mem_map.1 hb
  exact (code_of_isDigit (isDigit_of_mem_digits (by decide) (by decide) n c hc)).1

/-- The octets of a number in base ten write it. -/
theorem decimal_encode :
    Octets.decimal (encode (decimal n)) = n := by
  rw [encode_decimal, decimal_codes (isDigit_of_mem_digits (by decide) (by decide) n),
    value_digits (by decide) (by decide)]

end Decimal
end Numeral
end SyslogIntake

/-!
# Numerals

Natural numbers in base ten and base sixteen: the shortest text of a number, and
the number of a text.  A reader accepts digits only; readers of bounded and signed
numbers also allow a sign in front.

**Results.**

* `digits_ne_nil` : every number has at least one digit.
-/

namespace SyslogIntake
namespace Numeral

/-- The digit of a value below sixteen. -/
def digit (value : Nat) : Char :=
  if value < 10 then Char.ofNat (48 + value) else Char.ofNat (87 + value)

/-- The value of a digit in a base up to sixteen. -/
def digitValue? (base : Nat) (c : Char) : Option Nat :=
  let n := c.toNat
  let value :=
    if 48 ≤ n ∧ n ≤ 57 then n - 48
    else if 97 ≤ n ∧ n ≤ 102 then n - 87
    else if 65 ≤ n ∧ n ≤ 70 then n - 55
    else base
  if value < base then some value else none

def isDigit (base : Nat) (c : Char) : Bool :=
  (digitValue? base c).isSome

/-- The digits of a number, the most significant one first. -/
def digits (base n : Nat) : List Char :=
  if _h : 2 ≤ base ∧ base ≤ n then
    digits base (n / base) ++ [digit (n % base)]
  else
    [digit n]
termination_by n
decreasing_by exact Nat.div_lt_self (by omega) (by omega)

/-- The value of a run of digits. -/
def value (base : Nat) (text : List Char) : Nat :=
  text.foldl (fun sum c => sum * base + (digitValue? base c).getD 0) 0

/-- The number that a text of digits writes. -/
def read (base : Nat) (text : List Char) : Option Nat :=
  if text ≠ [] ∧ text.all (isDigit base) then some (value base text) else none

/-- A number up to `most`, which may have a plus sign in front. -/
def readUpTo (most : Nat) (text : List Char) : Option Nat :=
  let body := match text with
    | '+' :: rest => rest
    | _ => text
  (read 10 body).filter (· ≤ most)

/-- A number of sixty-four bits with a sign, which may be left out. -/
def readSigned (text : List Char) : Option Int :=
  match text with
  | '-' :: rest => ((read 10 rest).filter (· ≤ 9223372036854775808)).map fun n => -(n : Int)
  | _ => (readUpTo 9223372036854775807 text).map fun n => (n : Int)

def decimal (n : Nat) : String :=
  String.ofList (digits 10 n)

/-- A whole number in base ten, with a sign if it is negative. -/
def signed : Int → String
  | .ofNat n => decimal n
  | .negSucc n => "-" ++ decimal (n + 1)

/-- A number in base sixteen, filled up with zeros to a number of digits. -/
def hex (width n : Nat) : String :=
  let text := digits 16 n
  "0x" ++ String.ofList (List.replicate (width - text.length) '0' ++ text)

theorem digits_ne_nil
    (base n : Nat) :
    digits base n ≠ [] := by
  unfold digits
  split <;> simp

end Numeral
end SyslogIntake

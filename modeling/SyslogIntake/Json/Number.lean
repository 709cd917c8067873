import SyslogIntake.Json.Basic

/-!
# JSON numbers

A number without fraction and exponent stays whole if it fits into a machine word.
Every other number is read in two steps: its leading digits as a whole number of
sixty-four bits, and then a product or quotient with a power of ten, each step
rounded.  A number that is too large is refused, one that is too small is zero.

**Results.**

* `gather_fits` : the leading digits make up a machine word.
-/

namespace SyslogIntake
namespace Json

/-- The largest number of a machine word. -/
def mostWord : Nat := 18446744073709551615

/-- Extend a number by digits while it fits into a machine word; the digits left over. -/
def gather : Nat → List Char → Nat × List Char
  | held, [] => (held, [])
  | held, c :: rest =>
      let next := held * 10 + (Numeral.digitValue? 10 c).getD 0
      if next ≤ mostWord then gather next rest else (held, c :: rest)

/-- The power of ten with a small exponent. -/
def tenTo (exponent : Nat) : Binary64 :=
  Binary64.ofDecimal false 1 exponent

/-- A number times a power of ten; none if that is too large. -/
def shift (x : Binary64) (exponent : Int) : Option Binary64 :=
  if exponent.natAbs ≤ 308 then
    if 0 ≤ exponent then
      let product := x.times (tenTo exponent.natAbs)
      if product.isInfinite then none else some product
    else
      some (x.div (tenTo exponent.natAbs))
  else if x.isZero then some x
  else if 0 ≤ exponent then none
  else shift (x.div (tenTo 308)) (exponent + 308)
termination_by exponent.natAbs
decreasing_by omega

/-- A number with a sign, from its leading digits and the exponent of the last of them. -/
def realOf (negative : Bool) (significand : Nat) (exponent : Int) : Option Json :=
  (shift (Binary64.ofNat significand) exponent).map fun x =>
    .real (if negative then x.negated else x)

/-- A whole number with a sign; minus zero and numbers out of range are not whole. -/
def wholeOf (negative : Bool) (significand : Nat) : Json :=
  if negative then
    if significand = 0 ∨ 9223372036854775808 < significand then
      .real (Binary64.ofNat significand).negated
    else .whole (-(significand : Int))
  else .whole significand

/-- The exponent of a number, with an optional sign; it ends the number. -/
def exponentOf (text : List Char) : Option Int :=
  match text with
  | '-' :: digits => (Numeral.read 10 digits).map fun n => -(n : Int)
  | '+' :: digits => (Numeral.read 10 digits).map fun n => (n : Int)
  | digits => (Numeral.read 10 digits).map fun n => (n : Int)

/-- The number that a text without a sign writes. -/
def unsignedOf (negative : Bool) (text : List Char) : Option Json :=
  let whole := text.takeWhile (Numeral.isDigit 10)
  let rest := text.dropWhile (Numeral.isDigit 10)
  if whole = [] ∨ (whole.head? = some '0' ∧ whole ≠ ['0']) then none
  else
    let (significand, left) := gather 0 whole
    match rest with
    | [] =>
        if left = [] then some (wholeOf negative significand)
        else realOf negative significand left.length
    | '.' :: rest =>
        let part := rest.takeWhile (Numeral.isDigit 10)
        let rest := rest.dropWhile (Numeral.isDigit 10)
        let (significand, cut) := gather significand part
        let exponent : Int := left.length - (part.length - cut.length : Nat)
        if part = [] then none
        else match rest with
          | [] => realOf negative significand exponent
          | mark :: rest =>
              if mark = 'e' ∨ mark = 'E' then
                (exponentOf rest).bind fun e => realOf negative significand (exponent + e)
              else none
    | mark :: rest =>
        if mark = 'e' ∨ mark = 'E' then
          (exponentOf rest).bind fun e => realOf negative significand (left.length + e)
        else none

/-- The number that a text writes. -/
def numberOf (text : List Char) : Option Json :=
  match text with
  | '-' :: rest => unsignedOf true rest
  | _ => unsignedOf false text

/-- The leading digits make up a machine word. -/
theorem gather_fits
    {held : Nat}
    (hheld : held ≤ mostWord)
    (text : List Char) :
    (gather held text).1 ≤ mostWord := by
  induction text generalizing held with
  | nil =>
      exact hheld
  | cons c rest ih =>
      simp only [gather]
      split
      · rename_i hnext
        exact ih hnext
      · exact hheld

end Json
end SyslogIntake

import SyslogIntake.Text.Numeral
import SyslogIntake.Text.Word

/-!
# Binary floating-point numbers

Numbers of sixty-four bits with a mantissa of fifty-three.  A finite number is a
sign, a mantissa and a power of two, and every operation rounds the exact result,
which is a quotient of two natural numbers, to the nearest number; of two that are
equally near it takes the one with the even mantissa.

**Results.**

* `roundHalfEven_le` : rounding a quotient goes up by at most one;
* `toCount_le` : a count that is read off fits into sixty-four bits.
-/

namespace SyslogIntake

/-- A number with a mantissa of fifty-three bits, an infinity, or no number. -/
inductive Binary64
  | finite (negative : Bool) (mantissa : Nat) (exponent : Int)
  | infinite (negative : Bool)
  | nan
  deriving DecidableEq, Repr

namespace Binary64

/-- The exponent of the smallest numbers. -/
def leastExponent : Int := -1074

/-- The exponent of the largest numbers. -/
def mostExponent : Int := 971

/-- Zero with a sign. -/
def zero (negative : Bool) : Binary64 :=
  .finite negative 0 leastExponent

/-- The quotient of two numbers as a whole number, a half going to the even one. -/
def roundHalfEven (n d : Nat) : Nat :=
  let q := n / d
  let r := n % d
  if 2 * r < d then q
  else if d < 2 * r then q + 1
  else q + q % 2

/-- A quotient divided by a power of two, as a quotient. -/
def scaled (n d : Nat) (exponent : Int) : Nat × Nat :=
  match exponent with
  | .ofNat e => (n, d * Nat.pow 2 e)
  | .negSucc e => (n * Nat.pow 2 (e + 1), d)

/--
The number nearest to the quotient of `n` and `d`.  The logarithms of the two fix
the exponent up to one; it is raised if the mantissa would have a bit too many.
-/
def ofQuotient (negative : Bool) (n d : Nat) : Binary64 :=
  if n = 0 then
    zero negative
  else
    let guess : Int := (n.log2 : Int) - (d.log2 : Int) - 53
    let (a, b) := scaled n d guess
    let exponent := max (if a < b * Nat.pow 2 53 then guess else guess + 1) leastExponent
    let (a, b) := scaled n d exponent
    let mantissa := roundHalfEven a b
    let (mantissa, exponent) :=
      if mantissa = Nat.pow 2 53 then (Nat.pow 2 52, exponent + 1) else (mantissa, exponent)
    if mostExponent < exponent then .infinite negative
    else .finite negative mantissa exponent

def ofNat (n : Nat) : Binary64 :=
  ofQuotient false n 1

/-- The number nearest to `digits * 10 ^ exponent`; out of range it is not worked out. -/
def ofDecimal (negative : Bool) (digits : Nat) (exponent : Int) : Binary64 :=
  let magnitude := ((Numeral.digits 10 digits).length : Int) + exponent
  if digits = 0 ∨ magnitude < -330 then zero negative
  else if 330 < magnitude then .infinite negative
  else match exponent with
    | .ofNat e => ofQuotient negative (digits * Nat.pow 10 e) 1
    | .negSucc e => ofQuotient negative digits (Nat.pow 10 (e + 1))

/-- The size of a finite number as a quotient. -/
def quotient (mantissa : Nat) (exponent : Int) : Nat × Nat :=
  match exponent with
  | .ofNat e => (mantissa * Nat.pow 2 e, 1)
  | .negSucc e => (mantissa, Nat.pow 2 (e + 1))

def times : Binary64 → Binary64 → Binary64
  | .finite s m e, .finite t n f =>
      let (a, b) := quotient m e
      let (c, d) := quotient n f
      ofQuotient (s != t) (a * c) (b * d)
  | .infinite s, .infinite t => .infinite (s != t)
  | .infinite s, .finite t n _ => if n = 0 then .nan else .infinite (s != t)
  | .finite s m _, .infinite t => if m = 0 then .nan else .infinite (s != t)
  | _, _ => .nan

def div : Binary64 → Binary64 → Binary64
  | .finite s m e, .finite t n f =>
      let (a, b) := quotient m e
      let (c, d) := quotient n f
      if n = 0 then (if m = 0 then .nan else .infinite (s != t))
      else ofQuotient (s != t) (a * d) (b * c)
  | .finite s _ _, .infinite t => zero (s != t)
  | .infinite s, .finite t _ _ => .infinite (s != t)
  | _, _ => .nan

/-- The number with the other sign. -/
def negated : Binary64 → Binary64
  | .finite s m e => .finite (!s) m e
  | .infinite s => .infinite (!s)
  | .nan => .nan

def isZero : Binary64 → Bool
  | .finite _ m _ => m == 0
  | _ => false

def isInfinite : Binary64 → Bool
  | .infinite _ => true
  | _ => false

/-- The largest count of sixty-four bits. -/
def mostCount : Nat := 18446744073709551615

/--
The count nearest to a number, a half going away from zero.  Below zero it is zero,
above the largest count the largest count, and zero if there is no number.
-/
def toCount : Binary64 → Nat
  | .finite negative m e =>
      if negative then 0
      else
        let (a, b) := quotient m e
        min ((2 * a + b) / (2 * b)) mostCount
  | .infinite negative => if negative then 0 else mostCount
  | .nan => 0

/-- The exponent that is written after the letter e, with an optional sign. -/
def readExponent : List Char → Option Int
  | '-' :: digits => (Numeral.read 10 digits).map fun n => -(n : Int)
  | '+' :: digits => (Numeral.read 10 digits).map fun n => (n : Int)
  | digits => (Numeral.read 10 digits).map fun n => (n : Int)

/--
A number in decimal notation without its sign: digits with an optional point
somewhere, and an optional exponent.
-/
def readPlain (negative : Bool) (text : List Char) : Option Binary64 := do
  let whole := text.takeWhile (Numeral.isDigit 10)
  let rest := text.dropWhile (Numeral.isDigit 10)
  let (part, rest) := match rest with
    | '.' :: rest =>
        (rest.takeWhile (Numeral.isDigit 10), rest.dropWhile (Numeral.isDigit 10))
    | _ => ([], rest)
  let digits ← Numeral.read 10 (whole ++ part)
  let exponent ← match rest with
    | [] => some 0
    | mark :: rest => if mark = 'e' ∨ mark = 'E' then readExponent rest else none
  return ofDecimal negative digits (exponent - part.length)

/-- A number without its sign; infinity and the lack of a number have names. -/
def readUnsigned (negative : Bool) (text : List Char) : Option Binary64 :=
  let name := String.ofList (Text.fold text)
  if name = "inf" ∨ name = "infinity" then some (.infinite negative)
  else if name = "nan" then some .nan
  else readPlain negative text

/-- The number that a text writes, with an optional sign. -/
def read : List Char → Option Binary64
  | '-' :: text => readUnsigned true text
  | '+' :: text => readUnsigned false text
  | text => readUnsigned false text

/-- Rounding a quotient goes up by at most one. -/
theorem roundHalfEven_le
    (n d : Nat) :
    n / d ≤ roundHalfEven n d ∧ roundHalfEven n d ≤ n / d + 1 := by
  unfold roundHalfEven
  dsimp only
  split
  · omega
  · split <;> omega

/-- A count that is read off fits into sixty-four bits. -/
theorem toCount_le
    (x : Binary64) :
    x.toCount ≤ mostCount := by
  cases x with
  | finite negative m e =>
      cases negative
      · exact Nat.min_le_right _ _
      · exact Nat.zero_le _
  | infinite negative =>
      cases negative
      · exact Nat.le_refl _
      · exact Nat.zero_le _
  | nan =>
      exact Nat.zero_le _

end Binary64
end SyslogIntake

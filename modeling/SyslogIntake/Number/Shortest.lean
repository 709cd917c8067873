import SyslogIntake.Number.Binary64

/-!
# Shortest decimal text

The decimal text of a binary number has the fewest digits that read back as the same
number, and of those the nearest to it; of two that are equally near, a style chooses.  A
number stands for all values between the midpoints to its neighbours, the midpoints
included if its mantissa is even; for one digit, two digits and so on up to seventeen, the
two values of that many digits around the number are tried.  The digits can be written
with the point in its place or with an exponent.

**Results.**

* `nearest_of_none` : without a hit among the neighbours there is no digit string.
-/

namespace SyslogIntake
namespace Binary64

/-- Decimal digits and the power of ten that they count. -/
structure Digits where
  digits : Nat
  exponent : Int
  deriving DecidableEq, Repr

/-- The values that a number stands for, and the number itself, as multiples of one unit. -/
structure Span where
  low : Nat
  value : Nat
  high : Nat
  unit : Nat
  closed : Bool

/-- The span of a finite number: below a power of two the neighbour is half as far. -/
def span (mantissa : Nat) (exponent : Int) : Span :=
  let below := if mantissa = Nat.pow 2 52 ∧ leastExponent < exponent then 1 else 2
  let (size, unit) := quotient 1 (exponent - 2)
  ⟨(4 * mantissa - below) * size, 4 * mantissa * size, (4 * mantissa + 2) * size, unit,
    mantissa % 2 = 0⟩

/-- The number of digits in front of the decimal point, negative for zeros behind it. -/
def position (value unit : Nat) : Int :=
  let guess : Int :=
    (Numeral.digits 10 value).length - (Numeral.digits 10 unit).length
  let reached : Bool := match guess with
    | .ofNat e => unit * Nat.pow 10 e ≤ value
    | .negSucc e => unit ≤ value * Nat.pow 10 (e + 1)
  if reached then guess + 1 else guess

/-- Whether a multiple of a power of ten lies in a span. -/
def Span.holds (s : Span) (n : Nat) (grid : Int) : Bool :=
  let (n, low, high) := match grid with
    | .ofNat e => (n * Nat.pow 10 e * s.unit, s.low, s.high)
    | .negSucc e => (n * s.unit, s.low * Nat.pow 10 (e + 1), s.high * Nat.pow 10 (e + 1))
  if s.closed then low ≤ n && n ≤ high else low < n && n < high

/-- Which of two multiples is taken that are equally near: the upper or the even one. -/
inductive Tie
  | upward
  | toEven
  deriving DecidableEq, Repr

/-- The multiples of a power of ten next to a value, and whether the upper one is preferred. -/
def Span.around (s : Span) (tie : Tie) (grid : Int) : Nat × Bool :=
  let (value, unit) := match grid with
    | .ofNat e => (s.value, s.unit * Nat.pow 10 e)
    | .negSucc e => (s.value * Nat.pow 10 (e + 1), s.unit)
  let lower := value / unit
  let twice := 2 * (value % unit)
  (lower, unit < twice || (unit == twice && (tie == .upward || lower % 2 == 1)))

/-- Of the two neighbours on a grid, the nearest one that the span holds. -/
def Span.nearest (s : Span) (tie : Tie) (grid : Int) : Option Nat :=
  let (lower, upward) := s.around tie grid
  let candidates := if upward then [lower + 1, lower] else [lower, lower + 1]
  candidates.find? fun n => s.holds n grid

/-- The shortest digits of a span from a number of digits on. -/
def Span.shortest (s : Span) (tie : Tie) (place : Int) : List Nat → Digits
  | [] => ⟨(s.around tie (place - 17)).1, place - 17⟩
  | count :: later =>
      let grid := place - count
      match s.nearest tie grid with
      | some n => if n % 10 = 0 then ⟨n / 10, grid + 1⟩ else ⟨n, grid⟩
      | none => s.shortest tie place later

/-- The shortest digits of a finite number that is not zero. -/
def shortest (tie : Tie) (mantissa : Nat) (exponent : Int) : Digits :=
  let s := span mantissa exponent
  s.shortest tie (position s.value s.unit) ((List.range 17).map (· + 1))

/-- Digits with the point in its place and zeros where digits lack. -/
def Digits.positional (d : Digits) : List Char :=
  let text := Numeral.digits 10 d.digits
  match d.exponent with
  | .ofNat e => text ++ List.replicate e '0'
  | .negSucc e =>
      let places := e + 1
      if places < text.length then
        text.take (text.length - places) ++ '.' :: text.drop (text.length - places)
      else
        '0' :: '.' :: List.replicate (places - text.length) '0' ++ text

/-- An exponent with its sign, which is written in any case. -/
def exponentText (exponent : Int) : List Char :=
  (if 0 ≤ exponent then ['+'] else []) ++ (Numeral.signed exponent).toList

/-- Digits with a point behind the first one and an exponent. -/
def Digits.scientific (d : Digits) : List Char :=
  let text := Numeral.digits 10 d.digits
  let exponent := exponentText (d.exponent + (text.length - 1))
  match text with
  | [c] => c :: 'e' :: exponent
  | c :: rest => c :: '.' :: rest ++ 'e' :: exponent
  | [] => []

def signText (negative : Bool) : String :=
  if negative then "-" else ""

/-- The text of a number that never has an exponent and has a point only if it needs one. -/
def plain : Binary64 → String
  | .finite negative m e =>
      signText negative ++
        (if m = 0 then "0" else String.ofList (shortest .upward m e).positional)
  | .infinite negative => signText negative ++ "inf"
  | .nan => "NaN"

/-- The text of a number that never has an exponent and always has a point. -/
def fractional (x : Binary64) : String :=
  match x with
  | .finite .. => if x.plain.toList.contains '.' then x.plain else x.plain ++ ".0"
  | _ => x.plain

/-- The text of a number that always has a point or an exponent. -/
def pointed : Binary64 → String
  | .finite negative m e =>
      signText negative ++
        (if m = 0 then "0.0"
        else
          let d := shortest .toEven m e
          let place := (Numeral.digits 10 d.digits).length + d.exponent
          if -5 < place ∧ place ≤ 16 then
            String.ofList d.positional ++ (if 0 ≤ d.exponent then ".0" else "")
          else
            String.ofList d.scientific)
  | .infinite negative => signText negative ++ "inf"
  | .nan => "NaN"

/-- Without a hit among the neighbours there is no digit string. -/
theorem nearest_of_none
    {s : Span}
    {tie : Tie}
    {grid : Int}
    (h : s.nearest tie grid = none) :
    s.holds (s.around tie grid).1 grid = false ∧
      s.holds ((s.around tie grid).1 + 1) grid = false := by
  unfold Span.nearest at h
  split at h
  rename_i lower upward heq
  rw [heq]
  cases upward <;> simp at h <;> simp [h]

end Binary64
end SyslogIntake

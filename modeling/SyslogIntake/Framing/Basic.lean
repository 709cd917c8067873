import SyslogIntake.Error.Fault

/-!
# Frames

A message travels in one of two framings.  In one its length stands in front of it, as
one to ten digits and a space; in the other a line feed ends it.  Which of the two
stands at a boundary shows in its first octets: digits followed by a space are a
length, digits alone may still become one, and everything else is a line.

**Results.**

* `sniff_nil` : nothing can be said about an empty text;
* `sniff_of_counted` : a length and its space are recognised whatever follows.
-/

namespace SyslogIntake

/-- The two framings. -/
inductive Mode
  | counted
  | line
  deriving DecidableEq, Repr

def Mode.word : Mode → String
  | .counted => "octet-counted"
  | .line => "non-transparent"

/-- A message as it travelled: its declared length, if it had one, and its octets. -/
structure Frame where
  declared : Option Nat
  payload : Octets
  deriving DecidableEq, Repr

def Frame.mode (frame : Frame) : Mode :=
  if frame.declared.isSome then .counted else .line

namespace Framing

/-- The most digits that a length may have. -/
def mostDigits : Nat := 10

/-- What stands at the boundary between messages. -/
inductive Start
  | counted (length headerLength : Nat)
  | line
  | undecided
  deriving DecidableEq, Repr

/-- The digits at the front of a text, one more than a length may have at most. -/
def leadingDigits (text : Octets) : Octets :=
  (text.take (mostDigits + 1)).takeWhile Octets.isDigit

/-- Recognise what stands at the boundary between messages. -/
def sniff (text : Octets) : Start :=
  let digits := leadingDigits text
  if digits.length = 0 then
    if text.isEmpty then .undecided else .line
  else if mostDigits < digits.length then .line
  else
    match text.drop digits.length with
    | [] => .undecided
    | b :: _ =>
        if b = Octets.space then .counted (Octets.decimal digits) (digits.length + 1)
        else .line

theorem sniff_nil :
    sniff [] = .undecided :=
  rfl

/-- A run of digits is found at the front of a text whose next octet is none. -/
theorem leadingDigits_append
    {digits rest : Octets}
    {b : UInt8}
    (hdigits : ∀ d ∈ digits, Octets.isDigit d = true)
    (hlength : digits.length ≤ mostDigits)
    (hb : Octets.isDigit b = false) :
    leadingDigits (digits ++ b :: rest) = digits :=
  Octets.takeWhile_digits hdigits hlength hb

/-- A length and its space are recognised whatever follows. -/
theorem sniff_of_counted
    {digits rest : Octets}
    (hdigits : ∀ d ∈ digits, Octets.isDigit d = true)
    (hsome : digits ≠ [])
    (hlength : digits.length ≤ mostDigits) :
    sniff (digits ++ Octets.space :: rest) =
      .counted (Octets.decimal digits) (digits.length + 1) := by
  have hspace : Octets.isDigit Octets.space = false := by decide
  have hlead : leadingDigits (digits ++ Octets.space :: rest) = digits :=
    leadingDigits_append hdigits hlength hspace
  have hpos : digits.length ≠ 0 := by
    intro h
    exact hsome (List.eq_nil_of_length_eq_zero h)
  unfold sniff
  rw [hlead]
  simp [hpos, Nat.not_lt.mpr hlength]

end Framing
end SyslogIntake

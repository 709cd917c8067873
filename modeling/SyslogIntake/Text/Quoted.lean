import SyslogIntake.Text.Numeral
import SyslogIntake.Text.Printable

/-!
# Quoted text

A text between double quotes, in which quotes, backslashes, the usual controls and
everything unprintable are written as escapes.

**Results.**

* `escape_of_plain` : a printable character that is no quote or backslash stands
  for itself.
-/

namespace SyslogIntake
namespace Text

/-- How a character is written between double quotes. -/
def escape (c : Char) : List Char :=
  if c.toNat = 0 then ['\\', '0']
  else if c = '\t' then ['\\', 't']
  else if c = '\r' then ['\\', 'r']
  else if c = '\n' then ['\\', 'n']
  else if c = '\\' then ['\\', '\\']
  else if c = '\x22' then ['\\', '\x22']
  else if isPrintable c then [c]
  else ['\\', 'u', '\x7b'] ++ Numeral.digits 16 c.toNat ++ ['\x7d']

def quoted (s : String) : String :=
  String.ofList ('\x22' :: s.toList.flatMap escape ++ ['\x22'])

/-- A printable character that is no quote or backslash stands for itself. -/
theorem escape_of_plain
    {c : Char}
    (hprint : isPrintable c = true)
    (hquote : c ≠ '\x22')
    (hback : c ≠ '\\')
    (hcontrol : 32 ≤ c.toNat) :
    escape c = [c] := by
  have hzero : c.toNat ≠ 0 := by omega
  have htab : c ≠ '\t' := by
    rintro rfl
    exact absurd hcontrol (by decide)
  have hreturn : c ≠ '\r' := by
    rintro rfl
    exact absurd hcontrol (by decide)
  have hfeed : c ≠ '\n' := by
    rintro rfl
    exact absurd hcontrol (by decide)
  simp [escape, hzero, htab, hreturn, hfeed, hback, hquote, hprint]

end Text
end SyslogIntake

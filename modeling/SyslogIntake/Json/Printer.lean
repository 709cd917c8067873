import SyslogIntake.Json.Basic
import SyslogIntake.Number.Shortest

/-!
# Writing JSON

The text of a value without blanks.  Quotes, backslashes and controls are escaped,
everything else stands for itself.

**Results.**

* `writeChar_of_plain` : a character that needs no escape stands for itself.
-/

namespace SyslogIntake
namespace Json

/-- The letter behind a backslash for a character that has one. -/
def letter? (c : Char) : Option Char :=
  if c = '\x22' ∨ c = '\\' then some c
  else if c = '\x08' then some 'b'
  else if c = '\t' then some 't'
  else if c = '\n' then some 'n'
  else if c = '\x0c' then some 'f'
  else if c = '\r' then some 'r'
  else none

/-- A character between quotes. -/
def writeChar (c : Char) : List Char :=
  match letter? c with
  | some letter => ['\\', letter]
  | none =>
      if c.toNat < 32 then
        ['\\', 'u', '0', '0', Numeral.digit (c.toNat / 16), Numeral.digit (c.toNat % 16)]
      else [c]

/-- A text between quotes. -/
def writeString (s : String) : List Char :=
  '\x22' :: s.toList.flatMap writeChar ++ ['\x22']

/-- A number; what is no number is written as null. -/
def writeReal : Binary64 → List Char
  | .finite negative m e => (Binary64.finite negative m e).pointed.toList
  | _ => ['n', 'u', 'l', 'l']

mutual

def write : Json → List Char
  | .null => ['n', 'u', 'l', 'l']
  | .bool true => ['t', 'r', 'u', 'e']
  | .bool false => ['f', 'a', 'l', 's', 'e']
  | .whole n => (Numeral.signed n).toList
  | .real x => writeReal x
  | .string s => writeString s
  | .array items => '[' :: writeItems items
  | .object members => '\x7b' :: writeMembers members

/-- The items of an array and its closing bracket. -/
def writeItems : List Json → List Char
  | [] => [']']
  | [item] => write item ++ [']']
  | item :: next :: rest => write item ++ ',' :: writeItems (next :: rest)

/-- The members of an object and its closing brace. -/
def writeMembers : List (String × Json) → List Char
  | [] => ['\x7d']
  | [(name, value)] => writeString name ++ ':' :: write value ++ ['\x7d']
  | (name, value) :: next :: rest =>
      writeString name ++ ':' :: write value ++ ',' :: writeMembers (next :: rest)

end

def text (v : Json) : String :=
  String.ofList v.write

/-- A character that needs no escape stands for itself. -/
theorem writeChar_of_plain
    {c : Char}
    (hquote : c ≠ '\x22')
    (hback : c ≠ '\\')
    (hcontrol : 32 ≤ c.toNat) :
    writeChar c = [c] := by
  have hother : ∀ d : Char, d.toNat < 32 → c ≠ d := by
    rintro d hd rfl
    omega
  have hnone : letter? c = none := by
    simp [letter?, hquote, hback, hother '\x08' (by decide), hother '\t' (by decide),
      hother '\n' (by decide), hother '\x0c' (by decide), hother '\r' (by decide)]
  simp [writeChar, hnone, Nat.not_lt.mpr hcontrol]

end Json
end SyslogIntake

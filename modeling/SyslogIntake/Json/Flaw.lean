import SyslogIntake.Octets
import SyslogIntake.Text.Numeral

/-!
# Flaws of JSON texts

Why a text is no JSON value, and where that shows: in which line, and behind how many
octets of it.
-/

namespace SyslogIntake
namespace Json

/-- Why a text is no JSON value. -/
inductive Cause
  | endInList
  | endInObject
  | endInString
  | endInValue
  | noColon
  | noCommaInList
  | noCommaInObject
  | noName
  | noValue
  | badEscape
  | badNumber
  | outOfRange
  | controlCharacter
  | keyNotString
  | loneHalf
  | trailingComma
  | trailingText
  | endOfEscape
  | tooDeep
  deriving DecidableEq, Repr

def Cause.text : Cause → String
  | .endInList => "EOF while parsing a list"
  | .endInObject => "EOF while parsing an object"
  | .endInString => "EOF while parsing a string"
  | .endInValue => "EOF while parsing a value"
  | .noColon => "expected `:`"
  | .noCommaInList => "expected `,` or `]`"
  | .noCommaInObject => "expected `,` or `\x7d`"
  | .noName => "expected ident"
  | .noValue => "expected value"
  | .badEscape => "invalid escape"
  | .badNumber => "invalid number"
  | .outOfRange => "number out of range"
  | .controlCharacter =>
      "control character (\\u0000-\\u001F) found while parsing a string"
  | .keyNotString => "key must be a string"
  | .loneHalf => "lone leading surrogate in hex escape"
  | .trailingComma => "trailing comma"
  | .trailingText => "trailing characters"
  | .endOfEscape => "unexpected end of hex escape"
  | .tooDeep => "recursion limit exceeded"

/-- A place in a text: the number of its line, and the octets of the line in front of it. -/
structure Spot where
  line : Nat
  column : Nat
  deriving DecidableEq, Repr

namespace Spot

def start : Spot :=
  ⟨1, 0⟩

/-- The place behind one more octet. -/
def after (b : UInt8) (spot : Spot) : Spot :=
  if b = Octets.lineFeed then ⟨spot.line + 1, 0⟩ else ⟨spot.line, spot.column + 1⟩

end Spot

/-- A flaw of a text and where it shows. -/
structure Flaw where
  cause : Cause
  spot : Spot
  deriving DecidableEq, Repr

def Flaw.text (flaw : Flaw) : String :=
  flaw.cause.text ++ " at line " ++ Numeral.decimal flaw.spot.line ++ " column " ++
    Numeral.decimal flaw.spot.column

end Json
end SyslogIntake

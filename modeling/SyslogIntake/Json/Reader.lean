import SyslogIntake.Json.Flaw
import SyslogIntake.Json.Number
import SyslogIntake.Text.Utf8

/-!
# Reading JSON

A text is read in one pass over its octets.  A mode says how far the scan is into a name,
a number or a string, and a place says what is expected next inside the arrays and objects
that are still open.  Nothing but blanks, tabs and line ends may stand around a value,
no comma may stand before a closing bracket, and at most 127 arrays and objects may be open at
once.  The first octet that does not fit ends reading with a flaw.

**Results.**

* `feedAll_append` : reading a text in two parts is reading it at once.
-/

namespace SyslogIntake
namespace Json

/-- An array or object that waits for a value. -/
inductive Frame
  | items (held : List Json)
  | members (held : List (String × Json)) (name : String)

/-- What the parser expects next, inside the frames around it. -/
inductive Place
  | value (outer : List Frame)
  | firstItem (outer : List Frame)
  | nextItem (held : List Json) (outer : List Frame)
  | afterItem (held : List Json) (outer : List Frame)
  | firstName (outer : List Frame)
  | nextName (held : List (String × Json)) (outer : List Frame)
  | colon (held : List (String × Json)) (name : String) (outer : List Frame)
  | afterMember (held : List (String × Json)) (outer : List Frame)
  | done (v : Json)

namespace Place

/-- A complete value takes its place in the innermost frame. -/
def settle (v : Json) : List Frame → Place
  | [] => .done v
  | .items held :: outer => .afterItem (v :: held) outer
  | .members held name :: outer => .afterMember (insert name v held) outer

/-- The frames around a value that is due. -/
def outer? : Place → Option (List Frame)
  | .value outer => some outer
  | .firstItem outer => some (.items [] :: outer)
  | .nextItem held outer => some (.items held :: outer)
  | _ => none

/-- The place behind a value. -/
def afterValue (v : Json) (place : Place) : Place :=
  match place.outer? with
  | some outer => settle v outer
  | none => place

/-- The place behind a string, which is a name or a value. -/
def afterString (s : String) : Place → Place
  | .firstName outer => .colon [] s outer
  | .nextName held outer => .colon held s outer
  | place => place.afterValue (.string s)

/-- What is wrong with a text that ends at a place. -/
def endCause : Place → Option Cause
  | .value _ | .nextItem _ _ | .nextName _ _ => some .endInValue
  | .firstItem _ | .afterItem _ _ => some .endInList
  | .firstName _ | .colon _ _ _ | .afterMember _ _ => some .endInObject
  | .done _ => none

end Place

/-- How far a number is. -/
inductive NumberPart
  | sign
  | zero
  | whole
  | point
  | fraction
  | mark
  | markSign (negative : Bool)
  | exponent (negative : Bool) (value : Nat)
  | beyond
  deriving DecidableEq, Repr

/-- How far the scan is into the current token; gathered octets have the last one first. -/
inductive Mode
  | between
  | name (rest : Octets) (v : Json)
  | number (gathered : Octets) (part : NumberPart)
  | quoted (gathered : Octets)
  | escape (gathered : Octets)
  | unit (gathered digits : Octets)
  | pairSlash (gathered : Octets) (high : Nat)
  | pairLetter (gathered : Octets) (high : Nat)
  | pairUnit (gathered : Octets) (high : Nat) (digits : Octets)

/-- The largest exponent that is worked out. -/
def mostExponent : Nat := 2147483647

/-- Whether an octet is one of some ASCII characters. -/
def isOneOf (chars : List Char) (b : UInt8) : Bool :=
  chars.contains (Char.ofNat b.toNat)

def digit? (base : Nat) (b : UInt8) : Option Nat :=
  Numeral.digitValue? base (Char.ofNat b.toNat)

namespace NumberPart

/-- Whether a number may end here. -/
def mayEnd : NumberPart → Bool
  | .zero | .whole | .fraction | .exponent _ _ | .beyond => true
  | .sign | .point | .mark | .markSign _ => false

/-- An octet behind the digits of a number: a point, the mark of an exponent, or none of them. -/
def behindDigits (mayPoint : Bool) (b : UInt8) : Option NumberPart :=
  if mayPoint ∧ isOneOf ['.'] b then some .point
  else if isOneOf ['e', 'E'] b then some .mark
  else none

/-- How far a number is after one more octet; none if the octet does not belong to it. -/
def next (part : NumberPart) (b : UInt8) : Option NumberPart :=
  match part, digit? 10 b with
  | .sign, some 0 => some .zero
  | .sign, some _ => some .whole
  | .zero, none => behindDigits true b
  | .whole, some _ => some .whole
  | .whole, none => behindDigits true b
  | .point, some _ | .fraction, some _ => some .fraction
  | .fraction, none => behindDigits false b
  | .mark, some n => some (.exponent false n)
  | .mark, none =>
      if isOneOf ['+'] b then some (.markSign false)
      else if isOneOf ['-'] b then some (.markSign true)
      else none
  | .markSign negative, some n => some (.exponent negative n)
  | .exponent negative value, some n =>
      if mostExponent < value * 10 + n then some .beyond
      else some (.exponent negative (value * 10 + n))
  | .beyond, some _ => some .beyond
  | _, _ => none

/-- Whether an octet is a second digit behind a leading zero. -/
def isSurplus (part : NumberPart) (b : UInt8) : Bool :=
  part == .zero && (digit? 10 b).isSome

end NumberPart

/-- Characters of octets that are ASCII, of which the last one comes first. -/
def charsOf (gathered : Octets) : List Char :=
  gathered.reverse.map fun b => Char.ofNat b.toNat

/-- Whether the digits in front of an exponent are all zeros. -/
def isZeroBefore (gathered : Octets) : Bool :=
  ((charsOf gathered).takeWhile fun c => c != 'e' && c != 'E').all fun c =>
    !('1' ≤ c && c ≤ '9')

/-- A number after one more octet that belongs to it; a large exponent is refused at once. -/
def extend (gathered : Octets) (part next : NumberPart) (b : UInt8) : Except Cause Mode :=
  match part, next with
  | .exponent false _, .beyond =>
      if isZeroBefore gathered then .ok (.number (b :: gathered) next) else .error .outOfRange
  | _, _ => .ok (.number (b :: gathered) next)

/-- The octet that the letter behind a backslash stands for. -/
def unescape (b : UInt8) : Option UInt8 :=
  if isOneOf ['\x22', '\\', '/'] b then some b
  else if isOneOf ['b'] b then some 8
  else if isOneOf ['f'] b then some 12
  else if isOneOf ['n'] b then some 10
  else if isOneOf ['r'] b then some 13
  else if isOneOf ['t'] b then some 9
  else none

/-- The number that hexadecimal digits write, the last one first. -/
def unitOf (digits : Octets) : Option Nat :=
  digits.foldr
    (fun b held => held.bind fun n => (digit? 16 b).map fun digit => n * 16 + digit) (some 0)

/-- The character of a pair of units. -/
def pairChar (high low : Nat) : Char :=
  Char.ofNat (0x10000 + (high - 0xD800) * 1024 + (low - 0xDC00))

/-- A character at the end of what is gathered. -/
def push (c : Char) (gathered : Octets) : Octets :=
  (Utf8.encodeChar c).reverse ++ gathered

/-- Whether a unit is the second half of a pair. -/
def isLow (value : Nat) : Bool :=
  0xDC00 ≤ value && value ≤ 0xDFFF

/-- The mode after a unit is complete; a second half must not come first. -/
def endUnit (gathered digits : Octets) : Except Cause Mode :=
  match unitOf digits with
  | none => .error .badEscape
  | some value =>
      if isLow value then .error .loneHalf
      else if 0xD800 ≤ value ∧ value ≤ 0xDBFF then .ok (.pairSlash gathered value)
      else .ok (.quoted (push (Char.ofNat value) gathered))

/-- The mode after the second unit of a pair is complete. -/
def endPair (gathered : Octets) (high : Nat) (digits : Octets) : Except Cause Mode :=
  match unitOf digits with
  | none => .error .badEscape
  | some value =>
      if isLow value then .ok (.quoted (push (pairChar high value) gathered))
      else .error .loneHalf

/-- How many arrays and objects may be open at once. -/
def mostOpen : Nat := 127

/-- The octets behind the first one of a name. -/
def nameRest (s : String) : Octets :=
  (Utf8.encode s).drop 1

/-- An octet where a value is due. -/
def beginValue (outer : List Frame) (place : Place) (b : UInt8) : Except Cause (Mode × Place) :=
  if isOneOf ['n'] b then .ok (.name (nameRest "null") .null, place)
  else if isOneOf ['t'] b then .ok (.name (nameRest "true") (.bool true), place)
  else if isOneOf ['f'] b then .ok (.name (nameRest "false") (.bool false), place)
  else if isOneOf ['-'] b then .ok (.number [b] .sign, place)
  else if isOneOf ['0'] b then .ok (.number [b] .zero, place)
  else if (digit? 10 b).isSome then .ok (.number [b] .whole, place)
  else if isOneOf ['\x22'] b then .ok (.quoted [], place)
  else if isOneOf ['[', '\x7b'] b then
    if outer.length < mostOpen then
      .ok (.between, if isOneOf ['['] b then .firstItem outer else .firstName outer)
    else
      .error .tooDeep
  else .error .noValue

/-- An octet between tokens. -/
def beginToken (place : Place) (b : UInt8) : Except Cause (Mode × Place) :=
  if isOneOf [' ', '\n', '\t', '\r'] b then .ok (.between, place)
  else
    match place with
    | .value outer => beginValue outer place b
    | .firstItem outer =>
        if isOneOf [']'] b then .ok (.between, .settle (.array []) outer)
        else beginValue (.items [] :: outer) place b
    | .nextItem held outer =>
        if isOneOf [']'] b then .error .trailingComma
        else beginValue (.items held :: outer) place b
    | .afterItem held outer =>
        if isOneOf [','] b then .ok (.between, .nextItem held outer)
        else if isOneOf [']'] b then .ok (.between, .settle (.array held.reverse) outer)
        else .error .noCommaInList
    | .firstName outer =>
        if isOneOf ['\x22'] b then .ok (.quoted [], place)
        else if isOneOf ['\x7d'] b then .ok (.between, .settle (.object []) outer)
        else .error .keyNotString
    | .nextName _ _ =>
        if isOneOf ['\x22'] b then .ok (.quoted [], place)
        else if isOneOf ['\x7d'] b then .error .trailingComma
        else .error .keyNotString
    | .colon held name outer =>
        if isOneOf [':'] b then .ok (.between, .value (.members held name :: outer))
        else .error .noColon
    | .afterMember held outer =>
        if isOneOf [','] b then .ok (.between, .nextName held outer)
        else if isOneOf ['\x7d'] b then .ok (.between, .settle (.object held) outer)
        else .error .noCommaInObject
    | .done _ => .error .trailingText

def stepString (gathered : Octets) (place : Place) (b : UInt8) : Except Cause (Mode × Place) :=
  if isOneOf ['\x22'] b then
    .ok (.between, place.afterString (Utf8.decodeLossy gathered.reverse))
  else if isOneOf ['\\'] b then .ok (.escape gathered, place)
  else if b < 32 then .error .controlCharacter
  else .ok (.quoted (b :: gathered), place)

def step (mode : Mode) (place : Place) (b : UInt8) : Except Cause (Mode × Place) :=
  match mode with
  | .between => beginToken place b
  | .name [] v => .ok (.between, place.afterValue v)
  | .name [wanted] v =>
      if b = wanted then .ok (.between, place.afterValue v) else .error .noName
  | .name (wanted :: rest) v =>
      if b = wanted then .ok (.name rest v, place) else .error .noName
  | .number gathered part =>
      match part.next b with
      | some next => (extend gathered part next b).map fun mode => (mode, place)
      | none => .error .badNumber
  | .quoted gathered => stepString gathered place b
  | .escape gathered =>
      if isOneOf ['u'] b then .ok (.unit gathered [], place)
      else
        match unescape b with
        | some meant => .ok (.quoted (meant :: gathered), place)
        | none => .error .badEscape
  | .unit gathered digits =>
      if digits.length < 3 then .ok (.unit gathered (b :: digits), place)
      else (endUnit gathered (b :: digits)).map fun mode => (mode, place)
  | .pairSlash gathered high =>
      if isOneOf ['\\'] b then .ok (.pairLetter gathered high, place) else .error .endOfEscape
  | .pairLetter gathered high =>
      if isOneOf ['u'] b then .ok (.pairUnit gathered high [], place) else .error .endOfEscape
  | .pairUnit gathered high digits =>
      if digits.length < 3 then .ok (.pairUnit gathered high (b :: digits), place)
      else (endPair gathered high (b :: digits)).map fun mode => (mode, place)

/-- The state of a reader: the mode of the scan, the place of the parser, and the place in the
text. -/
structure Reader where
  mode : Mode
  place : Place
  spot : Spot

namespace Reader

def start : Reader :=
  ⟨.between, .value [], .start⟩

/-- Settle a number that ends here. -/
def endNumber (gathered : Octets) (r : Reader) : Except Flaw Reader :=
  match numberOf (charsOf gathered) with
  | some v => .ok { r with mode := .between, place := r.place.afterValue v }
  | none => .error ⟨.outOfRange, r.spot⟩

/-- Settle a number that the next octet does not belong to. -/
def settled (r : Reader) (b : UInt8) : Except Flaw Reader :=
  match r.mode with
  | .number gathered part =>
      if part.mayEnd ∧ !part.isSurplus b ∧ (part.next b).isNone then r.endNumber gathered
      else .ok r
  | _ => .ok r

/-- Read one octet.  An octet that ends a number is looked at again after it. -/
def feed (r : Reader) (b : UInt8) : Except Flaw Reader :=
  match r.settled b with
  | .error flaw => .error flaw
  | .ok r =>
      let spot := r.spot.after b
      match step r.mode r.place b with
      | .ok (mode, place) => .ok ⟨mode, place, spot⟩
      | .error cause => .error ⟨cause, spot⟩

/-- Read the octets of a text one after the other. -/
def feedAll (r : Reader) : Octets → Except Flaw Reader
  | [] => .ok r
  | b :: rest =>
      match r.feed b with
      | .ok next => next.feedAll rest
      | .error flaw => .error flaw

/-- The value at a place where the text ends. -/
def valueAtEnd (r : Reader) : Except Flaw Json :=
  match r.place with
  | .done v => .ok v
  | place => .error ⟨place.endCause.getD .endInValue, r.spot⟩

/-- The value at the end of a text, if it is complete. -/
def finish (r : Reader) : Except Flaw Json :=
  match r.mode with
  | .between => r.valueAtEnd
  | .number gathered part =>
      if part.mayEnd then (r.endNumber gathered).bind valueAtEnd
      else .error ⟨.endInValue, r.spot⟩
  | .name _ _ => .error ⟨.endInValue, r.spot⟩
  | _ => .error ⟨.endInString, r.spot⟩

end Reader

/-- The value that a text writes. -/
def read (text : Octets) : Except Flaw Json :=
  (Reader.start.feedAll text).bind Reader.finish

/-- Reading a text in two parts is reading it at once. -/
theorem feedAll_append
    (r : Reader)
    (front back : Octets) :
    r.feedAll (front ++ back) = (r.feedAll front).bind fun r => r.feedAll back := by
  induction front generalizing r with
  | nil =>
      rfl
  | cons b rest ih =>
      simp only [List.cons_append, Reader.feedAll]
      cases r.feed b with
      | error flaw => rfl
      | ok next => exact ih next

end Json
end SyslogIntake

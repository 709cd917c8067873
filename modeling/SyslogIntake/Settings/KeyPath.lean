import SyslogIntake.Text.Numeral
import SyslogIntake.Text.Word

/-!
# Key paths

The outermost names of a settings file, and the names of variables, are paths into the
tree of settings: names between points, and indices in brackets.  A name that is no such
path is taken as it stands.
-/

namespace SyslogIntake

/-- A step from a value to a part of it. -/
inductive KeyStep
  | member (name : String)
  | item (index : Int)
  deriving DecidableEq, Repr

namespace KeyStep

/-- A step behind other steps. -/
def linkText : KeyStep → String
  | .member name => "." ++ name
  | .item index => "[" ++ Numeral.signed index ++ "]"

/-- Steps as a key: names with points between them, and indices in brackets. -/
def text : List KeyStep → String
  | [] => ""
  | .member name :: rest => name ++ String.join (rest.map linkText)
  | steps => String.join (steps.map linkText)

end KeyStep

/-- The name of a top member and the steps from there. -/
structure KeyPath where
  top : String
  steps : List KeyStep
  deriving DecidableEq, Repr

namespace KeyPath

/-- Whether a character may stand in a name of a path. -/
def isNameChar (c : Char) : Bool :=
  c.isAlphanum || c == ' ' || c == '_' || c == '-'

/-- The index in a text that may have blanks around it. -/
def index? (text : List Char) : Option Int :=
  match Text.trim (fun c => c == ' ' || c == '\t') text with
  | '+' :: _ => none
  | bare => Numeral.readSigned bare

/-- The steps that a text writes; `fuel` bounds their number. -/
def steps? : Nat → List Char → Option (List KeyStep)
  | _, [] => some []
  | 0, _ :: _ => none
  | fuel + 1, '.' :: rest =>
      let name := rest.takeWhile isNameChar
      if name = [] then none
      else
        (steps? fuel (rest.dropWhile isNameChar)).map fun more =>
          .member (String.ofList name) :: more
  | fuel + 1, '[' :: rest =>
      match rest.dropWhile (· != ']'), index? (rest.takeWhile (· != ']')) with
      | _ :: after, some index => (steps? fuel after).map fun more => .item index :: more
      | _, _ => none
  | _ + 1, _ :: _ => none

def read? (text : List Char) : Option KeyPath :=
  let name := text.takeWhile isNameChar
  if name = [] then none
  else
    (steps? text.length (text.dropWhile isNameChar)).map fun steps =>
      ⟨String.ofList name, steps⟩

/-- The path that a text stands for. -/
def read (text : String) : KeyPath :=
  (read? text.toList).getD ⟨text, []⟩

end KeyPath

end SyslogIntake

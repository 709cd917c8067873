import SyslogIntake.Files.Tree
import SyslogIntake.Json.Reader
import SyslogIntake.Number.Binary64
import SyslogIntake.Settings.Reading
import SyslogIntake.Settings.Sourced

/-!
# Loading settings

Settings come from a JSON file and from variables of the environment, the variables on
top.  The value of a variable is a truth value, a number or, failing these, a text.  An index
that has no position in its list brings the program down; a value that does not fit is
reported with its key and with the file, or the environment, that it came from.
-/

namespace SyslogIntake

/-- A variable of the environment. -/
structure Variable where
  name : String
  text : String
  deriving DecidableEq, Repr

namespace Variable

/-- A text with every occurrence of a separator replaced by a point. -/
def pointed (separator : List Char) : Nat → List Char → List Char
  | 0, text => text
  | _ + 1, [] => []
  | fuel + 1, c :: rest =>
      if separator.isPrefixOf (c :: rest) then
        '.' :: pointed separator fuel ((c :: rest).drop separator.length)
      else
        c :: pointed separator fuel rest

/-- What the name of a variable begins with, in lower case. -/
def lead : List Char :=
  Text.fold (Settings.variablePrefix.toList ++ ['_'])

/-- The key path that a variable names, if it is about settings. -/
def key? (name : String) : Option String :=
  let folded := Text.fold name.toList
  if lead.isPrefixOf folded then
    let rest := folded.drop lead.length
    some (String.ofList (pointed Settings.variableSeparator.toList rest.length rest))
  else
    none

/-- The value that the text of a variable stands for. -/
def value (text : String) : Json :=
  let word := Text.folded text
  if word = "true" then .bool true
  else if word = "false" then .bool false
  else
    match Numeral.readSigned text.toList, Binary64.read text.toList with
    | some n, _ => .whole n
    | none, some x => .real x
    | none, none => .string text

/-- What the values of variables come from. -/
def origin : String := "the environment"

/-- A tree of settings with a variable put onto it. -/
def onto (tree : Sourced) (v : Variable) : Option Sourced :=
  match key? v.name with
  | none => some tree
  | some key => tree.putAt (.read key) origin (value v.text)

end Variable

namespace Settings

/-- The members that a settings file holds. -/
def fileMembers (origin : String) (held : Octets) : Except Misfit (List (String × Json)) :=
  if (Utf8.decode held).isNone then .error .notText
  else
    match Json.read held with
    | .error flaw => .error (.notJson flaw origin)
    | .ok (.object members) => .ok members
    | .ok v => .error (.notTable v.narrowed.foundText origin)

/-- A path without the names that lead nowhere. -/
def plainPath (path : Path) : String :=
  (if path.fromRoot then "/" else "") ++ "/".intercalate (path.names.filter (· != "."))

/-- The path of the settings that stand beside a folder. -/
def besideFolder (path : Path) : Option String :=
  match (path.names.filter (· != ".")).getLast? with
  | none => none
  | some name => if name = ".." then none else some (plainPath path ++ ".json")

/-- The paths at which the settings of a path are looked for. -/
def filesOf (text : String) : List String :=
  match Path.read text with
  | .error _ => [text]
  | .ok path => text :: (besideFolder path).toList

/-- The file that holds the settings of a path: what it is called and what it holds. -/
def fileAt (tree : FileTree) (text : String) : Except Misfit (String × Octets) :=
  match Path.read text with
  | .error _ => .error (.noFile text)
  | .ok path =>
      match tree.find text, besideFolder path with
      | .ok (.file held), _ => .ok (plainPath path, held)
      | _, none => .error (.noFile text)
      | _, some beside =>
          match tree.find beside with
          | .ok (.file held) => .ok (beside, held)
          | _ => .error (.noFile text)

/-- A tree with the members of a file put onto it. -/
def ontoTree (origin : String) (members : List (String × Json)) (tree : Sourced) :
    Option Sourced :=
  members.foldlM (fun tree (name, v) => tree.putAt (.read name) origin v) tree

def treeOfFile (tree : FileTree) (path : String) : Except Misfit Sourced :=
  match fileAt tree path with
  | .error misfit => .error misfit
  | .ok (origin, held) =>
      match fileMembers origin held with
      | .error misfit => .error misfit
      | .ok members =>
          match ontoTree origin members .empty with
          | none => .error .noPosition
          | some found => .ok found

/-- The tree of settings of a file, or of no file. -/
def treeOf (tree : FileTree) : Option String → Except Problem Sourced
  | none => .ok .empty
  | some path =>
      if tree.leads path then (treeOfFile tree path).mapError .unreadable
      else .error (.fileNotFound path)

def ofSourced (held : Sourced) : Except Misfit Settings :=
  (ofJson .lenient held.value).mapError (Misfit.located held.originAt)

/-- The settings of a file, if there is one, with variables on top. -/
def load (tree : FileTree) (path : Option String) (environment : List Variable) :
    Except Problem Settings :=
  match treeOf tree path with
  | .error problem => .error problem
  | .ok held =>
      match environment.foldlM Variable.onto held with
      | none => .error (.unreadable .noPosition)
      | some held => (ofSourced held).mapError .unreadable

def ofFile (tree : FileTree) (path : String) : Except Problem Settings :=
  load tree (some path) []

end Settings
end SyslogIntake

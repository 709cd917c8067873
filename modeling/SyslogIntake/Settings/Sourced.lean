import SyslogIntake.Json.Basic
import SyslogIntake.Settings.KeyPath

/-!
# Values and what they came from

A tree of settings is put together from a file and from variables, and what is said about a
value that does not fit names where it came from.  So a tree keeps the origin of what was taken
whole from one of them.  A table or a list that was only made to hold other values has no
origin.

Names are put into a tree in lower case, and a table that is put onto a table is merged with
it, member by member.
-/

namespace SyslogIntake

/-- A value, or a list or table put together from values, with its origin. -/
inductive Sourced
  | whole (origin : Option String) (v : Json)
  | list (origin : Option String) (items : List Sourced)
  | table (origin : Option String) (members : List (String × Sourced))

namespace Sourced

def empty : Sourced :=
  .table none []

def origin : Sourced → Option String
  | .whole origin _ => origin
  | .list origin _ => origin
  | .table origin _ => origin

mutual

/-- A value without its origins. -/
def value : Sourced → Json
  | .whole _ v => v
  | .list _ items => .array (valueItems items)
  | .table _ members => .object (valueMembers members)

/-- The items of a list without their origins. -/
def valueItems : List Sourced → List Json
  | [] => []
  | v :: rest => v.value :: valueItems rest

/-- The members of a table without their origins. -/
def valueMembers : List (String × Sourced) → List (String × Json)
  | [] => []
  | (name, v) :: rest => (name, v.value) :: valueMembers rest

end

/-- The members of a table that was taken whole. -/
def wholeMembers (origin : Option String) (members : List (String × Json)) :
    List (String × Sourced) :=
  members.map fun (name, v) => (name, .whole origin v)

/-- A table with its origin; what is no table makes way for one without either. -/
def asTable : Option Sourced → Option String × List (String × Sourced)
  | some (.table origin members) => (origin, members)
  | some (.whole origin (.object members)) => (origin, wholeMembers origin members)
  | _ => (none, [])

/-- A list with its origin; what is no list makes way for one without either. -/
def asList : Option Sourced → Option String × List Sourced
  | some (.list origin items) => (origin, items)
  | some (.whole origin (.array items)) => (origin, items.map (.whole origin))
  | _ => (none, [])

mutual

/-- A value put onto what is held at a place. -/
def merge (origin : Option String) (incoming : Json) (held : Option Sourced) : Sourced :=
  match incoming with
  | .object [] => held.getD empty
  | .object (head :: rest) =>
      let (held, members) := asTable held
      .table held (mergeMembers origin (head :: rest) members)
  | v => .whole origin v

/-- The members of a table put onto the members of another. -/
def mergeMembers (origin : Option String) :
    List (String × Json) → List (String × Sourced) → List (String × Sourced)
  | [], held => held
  | (name, v) :: rest, held =>
      let folded := Text.folded name
      mergeMembers origin rest
        (Json.insert folded (merge origin v (Json.lookup folded held)) held)

end

/-- A list with an item replaced; the list is filled up with nulls to hold it. -/
def setItem (items : List Sourced) (index : Nat) (v : Sourced) : List Sourced :=
  (items ++ List.replicate (index + 1 - items.length) (whole none .null)).set index v

/-- The most items that a list can be filled up to. -/
def mostItems : Nat := 16777216

/-- The position of an index in a list, which counts from the end if it is negative: none in
front of the beginning, nor where no list can reach. -/
def position? (items : List Sourced) : Int → Option Nat
  | .ofNat n => if n < mostItems then some n else none
  | .negSucc n => if n < items.length then some (items.length - (n + 1)) else none

/-- A value put at the end of steps, if every index on the way has a position. -/
def put (origin : Option String) (v : Json) : List KeyStep → Option Sourced → Option Sourced
  | [], held => some (merge origin v held)
  | .member name :: rest, held =>
      let folded := Text.folded name
      let (from?, members) := asTable held
      (put origin v rest (Json.lookup folded members)).map fun part =>
        .table from? (Json.insert folded part members)
  | [.item index], held =>
      let (from?, items) := asList held
      (position? items index).map fun place =>
        .list from? (setItem items place (.whole origin v))
  | .item index :: next :: rest, held =>
      let (from?, items) := asList held
      (position? items index).bind fun place =>
        (put origin v (next :: rest) items[place]?).map fun part =>
          .list from? (setItem items place part)

/-- A tree of settings with a value put at a path. -/
def putAt (tree : Sourced) (path : KeyPath) (origin : String) (v : Json) : Option Sourced :=
  put (some origin) v (.member path.top :: path.steps) (some tree)

/-- The origin of what stands at the end of steps. -/
def originAt (v : Sourced) : List KeyStep → Option String
  | [] => v.origin
  | .member name :: rest =>
      (Json.lookup name (asTable (some v)).2).bind fun part => originAt part rest
  | .item index :: rest =>
      let items := (asList (some v)).2
      ((position? items index).bind fun place => items[place]?).bind fun part =>
        originAt part rest

end Sourced
end SyslogIntake

import SyslogIntake.Number.Binary64

/-!
# JSON values

Values of a settings file.  The members of an object are kept in the order of their
names and each name occurs once; a name that is set again takes the later value.

**Results.**

* `lookup_insert_self` : a member that is set is found again;
* `lookup_insert_of_ne` : setting a member leaves the others alone.
-/

namespace SyslogIntake

/-- A JSON value; numbers without a fraction that fit into a machine word stay whole. -/
inductive Json
  | null
  | bool (b : Bool)
  | whole (n : Int)
  | real (x : Binary64)
  | string (s : String)
  | array (items : List Json)
  | object (members : List (String × Json))
  deriving Repr

namespace Json

/-- Set a member of an object. -/
def insert {α : Type} (name : String) (value : α) :
    List (String × α) → List (String × α)
  | [] => [(name, value)]
  | (other, held) :: rest =>
      if name = other then (name, value) :: rest
      else if name < other then (name, value) :: (other, held) :: rest
      else (other, held) :: insert name value rest

/-- The value of a name among the members of an object. -/
def lookup {α : Type} (name : String) : List (String × α) → Option α
  | [] => none
  | (other, held) :: rest => if name = other then some held else lookup name rest

/-- The object that has the members of a list, later ones replacing earlier ones. -/
def ofMembers (members : List (String × Json)) : Json :=
  .object (members.foldl (fun held (name, value) => insert name value held) [])

/-- The value of a member, if this is an object that has it. -/
def get? (name : String) : Json → Option Json
  | .object members => lookup name members
  | _ => none

def ofNat (n : Nat) : Json :=
  .whole n

/-- A text or nothing as a value. -/
def ofString? : Option String → Json
  | some s => .string s
  | none => .null

theorem lookup_insert_self
    {α : Type}
    (name : String)
    (value : α)
    (members : List (String × α)) :
    lookup name (insert name value members) = some value := by
  induction members with
  | nil =>
      simp [insert, lookup]
  | cons head rest ih =>
      obtain ⟨other, held⟩ := head
      by_cases heq : name = other
      · simp [insert, lookup, heq]
      · by_cases hlt : name < other
        · simp [insert, lookup, heq, hlt]
        · simp [insert, lookup, heq, hlt, ih]

theorem lookup_insert_of_ne
    {α : Type}
    {name asked : String}
    (hne : asked ≠ name)
    (value : α)
    (members : List (String × α)) :
    lookup asked (insert name value members) = lookup asked members := by
  induction members with
  | nil =>
      simp [insert, lookup, hne]
  | cons head rest ih =>
      obtain ⟨other, held⟩ := head
      by_cases heq : name = other
      · subst heq
        simp [insert, lookup, hne]
      · by_cases hlt : name < other
        · simp [insert, lookup, heq, hlt, hne]
        · simp [insert, lookup, heq, hlt, ih]

end Json
end SyslogIntake

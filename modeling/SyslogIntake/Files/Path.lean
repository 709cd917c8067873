import SyslogIntake.Text.Utf8

/-!
# Paths

A path is a row of names between slashes, taken from the working folder or, if it begins
with a slash, from the root.  Slashes in a row count as one; one at the end asks for a
folder.

**Results.**

* `Path.read_eq_error` : the only texts that are no paths are the empty one, those with a
  zero character, and the over-long ones.
-/

namespace SyslogIntake

/-- Why a path does not lead to what is asked for. -/
inductive PathProblem
  | missing
  | notFolder
  | isFolder
  | tooLong
  | zeroCharacter
  deriving DecidableEq, Repr

def PathProblem.report : PathProblem → String
  | .missing => "No such file or directory (os error 2)"
  | .notFolder => "Not a directory (os error 20)"
  | .isFolder => "Is a directory (os error 21)"
  | .tooLong => "File name too long (os error 36)"
  | .zeroCharacter => "file name contained an unexpected NUL byte"

/-- A way to a place. -/
structure Path where
  fromRoot : Bool
  names : List String
  asksFolder : Bool
  deriving DecidableEq, Repr

namespace Path

/-- The most octets of a path. -/
def mostOctets : Nat := 4095

/-- The most octets of one name. -/
def mostNameOctets : Nat := 255

/-- The names between the slashes of a text. -/
def namesOf : List Char → List Char → List String
  | held, [] => if held = [] then [] else [String.ofList held.reverse]
  | held, c :: rest =>
      if c = '/' then
        if held = [] then namesOf [] rest else String.ofList held.reverse :: namesOf [] rest
      else
        namesOf (c :: held) rest

/-- The path that a text writes. -/
def read (text : String) : Except PathProblem Path :=
  if text.toList.contains '\x00' then .error .zeroCharacter
  else if text = "" then .error .missing
  else if mostOctets < (Utf8.encode text).length then .error .tooLong
  else
    .ok
      { fromRoot := text.toList.head? == some '/'
        names := namesOf [] text.toList
        asksFolder := text.toList.getLast? == some '/' }

/-- The only texts that are no paths are empty, have a zero character, or are too long. -/
theorem read_eq_error
    {text : String}
    {problem : PathProblem}
    (h : read text = .error problem) :
    '\x00' ∈ text.toList ∨ text = "" ∨ mostOctets < (Utf8.encode text).length := by
  unfold read at h
  split at h
  · rename_i hzero
    exact Or.inl (by simpa using hzero)
  · split at h
    · rename_i hempty
      exact Or.inr (Or.inl hempty)
    · split at h
      · rename_i hlong
        exact Or.inr (Or.inr hlong)
      · cases h

end Path
end SyslogIntake

import SyslogIntake.Error.Fault
import SyslogIntake.Files.Path

/-!
# Files

The files and folders under the working folder of a source.  Outside of it only the folders of
the root are known that every machine has, and the two devices that take everything and
nothing of what is written to them.

**Results.**

* `require_eq_ok` : a path that is required to be a file leads to one;
* `node?_put_self` : what is put at a place is found there.
-/

namespace SyslogIntake

/-- What is at a place; a device has room for so many octets, if it is limited. -/
inductive Node
  | file (text : Octets)
  | folder
  | device (room : Option Nat)
  deriving DecidableEq, Repr

def Node.isFolder : Node → Bool
  | .folder => true
  | .file _ | .device _ => false

def Node.isFile : Node → Bool
  | .file _ => true
  | .folder | .device _ => false

/-- The names that lead to a place, the last one first; the working folder has none. -/
abbrev Place := List String

/-- Files and folders by their places. -/
structure FileTree where
  held : List (Place × Node)
  deriving DecidableEq, Repr

namespace FileTree

/-- A working folder with nothing in it. -/
def empty : FileTree :=
  ⟨[]⟩

def rootName : String := "/"

/-- The folders of the root that every machine has. -/
def rootFolders : List String :=
  ["bin", "dev", "etc", "home", "lib", "opt", "proc", "root", "run", "sbin", "sys", "tmp", "usr",
    "var"]

/-- What is at a place without having been put there. -/
def given? (place : Place) : Option Node :=
  if place.all (· == "..") then some .folder
  else
    match place with
    | ["null", "dev", "/"] => some (.device none)
    | ["full", "dev", "/"] => some (.device (some 0))
    | [name, "/"] => if rootFolders.contains name then some .folder else none
    | ["/"] => some .folder
    | _ => none

def node? (tree : FileTree) (place : Place) : Option Node :=
  (given? place).or (tree.held.lookup place)

def put (place : Place) (node : Node) (tree : FileTree) : FileTree :=
  ⟨(place, node) :: tree.held⟩

/-- The tree with a folder at a place and at all places on the way. -/
def putFolder (tree : FileTree) : Place → FileTree
  | [] => tree
  | name :: outer =>
      let tree := tree.putFolder outer
      match tree.node? (name :: outer) with
      | some _ => tree
      | none => tree.put (name :: outer) .folder

/-- The place around a place. -/
def outer : Place → Place
  | [] => [".."]
  | name :: rest =>
      if name = ".." then ".." :: name :: rest
      else if name = rootName then [rootName]
      else rest

/-- The place that a name leads to from a folder, whether or not there is something. -/
def next (place : Place) (name : String) : Place :=
  if name = "." then place
  else if name = ".." then outer place
  else name :: place

def hasFolder (tree : FileTree) (place : Place) : Bool :=
  (tree.node? place).any Node.isFolder

/-- The place that a name leads to. -/
def step (tree : FileTree) (place : Place) (name : String) : Except PathProblem Place :=
  if tree.hasFolder place then
    if Path.mostNameOctets < (Utf8.encode name).length then .error .tooLong
    else if (tree.node? (next place name)).isSome then .ok (next place name)
    else .error .missing
  else .error .notFolder

/-- The place that names lead to. -/
def walk (tree : FileTree) : Place → List String → Except PathProblem Place
  | place, [] => .ok place
  | place, name :: rest =>
      match tree.step place name with
      | .error problem => .error problem
      | .ok place => tree.walk place rest

/-- Where a path begins. -/
def start (path : Path) : Place :=
  if path.fromRoot then [rootName] else []

def find (tree : FileTree) (text : String) : Except PathProblem Node :=
  match Path.read text with
  | .error problem => .error problem
  | .ok path =>
      match tree.walk (start path) path.names with
      | .error problem => .error problem
      | .ok place =>
          match tree.node? place with
          | none => .error .missing
          | some node => if path.asksFolder && !node.isFolder then .error .notFolder else .ok node

/-- The text of the file that a path leads to. -/
def read (tree : FileTree) (text : String) : Except PathProblem Octets :=
  match tree.find text with
  | .error problem => .error problem
  | .ok (.file held) => .ok held
  | .ok .folder => .error .isFolder
  | .ok (.device _) => .ok []

/-- Whether a path leads to something. -/
def leads (tree : FileTree) (text : String) : Bool :=
  match tree.find text with
  | .ok _ => true
  | .error _ => false

/-- A path that has to lead to an ordinary file. -/
def require (tree : FileTree) (text : String) : Except Fault Unit :=
  match tree.find text with
  | .error _ => .error (.noFile text)
  | .ok node => if node.isFile then .ok () else .error (.notFile text)

/--
What a path leads to for somebody who writes at the end of a file.  A file that does not
exist yet is empty; a slash at the end asks for a folder, and nobody writes to a folder.
-/
def openForAppending (tree : FileTree) (text : String) : Except PathProblem Node :=
  match Path.read text with
  | .error problem => .error problem
  | .ok path =>
      match path.names.getLast? with
      | none => .error .isFolder
      | some name =>
          match tree.walk (start path) path.names.dropLast with
          | .error problem => .error problem
          | .ok place =>
              if tree.hasFolder place then
                if name = "." ∨ name = ".." ∨ path.asksFolder then .error .isFolder
                else if Path.mostNameOctets < (Utf8.encode name).length then .error .tooLong
                else
                  match tree.node? (name :: place) with
                  | none => .ok (.file [])
                  | some .folder => .error .isFolder
                  | some node => .ok node
              else .error .notFolder

/-- The place that a path names, whether or not there is something. -/
def placeOf (path : Path) : Place :=
  path.names.foldl next (start path)

/-- The tree with a file at a path, and with the folders on the way. -/
def addFile (text : String) (held : Octets) (tree : FileTree) : FileTree :=
  match Path.read text with
  | .error _ => tree
  | .ok path => (tree.putFolder (placeOf path).tail).put (placeOf path) (.file held)

/-- The tree with a folder at a path, and with the folders on the way. -/
def addFolder (text : String) (tree : FileTree) : FileTree :=
  match Path.read text with
  | .error _ => tree
  | .ok path => tree.putFolder (placeOf path)

/-- What is put at a place is found there. -/
theorem node?_put_self
    {place : Place}
    (hfree : given? place = none)
    (node : Node)
    (tree : FileTree) :
    (tree.put place node).node? place = some node := by
  simp [node?, put, hfree]

theorem require_eq_ok
    {tree : FileTree}
    {text : String}
    (h : tree.require text = .ok ()) :
    ∃ held, tree.find text = .ok (.file held) := by
  unfold require at h
  split at h
  · cases h
  · rename_i node heq
    cases node with
    | file held =>
        exact ⟨held, heq⟩
    | folder =>
        simp [Node.isFile] at h
    | device room =>
        simp [Node.isFile] at h

end FileTree
end SyslogIntake

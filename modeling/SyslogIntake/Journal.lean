import SyslogIntake.Text.Terminal

/-!
# The journal

Lines that tell an operator what happened, each with a level.  On a terminal a message cannot
pass for another line: what controls terminals is taken out, and the lines of a message
after its first one are indented.

**Results.**

* `indented_of_not_mem` : a text of one line has nothing to indent.
-/

namespace SyslogIntake

/-- How serious a line of the journal is. -/
inductive Level
  | error
  | warn
  | info
  deriving DecidableEq, Repr

def Level.word : Level → String
  | .error => "ERROR"
  | .warn => "WARN"
  | .info => "INFO"

/-- How far down a level is. -/
def Level.depth : Level → Nat
  | .error => 1
  | .warn => 2
  | .info => 3

/-- How far down a journal goes that is kept at a level; unknown levels count as `info`. -/
def Level.depthOf (word : String) : Nat :=
  if word = "error" then Level.error.depth
  else if word = "warn" then Level.warn.depth
  else Level.info.depth

/-- A line of the journal. -/
structure Entry where
  level : Level
  message : String
  deriving DecidableEq, Repr

/-- A line as it is written. -/
def Entry.text (entry : Entry) : String :=
  entry.level.word ++ " " ++ entry.message

/-- What stands in front of the lines of a message after its first one. -/
def indent : List Char := [' ', ' ', ' ', ' ']

/-- A text with all lines after its first one indented. -/
def indented (text : List Char) : List Char :=
  text.flatMap fun c => if c = '\n' then c :: indent else [c]

/-- A line as it is shown on a terminal. -/
def Entry.shown (entry : Entry) : String :=
  Terminal.plain (String.ofList (indented entry.text.toList))

/-- Whether a line belongs into a journal that is kept at a level. -/
def Entry.isKeptAt (word : String) (entry : Entry) : Bool :=
  entry.level.depth ≤ Level.depthOf word

/-- A text of one line has nothing to indent. -/
theorem indented_of_not_mem
    {text : List Char}
    (h : '\n' ∉ text) :
    indented text = text := by
  induction text with
  | nil =>
      rfl
  | cons c rest ih =>
      have hne : c ≠ '\n' := fun heq => h (heq ▸ List.mem_cons_self)
      have hrest := ih fun hmem => h (List.mem_cons_of_mem c hmem)
      simp only [indented] at hrest
      simp [indented, hne, hrest]

end SyslogIntake

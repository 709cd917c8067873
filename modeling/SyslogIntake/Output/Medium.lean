import SyslogIntake.Files.Tree

/-!
# Media

What the output is written to: a text that only grows at its end, and the room that is
left.  An ordinary file has room for everything, a device for as much as it takes.

**Results.**

* `write_of_fits` : what fits is there afterwards, behind what was there before;
* `write_prefix` : whatever happens, nothing that was there is lost.
-/

namespace SyslogIntake

/-- What is written to, and how many octets there is room for, if that is limited. -/
structure Medium where
  text : Octets
  room : Option Nat
  deriving DecidableEq, Repr

namespace Medium

/-- The medium that a path leads to. -/
def ofNode : Node → Medium
  | .file held => ⟨held, none⟩
  | .folder => ⟨[], some 0⟩
  | .device room => ⟨[], room⟩

def fits (text : Octets) (m : Medium) : Bool :=
  match m.room with
  | none => true
  | some room => text.length ≤ room

/-- Write as much of a text as there is room for. -/
def write (text : Octets) (m : Medium) : Medium :=
  match m.room with
  | none => ⟨m.text ++ text, none⟩
  | some room => ⟨m.text ++ text.take room, some (room - text.length)⟩

/-- What fits is there afterwards, behind what was there before. -/
theorem write_of_fits
    {text : Octets}
    {m : Medium}
    (h : m.fits text = true) :
    (m.write text).text = m.text ++ text := by
  unfold fits at h
  unfold write
  cases hroom : m.room with
  | none =>
      rfl
  | some room =>
      rw [hroom] at h
      simp only [decide_eq_true_eq] at h
      simp [List.take_of_length_le h]

/-- Whatever happens, nothing that was there is lost. -/
theorem write_prefix
    (text : Octets)
    (m : Medium) :
    ∃ more, (m.write text).text = m.text ++ more ∧ more <+: text := by
  unfold write
  cases m.room with
  | none =>
      exact ⟨text, rfl, List.prefix_refl text⟩
  | some room =>
      exact ⟨text.take room, rfl, List.take_prefix room text⟩

end Medium
end SyslogIntake

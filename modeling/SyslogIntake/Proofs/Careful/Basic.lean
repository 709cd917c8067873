import Mathlib.Algebra.Group.Nat.Defs
import SyslogIntake.Text.Utf8

/-!
# Working by position

Code that reads octets by their positions can come down: where no octet is, where a stretch does
not lie inside a text, inside a character, and where a number does not fit its word.  What is
written with the operations of this module says for each of these steps what it asks for, and
has no result if the step cannot be taken.

**Results.**

* `item_drop`, `slice_front`, `slice_back`, `sum_of_lt` : when the steps can be taken;
* `behind_ascii` : a text can be cut behind characters of one octet each.
-/

namespace SyslogIntake

/-- What brings code down that works by position. -/
inductive Mishap
  | index
  | slice
  | boundary
  | overflow
  | memory
  deriving DecidableEq, Repr

namespace Careful

variable {α β : Type}

@[simp]
theorem ok_bind
    (a : α)
    (next : α → Except Mishap β) :
    (Except.ok a >>= next) = next a :=
  rfl

@[simp]
theorem pure_eq_ok
    (a : α) :
    (pure a : Except Mishap α) = .ok a :=
  rfl

theorem exists_four
    {l : List α}
    (h : l.length = 4) :
    ∃ a b c d, l = [a, b, c, d] := by
  rcases l with _ | ⟨a, _ | ⟨b, _ | ⟨c, _ | ⟨d, _ | ⟨e, rest⟩⟩⟩⟩⟩
  case cons.cons.cons.cons.nil => exact ⟨a, b, c, d, rfl⟩
  all_goals simp at h

/-- What stands at a position. -/
def item (list : List α) (position : Nat) : Except Mishap α :=
  match list[position]? with
  | some a => .ok a
  | none => .error .index

/-- The stretch of a text between two positions. -/
def slice (text : Octets) (start stop : Nat) : Except Mishap Octets :=
  if start ≤ stop ∧ stop ≤ text.length then .ok ((text.drop start).take (stop - start))
  else .error .slice

/-- The bits of a word that counts octets in memory. -/
def wordBits : Nat := 64

/-- The sum of two numbers in a word of so many bits. -/
def sum (bits a b : Nat) : Except Mishap Nat :=
  if a + b < 2 ^ bits then .ok (a + b) else .error .overflow

/-- The product of two numbers in a word of so many bits. -/
def product (bits a b : Nat) : Except Mishap Nat :=
  if a * b < 2 ^ bits then .ok (a * b) else .error .overflow

/-- The difference of two numbers that are not negative, like itself. -/
def difference (a b : Nat) : Except Mishap Nat :=
  if b ≤ a then .ok (a - b) else .error .overflow

/-- The characters of a text behind so many of its octets. -/
def behind : Nat → List Char → Except Mishap (List Char)
  | 0, text => .ok text
  | _ + 1, [] => .error .boundary
  | octets + 1, c :: text =>
      let width := (Utf8.encodeChar c).length
      if width ≤ octets + 1 then behind (octets + 1 - width) text else .error .boundary

theorem item_of_getElem?
    {list : List α}
    {position : Nat}
    {a : α}
    (h : list[position]? = some a) :
    item list position = .ok a := by
  simp only [item, h]

/-- What stands at a position of the back of a list stands so much later in the list. -/
theorem item_drop
    (list : List α)
    (start position : Nat) :
    item (list.drop start) position = item list (start + position) := by
  simp only [item, List.getElem?_drop]

theorem slice_front
    {text : Octets}
    {stop : Nat}
    (h : stop ≤ text.length) :
    slice text 0 stop = .ok (text.take stop) := by
  simp only [slice, Nat.zero_le, h, and_self, if_true, List.drop_zero, Nat.sub_zero]

theorem slice_back
    {text : Octets}
    {start : Nat}
    (h : start ≤ text.length) :
    slice text start text.length = .ok (text.drop start) := by
  have hall : (text.drop start).take (text.length - start) = text.drop start :=
    List.take_of_length_le (Nat.le_of_eq List.length_drop)
  simp only [slice, h, Nat.le_refl, and_self, if_true, hall]

/-- A text has a stretch between any two positions that are in order and not beyond its end. -/
theorem slice_of_le
    {text : Octets}
    {start stop : Nat}
    (hstart : start ≤ stop)
    (hstop : stop ≤ text.length) :
    slice text start stop = .ok ((text.drop start).take (stop - start)) := by
  simp only [slice, hstart, hstop, and_self, if_true]

theorem sum_of_lt
    {bits a b : Nat}
    (h : a + b < 2 ^ bits) :
    sum bits a b = .ok (a + b) :=
  if_pos h

theorem product_of_lt
    {bits a b : Nat}
    (h : a * b < 2 ^ bits) :
    product bits a b = .ok (a * b) :=
  if_pos h

theorem difference_of_le
    {a b : Nat}
    (h : b ≤ a) :
    difference a b = .ok (a - b) :=
  if_pos h

/-- A text can be cut behind characters of one octet each. -/
theorem behind_ascii
    {front : List Char}
    (hfront : ∀ c ∈ front, (Utf8.encodeChar c).length = 1)
    (rest : List Char) :
    behind front.length (front ++ rest) = .ok rest := by
  induction front with
  | nil => simp only [List.length_nil, List.nil_append, behind]
  | cons c front ih =>
      have hwidth := hfront c List.mem_cons_self
      have hrest := ih fun d hd => hfront d (List.mem_cons_of_mem c hd)
      simp only [List.length_cons, List.cons_append, behind, hwidth]
      rw [if_pos (by omega)]
      exact hrest

end Careful
end SyslogIntake

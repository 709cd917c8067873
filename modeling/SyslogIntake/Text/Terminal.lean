import SyslogIntake.Text.Utf8

/-!
# Terminal control

Texts that come from elsewhere may hold control sequences of terminals.  Before a line is
shown they are taken out: escape sequences whole, titles and device strings whole, and all
control characters but blanks and the ends of lines.

The scan goes octet by octet.  While it shows what it reads, an octet that is no part of a
text hides what follows, until an octet that is part of one.

**Results.**

* `strip_of_isPlain` : a text without control characters stays as it is.
-/

namespace SyslogIntake
namespace Terminal

/-- Where a scan is. -/
inductive Mode
  | ground
  | character (left : Nat)
  | escape
  | escapeMore
  | sequence
  | deviceStart
  | deviceNumbers
  | deviceMore
  | device
  | command
  deriving DecidableEq, Repr

/-- Whether an octet lies in a range. -/
def within (low high b : UInt8) : Bool :=
  low ≤ b && b ≤ high

/-- How many octets of a character are to come behind its first one. -/
def tail? (b : UInt8) : Option Nat :=
  if within 0xC2 0xDF b then some 1
  else if within 0xE0 0xEF b then some 2
  else if within 0xF0 0xF4 b then some 3
  else none

/-- Whether an octet ends a line or is a blank among the control characters. -/
def isSpacing (b : UInt8) : Bool :=
  b == 9 || b == 10 || b == 12 || b == 13

namespace Mode

/-- The mode behind an escape character. -/
def behindEscape (b : UInt8) : Option Mode :=
  if within 0x20 0x2F b then some .escapeMore
  else if b == 0x5B then some .sequence
  else if b == 0x5D then some .command
  else if b == 0x50 then some .deviceStart
  else if b == 0x58 || b == 0x5E || b == 0x5F then some .device
  else if within 0x30 0x7E b then some .ground
  else none

/-- The mode in front of the text of a device string; `own` is for digits, `other` for marks. -/
def behindDevice (own other : Mode) (b : UInt8) : Option Mode :=
  if within 0x20 0x2F b then some .deviceMore
  else if within 0x30 0x3B b then some own
  else if within 0x3C 0x3F b then some other
  else if within 0x40 0x7E b then some .device
  else none

/-- The mode that an octet leads to, if it leads to another one. -/
def change (mode : Mode) (b : UInt8) : Option Mode :=
  if b == 0x18 || b == 0x1A then some .ground
  else if b == 0x1B then some .escape
  else
    match mode with
    | .ground => (tail? b).map .character
    | .character left => if left ≤ 1 then some .ground else some (.character (left - 1))
    | .escape => behindEscape b
    | .escapeMore => if within 0x30 0x7E b then some .ground else none
    | .sequence => if within 0x40 0x7E b then some .ground else none
    | .deviceStart => behindDevice .deviceNumbers .deviceNumbers b
    | .deviceNumbers => behindDevice .deviceNumbers .device b
    | .deviceMore => behindDevice .device .device b
    | .device => if b == 0x9C then some .ground else none
    | .command => if b == 0x07 then some .ground else none

/-- Whether an octet is part of a text. -/
def shows (mode : Mode) (b : UInt8) : Bool :=
  match mode with
  | .ground => within 0x20 0x7E b || (tail? b).isSome || isSpacing b
  | .character _ => true
  | .escape | .escapeMore | .sequence => isSpacing b
  | .deviceStart | .deviceNumbers | .deviceMore | .device | .command => false

end Mode

/-- A scan on its way: its mode, whether it shows what it reads, and what it has shown, the
latest octet first. -/
structure Scan where
  mode : Mode
  isShowing : Bool
  shown : Octets
  deriving DecidableEq, Repr

namespace Scan

def start : Scan :=
  ⟨.ground, true, []⟩

/-- Show an octet, which is read as part of a text. -/
def showOctet (s : Scan) (b : UInt8) : Scan :=
  ⟨(Mode.ground.change b).getD s.mode, true, b :: s.shown⟩

/-- Read an octet while nothing is shown. -/
def hidden (s : Scan) (b : UInt8) : Scan :=
  if s.mode.shows b then s.showOctet b
  else { s with mode := (s.mode.change b).getD s.mode, isShowing := false }

/-- Read an octet.  What is shown is read as on the ground, whatever began before it. -/
def feed (s : Scan) (b : UInt8) : Scan :=
  match s.mode with
  | .character left =>
      ⟨if left ≤ 1 then .ground else .character (left - 1), true, b :: s.shown⟩
  | mode =>
      if !s.isShowing then s.hidden b
      else if Mode.ground.shows b then s.showOctet b
      else hidden { s with mode := (Mode.ground.change b).getD mode } b

def feedAll (s : Scan) (text : Octets) : Scan :=
  text.foldl feed s

end Scan

/-- What is left of octets without what controls terminals. -/
def strip (text : Octets) : Octets :=
  (Scan.start.feedAll text).shown.reverse

/-- A text without what controls terminals. -/
def plain (s : String) : String :=
  Utf8.decodeLossy (strip (Utf8.encode s))

/-- Whether an octet is a visible character by itself, or a blank. -/
def isPlain (b : UInt8) : Bool :=
  within 0x20 0x7E b

/-- What is plain is a character by itself. -/
theorem tail?_of_isPlain
    {b : UInt8}
    (h : isPlain b = true) :
    tail? b = none := by
  simp only [isPlain, within, Bool.and_eq_true, decide_eq_true_eq, UInt8.le_iff_toNat_le] at h
  have hsmall : b.toNat ≤ 126 := h.2
  have hfalse : ∀ low high : UInt8, 127 ≤ low.toNat → within low high b = false := by
    intro low high hlow
    simp only [within, Bool.and_eq_false_iff, decide_eq_false_iff_not, UInt8.le_iff_toNat_le]
    exact Or.inl (by omega)
  simp [tail?, hfalse]

theorem change_of_isPlain
    {b : UInt8}
    (h : isPlain b = true) :
    Mode.ground.change b = none := by
  have hcancel : b ≠ 0x18 := fun heq => absurd (heq ▸ h) (by decide)
  have hsubstitute : b ≠ 0x1A := fun heq => absurd (heq ▸ h) (by decide)
  have hescape : b ≠ 0x1B := fun heq => absurd (heq ▸ h) (by decide)
  simp [Mode.change, hcancel, hsubstitute, hescape, tail?_of_isPlain h]

theorem feed_of_isPlain
    {b : UInt8}
    (h : isPlain b = true)
    (shown : Octets) :
    Scan.feed ⟨.ground, true, shown⟩ b = ⟨.ground, true, b :: shown⟩ := by
  have hshows : Mode.ground.shows b = true := by
    simp only [isPlain] at h
    simp [Mode.shows, h]
  simp [Scan.feed, Scan.showOctet, hshows, change_of_isPlain h]

/-- A text without control characters stays as it is. -/
theorem strip_of_isPlain
    {text : Octets}
    (h : ∀ b ∈ text, isPlain b = true) :
    strip text = text := by
  have hall : ∀ shown,
      Scan.feedAll ⟨.ground, true, shown⟩ text = ⟨.ground, true, text.reverse ++ shown⟩ := by
    induction text with
    | nil =>
        intro shown
        rfl
    | cons b rest ih =>
        intro shown
        have hrest := ih (fun c hc => h c (List.mem_cons_of_mem b hc)) (b :: shown)
        simp only [Scan.feedAll] at hrest
        simp [Scan.feedAll, feed_of_isPlain (h b List.mem_cons_self), hrest]
  simp [strip, Scan.start, hall]

end Terminal
end SyslogIntake

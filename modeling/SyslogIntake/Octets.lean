/-!
# Octets

What travels over a connection is a list of octets.  This module names the few
octets that carry meaning for line-oriented text, and says how a line ends and
how a two-octet number is read.

**Results.**

* `splitLine_eq_some` : a split line and the rest make up the text again;
* `splitLine_eq_none` : a text without a line feed is not split.
-/

namespace SyslogIntake

/-- A stretch of a byte stream. -/
abbrev Octets := List UInt8

namespace Octets

/-- The line feed that ends a line. -/
def lineFeed : UInt8 := 10

/-- The carriage return that may stand before a line feed. -/
def carriageReturn : UInt8 := 13

/-- The blank between the fields of a text header. -/
def space : UInt8 := 32

/-- Whether an octet is one of the digits 0 to 9. -/
def isDigit (b : UInt8) : Bool :=
  48 ≤ b && b ≤ 57

/-- The number that a run of digits writes in base ten. -/
def decimal (digits : Octets) : Nat :=
  digits.foldl (fun value b => value * 10 + (b.toNat - 48)) 0

/-- The number that two octets write, the more significant one first. -/
def bigEndian (high low : UInt8) : Nat :=
  high.toNat * 256 + low.toNat

/-- The first line, without its line feed, and what follows the line feed. -/
def splitLine (text : Octets) : Option (Octets × Octets) :=
  match text.dropWhile (· != lineFeed) with
  | [] => none
  | _ :: rest => some (text.takeWhile (· != lineFeed), rest)

/-- Drop one trailing octet `b`, if there is one. -/
def trimLast (b : UInt8) (text : Octets) : Octets :=
  if text.getLast? = some b then text.dropLast else text

/-- A two-octet number is below 65536. -/
theorem bigEndian_lt
    (high low : UInt8) :
    bigEndian high low < 65536 := by
  have hh := high.toNat_lt
  have hl := low.toNat_lt
  simp only [bigEndian]
  omega

/-- A short run of digits is found at the front of a text whose next octet is none. -/
theorem takeWhile_digits
    {digits rest : Octets} {b : UInt8} {most : Nat}
    (hdigits : ∀ d ∈ digits, isDigit d = true)
    (hlength : digits.length ≤ most)
    (hb : isDigit b = false) :
    ((digits ++ b :: rest).take (most + 1)).takeWhile isDigit = digits := by
  have hsucc : most + 1 - digits.length = (most - digits.length) + 1 := by omega
  rw [List.take_append, List.take_of_length_le (by omega), hsucc, List.take_succ_cons,
    List.takeWhile_append_of_pos hdigits, List.takeWhile_cons]
  simp [hb]

/-- A split line, its line feed and the rest make up the text. -/
theorem splitLine_eq_some
    {text line rest : Octets}
    (h : splitLine text = some (line, rest)) :
    text = line ++ lineFeed :: rest := by
  unfold splitLine at h
  split at h
  · cases h
  · rename_i b tail hdrop
    simp only [Option.some.injEq, Prod.mk.injEq] at h
    obtain ⟨hline, hrest⟩ := h
    have hb : b = lineFeed := by
      have hhead := List.head?_dropWhile_not (· != lineFeed) text
      rw [hdrop] at hhead
      simpa using hhead
    have happend : text.takeWhile (· != lineFeed) ++ text.dropWhile (· != lineFeed) = text :=
      List.takeWhile_append_dropWhile
    rw [hdrop, hline, hb, hrest] at happend
    exact happend.symm

/-- A text is left whole exactly if it holds no line feed. -/
theorem splitLine_eq_none
    {text : Octets} :
    splitLine text = none ↔ lineFeed ∉ text := by
  induction text with
  | nil =>
      simp [splitLine]
  | cons b text ih =>
      by_cases hb : b = lineFeed
      · simp [splitLine, hb]
      · have hne : lineFeed ≠ b := fun h => hb h.symm
        have hsplit :
            splitLine (b :: text) = none ↔ splitLine text = none := by
          unfold splitLine
          simp only [List.dropWhile_cons, bne_iff_ne, ne_eq, hb, not_false_eq_true, if_true]
          cases text.dropWhile (· != lineFeed) <;> simp
        rw [hsplit, ih]
        simp [hne]

end Octets
end SyslogIntake

import SyslogIntake.Octets

/-!
# UTF-8

Characters are written as one to four octets.  Reading is a scan over the octets
with a mode that says how many octets of the current character are still to come
and which values the next one may have.  An octet that does not fit ends a broken
piece and is looked at again as the start of a character, so a broken text
breaks into the longest pieces that could have been the beginning of one.

**Results.**

* `feedAll_found` : what a scan has found stays found.
-/

namespace SyslogIntake
namespace Utf8

def encodeChar (c : Char) : Octets :=
  let n := c.toNat
  if n < 0x80 then
    [UInt8.ofNat n]
  else if n < 0x800 then
    [UInt8.ofNat (0xC0 + n / 64), UInt8.ofNat (0x80 + n % 64)]
  else if n < 0x10000 then
    [UInt8.ofNat (0xE0 + n / 4096), UInt8.ofNat (0x80 + n / 64 % 64),
      UInt8.ofNat (0x80 + n % 64)]
  else
    [UInt8.ofNat (0xF0 + n / 262144), UInt8.ofNat (0x80 + n / 4096 % 64),
      UInt8.ofNat (0x80 + n / 64 % 64), UInt8.ofNat (0x80 + n % 64)]

def encode (s : String) : Octets :=
  s.toList.flatMap encodeChar

/-- What a scan finds: a character, or octets that make up none. -/
inductive Piece
  | char (c : Char)
  | broken
  deriving DecidableEq, Repr

/-- How far the scan is into the current character. -/
inductive Mode
  | start
  | within (left low high value : Nat)
  deriving DecidableEq, Repr

/-- Take an octet as the first one of a character. -/
def first (b : UInt8) : List Piece × Mode :=
  let n := b.toNat
  if n < 0x80 then ([.char (Char.ofNat n)], .start)
  else if n < 0xC2 then ([.broken], .start)
  else if n < 0xE0 then ([], .within 1 0x80 0xBF (n - 0xC0))
  else if n = 0xE0 then ([], .within 2 0xA0 0xBF 0)
  else if n = 0xED then ([], .within 2 0x80 0x9F (n - 0xE0))
  else if n < 0xF0 then ([], .within 2 0x80 0xBF (n - 0xE0))
  else if n = 0xF0 then ([], .within 3 0x90 0xBF 0)
  else if n < 0xF4 then ([], .within 3 0x80 0xBF (n - 0xF0))
  else if n = 0xF4 then ([], .within 3 0x80 0x8F 4)
  else ([.broken], .start)

/-- One octet: the pieces that it completes and the mode after it. -/
def step : Mode → UInt8 → List Piece × Mode
  | .start, b => first b
  | .within left low high value, b =>
      if low ≤ b.toNat ∧ b.toNat ≤ high then
        let value := value * 64 + (b.toNat - 0x80)
        if left ≤ 1 then ([.char (Char.ofNat value)], .start)
        else ([], .within (left - 1) 0x80 0xBF value)
      else
        (.broken :: (first b).1, (first b).2)

/-- The end of the text breaks off a character that is not complete. -/
def finish : Mode → List Piece
  | .start => []
  | .within .. => [.broken]

/-- A scan on its way: the pieces found so far, the latest one first, and its mode. -/
structure Scan where
  found : List Piece
  mode : Mode
  deriving DecidableEq, Repr

def Scan.feed (s : Scan) (b : UInt8) : Scan :=
  ⟨(step s.mode b).1.reverse ++ s.found, (step s.mode b).2⟩

def Scan.feedAll (s : Scan) (text : Octets) : Scan :=
  text.foldl Scan.feed s

/-- The pieces of a whole text. -/
def pieces (text : Octets) : List Piece :=
  let s := Scan.feedAll ⟨[], .start⟩ text
  (finish s.mode ++ s.found).reverse

/-- The character of a piece, a replacement character for a broken one. -/
def Piece.shown : Piece → Char
  | .char c => c
  | .broken => Char.ofNat 0xFFFD

def Piece.char? : Piece → Option Char
  | .char c => some c
  | .broken => none

/-- The text that the octets write, if they write one. -/
def decode (text : Octets) : Option String :=
  ((pieces text).mapM Piece.char?).map String.ofList

/-- The text that the octets write, with a replacement character for each broken piece. -/
def decodeLossy (text : Octets) : String :=
  String.ofList ((pieces text).map Piece.shown)

/-- What a scan has found stays found. -/
theorem feedAll_found
    (found : List Piece)
    (mode : Mode)
    (text : Octets) :
    Scan.feedAll ⟨found, mode⟩ text =
      ⟨(Scan.feedAll ⟨[], mode⟩ text).found ++ found, (Scan.feedAll ⟨[], mode⟩ text).mode⟩ := by
  induction text generalizing found mode with
  | nil =>
      rfl
  | cons b text ih =>
      have hall := ih ((step mode b).1.reverse ++ found) (step mode b).2
      have hnone := ih ((step mode b).1.reverse ++ []) (step mode b).2
      simp only [Scan.feedAll, List.foldl_cons, Scan.feed] at hall hnone ⊢
      rw [hall, hnone]
      simp

end Utf8
end SyslogIntake

/-!
# Option words

The words of an option are compared in a normal form: blanks around them and then
quotes around them are dropped, letters are lower case, and an underscore counts
as a hyphen.  Names of settings are compared in lower case only.

**Results.**

* `fold_of_lower` : a text without capitals is its own folded form.
-/

namespace SyslogIntake
namespace Text

/-- Whether a character is white space. -/
def isBlank (c : Char) : Bool :=
  let n := c.toNat
  (9 ≤ n && n ≤ 13) || n == 32 || n == 133 || n == 160 || n == 5760 ||
    (8192 ≤ n && n ≤ 8202) || n == 8232 || n == 8233 || n == 8239 || n == 8287 || n == 12288

/-- Drop the characters of a class from both ends. -/
def trim (drop : Char → Bool) (text : List Char) : List Char :=
  ((text.dropWhile drop).reverse.dropWhile drop).reverse

/--
The lower case of a letter that has an ASCII letter as its lower case.  Besides the
capitals that is the Kelvin sign; every other character can only turn into one that
occurs in no word or name.
-/
def lower (c : Char) : Char :=
  if 65 ≤ c.toNat ∧ c.toNat ≤ 90 then Char.ofNat (c.toNat + 32)
  else if c.toNat = 8490 then 'k'
  else c

def fold (text : List Char) : List Char :=
  text.map lower

def normalWord (s : String) : String :=
  let bare := trim (· == '\x22') (trim isBlank s.toList)
  String.ofList ((fold bare).map fun c => if c = '_' then '-' else c)

def folded (s : String) : String :=
  String.ofList (fold s.toList)

/-- A text without capitals is its own folded form. -/
theorem fold_of_lower
    {text : List Char}
    (h : ∀ c ∈ text, lower c = c) :
    fold text = text := by
  induction text with
  | nil =>
      rfl
  | cons c text ih =>
      have hc := h c (by simp)
      have htail := ih fun d hd => h d (by simp [hd])
      simp only [fold, List.map_cons] at htail ⊢
      rw [hc, htail]

end Text
end SyslogIntake

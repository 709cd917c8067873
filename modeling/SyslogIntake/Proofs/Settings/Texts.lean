import SyslogIntake.Proofs.Number.Writing
import SyslogIntake.Settings.Loading

/-!
# The texts of variables

The text of a variable is first taken for a truth value, a whole number or a double, and an option
that holds a text gets what is written for that value.  A text that names no such value stays as
it is; one that does stays only if it is the very text that is written.

**Results.**

* `lenientText_value` : what an option of texts gets from the text of a variable;
* `heldText_eq_iff` : the texts that are kept are those that stay as they are;
* `Kept.of_mem`, `Kept.of_slash` : a text with a character of no value is kept, so a path with a
  slash is.
-/

namespace SyslogIntake
namespace Variable

open Numeral

/-- The text that an option gets from the text of a variable. -/
def heldText (text : String) : String :=
  if Text.folded text = "true" then "true"
  else if Text.folded text = "false" then "false"
  else
    match readSigned text.toList, Binary64.read text.toList with
    | some n, _ => signed n
    | none, some x => x.plain
    | none, none => text

/-- The texts that are kept: those that name no value, and those that are written for one.  The
zero below zero is a whole number once it is read, so its text is written for no double. -/
inductive Kept : String → Prop
  | word {text : String}
      (htrue : Text.folded text ≠ "true")
      (hfalse : Text.folded text ≠ "false")
      (hnumber : Binary64.read text.toList = none) :
      Kept text
  | truth (b : Bool) :
      Kept (if b then "true" else "false")
  | whole {n : Int}
      (hn : Fits64 n) :
      Kept (signed n)
  | real {x : Binary64}
      (hx : x.Canonical)
      (hzero : x ≠ .zero true) :
      Kept x.plain

/-- An option of texts gets the text that is held for the text of a variable. -/
theorem lenientText_value
    (text : String) :
    Reading.lenientText (value text) = .ok (heldText text) := by
  rw [value, heldText]
  split_ifs
  · rfl
  · rfl
  · cases hwhole : readSigned text.toList with
    | some n =>
        obtain ⟨⟨-, hhigh⟩, -⟩ := exists_of_readSigned hwhole
        have hmost : n ≤ Json.mostWhole := hhigh
        simp only [Reading.lenientText, Json.narrowed, if_pos hmost]
    | none =>
        cases Binary64.read text.toList with
        | some x => rfl
        | none => rfl

/-- A text that begins, behind its sign, with a digit is no truth value. -/
theorem folded_of_digit
    {text : String} {negative : Bool} {c : Char} {rest : List Char}
    (htext : text.toList = signChars negative ++ c :: rest)
    (hc : isDigit 10 c = true) :
    Text.folded text ≠ "true" ∧ Text.folded text ≠ "false" := by
  have hhead : (Text.folded text).toList.head? = some (if negative then '-' else c) := by
    rw [Text.folded, htext]
    cases negative with
    | true => simp [signChars, Text.fold, show Text.lower '-' = '-' by decide]
    | false => simp [signChars, Text.fold, Binary64.lower_of_isDigit hc]
  have hne : ∀ letter, isDigit 10 letter = false → letter ≠ '-' →
      (if negative then '-' else c) ≠ letter := by
    rintro letter hletter hsign rfl
    cases negative with
    | true => exact hsign rfl
    | false => exact absurd hc (by simpa using hletter)
  constructor
  · intro hword
    rw [hword] at hhead
    exact hne 't' (by decide) (by decide) (Option.some.inj hhead).symm
  · intro hword
    rw [hword] at hhead
    exact hne 'f' (by decide) (by decide) (Option.some.inj hhead).symm

theorem heldText_signed
    {n : Int}
    (hn : Fits64 n) :
    heldText (signed n) = signed n := by
  obtain ⟨c, rest, hdigits⟩ := List.exists_cons_of_ne_nil (digits_ne_nil 10 n.natAbs)
  have hc : isDigit 10 c = true :=
    isDigit_of_mem_digits (by decide) (by decide) n.natAbs c (by simp [hdigits])
  have htext := toList_signed n
  rw [hdigits] at htext
  obtain ⟨htrue, hfalse⟩ := folded_of_digit htext hc
  rw [heldText, if_neg htrue, if_neg hfalse, readSigned_signed, if_pos hn]

/-- The text of a double is held as it is: it is read as the double again or, if it has no point,
as the whole number that it is also the text of. -/
theorem heldText_plain
    {x : Binary64}
    (hx : x.Canonical) (hzero : x ≠ .zero true) :
    heldText x.plain = x.plain := by
  have hread := Binary64.read_plain hx
  cases x with
  | finite negative m e =>
      have hsign : m = 0 → negative = false := by
        rintro rfl
        have he : e = Binary64.leastExponent := hx.full.resolve_left (by norm_num)
        cases negative with
        | true => exact absurd (by rw [he]; rfl) hzero
        | false => rfl
      obtain ⟨c, rest, htext, hc⟩ : ∃ c rest,
          (Binary64.finite negative m e).plain.toList = signChars negative ++ c :: rest ∧
            isDigit 10 c = true := by
        rw [Binary64.toList_plain]
        split_ifs
        · exact ⟨'0', [], rfl, by decide⟩
        · obtain ⟨c, rest, htext, hc⟩ := Binary64.positional_head (Binary64.shortest .upward m e)
          exact ⟨c, rest, by rw [htext], hc⟩
      obtain ⟨htrue, hfalse⟩ := folded_of_digit htext hc
      rw [heldText, if_neg htrue, if_neg hfalse, hread]
      rcases Binary64.plain_point_or_signed hx hsign with hpoint | ⟨n, hn⟩
      · rw [readSigned_eq_none_of_point hpoint]
      · rw [← hn, readSigned_signed]
        split_ifs
        · rfl
        · exact hn.symm
  | infinite negative =>
      cases negative with
      | true => decide
      | false => decide
  | nan =>
      decide

/-- The texts that are kept stay as they are. -/
theorem Kept.heldText_eq
    {text : String}
    (h : Kept text) :
    heldText text = text := by
  cases h with
  | word htrue hfalse hnumber =>
      have hwhole : readSigned text.toList = none := by
        cases h : readSigned text.toList with
        | none => rfl
        | some n =>
            obtain ⟨x, hx⟩ := Binary64.exists_read_of_readSigned h
            rw [hnumber] at hx
            cases hx
      rw [heldText, if_neg htrue, if_neg hfalse, hwhole, hnumber]
  | truth b =>
      cases b with
      | true => decide
      | false => decide
  | whole hn =>
      exact heldText_signed hn
  | real hx hzero =>
      exact heldText_plain hx hzero

/-- A text is kept if one of its characters stands in no number and in no truth value. -/
theorem Kept.of_mem
    {text : String} {c : Char}
    (hc : c ∈ text.toList)
    (hnumber : ¬ Binary64.Numeric c)
    (htruth : Text.lower c ∉ "true".toList ++ "false".toList) :
    Kept text := by
  have hfolded : Text.lower c ∈ (Text.folded text).toList := by
    rw [Text.folded, String.toList_ofList]
    exact List.mem_map_of_mem hc
  refine .word ?_ ?_ ?_
  · intro htrue
    rw [htrue] at hfolded
    exact htruth (List.mem_append_left _ hfolded)
  · intro hfalse
    rw [hfalse] at hfolded
    exact htruth (List.mem_append_right _ hfolded)
  · cases hread : Binary64.read text.toList with
    | none => rfl
    | some x => exact absurd (Binary64.numeric_of_read hread c hc) hnumber

/-- A path with a slash is kept. -/
theorem Kept.of_slash
    {text : String}
    (h : '/' ∈ text.toList) :
    Kept text :=
  .of_mem h (by decide) (by decide)

/-- The texts that are kept are those that stay as they are. -/
theorem heldText_eq_iff
    {text : String} :
    heldText text = text ↔ Kept text := by
  refine ⟨?_, Kept.heldText_eq⟩
  intro hsame
  rw [heldText] at hsame
  split_ifs at hsame with htrue hfalse
  · rw [← hsame]
    exact Kept.truth true
  · rw [← hsame]
    exact Kept.truth false
  · cases hwhole : readSigned text.toList with
    | some n =>
        rw [hwhole] at hsame
        rw [← hsame]
        exact Kept.whole (exists_of_readSigned hwhole).1
    | none =>
        cases hnumber : Binary64.read text.toList with
        | none =>
            exact Kept.word htrue hfalse hnumber
        | some x =>
            rw [hwhole, hnumber] at hsame
            have hzero : x ≠ .zero true := by
              rintro rfl
              have htext : "-0" = text := hsame
              rw [← htext] at hwhole
              exact absurd hwhole (by decide)
            rw [← hsame]
            exact Kept.real (Binary64.read_canonical hnumber) hzero

end Variable
end SyslogIntake

import Mathlib.Data.List.TakeWhile
import SyslogIntake.Output.Record

/-!
# Priorities of messages

A message carries a priority if it begins with a bracket, one to three digits of value at
most 191, and a closing bracket.  What is taken off a message is exactly that.

**Results.**

* `splitPriority_eq_iff` : a message is split as it carries a priority or none;
* `Splits.append` : octets at the end of a message do not change its priority;
* `splits_ofFrame` : a record has the priority and the rest of a message before its line end.
-/

namespace SyslogIntake
namespace Record

/-- Digits that make up a priority. -/
structure Priority (digits : Octets) : Prop where
  isDigit : ∀ d ∈ digits, Octets.isDigit d = true
  ne_nil : digits ≠ []
  short : digits.length ≤ 3
  le_most : Octets.decimal digits ≤ mostPriority

/-- A message is a priority in brackets and a rest, or it has none and is all rest. -/
inductive Splits : Octets → Nat → Octets → Prop
  | given {digits : Octets}
      (hdigits : Priority digits)
      (rest : Octets) :
      Splits (openBracket :: (digits ++ closeBracket :: rest)) (Octets.decimal digits) rest
  | bare {text : Octets}
      (hnone : ∀ digits rest, Priority digits →
        text ≠ openBracket :: (digits ++ closeBracket :: rest)) :
      Splits text defaultPriority text

theorem splitPriority_given
    {digits : Octets}
    (hdigits : Priority digits)
    (rest : Octets) :
    splitPriority (openBracket :: (digits ++ closeBracket :: rest)) =
      (Octets.decimal digits, rest) := by
  have hfront : priorityDigits (digits ++ closeBracket :: rest) = digits :=
    Octets.takeWhile_digits hdigits.isDigit hdigits.short (by decide)
  have hfits : ¬ (openBracket ≠ openBracket ∨ digits.length = 0 ∨ 3 < digits.length) := by
    rintro (hopen | hnone | hlong)
    · exact hopen rfl
    · exact hdigits.ne_nil (List.eq_nil_of_length_eq_zero hnone)
    · exact absurd hdigits.short (Nat.not_le.2 hlong)
  have hcloses : ¬ (closeBracket ≠ closeBracket ∨ mostPriority < Octets.decimal digits) := by
    rintro (hclose | hlarge)
    · exact hclose rfl
    · exact absurd hdigits.le_most (Nat.not_le.2 hlarge)
  rw [splitPriority]
  simp only [hfront, List.drop_left' rfl]
  rw [if_neg hfits, if_neg hcloses]

/-- A message from which nothing is taken off is whole, and has a priority otherwise. -/
theorem splitPriority_cases
    (payload : Octets) :
    splitPriority payload = (defaultPriority, payload) ∨
      ∃ digits rest, Priority digits ∧
        payload = openBracket :: (digits ++ closeBracket :: rest) := by
  cases payload with
  | nil =>
      exact Or.inl rfl
  | cons first text =>
      have htext : priorityDigits text ++ text.drop (priorityDigits text).length = text := by
        refine List.prefix_iff_eq_append.1 ?_
        exact (List.takeWhile_prefix _).trans (List.take_prefix 4 text)
      rw [splitPriority]
      split
      · exact Or.inl rfl
      · rename_i hfits
        split
        · exact Or.inl rfl
        · rename_i last rest hrest
          split
          · exact Or.inl rfl
          · rename_i hcloses
            simp only [not_or, ne_eq, Decidable.not_not, Nat.not_lt] at hfits hcloses
            obtain ⟨rfl, hsome, hshort⟩ := hfits
            obtain ⟨rfl, hmost⟩ := hcloses
            rw [hrest] at htext
            refine Or.inr ⟨priorityDigits text, rest, ⟨?_, ?_, hshort, hmost⟩,
              congrArg _ htext.symm⟩
            · intro d hd
              exact List.mem_takeWhile_imp hd
            · exact fun hnil => hsome (congrArg List.length hnil)

/-- A message is split as it carries a priority or none. -/
theorem splitPriority_eq_iff
    {payload rest : Octets} {priority : Nat} :
    splitPriority payload = (priority, rest) ↔ Splits payload priority rest := by
  have hsplits : ∀ payload, Splits payload (splitPriority payload).1 (splitPriority payload).2 := by
    intro payload
    by_cases hgiven : ∃ digits rest, Priority digits ∧
        payload = openBracket :: (digits ++ closeBracket :: rest)
    · obtain ⟨digits, rest, hdigits, rfl⟩ := hgiven
      rw [splitPriority_given hdigits]
      exact .given hdigits rest
    · rcases splitPriority_cases payload with hbare | hpresent
      · rw [hbare]
        refine .bare ?_
        intro digits rest hdigits heq
        exact hgiven ⟨digits, rest, hdigits, heq⟩
      · exact absurd hpresent hgiven
  constructor
  · intro h
    have hsplit := hsplits payload
    rwa [h] at hsplit
  · intro h
    cases h with
    | given hdigits rest =>
        exact splitPriority_given hdigits rest
    | bare hnone =>
        rcases splitPriority_cases payload with hbare | ⟨digits, rest, hdigits, heq⟩
        · exact hbare
        · exact absurd heq (hnone digits rest hdigits)

/-- Octets at the end of a message, no closing bracket among them, do not change its priority. -/
theorem Splits.append
    {text rest ending : Octets} {priority : Nat}
    (h : Splits text priority rest)
    (hending : closeBracket ∉ ending) :
    Splits (text ++ ending) priority (rest ++ ending) := by
  cases h with
  | given hdigits rest =>
      rw [List.cons_append, List.append_assoc, List.cons_append]
      exact .given hdigits (rest ++ ending)
  | bare hnone =>
      refine .bare ?_
      intro digits rest hdigits heq
      have hbrackets : text ++ ending = (openBracket :: digits ++ [closeBracket]) ++ rest := by
        simpa using heq
      rcases List.append_eq_append_iff.1 hbrackets with ⟨tail, hfront, hend⟩ | ⟨tail, hfront, -⟩
      · -- the brackets reach into the ending, or just up to it
        rcases List.eq_nil_or_concat tail with rfl | ⟨init, last, rfl⟩
        · rw [List.append_nil] at hfront
          exact hnone digits [] hdigits hfront.symm
        · have hlast := congrArg List.getLast? hfront
          rw [List.concat_eq_append, ← List.append_assoc, List.getLast?_concat,
            List.getLast?_concat] at hlast
          obtain rfl : closeBracket = last := Option.some.inj hlast
          exact hending (by simp [hend])
      · refine hnone digits tail hdigits ?_
        simpa using hfront

theorem Splits.suffix
    {text rest : Octets} {priority : Nat}
    (h : Splits text priority rest) :
    rest <:+ text := by
  cases h with
  | given hdigits =>
      exact (List.suffix_cons _ _).trans ((List.suffix_append _ _).trans (List.suffix_cons _ _))
  | bare hnone =>
      exact List.suffix_refl _

/-- What is taken off the end of a message. -/
def lineEnds : List Octets :=
  [[], [Octets.lineFeed], [Octets.carriageReturn], [Octets.carriageReturn, Octets.lineFeed]]

theorem trimLineEnd_append
    {text ending : Octets}
    (hfeed : text.getLast? ≠ some Octets.lineFeed)
    (hreturn : text.getLast? ≠ some Octets.carriageReturn)
    (hending : ending ∈ lineEnds) :
    trimLineEnd (text ++ ending) = text := by
  have hother : Octets.carriageReturn ≠ Octets.lineFeed := by decide
  have hsplit : text ++ [Octets.carriageReturn, Octets.lineFeed] =
      text ++ [Octets.carriageReturn] ++ [Octets.lineFeed] := by simp
  simp only [lineEnds, List.mem_cons, List.not_mem_nil, or_false] at hending
  rcases hending with rfl | rfl | rfl | rfl
  · simp [trimLineEnd, Octets.trimLast, hfeed, hreturn]
  · simp [trimLineEnd, Octets.trimLast, hreturn]
  · simp [trimLineEnd, Octets.trimLast, hother]
  · rw [hsplit]
    simp [trimLineEnd, Octets.trimLast]

/-- The record of a message with a line end behind it has what the message is split into. -/
theorem splits_ofFrame
    {message ending : Octets}
    (hfeed : message.getLast? ≠ some Octets.lineFeed)
    (hreturn : message.getLast? ≠ some Octets.carriageReturn)
    (hending : ending ∈ lineEnds)
    (declared : Option Nat) (c : Connection) :
    Splits message (ofFrame ⟨declared, message ++ ending⟩ c).priority
      (ofFrame ⟨declared, message ++ ending⟩ c).body := by
  have hclose : closeBracket ∉ ending := by
    have hall : ∀ ending ∈ lineEnds, closeBracket ∉ ending := by decide
    exact hall ending hending
  rcases hsplit : splitPriority message with ⟨priority, rest⟩
  have hmessage := splitPriority_eq_iff.1 hsplit
  have hrest : ∀ b : UInt8, message.getLast? ≠ some b → rest.getLast? ≠ some b := by
    intro b hb hlast
    obtain ⟨front, rfl⟩ := hmessage.suffix
    exact hb (by rw [List.getLast?_append, hlast, Option.some_or])
  have hwhole := splitPriority_eq_iff.2 (hmessage.append hclose)
  have htrim := trimLineEnd_append (hrest _ hfeed) (hrest _ hreturn) hending
  have hjoin : priority / 8 * 8 + priority % 8 = priority := by omega
  simp only [Record.priority, ofFrame, hwhole, htrim, hjoin]
  exact hmessage

end Record
end SyslogIntake

import SyslogIntake.Framing.Framer

/-!
# Decoding a whole text

A text that lies there as a whole is decoded portion by portion.  A portion is a line up to
its line feed, or a length with the octets that it announces; it holds a message or none.
Behind the last portion the text ends, or the stream fails with a report.  Which kind of
portion comes next is up to a rule, and one of the rules turns into another one behind the
first portion.

**Results.**

* `Rule.portion_lt` : a portion that something follows takes up octets;
* `decode_eq` : a text is decoded by its first portion and by what follows it;
* `decode_keeps` : what each portion keeps, the decoding keeps.
-/

namespace SyslogIntake

/-- A fault without the octets that were seen in place of a length. -/
def Fault.bare : Fault → Fault
  | .frameHeader _ => .frameHeader (.noLength [])
  | fault => fault

namespace Framing

/-- How a text is taken apart: at each boundary anew, all like the first portion, or one way. -/
inductive Rule
  | each
  | first
  | counted
  | lines
  deriving DecidableEq, Repr

namespace Rule

/-- The rule of a policy. -/
def ofPolicy : FramingPolicy → Rule
  | .auto => .each
  | .autoOnce => .first
  | .octetCounted => .counted
  | .nonTransparent => .lines

/-- The rule behind a portion of a kind. -/
def after (mode : Mode) : Rule → Rule
  | .first =>
      match mode with
      | .counted => .counted
      | .line => .lines
  | rule => rule

end Rule

/-- What a text comes to: its messages, and the fault behind them, if there is one. -/
structure Decoding where
  frames : List Frame
  fault : Option Fault
  deriving DecidableEq, Repr

/-- The decoding with a message in front of it, if there is one. -/
def Decoding.behind (found : Option Frame) (d : Decoding) : Decoding :=
  ⟨found.toList ++ d.frames, d.fault⟩

/-- A portion of a text: it may hold a message, and something follows or it is the last. -/
inductive Portion
  | before (found : Option Frame) (rest : Octets)
  | last (found : Option Frame) (fault : Option Fault)

def Portion.found : Portion → Option Frame
  | .before found _ => found
  | .last found _ => found

def Portion.fault : Portion → Option Fault
  | .before _ _ => none
  | .last _ fault => fault

/-- One to ten digits and a space at the front of a text: the number, and what follows. -/
def lengthAt? (text : Octets) : Option (Nat × Octets) :=
  let digits := text.takeWhile Octets.isDigit
  match text.dropWhile Octets.isDigit with
  | [] => none
  | b :: rest =>
      if b = Octets.space ∧ 1 ≤ digits.length ∧ digits.length ≤ mostDigits then
        some (Octets.decimal digits, rest)
      else none

/-- Whether a text is a run of digits that may still become a length. -/
def mayBecomeLength (text : Octets) : Prop :=
  text.length ≤ mostDigits ∧ ∀ b ∈ text, Octets.isDigit b = true

instance (text : Octets) : Decidable (mayBecomeLength text) :=
  inferInstanceAs (Decidable (_ ∧ _))

/-- A line; blank ones and long ones hold no message, and the last one needs no line feed. -/
def linePortion (close : Option String) (most : Nat) (text : Octets) : Portion :=
  match text.idxOf? Octets.lineFeed with
  | some place =>
      let line := text.take place
      let dropped := line = [] ∨ line = [Octets.carriageReturn] ∨ most < line.length
      .before (if dropped then none else some ⟨none, line⟩) (text.drop (place + 1))
  | none =>
      match close with
      | some report => .last none (some (.io report))
      | none =>
          let dropped := text = [] ∨ most < text.length
          .last (if dropped then none else some ⟨none, text⟩) none

/-- The octets that a length announces. -/
def bodyPortion (close : Option String) (length : Nat) (text : Octets) : Portion :=
  if text.length < length then
    match close with
    | some report => .last none (some (.io report))
    | none => .last none (some (.truncated length text.length))
  else
    .before (if length = 0 then none else some ⟨some length, text.take length⟩)
      (text.drop length)

/-- The octets that a length announces, unless there are too many of them. -/
def countedPortion (close : Option String) (most length : Nat) (text : Octets) : Portion :=
  if most < length then .last none (some (.oversized length most))
  else bodyPortion close length text

/-- What stands where there should be a length. -/
def lackingPortion (close : Option String) (text : Octets) : Portion :=
  if mayBecomeLength text then
    match close with
    | some report => .last none (some (.io report))
    | none => .last none (if text = [] then none else some (.frameHeader (.noLength [])))
  else .last none (some (.frameHeader (.noLength [])))

/-- The first portion of a text, and the rule for what follows. -/
def Rule.portion (close : Option String) (most : Nat) (rule : Rule) (text : Octets) :
    Portion × Rule :=
  match rule with
  | .lines => (linePortion close most text, .lines)
  | .counted =>
      let text := text.dropWhile Search.isLineEnd
      match lengthAt? text with
      | some (length, rest) => (countedPortion close most length rest, .counted)
      | none => (lackingPortion close text, .counted)
  | .each | .first =>
      match lengthAt? text with
      | some (length, rest) => (countedPortion close most length rest, rule.after .counted)
      | none => (linePortion close most text, rule.after .line)

theorem lengthAt?_lt
    {text rest : Octets} {length : Nat}
    (h : lengthAt? text = some (length, rest)) :
    rest.length < text.length := by
  unfold lengthAt? at h
  dsimp only at h
  split at h
  · simp at h
  · rename_i b tail hdrop
    split at h
    · simp only [Option.some.injEq, Prod.mk.injEq] at h
      have hle : (text.dropWhile Octets.isDigit).length ≤ text.length :=
        (List.dropWhile_suffix Octets.isDigit).length_le
      rw [hdrop, List.length_cons, h.2] at hle
      exact hle
    · simp at h

/-- A text is split where its first line feed stands. -/
theorem splitLine_eq_idxOf?
    (text : Octets) :
    Octets.splitLine text =
      (text.idxOf? Octets.lineFeed).map fun place =>
        (text.take place, text.drop (place + 1)) := by
  induction text with
  | nil =>
      rfl
  | cons b text ih =>
      by_cases hb : b = Octets.lineFeed
      · simp [Octets.splitLine, List.idxOf?_cons, hb]
      · have hsplit :
            Octets.splitLine (b :: text) =
              (Octets.splitLine text).map fun found => (b :: found.1, found.2) := by
          unfold Octets.splitLine
          simp only [List.dropWhile_cons, List.takeWhile_cons, bne_iff_ne, ne_eq, hb,
            not_false_eq_true, if_true]
          cases text.dropWhile (· != Octets.lineFeed) <;> rfl
        rw [hsplit, ih, Option.map_map]
        simp [List.idxOf?_cons, hb, Function.comp_def]

theorem linePortion_lt
    {close : Option String} {most : Nat} {text rest : Octets} {found : Option Frame}
    (h : linePortion close most text = .before found rest) :
    rest.length < text.length := by
  unfold linePortion at h
  split at h
  · rename_i place hplace
    simp only [Portion.before.injEq] at h
    obtain ⟨hlt, _⟩ := List.idxOf?_eq_some_iff.1 hplace
    rw [← h.2, List.length_drop]
    omega
  · split at h <;> simp at h

/-- What a length announces leaves no more than there was. -/
theorem bodyPortion_le
    {close : Option String} {length : Nat} {text rest : Octets} {found : Option Frame}
    (h : bodyPortion close length text = .before found rest) :
    rest.length ≤ text.length := by
  unfold bodyPortion at h
  split at h
  · split at h <;> simp at h
  · simp only [Portion.before.injEq] at h
    rw [← h.2, List.length_drop]
    omega

theorem countedPortion_le
    {close : Option String} {most length : Nat} {text rest : Octets} {found : Option Frame}
    (h : countedPortion close most length text = .before found rest) :
    rest.length ≤ text.length := by
  unfold countedPortion at h
  split at h
  · simp at h
  · exact bodyPortion_le h

/-- A portion that something follows takes up octets. -/
theorem Rule.portion_lt
    {close : Option String} {most : Nat} {rule next : Rule} {text rest : Octets}
    {found : Option Frame}
    (h : rule.portion close most text = (.before found rest, next)) :
    rest.length < text.length := by
  cases rule with
  | lines =>
      simp only [portion, Prod.mk.injEq] at h
      exact linePortion_lt h.1
  | counted =>
      have hle : (text.dropWhile Search.isLineEnd).length ≤ text.length :=
        (List.dropWhile_suffix Search.isLineEnd).length_le
      simp only [portion] at h
      split at h
      · rename_i length tail hlength
        simp only [Prod.mk.injEq] at h
        have hlt := lengthAt?_lt hlength
        have hrest := countedPortion_le h.1
        omega
      · simp only [Prod.mk.injEq, lackingPortion] at h
        split at h
        · split at h <;> simp at h
        · simp at h
  | each | first =>
      simp only [portion] at h
      split at h
      · rename_i length tail hlength
        simp only [Prod.mk.injEq] at h
        have hlt := lengthAt?_lt hlength
        have hrest := countedPortion_le h.1
        omega
      · simp only [Prod.mk.injEq] at h
        exact linePortion_lt h.1

/-- Decode a text, behind which the stream fails with the report `close` or just ends. -/
def decode (close : Option String) (most : Nat) (rule : Rule) (text : Octets) : Decoding :=
  match _h : rule.portion close most text with
  | (.before found rest, next) => (decode close most next rest).behind found
  | (.last found fault, _) => ⟨found.toList, fault⟩
termination_by text.length
decreasing_by
  exact Rule.portion_lt _h

/-- What a portion comes to together with what follows it. -/
def Portion.decoding (close : Option String) (most : Nat) (rule : Rule) : Portion → Decoding
  | .before found rest => (decode close most rule rest).behind found
  | .last found fault => ⟨found.toList, fault⟩

theorem decode_eq
    (close : Option String) (most : Nat) (rule : Rule) (text : Octets) :
    decode close most rule text =
      (rule.portion close most text).1.decoding close most (rule.portion close most text).2 := by
  rw [decode]
  split
  · rename_i found rest next hportion
    rw [hportion]
    rfl
  · rename_i found fault next hportion
    rw [hportion]
    rfl

/-- What each portion of a rule keeps that stays the same, the decoding of a text keeps. -/
theorem decode_keeps
    {close : Option String} {most : Nat} {rule : Rule} {P : Frame → Prop} {Q : Option Fault → Prop}
    (hstay : ∀ text, (rule.portion close most text).2 = rule)
    (hfound : ∀ text, ∀ frame ∈ (rule.portion close most text).1.found, P frame)
    (hfault : ∀ text, Q (rule.portion close most text).1.fault)
    (text : Octets) :
    (∀ frame ∈ (decode close most rule text).frames, P frame) ∧
      Q (decode close most rule text).fault := by
  induction hlength : text.length using Nat.strongRecOn generalizing text with
  | _ length ih =>
      subst hlength
      have hfirst := hfound text
      have hlast := hfault text
      rw [decode_eq, hstay text]
      cases hportion : (rule.portion close most text).1 with
      | before found rest =>
          rw [hportion] at hfirst
          obtain ⟨hframes, hend⟩ :=
            ih rest.length (Rule.portion_lt (Prod.ext hportion (hstay text))) rest rfl
          refine ⟨fun frame hframe => ?_, hend⟩
          rcases List.mem_append.1 hframe with hhere | hlater
          · exact hfirst frame (Option.mem_toList.1 hhere)
          · exact hframes frame hlater
      | last found fault =>
          rw [hportion] at hfirst hlast
          exact ⟨fun frame hframe => hfirst frame (Option.mem_toList.1 hframe), hlast⟩

theorem Rule.portion_nil
    (most : Nat) (rule : Rule) :
    (rule.portion none most []).1 = .last none none := by
  cases rule with
  | each | first | lines =>
      simp [portion, lengthAt?, linePortion]
  | counted =>
      simp [portion, lengthAt?, lackingPortion, mayBecomeLength]

theorem decode_nil
    (most : Nat) (rule : Rule) :
    decode none most rule [] = ⟨[], none⟩ := by
  rw [decode_eq, rule.portion_nil]
  simp [Portion.decoding]

end Framing
end SyslogIntake

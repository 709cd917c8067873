import Mathlib.Data.List.DropRight
import Mathlib.Data.List.TakeWhile
import SyslogIntake.Framing.Reader
import SyslogIntake.Proofs.Framing.Decoding
import SyslogIntake.Proofs.Stream.Questions

/-!
# Searching for a message

A search only ever sees the octets that have arrived.  What it has found out so far is a
phase and a framer, and together with the octets that are still to come these have a
decoding: the one that the whole text has.  Each step of a search keeps it.

**Results.**

* `Search.step_agrees` : a step keeps the decoding of the whole text;
* `Search.inquiry_means` : a search means the decoding of the whole text;
* `Search.attempt_decodes` : the next message is the first one of the decoding.
-/

namespace SyslogIntake

/-- The rule that a framer follows at the next boundary. -/
def Framer.rule (f : Framer) : Framing.Rule :=
  match f.lock with
  | some .counted => .counted
  | some .line => .lines
  | none => if f.policy = .autoOnce then .first else .each

theorem Framer.rule_start
    (policy : FramingPolicy) (most : Nat) :
    (start policy most).rule = Framing.Rule.ofPolicy policy := by
  cases policy <;> rfl

theorem Framer.rule_noting
    (mode : Mode) (f : Framer) :
    (f.noting mode).rule = f.rule.after mode := by
  obtain ⟨policy, most, lock, latest, discarding⟩ := f
  rcases lock with _ | held
  · by_cases hpolicy : policy = .autoOnce
    · cases mode <;> simp [rule, noting, Framing.Rule.after, hpolicy]
    · cases mode <;> simp [rule, noting, Framing.Rule.after, hpolicy]
  · cases held <;> cases mode <;> simp [rule, noting, Framing.Rule.after]

namespace Framing

theorem leadingDigits_eq
    (text : Octets) :
    leadingDigits text = (text.takeWhile Octets.isDigit).take (mostDigits + 1) := by
  unfold leadingDigits
  generalize mostDigits + 1 = count
  induction text generalizing count with
  | nil =>
      simp
  | cons b text ih =>
      cases count with
      | zero =>
          rfl
      | succ count =>
          by_cases hb : Octets.isDigit b = true
          · simp [hb, ih]
          · simp [hb]

/-- A text is a run of digits and what follows it, which does not begin with a digit. -/
theorem exists_digits
    (text : Octets) :
    ∃ digits rest, text = digits ++ rest ∧ (∀ b ∈ digits, Octets.isDigit b = true) ∧
      (∀ b tail, rest = b :: tail → Octets.isDigit b = false) := by
  refine ⟨text.takeWhile Octets.isDigit, text.dropWhile Octets.isDigit,
    List.takeWhile_append_dropWhile.symm, ?_, ?_⟩
  · intro b hb
    exact List.mem_takeWhile_imp hb
  · intro b tail hrest
    have hhead := List.head?_dropWhile_not Octets.isDigit text
    rw [hrest] at hhead
    simpa using hhead

/-- Behind a run of digits that has ended, a length is there or not, whatever follows. -/
theorem lengthAt?_digits
    {digits : Octets} {b : UInt8}
    (hdigits : ∀ d ∈ digits, Octets.isDigit d = true)
    (hb : Octets.isDigit b = false)
    (rest : Octets) :
    lengthAt? (digits ++ b :: rest) =
      if b = Octets.space ∧ 1 ≤ digits.length ∧ digits.length ≤ mostDigits then
        some (Octets.decimal digits, rest)
      else none := by
  unfold lengthAt?
  rw [List.takeWhile_append_of_pos hdigits, List.dropWhile_append_of_pos hdigits]
  simp [hb]

theorem lengthAt?_long
    {digits : Octets}
    (hdigits : ∀ d ∈ digits, Octets.isDigit d = true)
    (hlong : mostDigits < digits.length)
    (more : Octets) :
    lengthAt? (digits ++ more) = none := by
  obtain ⟨others, rest, rfl, hothers, hrest⟩ := exists_digits more
  have hall : ∀ d ∈ digits ++ others, Octets.isDigit d = true := by
    intro d hd
    rcases List.mem_append.1 hd with h | h
    · exact hdigits d h
    · exact hothers d h
  rw [← List.append_assoc]
  cases rest with
  | nil =>
      unfold lengthAt?
      rw [List.append_nil, List.dropWhile_eq_nil_iff.2 hall]
  | cons b tail =>
      rw [lengthAt?_digits hall (hrest b tail rfl)]
      rw [if_neg]
      rintro ⟨_, _, hle⟩
      rw [List.length_append] at hle
      omega

theorem lengthAt?_of_all
    {digits : Octets}
    (hdigits : ∀ d ∈ digits, Octets.isDigit d = true) :
    lengthAt? digits = none := by
  unfold lengthAt?
  rw [List.dropWhile_eq_nil_iff.2 hdigits]

theorem leadingDigits_of_digits
    {digits rest : Octets}
    (hdigits : ∀ b ∈ digits, Octets.isDigit b = true)
    (hrest : ∀ b tail, rest = b :: tail → Octets.isDigit b = false) :
    leadingDigits (digits ++ rest) = digits.take (mostDigits + 1) := by
  rw [leadingDigits_eq, List.takeWhile_append_of_pos hdigits]
  cases rest with
  | nil =>
      simp
  | cons b tail =>
      simp [hrest b tail rfl]

theorem sniff_long
    {digits rest : Octets}
    (hdigits : ∀ b ∈ digits, Octets.isDigit b = true)
    (hrest : ∀ b tail, rest = b :: tail → Octets.isDigit b = false)
    (hlong : mostDigits < digits.length) :
    sniff (digits ++ rest) = .line := by
  have hlength : (digits.take (mostDigits + 1)).length = mostDigits + 1 := by
    rw [List.length_take]
    omega
  unfold sniff
  rw [leadingDigits_of_digits hdigits hrest]
  simp [hlength]

theorem sniff_digits
    {digits : Octets}
    (hdigits : ∀ b ∈ digits, Octets.isDigit b = true)
    (hshort : digits.length ≤ mostDigits) :
    sniff digits = .undecided := by
  have hlead := @leadingDigits_of_digits digits [] hdigits (by simp)
  rw [List.append_nil, List.take_of_length_le (by omega)] at hlead
  unfold sniff
  rw [hlead]
  cases digits with
  | nil =>
      rfl
  | cons d digits =>
      simpa using hshort

/-- Digits that have ended are a length, or they begin a line. -/
theorem sniff_ended
    {digits : Octets} {b : UInt8}
    (hdigits : ∀ d ∈ digits, Octets.isDigit d = true)
    (hb : Octets.isDigit b = false)
    (hshort : digits.length ≤ mostDigits)
    (tail : Octets) :
    sniff (digits ++ b :: tail) =
      if b = Octets.space ∧ 1 ≤ digits.length then
        .counted (Octets.decimal digits) (digits.length + 1)
      else .line := by
  have hrest : ∀ c rest, b :: tail = c :: rest → Octets.isDigit c = false := by
    rintro c rest h
    obtain ⟨rfl, _⟩ := List.cons.inj h
    exact hb
  unfold sniff
  rw [leadingDigits_of_digits hdigits hrest, List.take_of_length_le (by omega)]
  cases digits with
  | nil =>
      simp
  | cons d digits =>
      by_cases hspace : b = Octets.space
      · simpa [hspace] using hshort
      · simp [hspace]

/-- What is recognised at a boundary is there whatever follows; else it may become a length. -/
theorem sniff_spec
    (text : Octets) :
    (∃ length headerLength, sniff text = .counted length headerLength ∧
        ∀ more, lengthAt? (text ++ more) = some (length, text.drop headerLength ++ more)) ∨
      (sniff text = .line ∧
        ∀ more, lengthAt? (text ++ more) = none ∧ ¬ mayBecomeLength (text ++ more)) ∨
      (sniff text = .undecided ∧ lengthAt? text = none ∧ mayBecomeLength text) := by
  obtain ⟨digits, rest, rfl, hdigits, hrest⟩ := exists_digits text
  by_cases hlong : mostDigits < digits.length
  · refine Or.inr (Or.inl ⟨sniff_long hdigits hrest hlong, fun more => ⟨?_, ?_⟩⟩)
    · rw [List.append_assoc]
      exact lengthAt?_long hdigits hlong _
    · rintro ⟨hle, _⟩
      simp only [List.length_append] at hle
      omega
  · have hshort : digits.length ≤ mostDigits := Nat.not_lt.1 hlong
    cases rest with
    | nil =>
        rw [List.append_nil]
        exact Or.inr (Or.inr ⟨sniff_digits hdigits hshort, lengthAt?_of_all hdigits, hshort,
          hdigits⟩)
    | cons b tail =>
        have hb := hrest b tail rfl
        have hlength : ∀ more, lengthAt? (digits ++ b :: tail ++ more) =
            if b = Octets.space ∧ 1 ≤ digits.length ∧ digits.length ≤ mostDigits then
              some (Octets.decimal digits, tail ++ more)
            else none := by
          intro more
          rw [List.append_assoc, List.cons_append, lengthAt?_digits hdigits hb]
        by_cases hspace : b = Octets.space ∧ 1 ≤ digits.length
        · refine Or.inl ⟨Octets.decimal digits, digits.length + 1, ?_, fun more => ?_⟩
          · rw [sniff_ended hdigits hb hshort, if_pos hspace]
          · rw [hlength more, if_pos ⟨hspace.1, hspace.2, hshort⟩]
            simp [List.drop_append]
        · refine Or.inr (Or.inl ⟨?_, fun more => ⟨?_, ?_⟩⟩)
          · rw [sniff_ended hdigits hb hshort, if_neg hspace]
          · rw [hlength more, if_neg fun h => hspace ⟨h.1, h.2.1⟩]
          · rintro ⟨_, hall⟩
            have hdigit := hall b (by simp)
            simp [hb] at hdigit

theorem sniff_append
    {text : Octets}
    (h : sniff text ≠ .undecided)
    (more : Octets) :
    sniff (text ++ more) = sniff text := by
  obtain ⟨digits, rest, rfl, hdigits, hrest⟩ := exists_digits text
  by_cases hlong : mostDigits < digits.length
  · -- the digits may go on behind the text, they are too many all the same
    obtain ⟨others, tail, hmore, hothers, htail⟩ := exists_digits (rest ++ more)
    have hall : ∀ d ∈ digits ++ others, Octets.isDigit d = true := by
      intro d hd
      rcases List.mem_append.1 hd with hd | hd
      · exact hdigits d hd
      · exact hothers d hd
    have hlonger : mostDigits < (digits ++ others).length := by
      rw [List.length_append]
      omega
    rw [List.append_assoc, hmore, ← List.append_assoc, sniff_long hall htail hlonger,
      sniff_long hdigits hrest hlong]
  · have hshort : digits.length ≤ mostDigits := Nat.not_lt.1 hlong
    cases rest with
    | nil =>
        rw [List.append_nil] at h
        exact absurd (sniff_digits hdigits hshort) h
    | cons b tail =>
        have hb := hrest b tail rfl
        rw [List.append_assoc, List.cons_append, sniff_ended hdigits hb hshort,
          sniff_ended hdigits hb hshort]

/-- What is left of a line whose beginning was dropped. -/
def tailPortion (close : Option String) (text : Octets) : Portion :=
  match text.idxOf? Octets.lineFeed with
  | some place => .before none (text.drop (place + 1))
  | none =>
      match close with
      | some report => .last none (some (.io report))
      | none => .last none none

namespace Search

/--
What the octets in front of a search come to: at a boundary they are decoded, a length that
was taken announces a message, and the beginning of a line may have been dropped.
-/
def decode (close : Option String) (s : Search) (text : Octets) : Decoding :=
  match s.phase with
  | .boundary => Framing.decode close s.framer.most s.framer.rule text
  | .counted length =>
      (bodyPortion close length text).decoding close s.framer.most s.framer.rule
  | .line =>
      if s.framer.discarding then
        (tailPortion close text).decoding close s.framer.most s.framer.rule
      else
        (linePortion close s.framer.most text).decoding close s.framer.most s.framer.rule

/-- Only within a line is the rest of it dropped. -/
def Keeps (s : Search) : Prop :=
  s.framer.discarding = true → s.phase = .line

/-- A search that wants more octets than those in front of it. -/
def Stuck (s : Search) (text : Octets) : Prop :=
  match s.phase with
  | .boundary => s.boundaryText text = text ∧ s.boundaryStart text = .undecided
  | .counted length => text.length < length
  | .line => Octets.lineFeed ∉ text ∧ text.length ≤ s.framer.most

/-- A result is the first message of a decoding, or it is the end of it. -/
def Answers (close : Option String) (result : Result) (rest : Octets) (d : Decoding) : Prop :=
  result.framer.discarding = false ∧
    match result.outcome with
    | .frame found =>
        d = (Framing.decode close result.framer.most result.framer.rule rest).behind (some found)
    | .ended => d = ⟨[], none⟩
    | .fault cause => d = ⟨[], some cause.bare⟩

end Search

/-- A step agrees with a decoding if it keeps it, whatever more octets follow. -/
def Step.Agrees (close : Option String) (meaning : Octets → Decoding) : Step → Prop
  | .settled result rest => ∀ more, Search.Answers close result (rest ++ more) (meaning more)
  | .wanting s rest => s.Keeps ∧ s.Stuck rest ∧ ∀ more, meaning more = s.decode close (rest ++ more)
  | .again s rest => s.Keeps ∧ ∀ more, meaning more = s.decode close (rest ++ more)

namespace Search

theorem decode_boundary
    {s : Search}
    (h : s.phase = .boundary)
    (close : Option String) (text : Octets) :
    s.decode close text = Framing.decode close s.framer.most s.framer.rule text := by
  simp [decode, h]

theorem takeCounted_agrees
    {s : Search}
    (hkeep : s.framer.discarding = false)
    (close : Option String) (length : Nat) (text : Octets) :
    (takeCounted s length text).Agrees close fun more =>
      (bodyPortion close length (text ++ more)).decoding close s.framer.most s.framer.rule := by
  unfold takeCounted
  split
  · rename_i hlt
    refine ⟨fun h => ?_, hlt, fun more => rfl⟩
    rw [hkeep] at h
    cases h
  · rename_i hle
    split
    · rename_i hzero
      refine ⟨fun h => ?_, fun more => ?_⟩
      · rw [skip, hkeep] at h
        cases h
      · subst hzero
        simp [bodyPortion, Portion.decoding, Decoding.behind, decode, skip]
    · rename_i hsome
      intro more
      refine ⟨hkeep, ?_⟩
      have hnot : ¬ (text ++ more).length < length := by
        rw [List.length_append]
        omega
      have hlength : length ≤ text.length := Nat.not_lt.1 hle
      simp only [bodyPortion, hnot, if_false, hsome, Portion.decoding, result]
      rw [List.take_append_of_le_length hlength, List.drop_append_of_le_length hlength]

theorem idxOf?_append_of_notMem
    {text : Octets}
    (h : Octets.lineFeed ∉ text)
    (more : Octets) :
    (text ++ more).idxOf? Octets.lineFeed =
      (more.idxOf? Octets.lineFeed).map (· + text.length) := by
  have hnone : text.idxOf? Octets.lineFeed = none := List.idxOf?_eq_none_iff.2 h
  unfold List.idxOf? at hnone ⊢
  rw [List.findIdx?_append, hnone, Option.none_or]

theorem idxOf?_append_of_some
    {text : Octets} {place : Nat}
    (h : text.idxOf? Octets.lineFeed = some place)
    (more : Octets) :
    (text ++ more).idxOf? Octets.lineFeed = some place := by
  unfold List.idxOf? at h ⊢
  rw [List.findIdx?_append, h, Option.some_or]

/-- The first line feed is found as well in what holds it. -/
theorem idxOf?_take
    {text : Octets} {place count : Nat}
    (h : text.idxOf? Octets.lineFeed = some place)
    (hwithin : place < count) :
    (text.take count).idxOf? Octets.lineFeed = some place := by
  have hlength : place < text.length := (List.idxOf?_eq_some_iff.1 h).1
  rw [← List.take_append_drop count text] at h
  cases hfound : (text.take count).idxOf? Octets.lineFeed with
  | none =>
      have hnone := List.idxOf?_eq_none_iff.1 hfound
      rw [idxOf?_append_of_notMem hnone, List.length_take] at h
      obtain ⟨later, -, heq⟩ := Option.map_eq_some_iff.1 h
      omega
  | some first =>
      rw [← h, idxOf?_append_of_some hfound]

/-- The beginning of a line can be dropped from what is left of it. -/
theorem tailPortion_append
    {text : Octets}
    (h : Octets.lineFeed ∉ text)
    (close : Option String) (more : Octets) :
    tailPortion close (text ++ more) = tailPortion close more := by
  unfold tailPortion
  rw [idxOf?_append_of_notMem h]
  cases more.idxOf? Octets.lineFeed with
  | none =>
      rfl
  | some place =>
      have hpast : place + text.length + 1 - text.length = place + 1 := by omega
      simp only [Option.map_some, Portion.before.injEq, true_and]
      rw [List.drop_append, List.drop_of_length_le (by omega), List.nil_append, hpast]

/-- A line that is already too long is dropped up to its end. -/
theorem linePortion_append
    {text : Octets} {most : Nat}
    (h : Octets.lineFeed ∉ text)
    (hlong : most < text.length)
    (close : Option String) (more : Octets) :
    linePortion close most (text ++ more) = tailPortion close more := by
  rw [← tailPortion_append h close more]
  unfold linePortion tailPortion
  rw [idxOf?_append_of_notMem h]
  cases more.idxOf? Octets.lineFeed with
  | none =>
      have hlength : most < (text ++ more).length := by
        rw [List.length_append]
        omega
      cases close with
      | none =>
          exact congrArg (Portion.last · none) (if_pos (Or.inr hlength))
      | some report =>
          rfl
  | some place =>
      have hlength : most < ((text ++ more).take (place + text.length)).length := by
        rw [List.take_append, List.take_of_length_le (by omega), List.length_append]
        omega
      exact congrArg (Portion.before · _) (if_pos (Or.inr (Or.inr hlength)))

theorem notMem_of_splitLine
    {text line rest : Octets}
    (h : Octets.splitLine text = some (line, rest)) :
    Octets.lineFeed ∉ line := by
  unfold Octets.splitLine at h
  split at h
  · cases h
  · simp only [Option.some.injEq, Prod.mk.injEq] at h
    intro hmem
    rw [← h.1] at hmem
    simpa using List.mem_takeWhile_imp hmem

/-- A line that has ended stands in front of the first line feed. -/
theorem exists_place
    {text line rest : Octets}
    (h : Octets.splitLine text = some (line, rest)) :
    ∃ place, text.idxOf? Octets.lineFeed = some place ∧ place < text.length ∧
      text.take place = line ∧ text.drop (place + 1) = rest := by
  rw [splitLine_eq_idxOf?] at h
  obtain ⟨place, hplace, hline⟩ := Option.map_eq_some_iff.1 h
  obtain ⟨hlt, _⟩ := List.idxOf?_eq_some_iff.1 hplace
  simp only [Prod.mk.injEq] at hline
  exact ⟨place, hplace, hlt, hline.1, hline.2⟩

theorem linePortion_of_split
    {text line rest : Octets}
    (h : Octets.splitLine text = some (line, rest))
    (close : Option String) (most : Nat) (more : Octets) :
    linePortion close most (text ++ more) =
      .before
        (if line = [] ∨ line = [Octets.carriageReturn] ∨ most < line.length then none
          else some ⟨none, line⟩)
        (rest ++ more) := by
  obtain ⟨place, hplace, hlt, rfl, rfl⟩ := exists_place h
  unfold linePortion
  rw [idxOf?_append_of_some hplace]
  simp only
  rw [List.take_append_of_le_length (by omega), List.drop_append_of_le_length (by omega)]

theorem tailPortion_of_split
    {text line rest : Octets}
    (h : Octets.splitLine text = some (line, rest))
    (close : Option String) (more : Octets) :
    tailPortion close (text ++ more) = .before none (rest ++ more) := by
  obtain ⟨place, hplace, hlt, rfl, rfl⟩ := exists_place h
  unfold tailPortion
  rw [idxOf?_append_of_some hplace]
  simp only
  rw [List.drop_append_of_le_length (by omega)]

theorem holdLine_agrees
    (s : Search)
    {text : Octets}
    (h : Octets.lineFeed ∉ text)
    (close : Option String) :
    (Step.wanting (s.holdLine text).1 (s.holdLine text).2).Agrees close fun more =>
      Search.decode close { s with phase := .line } (text ++ more) := by
  unfold holdLine
  split
  · rename_i hlong
    refine ⟨fun _ => rfl, ⟨List.not_mem_nil, Nat.zero_le _⟩, fun more => ?_⟩
    have hrule : Framer.rule { s.framer with discarding := true } = s.framer.rule := rfl
    simp only [decode, if_true, List.nil_append, hrule]
    split
    · rw [tailPortion_append h]
    · rw [linePortion_append h hlong]
  · rename_i hshort
    exact ⟨fun _ => rfl, ⟨h, Nat.not_lt.1 hshort⟩, fun more => rfl⟩

theorem takeLine_agrees
    (s : Search)
    (close : Option String) (text : Octets) :
    (takeLine s text).Agrees close fun more =>
      Search.decode close { s with phase := .line } (text ++ more) := by
  unfold takeLine
  split
  · rename_i hsplit
    exact holdLine_agrees s (Octets.splitLine_eq_none.1 hsplit) close
  · rename_i line rest hsplit
    split
    · rename_i hdrop
      have hrule : Framer.rule { s.framer with discarding := false } = s.framer.rule := rfl
      refine ⟨fun h => absurd h Bool.false_ne_true, fun more => ?_⟩
      simp only [decode, hdrop, if_true, tailPortion_of_split hsplit, skip, hrule]
      simp [Portion.decoding, Decoding.behind]
    · rename_i hkeep
      have hfalse : s.framer.discarding = false := by simpa using hkeep
      split
      · rename_i hblank
        refine ⟨fun h => absurd h hkeep, fun more => ?_⟩
        have hnone : line = [] ∨ line = [Octets.carriageReturn] ∨
            s.framer.most < line.length := by
          rcases hblank with h | h
          · exact Or.inl h
          · exact Or.inr (Or.inl h)
        simp only [decode, hfalse, linePortion_of_split hsplit, skip]
        rw [if_pos hnone]
        simp [Portion.decoding, Decoding.behind]
      · rename_i hfull
        split
        · rename_i hlong
          refine ⟨fun h => absurd h hkeep, fun more => ?_⟩
          simp only [decode, hfalse, linePortion_of_split hsplit, drop]
          rw [if_pos (Or.inr (Or.inr hlong))]
          simp [Portion.decoding, Decoding.behind]
        · rename_i hshort
          intro more
          refine ⟨hfalse, ?_⟩
          have hsome : ¬(line = [] ∨ line = [Octets.carriageReturn] ∨
              s.framer.most < line.length) := by
            rintro (h | h | h)
            · exact hfull (Or.inl h)
            · exact hfull (Or.inr h)
            · exact hshort h
          simp only [decode, hfalse, linePortion_of_split hsplit, result]
          rw [if_neg hsome]
          simp [Portion.decoding]

theorem dropWhile_append_dropWhile
    (p : UInt8 → Bool)
    (text more : Octets) :
    (text.dropWhile p ++ more).dropWhile p = (text ++ more).dropWhile p := by
  rw [List.dropWhile_append, List.dropWhile_append, List.dropWhile_idempotent]

theorem boundaryText_idem
    (s : Search)
    (text : Octets) :
    s.boundaryText (s.boundaryText text) = s.boundaryText text := by
  unfold boundaryText
  split
  · rw [List.dropWhile_idempotent]
  · rfl

theorem boundaryText_append
    {s : Search} {text : Octets}
    (h : s.boundaryText text ≠ [])
    (more : Octets) :
    s.boundaryText (s.boundaryText text ++ more) = s.boundaryText text ++ more := by
  unfold boundaryText at h ⊢
  split
  · rename_i hlock
    rw [if_pos hlock] at h
    rw [List.dropWhile_append, List.dropWhile_idempotent]
    simp [h]
  · rfl

/-- Passing over line ends that stand before a length keeps the decoding. -/
theorem decode_boundaryText
    (s : Search)
    (close : Option String) (text more : Octets) :
    Framing.decode close s.framer.most s.framer.rule (s.boundaryText text ++ more) =
      Framing.decode close s.framer.most s.framer.rule (text ++ more) := by
  unfold boundaryText
  split
  · rename_i hlock
    have hrule : s.framer.rule = .counted := by simp [Framer.rule, hlock]
    rw [hrule, decode_eq, decode_eq close _ _ (text ++ more)]
    simp only [Rule.portion, dropWhile_append_dropWhile]
  · rfl

theorem portion_of_length
    {s : Search} {text rest : Octets} {length : Nat}
    (hlock : s.framer.lock ≠ some .line)
    (htext : s.boundaryText text = text)
    (hlength : lengthAt? text = some (length, rest))
    (close : Option String) (most : Nat) :
    s.framer.rule.portion close most text =
      (countedPortion close most length rest, s.framer.rule.after .counted) := by
  unfold boundaryText at htext
  rcases hheld : s.framer.lock with _ | (_ | _)
  · by_cases hpolicy : s.framer.policy = .autoOnce <;>
      simp [Framer.rule, hheld, hpolicy, Rule.portion, hlength]
  · rw [if_pos hheld] at htext
    simp [Framer.rule, hheld, Rule.portion, htext, hlength, Rule.after]
  · exact absurd hheld hlock

/-- Where none stands, a line comes next, if lines may come. -/
theorem portion_of_line
    {s : Search} {text : Octets}
    (hlock : s.framer.lock ≠ some .counted)
    (hnone : s.framer.lock = none → lengthAt? text = none)
    (close : Option String) (most : Nat) :
    s.framer.rule.portion close most text =
      (linePortion close most text, s.framer.rule.after .line) := by
  rcases hheld : s.framer.lock with _ | (_ | _)
  · by_cases hpolicy : s.framer.policy = .autoOnce <;>
      simp [Framer.rule, hheld, hpolicy, Rule.portion, hnone hheld]
  · exact absurd hheld hlock
  · simp [Framer.rule, hheld, Rule.portion, Rule.after]

theorem portion_of_lacking
    {s : Search} {text : Octets}
    (hlock : s.framer.lock = some .counted)
    (htext : s.boundaryText text = text)
    (hnone : lengthAt? text = none)
    (close : Option String) (most : Nat) :
    s.framer.rule.portion close most text = (lackingPortion close text, .counted) := by
  unfold boundaryText at htext
  rw [if_pos hlock] at htext
  simp [Framer.rule, hlock, Rule.portion, htext, hnone]

theorem takeLine_boundary
    {s : Search} {text : Octets}
    (hkeep : s.framer.discarding = false)
    (hlock : s.framer.lock ≠ some .counted)
    (hnone : s.framer.lock = none → ∀ more, lengthAt? (text ++ more) = none)
    (close : Option String) :
    (takeLine { s with framer := s.framer.noting .line } text).Agrees close fun more =>
      Framing.decode close s.framer.most s.framer.rule (text ++ more) := by
  have hmeaning : ∀ more,
      Framing.decode close s.framer.most s.framer.rule (text ++ more) =
        Search.decode close { s with framer := s.framer.noting .line, phase := .line }
          (text ++ more) := by
    intro more
    have hdiscarding : (s.framer.noting .line).discarding = false := hkeep
    rw [decode_eq, portion_of_line hlock (fun h => hnone h more)]
    simp only [decode, hdiscarding, Framer.rule_noting]
    rfl
  simp only [hmeaning]
  exact takeLine_agrees { s with framer := s.framer.noting .line } close text

theorem takeLength_boundary
    {s : Search} {text rest : Octets} {length : Nat}
    (hkeep : s.framer.discarding = false)
    (hmeaning : ∀ more, s.framer.rule.portion close s.framer.most (text ++ more) =
      (countedPortion close s.framer.most length (rest ++ more), s.framer.rule.after .counted)) :
    (if s.framer.most < length then
      Step.settled ({ s with framer := s.framer.noting .counted }.result
        (.fault (.oversized length s.framer.most))) text
    else takeCounted { s with framer := s.framer.noting .counted } length rest).Agrees close
      fun more => Framing.decode close s.framer.most s.framer.rule (text ++ more) := by
  have hdiscarding : (s.framer.noting .counted).discarding = false := hkeep
  split
  · rename_i hlong
    intro more
    refine ⟨hdiscarding, ?_⟩
    change Framing.decode close s.framer.most s.framer.rule (text ++ more) =
      ⟨[], some (Fault.oversized length s.framer.most)⟩
    rw [decode_eq, hmeaning]
    simp [countedPortion, hlong, Portion.decoding]
  · rename_i hshort
    have hportion : ∀ more,
        Framing.decode close s.framer.most s.framer.rule (text ++ more) =
          (bodyPortion close length (rest ++ more)).decoding close
            (s.framer.noting .counted).most (s.framer.noting .counted).rule := by
      intro more
      rw [decode_eq, hmeaning, Framer.rule_noting]
      simp only [countedPortion, hshort, if_false]
      rfl
    simp only [hportion]
    exact takeCounted_agrees (s := { s with framer := s.framer.noting .counted })
      hdiscarding close length rest

theorem lacking_boundary
    {s : Search} {text : Octets}
    (hkeep : s.framer.discarding = false)
    (hlock : s.framer.lock = some .counted)
    (htext : ∀ more, s.boundaryText (text ++ more) = text ++ more)
    (hnone : ∀ more, lengthAt? (text ++ more) = none ∧ ¬ mayBecomeLength (text ++ more))
    (close : Option String) (seen : Octets) :
    (Step.settled (s.result (.fault (.frameHeader (.noLength seen)))) text).Agrees close
      fun more => Framing.decode close s.framer.most s.framer.rule (text ++ more) := by
  intro more
  refine ⟨hkeep, ?_⟩
  change Framing.decode close s.framer.most s.framer.rule (text ++ more) =
    ⟨[], some (Fault.frameHeader (.noLength []))⟩
  rw [decode_eq, portion_of_lacking hlock (htext more) (hnone more).1]
  simp [lackingPortion, (hnone more).2, Portion.decoding]

theorem takeBoundary_agrees
    {s : Search}
    (hphase : s.phase = .boundary)
    (hkeep : s.framer.discarding = false)
    (close : Option String) (text : Octets) :
    (takeBoundary s text).Agrees close fun more => s.decode close (text ++ more) := by
  have hmeaning : ∀ more, s.decode close (text ++ more) =
      Framing.decode close s.framer.most s.framer.rule (s.boundaryText text ++ more) := by
    intro more
    rw [decode_boundary hphase, decode_boundaryText]
  have hfixed : sniff (s.boundaryText text) ≠ .undecided → ∀ more,
      s.boundaryText (s.boundaryText text ++ more) = s.boundaryText text ++ more := by
    intro hdecided more
    refine boundaryText_append (fun hnil => hdecided ?_) more
    rw [hnil, sniff_nil]
  simp only [hmeaning]
  unfold takeBoundary boundaryStart
  dsimp only
  by_cases hline : s.framer.lock = some .line
  · have hother : s.framer.lock ≠ some .counted := by simp [hline]
    rw [if_pos hline]
    simp only [hother, if_false]
    exact takeLine_boundary hkeep hother (fun h => by simp [hline] at h) close
  · rw [if_neg hline]
    rcases sniff_spec (s.boundaryText text) with
      ⟨length, headerLength, hsniff, hlength⟩ | ⟨hsniff, hnone⟩ | ⟨hsniff, _, _⟩
    · have hdecided : sniff (s.boundaryText text) ≠ .undecided := by simp [hsniff]
      rw [hsniff]
      exact takeLength_boundary hkeep fun more =>
        portion_of_length hline (hfixed hdecided more) (hlength more) close s.framer.most
    · have hdecided : sniff (s.boundaryText text) ≠ .undecided := by simp [hsniff]
      rw [hsniff]
      by_cases hcounted : s.framer.lock = some .counted
      · simp only [hcounted, if_true]
        exact lacking_boundary hkeep hcounted (hfixed hdecided) hnone close _
      · simp only [hcounted, if_false]
        exact takeLine_boundary hkeep hcounted (fun _ more => (hnone more).1) close
    · rw [hsniff]
      refine ⟨fun h => ?_, ?_, fun more => ?_⟩
      · rw [hkeep] at h
        cases h
      · simp only [Stuck, hphase]
        refine ⟨boundaryText_idem s text, ?_⟩
        unfold boundaryStart
        rw [if_neg hline, hsniff]
      · rw [decode_boundary hphase]

/-- A step keeps the decoding of the whole text. -/
theorem step_agrees
    {s : Search}
    (hkeep : s.Keeps)
    (close : Option String) (text : Octets) :
    (s.step text).Agrees close fun more => s.decode close (text ++ more) := by
  obtain ⟨framer, phase, notices⟩ := s
  cases phase with
  | boundary =>
      have hfalse : framer.discarding = false := by simpa [Keeps] using hkeep
      exact takeBoundary_agrees rfl hfalse close text
  | counted length =>
      have hfalse : framer.discarding = false := by simpa [Keeps] using hkeep
      exact takeCounted_agrees (s := ⟨framer, .counted length, notices⟩) hfalse close length text
  | line =>
      exact takeLine_agrees ⟨framer, .line, notices⟩ close text

theorem look_settled
    {s : Search} {text rest : Octets} {result : Result}
    (hkeep : s.Keeps)
    (h : s.look text = .settled result rest)
    (close : Option String) (more : Octets) :
    Answers close result (rest ++ more) (s.decode close (text ++ more)) := by
  fun_induction look s text with
  | case1 s text found left hstep =>
      have hagrees := step_agrees hkeep close text
      simp only [Looked.settled.injEq] at h
      obtain ⟨rfl, rfl⟩ := h
      rw [hstep] at hagrees
      exact hagrees more
  | case2 s text next left hstep => simp at h
  | case3 s text next left hstep ih =>
      have hagrees := step_agrees hkeep close text
      rw [hstep] at hagrees
      have hsame : s.decode close (text ++ more) = next.decode close (left ++ more) :=
        hagrees.2 more
      rw [hsame]
      exact ih hagrees.1 h

/-- A look that does not settle it keeps what the whole text comes to. -/
theorem look_wanting
    {s next : Search} {text rest : Octets}
    (hkeep : s.Keeps)
    (h : s.look text = .wanting next rest)
    (close : Option String) :
    next.Keeps ∧ next.Stuck rest ∧
      ∀ more, s.decode close (text ++ more) = next.decode close (rest ++ more) := by
  fun_induction look s text with
  | case1 s text found left hstep => simp at h
  | case2 s text after left hstep =>
      have hagrees := step_agrees hkeep close text
      simp only [Looked.wanting.injEq] at h
      obtain ⟨rfl, rfl⟩ := h
      rw [hstep] at hagrees
      exact hagrees
  | case3 s text after left hstep ih =>
      have hagrees := step_agrees hkeep close text
      rw [hstep] at hagrees
      obtain ⟨hnext, hstuck, hmeaning⟩ := ih hagrees.1 h
      exact ⟨hnext, hstuck, fun more => (hagrees.2 more).trans (hmeaning more)⟩

/-- At a boundary a search is only stuck on what may become a length. -/
theorem stuck_boundary
    {s : Search} {text : Octets}
    (hphase : s.phase = .boundary)
    (h : s.Stuck text) :
    s.framer.lock ≠ some .line ∧ s.boundaryText text = text ∧ lengthAt? text = none ∧
      mayBecomeLength text := by
  simp only [Stuck, hphase] at h
  obtain ⟨htext, hstart⟩ := h
  have hline : s.framer.lock ≠ some .line := by
    intro hlock
    simp [boundaryStart, hlock] at hstart
  have hsniff : sniff text = .undecided := by
    unfold boundaryStart at hstart
    rwa [if_neg hline] at hstart
  rcases sniff_spec text with ⟨_, _, hother, _⟩ | ⟨hother, _⟩ | ⟨_, hnone, hmay⟩
  · simp [hsniff] at hother
  · simp [hsniff] at hother
  · exact ⟨hline, htext, hnone, hmay⟩

theorem lineFeed_notMem
    {text : Octets}
    (h : mayBecomeLength text) :
    Octets.lineFeed ∉ text := by
  intro hmem
  have hdigit := h.2 _ hmem
  have hfeed : Octets.isDigit Octets.lineFeed = false := by decide
  rw [hfeed] at hdigit
  cases hdigit

theorem finishLine_answers
    {s : Search} {text : Octets}
    (hphase : s.phase = .line)
    (hstuck : s.Stuck text) :
    Answers none (s.finishLine text).1 (s.finishLine text).2 (s.decode none text) := by
  simp only [Stuck, hphase] at hstuck
  obtain ⟨hfeed, hshort⟩ := hstuck
  have hnone : text.idxOf? Octets.lineFeed = none := List.idxOf?_eq_none_iff.2 hfeed
  unfold finishLine
  by_cases hdiscarding : s.framer.discarding = true
  · rw [if_pos (Or.inl hdiscarding)]
    refine ⟨rfl, ?_⟩
    simp [decode, hphase, hdiscarding, tailPortion, hnone, Portion.decoding, result]
  · by_cases hempty : text = []
    · rw [if_pos (Or.inr hempty)]
      refine ⟨rfl, ?_⟩
      simp [decode, hphase, hdiscarding, linePortion, hempty, Portion.decoding, result]
    · have hsome : ¬(s.framer.discarding = true ∨ text = []) := by
        rintro (h | h)
        · exact hdiscarding h
        · exact hempty h
      have hframe : ¬(text = [] ∨ s.framer.most < text.length) := by
        rintro (h | h)
        · exact hempty h
        · omega
      have hfalse : s.framer.discarding = false := by simpa using hdiscarding
      rw [if_neg hsome]
      refine ⟨hfalse, ?_⟩
      simp [decode, hphase, hfalse, linePortion, hnone, hframe, Portion.decoding, result,
        decode_nil, Decoding.behind]

theorem finish_answers
    {s : Search} {text : Octets}
    (hkeep : s.Keeps)
    (hstuck : s.Stuck text) :
    Answers none (s.finish text).1 (s.finish text).2 (s.decode none text) := by
  cases hphase : s.phase with
  | line =>
      have hfinish : s.finish text = s.finishLine text := by simp [finish, hphase]
      rw [hfinish]
      exact finishLine_answers hphase hstuck
  | counted length =>
      have hfalse : s.framer.discarding = false := by simpa [Keeps, hphase] using hkeep
      have hshort : text.length < length := by simpa [Stuck, hphase] using hstuck
      simp only [finish, hphase]
      refine ⟨hfalse, ?_⟩
      simp [decode, hphase, bodyPortion, hshort, Portion.decoding, result, Fault.bare]
  | boundary =>
      have hfalse : s.framer.discarding = false := by simpa [Keeps, hphase] using hkeep
      obtain ⟨hline, htext, hnone, hmay⟩ := stuck_boundary hphase hstuck
      simp only [finish, hphase]
      by_cases hempty : text = []
      · rw [if_pos hempty, hempty, decode_boundary hphase, decode_nil]
        exact ⟨hfalse, rfl⟩
      · rw [if_neg hempty]
        by_cases hcounted : s.framer.lock = some .counted
        · rw [if_pos hcounted, decode_boundary hphase, decode_eq,
            portion_of_lacking hcounted htext hnone]
          refine ⟨hfalse, ?_⟩
          simp [lackingPortion, hmay, hempty, Portion.decoding, result, Fault.bare]
        · -- what may become a length is the last line after all
          rw [if_neg hcounted]
          obtain ⟨hnext, hafter, hmeaning⟩ :=
            holdLine_agrees { s with framer := s.framer.noting .line } (lineFeed_notMem hmay) none
          have hwhole : s.decode none text =
              Search.decode none { s with framer := s.framer.noting .line, phase := .line }
                text := by
            have hdiscarding : (s.framer.noting .line).discarding = false := hfalse
            rw [decode_boundary hphase, decode_eq, portion_of_line hcounted fun _ => hnone]
            simp only [decode, hdiscarding, Framer.rule_noting]
            rfl
          have hfinal := hmeaning []
          simp only [List.append_nil] at hfinal
          rw [hwhole, hfinal]
          refine finishLine_answers ?_ hafter
          unfold holdLine
          split <;> rfl

/-- A fault of the stream is the next thing that a search that is stuck comes to. -/
theorem decode_of_stuck
    {s : Search} {text : Octets}
    (hstuck : s.Stuck text)
    (report : String) :
    s.decode (some report) text = ⟨[], some (.io report)⟩ := by
  cases hphase : s.phase with
  | line =>
      simp only [Stuck, hphase] at hstuck
      have hnone : text.idxOf? Octets.lineFeed = none := List.idxOf?_eq_none_iff.2 hstuck.1
      simp only [decode, hphase, tailPortion, linePortion, hnone]
      split <;> rfl
  | counted length =>
      have hshort : text.length < length := by simpa [Stuck, hphase] using hstuck
      simp [decode, hphase, bodyPortion, hshort, Portion.decoding]
  | boundary =>
      obtain ⟨hline, htext, hnone, hmay⟩ := stuck_boundary hphase hstuck
      rw [decode_boundary hphase, decode_eq]
      by_cases hcounted : s.framer.lock = some .counted
      · rw [portion_of_lacking hcounted htext hnone]
        simp [lackingPortion, hmay, Portion.decoding]
      · have hfeed : text.idxOf? Octets.lineFeed = none :=
          List.idxOf?_eq_none_iff.2 (lineFeed_notMem hmay)
        rw [portion_of_line hcounted fun _ => hnone]
        simp [linePortion, hfeed, Portion.decoding]

/-- A search means the decoding of the whole text. -/
theorem inquiry_means
    (close : Option String) :
    inquiry.Means close Keeps Stuck (Search.decode close) (Answers close)
      (fun report d => d = ⟨[], some (.io report)⟩) where
  settled hkeep hlook more := look_settled hkeep hlook close more
  wanting hkeep hlook := look_wanting hkeep hlook close
  ended hkeep hstuck hclose := hclose ▸ finish_answers hkeep hstuck
  failed _ hstuck hclose := hclose ▸ decode_of_stuck hstuck _

section Attempt

variable {σ : Type} [ByteStream σ] [Supplied σ]

/--
What a search came to agrees with a decoding: a message is the first one of it and the stream
brings the rest; the end, or a fault, is all of it.
-/
def Agrees (span : Span) (close : Option String) (d : Decoding) (tried : Attempt σ) : Prop :=
  match tried.next with
  | .frame found =>
      tried.search.framer.discarding = false ∧
        ∃ rest, Supplied.Brings span close rest tried.stream ∧
          d = (Framing.decode close tried.search.framer.most tried.search.framer.rule
            rest).behind (some found)
  | .ended => ByteStream.now tried.stream ≤ span.due ∧ d = ⟨[], none⟩
  | .fault cause => ByteStream.now tried.stream ≤ span.due ∧ d = ⟨[], some cause.bare⟩
  | .late => False

/-- The next message is the first one of the decoding; else it is decoded to the end or a fault. -/
theorem attempt_decodes
    {span : Span} {close : Option String} {text : Octets} {limit : Option Nat} {s : Search}
    {l : Lookahead σ}
    (hkeep : s.Keeps)
    (hl : Supplied.Brings span close text l)
    (hmeets : span.Meets limit) :
    Agrees span close (s.decode close text) (s.attempt limit l) := by
  rcases Inquiry.run_means (inquiry_means close) hkeep hl hmeets with
    ⟨⟨outcome, framer, notices⟩, rest, next, hrun, hnext, hanswer⟩ |
    ⟨report, after, next, hrun, hclose, hnow, hfault⟩
  · obtain ⟨hdiscarding, hmeaning⟩ := hanswer
    simp only [attempt, hrun]
    cases outcome with
    | frame found =>
        exact ⟨hdiscarding, rest, hnext, hmeaning⟩
    | ended =>
        exact ⟨Supplied.le_due hnext, hmeaning⟩
    | fault cause =>
        exact ⟨Supplied.le_due hnext, hmeaning⟩
  · simp only [attempt, hrun]
    exact ⟨hnow, hfault⟩

end Attempt

end Search
end Framing
end SyslogIntake

import SyslogIntake.Proofs.Careful.Message
import SyslogIntake.Proofs.Output.Priority
import SyslogIntake.Proofs.Text.Ascii

/-!
# The parts of a message

A message is a priority in brackets or nothing, then a body, then the longest line end that
stands behind the body.  Its record has the body and the priority, and no other octet of the
message is lost or kept.

**Results.**

* `splits_iff_announces` : what is taken off the front of a message is what announces its priority;
* `closes_trimLineEnd` : what is taken off the end of a text is the longest of its line ends;
* `Parts.unique`, `parts_ofFrame` : a message has one body and one priority, those of its record;
* `ofFrame_decomposes` : the above for every frame, with the ranges of what a record holds.
-/

namespace SyslogIntake
namespace Record

/-- Digits in brackets. -/
def bracketed (digits : Octets) : Octets :=
  openBracket :: (digits ++ [closeBracket])

theorem bracketed_append
    (digits rest : Octets) :
    bracketed digits ++ rest = openBracket :: (digits ++ closeBracket :: rest) := by
  simp [bracketed]

/-- The front of a message that announces a priority: digits in brackets, or nothing. -/
inductive Announces (message : Octets) : Octets → Nat → Prop
  | given {digits : Octets}
      (hdigits : Priority digits)
      (hfront : bracketed digits <+: message) :
      Announces message (bracketed digits) (Octets.decimal digits)
  | bare
      (hnone : ∀ digits, Priority digits → ¬ bracketed digits <+: message) :
      Announces message [] defaultPriority

/-- What is taken off the front of a message is what announces its priority. -/
theorem splits_iff_announces
    {message rest : Octets} {priority : Nat} :
    Splits message priority rest ↔
      ∃ front, message = front ++ rest ∧ Announces message front priority := by
  constructor
  · intro h
    cases h with
    | given hdigits rest =>
        rw [← bracketed_append]
        exact ⟨_, rfl, .given hdigits (List.prefix_append _ _)⟩
    | bare hnone =>
        refine ⟨[], rfl, .bare ?_⟩
        rintro digits hdigits ⟨more, rfl⟩
        exact hnone digits more hdigits (bracketed_append digits more)
  · rintro ⟨front, hmessage, hannounces⟩
    cases hannounces with
    | given hdigits hfront =>
        rw [hmessage, bracketed_append]
        exact .given hdigits rest
    | bare hnone =>
        rw [hmessage, List.nil_append] at hnone ⊢
        refine .bare ?_
        intro digits more hdigits heq
        exact hnone digits hdigits ⟨more, by rw [bracketed_append, heq]⟩

/-- The end of a text: of all the line ends that the text has, the longest. -/
structure Closes (text ending : Octets) : Prop where
  mem : ending ∈ lineEnds
  suffix : ending <:+ text
  longest : ∀ other ∈ lineEnds, other <:+ text → other.length ≤ ending.length

theorem Closes.unique
    {text ending other : Octets}
    (h : Closes text ending) (hother : Closes text other) :
    ending = other := by
  have hle := hother.longest ending h.mem h.suffix
  have hge := h.longest other hother.mem hother.suffix
  have hsuffix := List.suffix_of_suffix_length_le h.suffix hother.suffix hle
  exact hsuffix.eq_of_length (Nat.le_antisymm hle hge)

/-- An octet is taken off the end of a text, or the text does not end in it. -/
theorem trimLast_cases
    (b : UInt8) (text : Octets) :
    (text.getLast? ≠ some b ∧ Octets.trimLast b text = text) ∨
      text = Octets.trimLast b text ++ [b] := by
  rcases List.eq_nil_or_concat text with rfl | ⟨init, last, rfl⟩
  · exact Or.inl ⟨by simp, rfl⟩
  · rw [List.concat_eq_append, Octets.trimLast, List.getLast?_concat]
    by_cases hlast : last = b
    · subst hlast
      rw [if_pos rfl, List.dropLast_concat]
      exact Or.inr rfl
    · have hother : some last ≠ some b := fun h => hlast (Option.some.inj h)
      rw [if_neg hother]
      exact Or.inl ⟨hother, rfl⟩

theorem getLast?_of_suffix
    {text : Octets} (front : Octets) {b : UInt8}
    (h : front ++ [b] <:+ text) :
    text.getLast? = some b := by
  obtain ⟨init, rfl⟩ := h
  rw [← List.append_assoc, List.getLast?_concat]

/-- A text with a line end that is not empty ends in one of two octets. -/
theorem getLast?_of_lineEnd
    {text ending : Octets}
    (hmem : ending ∈ lineEnds) (hsuffix : ending <:+ text) :
    ending = [] ∨ text.getLast? = some Octets.lineFeed ∨
      text.getLast? = some Octets.carriageReturn := by
  simp only [lineEnds, List.mem_cons, List.not_mem_nil, or_false] at hmem
  rcases hmem with rfl | rfl | rfl | rfl
  · exact Or.inl rfl
  · exact Or.inr (Or.inl (getLast?_of_suffix [] hsuffix))
  · exact Or.inr (Or.inr (getLast?_of_suffix [] hsuffix))
  · exact Or.inr (Or.inl (getLast?_of_suffix [Octets.carriageReturn] hsuffix))

/-- What is taken off the end of a text is the longest of its line ends. -/
theorem closes_trimLineEnd
    (text : Octets) :
    ∃ ending, text = trimLineEnd text ++ ending ∧ Closes text ending := by
  have hpair : ∀ other ∈ lineEnds, other.length ≤ 2 := by decide
  have hsingle : ∀ other ∈ lineEnds,
      other.length ≤ 1 ∨ other = [Octets.carriageReturn] ++ [Octets.lineFeed] := by decide
  have hfeeds := trimLast_cases Octets.lineFeed text
  have hreturns := trimLast_cases Octets.carriageReturn (Octets.trimLast Octets.lineFeed text)
  rw [trimLineEnd]
  generalize Octets.trimLast Octets.lineFeed text = line at hfeeds hreturns ⊢
  generalize Octets.trimLast Octets.carriageReturn line = body at hreturns ⊢
  rcases hfeeds with ⟨hfeed, rfl⟩ | rfl
  · rcases hreturns with ⟨hreturn, rfl⟩ | hreturn
    · refine ⟨[], (List.append_nil _).symm, ⟨by decide, List.nil_suffix, ?_⟩⟩
      intro other hother hsuffix
      obtain rfl | hlast | hlast := getLast?_of_lineEnd hother hsuffix
      · exact Nat.le_refl _
      · exact absurd hlast hfeed
      · exact absurd hlast hreturn
    · refine ⟨[Octets.carriageReturn], hreturn, ⟨by decide, ⟨body, hreturn.symm⟩, ?_⟩⟩
      intro other hother hsuffix
      rcases hsingle other hother with hlength | rfl
      · exact hlength
      · exact absurd (getLast?_of_suffix _ hsuffix) hfeed
  · rcases hreturns with ⟨hreturn, rfl⟩ | rfl
    · refine ⟨[Octets.lineFeed], rfl, ⟨by decide, List.suffix_append _ _, ?_⟩⟩
      intro other hother hsuffix
      rcases hsingle other hother with hlength | rfl
      · exact hlength
      · -- a carriage return would stand before the line feed
        obtain ⟨init, hinit⟩ := hsuffix
        rw [← List.append_assoc] at hinit
        obtain rfl := (List.append_left_inj _).1 hinit
        exact absurd List.getLast?_concat hreturn
    · refine ⟨[Octets.carriageReturn, Octets.lineFeed], by simp, ⟨by decide, by simp, ?_⟩⟩
      intro other hother _
      exact hpair other hother

/-- The parts of a message: what announces its priority, its body, and what ends it. -/
structure Parts (message front body ending : Octets) (priority : Nat) : Prop where
  whole : message = front ++ body ++ ending
  announces : Announces message front priority
  closes : Closes (body ++ ending) ending

theorem Parts.unique
    {message front front' body body' ending ending' : Octets} {priority priority' : Nat}
    (h : Parts message front body ending priority)
    (h' : Parts message front' body' ending' priority') :
    front = front' ∧ body = body' ∧ ending = ending' ∧ priority = priority' := by
  have hsplits := splits_iff_announces.2 ⟨front, by rw [h.whole, List.append_assoc], h.announces⟩
  have hsplits' :=
    splits_iff_announces.2 ⟨front', by rw [h'.whole, List.append_assoc], h'.announces⟩
  have hsame := (splitPriority_eq_iff.2 hsplits).symm.trans (splitPriority_eq_iff.2 hsplits')
  obtain ⟨hpriority, hrest⟩ := Prod.mk.inj hsame
  have hending : ending = ending' := h.closes.unique (hrest ▸ h'.closes)
  subst hending
  have hbody : body = body' := List.append_cancel_right hrest
  subst hbody
  have hfront := h.whole.symm.trans h'.whole
  exact ⟨List.append_cancel_right (List.append_cancel_right hfront), rfl, rfl, hpriority⟩

section Frame

variable (frame : Frame) (c : Connection)

theorem priority_ofFrame :
    (ofFrame frame c).priority = (splitPriority frame.payload).1 := by
  simp only [priority, ofFrame]
  omega

theorem parts_ofFrame :
    ∃ front ending, Parts frame.payload front (ofFrame frame c).body ending
      (ofFrame frame c).priority := by
  rw [priority_ofFrame]
  obtain ⟨front, hfront, hannounces⟩ :=
    splits_iff_announces.1 (splitPriority_eq_iff.1 (Prod.eta (splitPriority frame.payload)).symm)
  obtain ⟨ending, hending, hcloses⟩ := closes_trimLineEnd (splitPriority frame.payload).2
  refine ⟨front, ending, ⟨?_, hannounces, ?_⟩⟩
  · rw [List.append_assoc]
    exact hfront.trans (congrArg _ hending)
  · have hbody : (ofFrame frame c).body = trimLineEnd (splitPriority frame.payload).2 := rfl
    rwa [hbody, ← hending]

end Frame

/-- A number is written as a priority if it is not too large. -/
theorem priority_decimal
    {n : Nat}
    (h : n ≤ mostPriority) :
    Priority (Utf8.encode (Numeral.decimal n)) where
  isDigit := Numeral.isDigit_of_mem_decimal n
  ne_nil := by
    rw [Numeral.encode_decimal]
    exact fun hnil => Numeral.digits_ne_nil 10 n (List.map_eq_nil_iff.1 hnil)
  short := by
    rw [Numeral.encode_decimal, List.length_map]
    have hlt : n < 10 ^ 3 := Nat.lt_of_le_of_lt h (by decide)
    exact Numeral.length_digits_le (by decide) (by decide) hlt
  le_most := by
    rwa [Numeral.decimal_encode]

/-- A text with a priority written in front of it, and no line end, has itself as its body. -/
theorem parts_bracketed
    {n : Nat} {text : Octets}
    (hn : n ≤ mostPriority)
    (hfeed : text.getLast? ≠ some Octets.lineFeed)
    (hreturn : text.getLast? ≠ some Octets.carriageReturn) :
    Parts (bracketed (Utf8.encode (Numeral.decimal n)) ++ text)
      (bracketed (Utf8.encode (Numeral.decimal n))) text [] n := by
  have hannounces : Announces (bracketed (Utf8.encode (Numeral.decimal n)) ++ text) _ _ :=
    .given (priority_decimal hn) (List.prefix_append _ text)
  rw [Numeral.decimal_encode] at hannounces
  have htrim := trimLineEnd_append hfeed hreturn (show [] ∈ lineEnds by decide)
  obtain ⟨ending, hending, hcloses⟩ := closes_trimLineEnd (text ++ [])
  rw [htrim] at hending
  obtain rfl := List.append_cancel_left hending
  exact ⟨by rw [List.append_nil], hannounces, hcloses⟩

/--
Every message has parts, only one choice of them, and its record has the body and the priority
that are among them.  A facility is at most 23 and a severity at most 7, and step by step the
record is built without an index out of range and its priority without an overflow of an octet.
In particular a priority up to 191 that is written in front of a text without a line end is given
back, and so is the text.
-/
theorem ofFrame_decomposes
    (frame : Frame) (c : Connection) :
    (∃ front ending, Parts frame.payload front (ofFrame frame c).body ending
        ((ofFrame frame c).facility * 8 + (ofFrame frame c).severity)) ∧
      (∀ front body ending priority, Parts frame.payload front body ending priority →
        (ofFrame frame c).body = body ∧
          (ofFrame frame c).facility * 8 + (ofFrame frame c).severity = priority) ∧
      (ofFrame frame c).facility ≤ 23 ∧ (ofFrame frame c).severity ≤ 7 ∧
      Careful.ofFrame frame c = .ok (ofFrame frame c) ∧
      Careful.priority (ofFrame frame c) =
        .ok ((ofFrame frame c).facility * 8 + (ofFrame frame c).severity) ∧
      ∀ n text, n ≤ mostPriority →
        text.getLast? ≠ some Octets.lineFeed → text.getLast? ≠ some Octets.carriageReturn →
        frame.payload = bracketed (Utf8.encode (Numeral.decimal n)) ++ text →
          (ofFrame frame c).facility * 8 + (ofFrame frame c).severity = n ∧
            (ofFrame frame c).body = text := by
  obtain ⟨front, ending, hparts⟩ := parts_ofFrame frame c
  have hmost := priority_ofFrame_le frame c
  simp only [priority, mostPriority] at hmost
  refine ⟨⟨front, ending, hparts⟩, ?_, by omega, ?_, Careful.ofFrame_eq frame c,
    Careful.priority_eq frame c, ?_⟩
  · intro front' body ending' priority hother
    obtain ⟨-, hbody, -, hpriority⟩ := hparts.unique hother
    exact ⟨hbody, hpriority⟩
  · exact Nat.le_of_lt_succ (Nat.mod_lt _ (by decide))
  · intro n text hn hfeed hreturn hpayload
    rw [hpayload] at hparts
    obtain ⟨-, hbody, -, hpriority⟩ := hparts.unique (parts_bracketed hn hfeed hreturn)
    exact ⟨hpriority, hbody⟩

/-- A message whose priority has a leading zero, and whose body has a line end inside it. -/
def sample : Octets :=
  bracketed [48, 51, 52] ++ [104, 10, 105] ++ [13, 10]

/-- The parts of the message. -/
theorem parts_sample :
    Parts sample (bracketed [48, 51, 52]) [104, 10, 105] [13, 10] 34 where
  whole := rfl
  announces := by
    have hdigits : Priority [48, 51, 52] :=
      ⟨List.all_eq_true.1 rfl, by decide, by decide, by decide⟩
    exact .given hdigits ⟨[104, 10, 105, 13, 10], rfl⟩
  closes := ⟨by decide, by decide, by decide⟩

theorem ofFrame_decomposes_sample :
    let c := Connection.accepted 1 (.v4 ⟨192, 0, 2, 1⟩ 5000) (.v4 ⟨192, 0, 2, 2⟩ 514)
    let written : Frame := ⟨some 6, bracketed (Utf8.encode (Numeral.decimal 191)) ++ [62]⟩
    ((ofFrame ⟨none, sample⟩ c).body = [104, 10, 105] ∧
        (ofFrame ⟨none, sample⟩ c).facility * 8 + (ofFrame ⟨none, sample⟩ c).severity = 34) ∧
      (ofFrame written c).facility * 8 + (ofFrame written c).severity = 191 ∧
      (ofFrame written c).body = [62] := by
  intro c written
  constructor
  · exact (ofFrame_decomposes ⟨none, sample⟩ c).2.1 _ _ _ _ parts_sample
  · have hgiven := (ofFrame_decomposes written c).2.2.2.2.2.2
    exact hgiven 191 [62] (by decide) (by decide) (by decide) rfl

end Record
end SyslogIntake

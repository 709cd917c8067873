import SyslogIntake.Proofs.ProxyHeader.Pending
import SyslogIntake.Proofs.Stream.Fills
import SyslogIntake.Stream.Wire

/-!
# How many octets a header lacks

Octets that may still become a header are answered with a number.  It comes from one of four
places: the length of a signature, one octet more for a line that has not ended, the octets in
front of a block, and the length that is announced for the block.  Wherever it comes from, more
octets leave the question open as long as they are fewer, and it is never more than the longest
header has.  So whoever reads on until something is decided reads something only so often,
whatever arrives.

**Results.**

* `parse_eq_incomplete_iff` : the four places that the number comes from;
* `Lacks.lt`, `Lacks.le` : the number asks for more, and for no more than the longest header;
* `Lacks.append` : with fewer octets nothing is decided but that there is no header;
* `parse_honest` : all of it, and how often a look for a header reads something.
-/

namespace SyslogIntake
namespace ProxyHeader

/-- Octets that may still become a header, and how many octets that takes at least. -/
inductive Lacks : Octets → Nat → Prop
  | signature {text : Octets}
      (hbinary : ¬ binarySignature <+: text)
      (htext : ¬ textSignature <+: text)
      (hmay : mayBecomeSignature text = true) :
      Lacks text (signatureLength text)
  | line {text : Octets}
      (htext : textSignature <+: text)
      (hshort : text.length < mostTextLength)
      (hfeed : Octets.lineFeed ∉ text) :
      Lacks text (text.length + 1)
  | fixed {tail : Octets}
      (hshort : tail.length < 4) :
      Lacks (binarySignature ++ tail) fixedLength
  | block {first second high low : UInt8} {rest : Octets}
      (hversion : first.toNat / 16 = 2)
      (hcommand : first.toNat % 16 ≤ 1)
      (htransport : second.toNat % 16 ≤ 2)
      (hpartial : rest.length < Octets.bigEndian high low) :
      Lacks (binarySignature ++ first :: second :: high :: low :: rest)
        (fixedLength + Octets.bigEndian high low)

/-- Where no signature stands, one may still come of the octets, or there is no header. -/
theorem parse_of_neither
    {text : Octets}
    (hbinary : ¬ binarySignature <+: text)
    (htext : ¬ textSignature <+: text) :
    parse text = if mayBecomeSignature text then .ok (.incomplete (signatureLength text))
      else .ok .absent := by
  rw [← List.isPrefixOf_iff_prefix] at hbinary htext
  rw [parse, if_neg hbinary, if_neg htext]

theorem parse_of_binary
    (tail : Octets) :
    parse (binarySignature ++ tail) = parseBinary (binarySignature ++ tail) := by
  rw [parse, if_pos (List.isPrefixOf_iff_prefix.2 (List.prefix_append _ _))]

theorem length_binary
    (tail : Octets) :
    (binarySignature ++ tail).length = 12 + tail.length := by
  rw [List.length_append]
  rfl

/-- A line lacks octets if it has not ended, and if it may go on. -/
theorem lacks_of_text
    {text : Octets} {needed : Nat}
    (htext : textSignature <+: text)
    (h : parseText text = .ok (.incomplete needed)) :
    Lacks text needed := by
  unfold parseText at h
  split at h
  · rename_i hsplit
    split at h
    · cases h
    · rename_i hlength
      have hshort := Nat.not_le.1 hlength
      rw [List.take_of_length_le (Nat.le_of_lt hshort)] at hsplit
      cases h
      exact .line htext hshort (Octets.splitLine_eq_none.1 hsplit)
  · split at h <;> cases h

/-- A binary header lacks octets in front of its block or within it. -/
theorem lacks_of_binary
    {tail : Octets} {needed : Nat}
    (h : parse (binarySignature ++ tail) = .ok (.incomplete needed)) :
    Lacks (binarySignature ++ tail) needed := by
  by_cases hshort : tail.length < 4
  · have hfixed : (binarySignature ++ tail).length < fixedLength := by
      rw [length_binary, fixedLength]
      omega
    rw [parse_of_binary, parseBinary_short hfixed] at h
    cases h
    exact .fixed hshort
  · obtain ⟨first, second, high, low, rest, rfl⟩ :
        ∃ first second high low rest, tail = first :: second :: high :: low :: rest := by
      rcases tail with _ | ⟨first, _ | ⟨second, _ | ⟨high, _ | ⟨low, rest⟩⟩⟩⟩
      case cons.cons.cons.cons => exact ⟨first, second, high, low, rest, rfl⟩
      all_goals simp at hshort
    by_cases hpartial : rest.length < Octets.bigEndian high low
    · rw [parse_part hpartial] at h
      split_ifs at h with hversion hcommand htransport
      cases h
      exact .block (Decidable.not_not.1 hversion) (Nat.not_lt.1 hcommand)
        (Nat.not_lt.1 htransport) hpartial
    · rw [parse_whole (Nat.not_lt.1 hpartial)] at h
      split_ifs at h
      split at h <;> cases h

/-- Octets may still become a header if they lack some, and that is what they are answered with. -/
theorem parse_eq_incomplete_iff
    {text : Octets} {needed : Nat} :
    parse text = .ok (.incomplete needed) ↔ Lacks text needed := by
  constructor
  · intro h
    by_cases hbinary : binarySignature <+: text
    · obtain ⟨tail, rfl⟩ := hbinary
      exact lacks_of_binary h
    by_cases htext : textSignature <+: text
    · rw [parse_of_text htext] at h
      exact lacks_of_text htext h
    rw [parse_of_neither hbinary htext] at h
    split at h
    · rename_i hmay
      cases h
      exact .signature hbinary htext hmay
    · cases h
  · intro h
    cases h with
    | signature hbinary htext hmay =>
        rw [parse_of_neither hbinary htext, if_pos hmay]
    | line htext hshort hfeed =>
        rw [parse_of_text htext, parseText_none hshort hfeed]
    | @fixed tail hshort =>
        rw [parse_of_binary, parseBinary_short]
        rw [length_binary, fixedLength]
        omega
    | block hversion hcommand htransport hpartial =>
        rw [parse_part hpartial, if_neg (not_not_intro hversion), if_neg (Nat.not_lt.2 hcommand),
          if_neg (Nat.not_lt.2 htransport)]

namespace Lacks

variable {text more : Octets} {needed : Nat}

/-- Octets that are a part of a signature, or nothing, are fewer than its first one asks for. -/
theorem lt_signatureLength
    (hbinary : ¬ binarySignature <+: text)
    (htext : ¬ textSignature <+: text)
    (hmay : mayBecomeSignature text = true) :
    text.length < signatureLength text := by
  have hlt : ∀ {signature : Octets}, text <+: signature → ¬ signature <+: text →
      text.length < signature.length := by
    intro signature hbegun hother
    refine Nat.lt_of_le_of_ne hbegun.length_le ?_
    intro hlength
    exact hother (hbegun.eq_of_length hlength ▸ List.prefix_rfl)
  rw [mayBecomeSignature, Bool.or_eq_true_iff, List.isPrefixOf_iff_prefix,
    List.isPrefixOf_iff_prefix] at hmay
  rw [signatureLength]
  split
  · rename_i hhead
    rcases hmay with hbegun | hbegun
    · exact Nat.lt_trans (hlt hbegun htext) (by decide)
    · exact hlt hbegun hbinary
  · rename_i hhead
    rcases hmay with hbegun | hbegun
    · exact hlt hbegun htext
    · -- what begins the binary signature is nothing, or has its first octet
      cases text with
      | nil => decide
      | cons first rest =>
          obtain ⟨tail, htail⟩ := hbegun
          exact absurd (congrArg List.head? htail) hhead

/-- More is asked for than is there. -/
theorem lt
    (h : Lacks text needed) :
    text.length < needed := by
  cases h with
  | signature hbinary htext hmay => exact lt_signatureLength hbinary htext hmay
  | line => exact Nat.lt_succ_self _
  | fixed hshort =>
      rw [length_binary, fixedLength]
      omega
  | block hversion hcommand htransport hpartial =>
      simp only [length_binary, List.length_cons, fixedLength]
      omega

theorem le
    (h : Lacks text needed) :
    needed ≤ 65551 := by
  cases h with
  | signature =>
      exact Nat.le_trans (signatureLength_le text) (by decide)
  | line htext hshort =>
      rw [mostTextLength] at hshort
      omega
  | fixed => decide
  | @block first second high low =>
      have hlength := Octets.bigEndian_lt high low
      rw [fixedLength]
      omega

/-- Fewer octets than the first one asks for hold no signature. -/
theorem not_signature_of_short
    (hshort : (text ++ more).length < signatureLength text) :
    ¬ binarySignature <+: text ++ more ∧ ¬ textSignature <+: text ++ more := by
  have hlength : signatureLength text ≤ binarySignature.length := signatureLength_le text
  have hbinary : ¬ binarySignature <+: text ++ more := by
    intro hprefix
    have hle := hprefix.length_le
    omega
  refine ⟨hbinary, ?_⟩
  intro hprefix
  have hle := hprefix.length_le
  rw [signatureLength] at hshort
  split at hshort
  · -- the two signatures begin differently
    rename_i hhead
    obtain ⟨first, rest, rfl⟩ : ∃ first rest, text = first :: rest := by
      cases text with
      | nil => cases hhead
      | cons first rest => exact ⟨first, rest, rfl⟩
    obtain ⟨tail, htail⟩ := hprefix
    rw [List.head?_cons] at hhead
    have hfirst := congrArg List.head? htail
    rw [List.cons_append, List.head?_cons, hhead] at hfirst
    cases hfirst
  · omega

/-- As long as fewer octets are there, nothing is decided but that there is no header. -/
theorem append
    (h : Lacks text needed)
    (hshort : (text ++ more).length < needed) :
    (∃ later, parse (text ++ more) = .ok (.incomplete later)) ∨
      parse (text ++ more) = .ok .absent := by
  cases h with
  | signature hbinary htext hmay =>
      obtain ⟨hbinary, htext⟩ := not_signature_of_short hshort
      rw [parse_of_neither hbinary htext]
      split
      · exact Or.inl ⟨_, rfl⟩
      · exact Or.inr rfl
  | line htext hline hfeed =>
      obtain rfl : more = [] := by
        rw [List.length_append] at hshort
        exact List.eq_nil_of_length_eq_zero (by omega)
      rw [List.append_nil]
      exact Or.inl ⟨_, parse_eq_incomplete_iff.2 (.line htext hline hfeed)⟩
  | fixed =>
      rw [List.append_assoc, length_binary, fixedLength] at hshort
      rw [List.append_assoc]
      exact Or.inl ⟨_, parse_eq_incomplete_iff.2 (.fixed (by omega))⟩
  | block hversion hcommand htransport =>
      simp only [List.append_assoc, List.cons_append, length_binary, List.length_cons,
        fixedLength] at hshort ⊢
      exact Or.inl ⟨_, parse_eq_incomplete_iff.2
        (.block hversion hcommand htransport (by omega))⟩

end Lacks

/-- A look for a header that wants more leaves all octets, fewer than the longest header has. -/
theorem short_of_look
    {required : Bool} {state next : Unit} {text rest : Octets}
    (h : (inquiry required).look state text = .wanting next rest) :
    rest = text ∧ text.length ≤ 65550 := by
  obtain ⟨-, rfl⟩ := (inquiry_steady required).wanting h
  obtain ⟨needed, hneeded⟩ := incomplete_of_look h
  exact ⟨rfl, length_of_incomplete hneeded⟩

theorem settled_of_length
    {text : Octets}
    (required : Bool)
    (hlong : 65551 ≤ text.length) :
    ∃ found rest, look required text = .settled found rest := by
  cases hlook : look required text with
  | settled found rest => exact ⟨found, rest, rfl⟩
  | wanting state rest =>
      have hshort := (@short_of_look required () state text rest hlook).2
      omega

theorem length_pieces
    {pieces : Nat → Octets}
    (hpieces : ∀ i, pieces i ≠ [])
    (n : Nat) :
    n ≤ ((List.range n).flatMap pieces).length := by
  induction n with
  | zero => exact Nat.zero_le _
  | succ n ih =>
      have hsome : 0 < (pieces n).length := List.length_pos_iff.2 (hpieces n)
      rw [List.range_succ, List.flatMap_append, List.length_append, List.flatMap_singleton]
      omega

/--
Octets that may still become a header are answered with more than they are, and with no more than
the longest header has; as long as there are fewer, nothing is decided but that there is no header.
So neither many octets are answered with a number, nor more than a line may have that begin with
the word.  A look for a header reads something no more often than that, on every stream, and if
pieces arrive without an end it is settled by the first of them.
-/
theorem parse_honest
    {σ : Type}
    [ByteStream σ] :
    (∀ text needed, parse text = .ok (.incomplete needed) →
        text.length < needed ∧ needed ≤ 65551 ∧
          ∀ more, (text ++ more).length < needed →
            (∃ later, parse (text ++ more) = .ok (.incomplete later)) ∨
              parse (text ++ more) = .ok .absent) ∧
      (∀ text, 65551 ≤ text.length ∨ 107 ≤ text.length ∧ textSignature <+: text →
        ∀ needed, parse text ≠ .ok (.incomplete needed)) ∧
      (∀ (required : Bool) (limit : Option Nat) (l : Lookahead σ),
        ((inquiry required).fills limit () l).countP Fill.grows ≤ 65551 - l.buffer.length) ∧
      ∀ (required : Bool) (buffer : Octets) (pieces : Nat → Octets), (∀ i, pieces i ≠ []) →
        ∃ n ≤ 65551 - buffer.length, ∃ found rest,
          look required (buffer ++ (List.range n).flatMap pieces) = .settled found rest := by
  refine ⟨?_, ?_, ?_, ?_⟩
  · intro text needed h
    have hlacks := parse_eq_incomplete_iff.1 h
    exact ⟨hlacks.lt, hlacks.le, fun more => hlacks.append⟩
  · intro text hlong needed h
    rcases hlong with hlong | ⟨hlong, hline⟩
    · have hshort := length_of_incomplete h
      omega
    · have hshort := length_of_incomplete_text hline h
      omega
  · intro required limit l
    exact Inquiry.growing_le short_of_look
  · intro required buffer pieces hpieces
    refine ⟨65551 - buffer.length, Nat.le_refl _, settled_of_length required ?_⟩
    have hmany := length_pieces hpieces (65551 - buffer.length)
    rw [List.length_append]
    omega

/-- A block of twelve octets is announced, and more spaces stand in a line than it may have. -/
theorem parse_honest_sample :
    let begun := binarySignature ++ [0x21, 0x11, 0, 12]
    let line := textSignature ++ List.replicate 102 Octets.space
    parse begun = .ok (.incomplete 28) ∧
      (begun.length < 28 ∧ 28 ≤ 65551 ∧ ((begun ++ [1, 2]).length < 28 ∧
        ((∃ later, parse (begun ++ [1, 2]) = .ok (.incomplete later)) ∨
          parse (begun ++ [1, 2]) = .ok .absent))) ∧
      (107 ≤ line.length ∧ textSignature <+: line ∧
        ∀ needed, parse line ≠ .ok (.incomplete needed)) ∧
      (∀ i : Nat, [UInt8.ofNat i] ≠ []) ∧
      ∃ n ≤ 65551 - begun.length, ∃ found rest,
        look true (begun ++ (List.range n).flatMap fun i => [UInt8.ofNat i]) =
          .settled found rest := by
  intro begun line
  have hlacks : Lacks begun 28 :=
    @Lacks.block 0x21 0x11 0 12 [] rfl (by decide) (by decide) (by decide)
  have hbegun : parse begun = .ok (.incomplete 28) := parse_eq_incomplete_iff.2 hlacks
  have hlong : 107 ≤ line.length := by simp [line, textSignature]
  have hline : textSignature <+: line := List.prefix_append _ _
  obtain ⟨hhint, hnever, -, hendless⟩ := @parse_honest Wire _
  obtain ⟨hlt, hle, hmore⟩ := hhint begun 28 hbegun
  exact ⟨hbegun, ⟨hlt, hle, by decide, hmore [1, 2] (by decide)⟩,
    ⟨hlong, hline, hnever line (Or.inr ⟨hlong, hline⟩)⟩, fun i => List.cons_ne_nil _ _,
    hendless true begun _ fun i => List.cons_ne_nil _ _⟩

end ProxyHeader
end SyslogIntake

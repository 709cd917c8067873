import Mathlib.Data.List.TakeWhile
import SyslogIntake.Proofs.Framing.Searching
import SyslogIntake.Proofs.Stream.Questions
import SyslogIntake.ProxyHeader.Parser
import SyslogIntake.Tls.Record

/-!
# Sniffing

The stages in front of the messages look at the octets that have arrived and may say that
they want more.  Once they have said anything else, octets that arrive later do not change
it, and a header takes off what it took off before.  So both questions are steady.

**Results.**

* `ProxyHeader.parse_append` : what was found at the front of octets is found whatever follows;
* `Tls.check_append` : so is what was said about a session;
* `ProxyHeader.inquiry_steady`, `Tls.inquiry_steady` : neither question depends on the cuts;
* `answers_append` : no answer about the front of a stream depends on what follows.
-/

namespace SyslogIntake

theorem Octets.splitLine_append
    {text line rest : Octets}
    (h : splitLine text = some (line, rest))
    (more : Octets) :
    splitLine (text ++ more) = some (line, rest ++ more) := by
  have htext := splitLine_eq_some h
  have hline : lineFeed ∉ line := Framing.Search.notMem_of_splitLine h
  have hall : ∀ b ∈ line, (b != lineFeed) = true := by
    intro b hb
    have hne : b ≠ lineFeed := fun heq => hline (heq ▸ hb)
    simpa using hne
  rw [htext, List.append_assoc]
  unfold splitLine
  rw [List.dropWhile_append_of_pos hall, List.takeWhile_append_of_pos hall]
  simp

namespace ProxyHeader

/-- Whether something was found out about the front of octets. -/
def Decided (found : Except Fault Outcome) : Prop :=
  ∀ needed, found ≠ .ok (.incomplete needed)

theorem parseBinary_append
    {text : Octets}
    (h : Decided (parseBinary text))
    (more : Octets) :
    parseBinary (text ++ more) = parseBinary text := by
  unfold parseBinary at h ⊢
  cases hdrop : text.drop binarySignature.length with
  | nil =>
      rw [hdrop] at h
      exact absurd rfl (h fixedLength)
  | cons first tail =>
      have hlength : binarySignature.length ≤ text.length := by
        have hle := congrArg List.length hdrop
        rw [List.length_drop, List.length_cons] at hle
        omega
      rw [List.drop_append_of_le_length hlength, hdrop]
      rw [hdrop] at h
      rcases tail with _ | ⟨second, _ | ⟨high, _ | ⟨low, rest⟩⟩⟩
      · exact absurd rfl (h fixedLength)
      · exact absurd rfl (h fixedLength)
      · exact absurd rfl (h fixedLength)
      · simp only [List.cons_append] at h ⊢
        by_cases hblock : (rest.take (Octets.bigEndian high low)).length <
            Octets.bigEndian high low
        · -- the block has not arrived, so only a flaw of the fixed octets was found
          simp only [hblock, if_true] at h ⊢
          split
          · rfl
          · split
            · rfl
            · split
              · rfl
              · rename_i hversion hcommand htransport
                simp only [hversion, hcommand, htransport, if_false] at h
                exact absurd rfl (h _)
        · have htake : (rest ++ more).take (Octets.bigEndian high low) =
              rest.take (Octets.bigEndian high low) := by
            refine List.take_append_of_le_length ?_
            rw [List.length_take] at hblock
            omega
          rw [htake]

theorem parseText_append
    {text : Octets}
    (h : Decided (parseText text))
    (more : Octets) :
    parseText (text ++ more) = parseText text := by
  unfold parseText at h ⊢
  rw [List.take_append]
  cases hsplit : Octets.splitLine (text.take mostTextLength) with
  | none =>
      rw [hsplit] at h
      by_cases hlong : mostTextLength ≤ text.length
      · have hnone : mostTextLength - text.length = 0 := by omega
        have hmore : mostTextLength ≤ (text ++ more).length := by
          rw [List.length_append]
          omega
        rw [hnone, List.take_zero, List.append_nil, hsplit]
        exact (if_pos hmore).trans (if_pos hlong).symm
      · simp only [hlong, if_false] at h
        exact absurd rfl (h _)
  | some found =>
      obtain ⟨line, rest⟩ := found
      rw [Octets.splitLine_append hsplit]

/-- No octets begin with both signatures. -/
theorem not_binary_of_text
    {text : Octets}
    (h : textSignature.isPrefixOf text = true) :
    binarySignature.isPrefixOf text = false := by
  cases text with
  | nil =>
      rfl
  | cons b text =>
      have hb : (0x50 : UInt8) = b := by
        have hhead := (Bool.and_eq_true_iff.1 h).1
        simpa using hhead
      subst hb
      rfl

/-- Octets that cannot become a signature do not, whatever follows. -/
theorem not_prefix_append
    {signature text : Octets}
    (hbegun : ¬ signature <+: text)
    (hbecome : ¬ text <+: signature)
    (more : Octets) :
    ¬ signature <+: text ++ more ∧ ¬ text ++ more <+: signature := by
  constructor
  · intro hprefix
    rcases List.prefix_or_prefix_of_prefix hprefix (List.prefix_append text more) with h | h
    · exact hbegun h
    · exact hbecome h
  · intro hprefix
    exact hbecome ((List.prefix_append text more).trans hprefix)

theorem parse_append
    {text : Octets}
    (h : Decided (parse text))
    (more : Octets) :
    parse (text ++ more) = parse text := by
  have hgrow : ∀ {signature : Octets}, signature.isPrefixOf text = true →
      signature.isPrefixOf (text ++ more) = true := by
    intro signature hprefix
    rw [List.isPrefixOf_iff_prefix] at hprefix ⊢
    exact hprefix.trans (List.prefix_append text more)
  unfold parse at h ⊢
  by_cases hbinary : binarySignature.isPrefixOf text = true
  · rw [if_pos hbinary] at h ⊢
    rw [if_pos (hgrow hbinary)]
    exact parseBinary_append h more
  · rw [if_neg hbinary] at h ⊢
    by_cases htext : textSignature.isPrefixOf text = true
    · have hother := not_binary_of_text (hgrow htext)
      rw [if_pos htext] at h ⊢
      rw [if_neg (by simp [hother]), if_pos (hgrow htext)]
      exact parseText_append h more
    · rw [if_neg htext] at h ⊢
      by_cases hmay : mayBecomeSignature text = true
      · rw [if_pos hmay] at h
        exact absurd rfl (h _)
      · have hneither : ¬ text <+: textSignature ∧ ¬ text <+: binarySignature := by
          simpa [mayBecomeSignature] using hmay
        rw [List.isPrefixOf_iff_prefix] at hbinary htext
        obtain ⟨hfirst, hbegun⟩ := not_prefix_append hbinary hneither.2 more
        obtain ⟨hsecond, hother⟩ := not_prefix_append htext hneither.1 more
        rw [if_neg hmay]
        simp [mayBecomeSignature, hfirst, hsecond, hbegun, hother]

/-- A header lies within the octets in which it was found. -/
theorem parse_complete_le
    {text : Octets} {header : ProxyHeader} {length : Nat}
    (h : parse text = .ok (.complete header length)) :
    length ≤ text.length := by
  unfold parse at h
  split at h
  · unfold parseBinary at h
    split at h
    · rename_i first second high low rest hdrop
      have hle := congrArg List.length hdrop
      simp only [List.length_drop, List.length_cons, binarySignature, List.length_nil] at hle
      dsimp only at h
      split at h
      · simp at h
      · split at h
        · simp at h
        · split at h
          · simp at h
          · split at h
            · simp at h
            · rename_i hblock
              split at h
              · simp at h
              · simp only [Except.ok.injEq, Outcome.complete.injEq] at h
                rw [List.length_take] at hblock
                rw [← h.2, fixedLength]
                omega
    · simp at h
  · split at h
    · unfold parseText at h
      split at h
      · split at h <;> simp at h
      · rename_i line rest hsplit
        have hle := congrArg List.length (Octets.splitLine_eq_some hsplit)
        rw [List.length_take, List.length_append, List.length_cons] at hle
        split at h
        · simp at h
        · simp only [Except.ok.injEq, Outcome.complete.injEq] at h
          omega
    · split at h <;> simp at h

/-- The search for a header does not depend on how the octets arrive. -/
theorem inquiry_steady
    (required : Bool) :
    (inquiry required).Steady where
  settled := by
    intro state text answer rest hlook more
    have hdecided : Decided (parse text) := by
      intro needed hparse
      simp [inquiry, look, hparse] at hlook
    have hgrown := parse_append hdecided more
    simp only [inquiry, look] at hlook ⊢
    rw [hgrown]
    rcases hparse : parse text with fault | (_ | needed | ⟨header, length⟩)
    · simp only [hparse, Looked.settled.injEq] at hlook
      simp [← hlook.1, ← hlook.2]
    · simp only [hparse, Looked.settled.injEq] at hlook
      simp [← hlook.1, ← hlook.2]
    · exact absurd hparse (hdecided needed)
    · have hle := parse_complete_le hparse
      simp only [hparse, Looked.settled.injEq] at hlook
      simp [← hlook.1, ← hlook.2, List.drop_append_of_le_length hle]
  wanting := by
    intro state text next rest hlook
    simp only [inquiry, look] at hlook
    split at hlook
    · simp at hlook
    · simp at hlook
    · simp at hlook
    · simp only [Looked.wanting.injEq] at hlook
      exact ⟨rfl, hlook.2.symm⟩

end ProxyHeader

namespace Tls

theorem check_append
    {text : Octets}
    (h : check text ≠ .undecided)
    (more : Octets) :
    check (text ++ more) = check text := by
  rcases text with _ | ⟨first, rest⟩
  · exact absurd rfl h
  · by_cases hfirst : first = handshakeType
    · subst hfirst
      rcases rest with _ | ⟨major, _ | ⟨minor, _ | ⟨high, _ | ⟨low, rest⟩⟩⟩⟩
      · exact absurd rfl h
      · exact absurd rfl h
      · exact absurd rfl h
      · exact absurd rfl h
      · rfl
    · rw [List.cons_append, check_of_first hfirst, check_of_first hfirst]

theorem inquiry_steady :
    inquiry.Steady where
  settled := by
    intro state text answer rest hlook more
    have hdecided : check text ≠ .undecided := by
      intro hcheck
      simp [inquiry, hcheck] at hlook
    have hgrown := check_append hdecided more
    simp only [inquiry] at hlook ⊢
    rw [hgrown]
    cases hcheck : check text with
    | undecided =>
        exact absurd hcheck hdecided
    | session | other =>
        simp only [hcheck, Looked.settled.injEq] at hlook
        obtain ⟨rfl, rfl⟩ := hlook
        rfl
  wanting := by
    intro state text next rest hlook
    simp only [inquiry] at hlook
    split at hlook
    · simp only [Looked.wanting.injEq] at hlook
      exact ⟨rfl, hlook.2.symm⟩
    · simp at hlook

end Tls

/--
What the octets at the front of a stream are found to be, they are found to be whatever
follows: a header or none, the beginning of a session or another one, a length or a line.
-/
theorem answers_append
    (text more : Octets) :
    (∀ answer, ProxyHeader.parse text = answer →
        (∀ needed, answer ≠ .ok (.incomplete needed)) →
          ProxyHeader.parse (text ++ more) = answer) ∧
      (∀ verdict, Tls.check text = verdict → verdict ≠ .undecided →
          Tls.check (text ++ more) = verdict) ∧
      (∀ start, Framing.sniff text = start → start ≠ .undecided →
          Framing.sniff (text ++ more) = start) := by
  refine ⟨?_, ?_, ?_⟩
  · rintro answer rfl hdecided
    exact ProxyHeader.parse_append hdecided more
  · rintro verdict rfl hdecided
    exact Tls.check_append hdecided more
  · rintro start rfl hdecided
    exact Framing.sniff_append hdecided more

/-- A header of text without endpoints; it begins no session, and as a message it is a line. -/
theorem answers_append_unknown :
    let line : Octets := [80, 82, 79, 88, 89, 32, 85, 78, 75, 78, 79, 87, 78, 10]
    ProxyHeader.parse line = .ok (.complete ⟨.text, none, none, none⟩ 14) ∧
      Tls.check line = .other (.firstOctet 80) ∧ Framing.sniff line = .line ∧
      ProxyHeader.parse (line ++ [32, 10]) = .ok (.complete ⟨.text, none, none, none⟩ 14) ∧
      Tls.check (line ++ [32, 10]) = .other (.firstOctet 80) ∧
      Framing.sniff (line ++ [32, 10]) = .line := by
  intro line
  have hheader : ProxyHeader.parse line = .ok (.complete ⟨.text, none, none, none⟩ 14) := by
    decide +kernel
  have hother : Tls.check line = .other (.firstOctet 80) := by decide
  have hline : Framing.sniff line = .line := by decide
  obtain ⟨hparse, hcheck, hsniff⟩ := answers_append line [32, 10]
  exact ⟨hheader, hother, hline, hparse _ hheader (by simp), hcheck _ hother (by simp),
    hsniff _ hline (by simp)⟩

end SyslogIntake

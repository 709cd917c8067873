import SyslogIntake.Proofs.ProxyHeader.Lines
import SyslogIntake.Proofs.ProxyHeader.Writing

/-!
# Headers that have not all arrived

A header is found in its own octets, and in no fewer of them.  So whatever may still become one is
shorter than the header that it becomes, and there is a bound for it: the longest header of its
form, less one octet.  If no header comes of it after all, then not even a signature was there.

**Results.**

* `parse_take` : a header is found in its own octets alone;
* `lt_of_incomplete`, `exists_incomplete` : what may still become a header is shorter than it;
* `signatureLength_of_prefix` : how many octets of a header tell which signature it has;
* `length_of_incomplete`, `length_of_incomplete_text` : how long that may be;
* `length_of_absent` : how long it may be if no header comes of it;
* `incomplete_of_look` : a look for a header wants more octets only behind such a text.
-/

namespace SyslogIntake

/-- The octets with which headers of a form begin. -/
def HeaderForm.signature : HeaderForm → Octets
  | .text => ProxyHeader.textSignature
  | .binary => ProxyHeader.binarySignature

namespace ProxyHeader

theorem signature_of_complete
    {text : Octets} {header : ProxyHeader} {length : Nat}
    (h : parse text = .ok (.complete header length)) :
    binarySignature <+: text ∨ textSignature <+: text := by
  unfold parse at h
  split at h
  · rename_i hbinary
    exact Or.inl (List.isPrefixOf_iff_prefix.1 hbinary)
  split at h
  · rename_i htext
    exact Or.inr (List.isPrefixOf_iff_prefix.1 htext)
  split at h <;> cases h

/-- A header of text ends with the first line feed, early enough. -/
theorem place_of_complete
    {text : Octets} {header : ProxyHeader} {length : Nat}
    (h : parseText text = .ok (.complete header length)) :
    ∃ place, text.idxOf? Octets.lineFeed = some place ∧ place < 107 ∧ length = place + 1 ∧
      ∃ route, header = ⟨.text, route, none, none⟩ ∧
        lineRoute (Octets.trimLast Octets.carriageReturn (text.take place)) = .ok route := by
  unfold parseText at h
  split at h
  · split at h <;> cases h
  · rename_i line rest hsplit
    obtain ⟨place, hplace, hlt, hline, -⟩ := Framing.Search.exists_place hsplit
    rw [List.length_take] at hlt
    have hwithin : place < 107 := Nat.lt_of_lt_of_le hlt (Nat.min_le_left ..)
    have hfound : text.idxOf? Octets.lineFeed = some place := by
      rw [← List.take_append_drop mostTextLength text]
      exact Framing.Search.idxOf?_append_of_some hplace _
    have htake : min place mostTextLength = place := Nat.min_eq_left (Nat.le_of_lt hwithin)
    rw [List.take_take, htake] at hline
    have hlength : line.length = place := by
      rw [← hline, List.length_take]
      omega
    split at h
    · cases h
    · rename_i route hroute
      cases h
      exact ⟨place, hfound, hwithin, congrArg (· + 1) hlength, route, rfl, hline ▸ hroute⟩

/-- A header begins with the signature of its form. -/
theorem form_of_complete
    {text : Octets} {header : ProxyHeader} {length : Nat}
    (h : parse text = .ok (.complete header length)) :
    header.form.signature <+: text := by
  rcases signature_of_complete h with hbinary | htext
  · obtain ⟨a, more, rfl⟩ := exists_write hbinary h
    rw [a.parse_write more] at h
    cases h
    exact hbinary
  · rw [parse_of_text htext] at h
    obtain ⟨place, -, -, -, route, rfl, -⟩ := place_of_complete h
    exact htext

/-- The first octet of a header tells how many octets there are in the signature of its form. -/
theorem signatureLength_of_prefix
    {part whole : Octets} {header : ProxyHeader} {length : Nat}
    (hwhole : parse whole = .ok (.complete header length))
    (hpart : part <+: whole)
    (hsome : part ≠ []) :
    signatureLength part = header.form.signature.length := by
  obtain ⟨first, rest, rfl⟩ := List.exists_cons_of_ne_nil hsome
  obtain ⟨more, rfl⟩ := hpart
  obtain ⟨tail, htail⟩ := form_of_complete hwhole
  cases hform : header.form with
  | text | binary =>
      rw [hform] at htail
      obtain ⟨rfl, -⟩ := List.cons.inj htail
      rfl

theorem parse_take
    {text : Octets} {header : ProxyHeader} {length : Nat}
    (h : parse text = .ok (.complete header length)) :
    parse (text.take length) = .ok (.complete header length) := by
  rcases signature_of_complete h with hbinary | htext
  · obtain ⟨a, more, rfl⟩ := exists_write hbinary h
    have hwritten := a.parse_write more
    rw [h] at hwritten
    cases hwritten
    have hlength : a.write.length = fixedLength + a.block.length := by
      simp [Announcement.write, Announcement.fixed, Octets.pair, binarySignature, fixedLength]
      omega
    have htake : (a.write ++ more).take (fixedLength + a.block.length) = a.write :=
      List.take_left' hlength
    have halone := a.parse_write []
    rwa [List.append_nil, ← htake] at halone
  · rw [parse_of_text htext] at h
    obtain ⟨place, hplace, hwithin, rfl, route, rfl, hroute⟩ := place_of_complete h
    have hline : textSignature <+: text.take (place + 1) :=
      (signature_prefix_line htext hplace (Or.inl rfl)).trans
        (List.take_prefix_take_left (Nat.le_succ place))
    have hfound := Framing.Search.idxOf?_take hplace (Nat.lt_succ_self place)
    have hsame : (text.take (place + 1)).take place = text.take place := by
      rw [List.take_take, Nat.min_eq_left (Nat.le_succ place)]
    rw [parse_of_text hline]
    exact (parseText_of_place hfound hwithin).1 route (hsame ▸ hroute)

theorem lt_of_incomplete
    {text more : Octets} {header : ProxyHeader} {length needed : Nat}
    (hpart : parse text = .ok (.incomplete needed))
    (hwhole : parse (text ++ more) = .ok (.complete header length)) :
    text.length < length := by
  by_contra hlong
  -- the header would lie within the text, and be found there
  have halone := parse_take hwhole
  rw [List.take_append_of_le_length (Nat.not_lt.1 hlong)] at halone
  have hdecided : Decided (parse (text.take length)) := by
    intro other hother
    rw [halone] at hother
    cases hother
  have hfound := parse_append hdecided (text.drop length)
  rw [List.take_append_drop, hpart, halone] at hfound
  cases hfound

theorem exists_incomplete
    {text whole : Octets} {header : ProxyHeader}
    (hwhole : parse whole = .ok (.complete header whole.length))
    (hbegun : text <+: whole)
    (hshort : text.length < whole.length) :
    ∃ needed, parse text = .ok (.incomplete needed) := by
  by_contra hnone
  have hdecided : Decided (parse text) := fun needed hneeded => hnone ⟨needed, hneeded⟩
  obtain ⟨more, rfl⟩ := hbegun
  have hfound := parse_append hdecided more
  rw [hwhole] at hfound
  exact absurd (parse_complete_le hfound.symm) (Nat.not_le.2 hshort)

/-- What begins with the word and may still become a header is shorter than a line may be. -/
theorem length_of_incomplete_text
    {text : Octets} {needed : Nat}
    (htext : textSignature <+: text)
    (h : parse text = .ok (.incomplete needed)) :
    text.length ≤ 106 := by
  rw [parse_of_text htext, parseText] at h
  split at h
  · split at h
    · cases h
    · rename_i hshort
      exact Nat.le_of_lt_succ (Nat.not_le.1 hshort)
  · split at h <;> cases h

/-- What begins with the octets of a binary header lacks a part of its block, or even less is
there. -/
theorem length_of_incomplete_binary
    {text : Octets} {needed : Nat}
    (h : parseBinary text = .ok (.incomplete needed)) :
    text.length ≤ 65550 := by
  unfold parseBinary at h
  split at h
  · rename_i first second high low rest hdrop
    have hlength := congrArg List.length hdrop
    have hblock := Octets.bigEndian_lt high low
    simp only [List.length_drop, List.length_cons, binarySignature, List.length_nil] at hlength
    dsimp only at h
    split_ifs at h with hversion hcommand htransport hpart
    · rw [List.length_take] at hpart
      omega
    · split at h <;> cases h
  · rename_i hshort
    rcases hdrop : text.drop binarySignature.length with
      _ | ⟨first, _ | ⟨second, _ | ⟨high, _ | ⟨low, rest⟩⟩⟩⟩
    all_goals
      have hlength := congrArg List.length hdrop
      simp only [List.length_drop, List.length_cons, binarySignature, List.length_nil] at hlength
    · omega
    · omega
    · omega
    · omega
    · exact absurd hdrop (hshort first second high low rest)

/-- What may still become a header has a signature, or it may become one that it is not yet. -/
theorem incomplete_cases
    {text : Octets} {needed : Nat}
    (h : parse text = .ok (.incomplete needed)) :
    (binarySignature <+: text ∧ parseBinary text = .ok (.incomplete needed)) ∨
      textSignature <+: text ∨
      (¬ binarySignature <+: text ∧ ¬ textSignature <+: text ∧ text.length ≤ 11) := by
  unfold parse at h
  split at h
  · rename_i hbinary
    exact Or.inl ⟨List.isPrefixOf_iff_prefix.1 hbinary, h⟩
  rename_i hbinary
  split at h
  · rename_i htext
    exact Or.inr (Or.inl (List.isPrefixOf_iff_prefix.1 htext))
  rename_i htext
  split at h
  · rename_i hmay
    rw [List.isPrefixOf_iff_prefix] at hbinary htext
    refine Or.inr (Or.inr ⟨hbinary, htext, ?_⟩)
    rcases Bool.or_eq_true_iff.1 hmay with hbegun | hbegun
    · have hle : text.length ≤ 5 := (List.isPrefixOf_iff_prefix.1 hbegun).length_le
      omega
    · have hbegun := List.isPrefixOf_iff_prefix.1 hbegun
      have hle : text.length ≤ 12 := hbegun.length_le
      have hne : text.length ≠ 12 := fun hwhole =>
        hbinary (hbegun.eq_of_length hwhole ▸ List.prefix_rfl)
      omega
  · cases h

theorem length_of_incomplete
    {text : Octets} {needed : Nat}
    (h : parse text = .ok (.incomplete needed)) :
    text.length ≤ 65550 := by
  rcases incomplete_cases h with ⟨-, hbinary⟩ | htext | ⟨-, -, hshort⟩
  · exact length_of_incomplete_binary hbinary
  · have hle := length_of_incomplete_text htext h
    omega
  · omega

theorem not_signature_of_absent
    {text : Octets}
    (h : parse text = .ok .absent) :
    ¬ binarySignature <+: text ∧ ¬ textSignature <+: text := by
  constructor
  · intro hbinary
    rw [parse, if_pos (List.isPrefixOf_iff_prefix.2 hbinary)] at h
    unfold parseBinary at h
    split at h
    · dsimp only at h
      split_ifs at h
      · cases h
      · split at h <;> cases h
    · cases h
  · intro htext
    rw [parse_of_text htext, parseText] at h
    split at h
    · split at h <;> cases h
    · split at h <;> cases h

/-- If no header comes of it, not even a signature was there. -/
theorem length_of_absent
    {text more : Octets} {needed : Nat}
    (hpart : parse text = .ok (.incomplete needed))
    (hnone : parse (text ++ more) = .ok .absent) :
    text.length ≤ 11 := by
  obtain ⟨hbinary, htext⟩ := not_signature_of_absent hnone
  rcases incomplete_cases hpart with ⟨hsome, -⟩ | hsome | ⟨-, -, hshort⟩
  · exact absurd (hsome.trans (List.prefix_append text more)) hbinary
  · exact absurd (hsome.trans (List.prefix_append text more)) htext
  · exact hshort

/-- A look for a header that wants more octets leaves what may still become one. -/
theorem incomplete_of_look
    {required : Bool} {state next : Unit} {text rest : Octets}
    (h : (inquiry required).look state text = .wanting next rest) :
    ∃ needed, parse rest = .ok (.incomplete needed) := by
  simp only [inquiry, look] at h
  split at h <;> cases h
  exact ⟨_, ‹_›⟩

end ProxyHeader
end SyslogIntake

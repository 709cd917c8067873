import Mathlib.Data.List.TakeWhile
import SyslogIntake.Proofs.Connection.Sniffing
import SyslogIntake.Proofs.Text.Encoding

/-!
# Lines that are headers

The grammar of a header of text, and what becomes of octets that begin with its signature.
The first 107 octets must hold a line end.  The line in front of it is a header if the
grammar has it, and is malformed otherwise.

**Results.**

* `fieldsOf_eq_iff` : the fields of a text are the words that spaces stand between;
* `routeOf_eq_ok_iff`, `lineRoute_eq_ok_iff` : the fields and the lines that are accepted;
* `parse_lines` : what is found where a header of text begins.
-/

namespace SyslogIntake

theorem Address.splitAt_eq_splitOn
    (c : Char) (text : List Char) :
    splitAt c text = text.splitOn c := by
  induction text with
  | nil =>
      rfl
  | cons d text ih =>
      have hne : text.splitOn c ≠ [] := List.splitOn_ne_nil c text
      rw [splitAt, ih, List.splitOn_cons_eq_if_modifyHead]
      cases hparts : text.splitOn c with
      | nil => exact absurd hparts hne
      | cons part parts => simp only [beq_iff_eq, List.modifyHead_cons]

namespace ProxyHeader

/-- Words of a text, with spaces between them and any more spaces anywhere else. -/
inductive Spaced : List Char → List (List Char) → Prop
  | done :
      Spaced [] []
  | last {word : List Char}
      (hne : word ≠ [])
      (hword : ' ' ∉ word) :
      Spaced word [word]
  | blank {text : List Char} {words : List (List Char)}
      (more : Spaced text words) :
      Spaced (' ' :: text) words
  | word {word text : List Char} {words : List (List Char)}
      (hne : word ≠ [])
      (hword : ' ' ∉ word)
      (more : Spaced text words) :
      Spaced (word ++ ' ' :: text) (word :: words)

/-- The endpoint that an address and a port of a protocol write. -/
inductive Writes : Protocol → List Char → List Char → Endpoint → Prop
  | tcp4 {address port : List Char} {a : Ipv4} {p : Nat}
      (haddress : Address.readIpv4 address = some a)
      (hport : Numeral.readUpTo 65535 port = some p) :
      Writes .tcp4 address port (.v4 a (UInt16.ofNat p))
  | tcp6 {address port : List Char} {a : Ipv6} {p : Nat}
      (haddress : Address.readIpv6 address = some a)
      (hport : Numeral.readUpTo 65535 port = some p) :
      Writes .tcp6 address port (.v6 a (UInt16.ofNat p) 0)

/-- What the words behind the signature say about the route. -/
inductive Says : List (List Char) → Option Route → Prop
  | unknown (more : List (List Char)) :
      Says ("UNKNOWN".toList :: more) none
  | conveying {protocol : Protocol} {source destination sourcePort destinationPort : List Char}
      {route : Route}
      (hsource : Writes protocol source sourcePort route.source)
      (hdestination : Writes protocol destination destinationPort route.destination)
      (more : List (List Char)) :
      Says (protocol.name.toList :: source :: destination :: sourcePort :: destinationPort ::
        more) (some route)
  | unread {protocol : Protocol} {source destination sourcePort destinationPort : List Char}
      (hnone : ∀ route : Route, Writes protocol source sourcePort route.source →
        ¬ Writes protocol destination destinationPort route.destination)
      (more : List (List Char)) :
      Says (protocol.name.toList :: source :: destination :: sourcePort :: destinationPort ::
        more) none

/-- A line is a header: the signature, one space and no second one, and words. -/
def HeaderLine (line : Octets) (route : Option Route) : Prop :=
  ∃ body words, body.head? ≠ some ' ' ∧
    line.toByteArray = ("PROXY " ++ String.ofList body).toByteArray ∧
    Spaced body words ∧ Says words route

theorem fieldsOf_blank
    (text : List Char) :
    fieldsOf (' ' :: text) = fieldsOf text := by
  rw [fieldsOf, fieldsOf, Address.splitAt_eq_splitOn, Address.splitAt_eq_splitOn,
    List.splitOn_cons_eq_if_modifyHead]
  simp

theorem fieldsOf_last
    {word : List Char}
    (hne : word ≠ [])
    (hword : ' ' ∉ word) :
    fieldsOf word = [word] := by
  rw [fieldsOf, Address.splitAt_eq_splitOn, List.splitOn_eq_singleton hword]
  simp [hne]

theorem fieldsOf_word
    {word : List Char}
    (hne : word ≠ [])
    (hword : ' ' ∉ word)
    (text : List Char) :
    fieldsOf (word ++ ' ' :: text) = word :: fieldsOf text := by
  have hsplit : (word ++ ' ' :: text).splitOn ' ' = word :: text.splitOn ' ' := by
    rw [List.splitOn_eq_splitOnP,
      List.splitOnP_append_cons (p := (· == ' ')) word text (beq_self_eq_true ' '),
      ← List.splitOn_eq_splitOnP, ← List.splitOn_eq_splitOnP, List.splitOn_eq_singleton hword,
      List.singleton_append]
  rw [fieldsOf, fieldsOf, Address.splitAt_eq_splitOn, Address.splitAt_eq_splitOn, hsplit]
  simp [hne]

theorem spaced_fieldsOf
    (text : List Char) :
    Spaced text (fieldsOf text) := by
  -- the induction is on the length, because a step takes off a whole word
  induction hlength : text.length using Nat.strongRecOn generalizing text with
  | ind n ih =>
      have hsplit : text.takeWhile (· != ' ') ++ text.dropWhile (· != ' ') = text :=
        List.takeWhile_append_dropWhile
      have hword : ' ' ∉ text.takeWhile (· != ' ') := by
        intro hmem
        have hother := List.mem_takeWhile_imp hmem
        simp at hother
      cases hrest : text.dropWhile (· != ' ') with
      | nil =>
          rw [hrest, List.append_nil] at hsplit
          rw [hsplit] at hword
          by_cases hne : text = []
          · subst hne
            exact .done
          · rw [fieldsOf_last hne hword]
            exact .last hne hword
      | cons c rest =>
          have hc : c = ' ' := by
            have hhead := List.head?_dropWhile_not (· != ' ') text
            rw [hrest] at hhead
            simpa using hhead
          subst hc
          rw [hrest] at hsplit
          have hshort : rest.length < n := by
            have hsum := congrArg List.length hsplit
            rw [List.length_append, List.length_cons] at hsum
            omega
          have hmore := ih rest.length hshort rest rfl
          by_cases hne : text.takeWhile (· != ' ') = []
          · rw [hne, List.nil_append] at hsplit
            rw [← hsplit, fieldsOf_blank]
            exact .blank hmore
          · rw [← hsplit, fieldsOf_word hne hword]
            exact .word hne hword hmore

theorem fieldsOf_eq_iff
    {text : List Char} {words : List (List Char)} :
    fieldsOf text = words ↔ Spaced text words := by
  constructor
  · rintro rfl
    exact spaced_fieldsOf text
  · intro h
    induction h with
    | done => rfl
    | last hne hword => exact fieldsOf_last hne hword
    | blank more ih => rw [fieldsOf_blank, ih]
    | word hne hword more ih => rw [fieldsOf_word hne hword, ih]

theorem endpoint?_eq_some_iff
    {protocol : Protocol} {address port : List Char} {endpoint : Endpoint} :
    protocol.endpoint? address port = some endpoint ↔ Writes protocol address port endpoint := by
  constructor
  · intro h
    unfold Protocol.endpoint? at h
    cases hport : Numeral.readUpTo 65535 port with
    | none =>
        simp [hport] at h
    | some p =>
        cases protocol with
        | tcp4 =>
            simp only [hport, Option.map_eq_some_iff] at h
            obtain ⟨a, haddress, rfl⟩ := h
            exact .tcp4 haddress hport
        | tcp6 =>
            simp only [hport, Option.map_eq_some_iff] at h
            obtain ⟨a, haddress, rfl⟩ := h
            exact .tcp6 haddress hport
  · intro h
    cases h with
    | tcp4 haddress hport => simp [Protocol.endpoint?, haddress, hport]
    | tcp6 haddress hport => simp [Protocol.endpoint?, haddress, hport]

theorem route?_eq_some_iff
    {protocol : Protocol} {source destination sourcePort destinationPort : List Char}
    {more : List (List Char)} {route : Route} :
    protocol.route? (source :: destination :: sourcePort :: destinationPort :: more) =
        some route ↔
      Writes protocol source sourcePort route.source ∧
        Writes protocol destination destinationPort route.destination := by
  rw [← endpoint?_eq_some_iff, ← endpoint?_eq_some_iff, Protocol.route?]
  obtain ⟨first, second⟩ := route
  cases protocol.endpoint? source sourcePort <;>
    cases protocol.endpoint? destination destinationPort <;> simp

theorem routeOf_eq_ok_iff
    {words : List (List Char)} {route : Option Route} :
    routeOf words = .ok route ↔ Says words route := by
  constructor
  · intro h
    unfold routeOf at h
    split at h
    · cases h
    · rename_i name rest
      split at h
      · rename_i hname
        cases h
        subst hname
        exact .unknown rest
      · split at h
        · cases h
        · rename_i protocol hprotocol
          have hname : protocol.name.toList = name := by
            simpa using List.find?_some hprotocol
          split at h
          · cases h
          · rename_i henough
            subst hname
            match rest, henough with
            | source :: destination :: sourcePort :: destinationPort :: more, _ =>
                injection h with h
                cases route with
                | none =>
                    refine .unread ?_ more
                    intro route hsource hdestination
                    rw [route?_eq_some_iff.2 ⟨hsource, hdestination⟩] at h
                    cases h
                | some route =>
                    obtain ⟨hsource, hdestination⟩ := route?_eq_some_iff.1 h
                    exact .conveying hsource hdestination more
            | [], h | [_], h | [_, _], h | [_, _, _], h => exact absurd (by simp) h
  · have hfound : ∀ (protocol : Protocol) (source destination sourcePort destinationPort more),
        routeOf (protocol.name.toList :: source :: destination :: sourcePort ::
            destinationPort :: more) =
          .ok (protocol.route?
            (source :: destination :: sourcePort :: destinationPort :: more)) := by
      intro protocol source destination sourcePort destinationPort more
      cases protocol <;> simp [routeOf, Protocol.name]
    intro h
    cases h with
    | unknown more =>
        simp [routeOf]
    | conveying hsource hdestination more =>
        rw [hfound, route?_eq_some_iff.2 ⟨hsource, hdestination⟩]
    | unread hnone more =>
        rw [hfound]
        refine congrArg Except.ok (Option.eq_none_iff_forall_ne_some.2 ?_)
        intro route hroute
        obtain ⟨hsource, hdestination⟩ := route?_eq_some_iff.1 hroute
        exact hnone route hsource hdestination

theorem bodyOf_eq_ok_iff
    {rest body : List Char} :
    bodyOf ("PROXY".toList ++ rest) = .ok body ↔ rest = ' ' :: body ∧ body.head? ≠ some ' ' := by
  have hdrop : ("PROXY".toList ++ rest).drop textSignature.length = rest := rfl
  rw [bodyOf, hdrop]
  constructor
  · intro h
    split at h
    · cases h
    · rename_i body hother
      injection h with h
      subst h
      refine ⟨rfl, fun hhead => ?_⟩
      obtain ⟨tail, rfl⟩ := List.head?_eq_some_iff.1 hhead
      exact hother tail rfl
    · cases h
  · rintro ⟨rfl, hhead⟩
    cases body with
    | nil => rfl
    | cons c body =>
        have hc : c ≠ ' ' := fun heq => hhead (congrArg some heq)
        simp [hc]

theorem toList_line
    (body : List Char) :
    ("PROXY " ++ String.ofList body).toList = "PROXY".toList ++ ' ' :: body := by
  simp

/-- A line that begins with the signature is accepted if the grammar has it. -/
theorem lineRoute_eq_ok_iff
    {line : Octets} {route : Option Route}
    (hsignature : textSignature <+: line) :
    lineRoute line = .ok route ↔ HeaderLine line route := by
  constructor
  · intro h
    obtain ⟨more, rfl⟩ := hsignature
    have hdecode : Utf8.decode (textSignature ++ more) = (Utf8.decode more).map ("PROXY" ++ ·) :=
      Utf8.decode_encode_append "PROXY" more
    cases hmore : Utf8.decode more with
    | none =>
        rw [lineRoute, hdecode, hmore] at h
        cases h
    | some s =>
        rw [hmore, Option.map_some] at hdecode
        rw [lineRoute, hdecode] at h
        cases hbody : bodyOf ("PROXY" ++ s).toList with
        | error flaw =>
            simp only [hbody] at h
            cases h
        | ok body =>
            simp only [hbody] at h
            rw [String.toList_append, bodyOf_eq_ok_iff] at hbody
            have hline : "PROXY" ++ s = "PROXY " ++ String.ofList body := by
              rw [← String.toList_inj, toList_line, String.toList_append, hbody.1]
            rw [hline, Utf8.decode_eq_some_iff_toByteArray] at hdecode
            exact ⟨body, fieldsOf body, hbody.2, hdecode, spaced_fieldsOf body,
              routeOf_eq_ok_iff.1 h⟩
  · rintro ⟨body, words, hhead, hline, hspaced, hsays⟩
    rw [lineRoute, Utf8.decode_eq_some_iff_toByteArray.2 hline]
    simp only [toList_line, bodyOf_eq_ok_iff.2 ⟨rfl, hhead⟩, fieldsOf_eq_iff.2 hspaced]
    exact routeOf_eq_ok_iff.2 hsays

theorem parse_of_text
    {text : Octets}
    (h : textSignature <+: text) :
    parse text = parseText text := by
  have hprefix := List.isPrefixOf_iff_prefix.2 h
  rw [parse, if_neg (by simp [not_binary_of_text hprefix]), if_pos hprefix]

/-- No line end stands within the signature. -/
theorem signature_prefix_line
    {text line : Octets} {place : Nat}
    (h : textSignature <+: text)
    (hplace : text.idxOf? Octets.lineFeed = some place)
    (hline : text.take place = line ∨ text.take place = line ++ [Octets.carriageReturn]) :
    textSignature <+: line := by
  have htake : textSignature <+: text.take place := by
    obtain ⟨more, rfl⟩ := h
    rw [Framing.Search.idxOf?_append_of_notMem (by decide)] at hplace
    obtain ⟨later, -, rfl⟩ := Option.map_eq_some_iff.1 hplace
    rw [List.take_append, List.take_of_length_le (by omega)]
    exact List.prefix_append _ _
  rcases hline with hline | hline
  · rwa [hline] at htake
  · rw [hline, List.prefix_concat_iff] at htake
    rcases htake with hall | hprefix
    · have hlast := congrArg List.getLast? hall
      rw [List.getLast?_concat] at hlast
      cases hlast
    · exact hprefix

/-- A line that ends early enough is found up to its line feed, or it is malformed. -/
theorem parseText_of_place
    {text : Octets} {place : Nat}
    (hplace : text.idxOf? Octets.lineFeed = some place)
    (hwithin : place < 107) :
    (∀ route, lineRoute (Octets.trimLast Octets.carriageReturn (text.take place)) = .ok route →
        parseText text = .ok (.complete ⟨.text, route, none, none⟩ (place + 1))) ∧
      ∀ flaw, lineRoute (Octets.trimLast Octets.carriageReturn (text.take place)) = .error flaw →
        parseText text = .error (.header flaw) := by
  have hlength : place < text.length := (List.findIdx?_eq_some_iff_findIdx_eq.1 hplace).1
  have hfirst : (text.take 107).idxOf? Octets.lineFeed = some place :=
    Framing.Search.idxOf?_take hplace hwithin
  have htake : (text.take 107).take place = text.take place := by
    rw [List.take_take, Nat.min_eq_left (Nat.le_of_lt hwithin)]
  rw [parseText, mostTextLength, Framing.splitLine_eq_idxOf?, hfirst]
  simp only [Option.map_some, htake, List.length_take_of_le (Nat.le_of_lt hlength)]
  constructor
  · intro route hroute
    rw [hroute]
  · intro flaw hflaw
    rw [hflaw]

/--
What is found where a header of text begins.  No line end in the first 107 octets leaves
it open, or is a flaw once there are so many.  Otherwise the line in front of the first line
feed, and of one carriage return before that, is found if the grammar has it, and is a
flaw if not.
-/
theorem parse_lines
    (text : Octets)
    (h : textSignature <+: text) :
    (Octets.lineFeed ∉ text.take 107 →
        (text.length < 107 → parse text = .ok (.incomplete (text.length + 1))) ∧
          (107 ≤ text.length → parse text = .error (.header .tooLong))) ∧
      ∀ place line, text.idxOf? Octets.lineFeed = some place → place < 107 →
        (text.take place = line ++ [Octets.carriageReturn] ∨
          text.take place = line ∧ line.getLast? ≠ some Octets.carriageReturn) →
        (∀ header length, parse text = .ok (.complete header length) ↔
            length = place + 1 ∧
              ∃ route, HeaderLine line route ∧ header = ⟨.text, route, none, none⟩) ∧
          ((∀ route, ¬ HeaderLine line route) → ∃ flaw, parse text = .error (.header flaw)) := by
  rw [parse_of_text h]
  constructor
  · intro hfeed
    rw [parseText, mostTextLength, Octets.splitLine_eq_none.2 hfeed]
    exact ⟨fun hshort => if_neg (Nat.not_le.2 hshort), fun hlong => if_pos hlong⟩
  · intro place line hplace hwithin hline
    have hsignature : textSignature <+: line := by
      refine signature_prefix_line h hplace ?_
      rcases hline with hline | ⟨hline, -⟩
      · exact Or.inr hline
      · exact Or.inl hline
    have htrim : Octets.trimLast Octets.carriageReturn (text.take place) = line := by
      rcases hline with hline | ⟨hline, hlast⟩
      · rw [hline, Octets.trimLast, List.getLast?_concat, if_pos rfl, List.dropLast_concat]
      · rw [hline, Octets.trimLast, if_neg hlast]
    have hgrammar : ∀ route, HeaderLine line route ↔ lineRoute line = .ok route :=
      fun route => (lineRoute_eq_ok_iff hsignature).symm
    have hfound := parseText_of_place hplace hwithin
    rw [htrim] at hfound
    simp only [hgrammar]
    cases hroute : lineRoute line with
    | error flaw =>
        rw [hfound.2 flaw hroute]
        exact ⟨by simp, fun _ => ⟨flaw, rfl⟩⟩
    | ok found =>
        rw [hfound.1 found hroute]
        refine ⟨fun header length => ?_, fun hnone => absurd rfl (hnone found)⟩
        simp [eq_comm, and_comm]

/-- The route of a line with endpoints. -/
def sampleRoute : Route :=
  ⟨.v4 ⟨192, 0, 2, 1⟩ 40000, .v4 ⟨198, 51, 100, 7⟩ 6514⟩

theorem headerLine_sample :
    HeaderLine (Utf8.encode "PROXY TCP4  192.0.2.1 198.51.100.7 40000 6514 on")
      (some sampleRoute) := by
  have hsource : Writes .tcp4 "192.0.2.1".toList "40000".toList sampleRoute.source :=
    .tcp4 (by decide) (by decide)
  have hdestination : Writes .tcp4 "198.51.100.7".toList "6514".toList sampleRoute.destination :=
    .tcp4 (by decide) (by decide)
  exact ⟨"TCP4  192.0.2.1 198.51.100.7 40000 6514 on".toList, _, by decide, Utf8.encode_eq _,
    spaced_fieldsOf _, .conveying hsource hdestination ["on".toList]⟩

theorem parse_lines_sample :
    textSignature <+: Utf8.encode "PROXY" ∧
      parse (Utf8.encode "PROXY") = .ok (.incomplete 6) ∧
      parse (Utf8.encode "PROXY TCP4  192.0.2.1 198.51.100.7 40000 6514 on" ++ [13, 10, 60]) =
        .ok (.complete ⟨.text, some sampleRoute, none, none⟩ 50) := by
  have hopen : textSignature <+: Utf8.encode "PROXY" := List.prefix_refl _
  refine ⟨hopen, ((parse_lines _ hopen).1 (by decide)).1 (by decide), ?_⟩
  exact (((parse_lines _ (by decide)).2 49 _ (by decide) (by decide) (Or.inl rfl)).1 _ 50).2
    ⟨rfl, _, headerLine_sample, rfl⟩

end ProxyHeader
end SyslogIntake

import SyslogIntake.Proofs.Careful.Basic
import SyslogIntake.Proofs.ProxyHeader.Lines
import SyslogIntake.Proofs.ProxyHeader.Writing

/-!
# Headers by position

Looking for a header, step by step and by position.  The front of a text says which of its
positions there are: that a signature was seen, that there are sixteen octets, that a block is as
long as it was announced.  What is asked for is always there, so the search never comes down, and
it finds what the search by patterns finds.

**Results.**

* `parseText_eq`, `parseBinary_eq` : the two forms of the header;
* `noteAll_eq` : the fields of a block, one after the other;
* `parse_eq`, `signatureLength_eq` : the whole search.
-/

namespace SyslogIntake
namespace Careful

open ProxyHeader

/-- The octets that it takes to tell a signature from other octets. -/
def signatureLength (text : Octets) : Except Mishap Nat := do
  if text = [] then return textSignature.length
  let first ← item text 0
  let mark ← item binarySignature 0
  return if first = mark then binarySignature.length else textSignature.length

/-- The route that four fields make up. -/
def routeAt (protocol : Protocol) (fields : List (List Char)) : Except Mishap (Option Route) := do
  let source ← item fields 0
  let destination ← item fields 1
  let sourcePort ← item fields 2
  let destinationPort ← item fields 3
  return match protocol.endpoint? source sourcePort,
      protocol.endpoint? destination destinationPort with
    | some source, some destination => some ⟨source, destination⟩
    | _, _ => none

/-- The route that the fields behind the signature give. -/
def routeOf (fields : List (List Char)) :
    Except Mishap (Except HeaderFlaw (Option Route)) := do
  match fields with
  | [] => return .error .noProtocol
  | name :: rest =>
      if name = "UNKNOWN".toList then return .ok none
      match [Protocol.tcp4, Protocol.tcp6].find? fun p => p.name.toList = name with
      | none => return .error (.unknownProtocol (String.ofList name))
      | some protocol =>
          let four := rest.take 4
          if four.length < 4 then return .error (.fewFields protocol.name)
          let route ← routeAt protocol four
          return .ok route

/-- What stands behind one space, which no other may follow. -/
def bodyIn : List Char → Except HeaderFlaw (List Char)
  | ' ' :: ' ' :: _ => .error .extraSpace
  | ' ' :: body => .ok body
  | _ => .error .noProtocol

/-- The route of a line, which begins with the signature and has lost its line end. -/
def lineRoute (line : Octets) : Except Mishap (Except HeaderFlaw (Option Route)) := do
  match Utf8.decode line with
  | none => return .error .notText
  | some text =>
      let rest ← behind textSignature.length text.toList
      match bodyIn rest with
      | .error flaw => return .error flaw
      | .ok body => routeOf (fieldsOf body)

/-- A header of text at the front of octets that begin with its signature. -/
def parseText (text : Octets) : Except Mishap (Except Fault Outcome) := do
  let window ← slice text 0 (min text.length mostTextLength)
  match window.idxOf? Octets.lineFeed with
  | none =>
      if mostTextLength ≤ text.length then return .error (.header .tooLong)
      let needed ← sum wordBits text.length 1
      return .ok (.incomplete needed)
  | some newline =>
      let line ← slice text 0 newline
      let found ← lineRoute (Octets.trimLast Octets.carriageReturn line)
      match found with
      | .error flaw => return .error (.header flaw)
      | .ok route =>
          let length ← sum wordBits newline 1
          return .ok (.complete ⟨.text, route, none, none⟩ length)

/-- The port of two octets at a position. -/
def portAt (block : Octets) (position : Nat) : Except Mishap UInt16 := do
  let high ← item block position
  let low ← item block (position + 1)
  return portOf high low

/-- The short address at a position. -/
def ipv4At (block : Octets) (position : Nat) : Except Mishap Ipv4 := do
  let a ← item block position
  let b ← item block (position + 1)
  let c ← item block (position + 2)
  let d ← item block (position + 3)
  return ⟨a, b, c, d⟩

/-- The long address at a position; only sixteen octets can be copied into it. -/
def ipv6At (block : Octets) (position : Nat) : Except Mishap Ipv6 := do
  let octets ← slice block position (position + 16)
  match Ipv6.ofOctets? octets with
  | some address => return address
  | none => throw .slice

/-- The route that the addresses of a family make up. -/
def routeOfBlock (family : Family) (block : Octets) : Except Mishap (Option Route) := do
  match family with
  | .inet =>
      let source ← ipv4At block 0
      let destination ← ipv4At block 4
      let sourcePort ← portAt block 8
      let destinationPort ← portAt block 10
      return some ⟨.v4 source sourcePort, .v4 destination destinationPort⟩
  | .inet6 =>
      let source ← ipv6At block 0
      let destination ← ipv6At block 16
      let sourcePort ← portAt block 32
      let destinationPort ← portAt block 34
      return some ⟨.v6 source sourcePort 0, .v6 destination destinationPort 0⟩
  | .unspecified | .unix => return none

/-- The header with the first field noted, and the fields behind it. -/
def noteFirst (header : ProxyHeader) (fields : Octets) :
    Except Mishap (Except HeaderFlaw (ProxyHeader × Octets)) := do
  if fields.length < 3 then return .error .truncatedField
  let kind ← item fields 0
  let high ← item fields 1
  let low ← item fields 2
  let stop ← sum wordBits 3 (Octets.bigEndian high low)
  if fields.length < stop then return .error (.fieldOverrun kind.toNat)
  let value ← slice fields 3 stop
  match ProxyHeader.note header kind value with
  | .error flaw => return .error flaw
  | .ok header =>
      let rest ← slice fields stop fields.length
      return .ok (header, rest)

/-- What becomes of a first field; whether it overruns the block is asked before it is cut out. -/
theorem noteFirst_eq
    (header : ProxyHeader)
    (kind high low : UInt8)
    (rest : Octets) :
    noteFirst header (kind :: high :: low :: rest) =
      .ok (if (rest.take (Octets.bigEndian high low)).length < Octets.bigEndian high low then
          .error (.fieldOverrun kind.toNat)
        else
          (ProxyHeader.note header kind (rest.take (Octets.bigEndian high low))).map fun header =>
            (header, rest.drop (Octets.bigEndian high low))) := by
  have hsmall := Octets.bigEndian_lt high low
  have hsum : sum wordBits 3 (Octets.bigEndian high low) = .ok (3 + Octets.bigEndian high low) :=
    sum_of_lt (by simp only [wordBits]; omega)
  have hkind : item (kind :: high :: low :: rest) 0 = .ok kind := rfl
  have hhigh : item (kind :: high :: low :: rest) 1 = .ok high := rfl
  have hlow : item (kind :: high :: low :: rest) 2 = .ok low := rfl
  have hlength : (kind :: high :: low :: rest).length = rest.length + 3 := rfl
  have hthree : ¬ (kind :: high :: low :: rest).length < 3 := by omega
  simp only [noteFirst, if_neg hthree, hkind, hhigh, hlow, ok_bind, hsum]
  by_cases hover : rest.length < Octets.bigEndian high low
  · have htake : (rest.take (Octets.bigEndian high low)).length < Octets.bigEndian high low := by
      rw [List.length_take]
      omega
    rw [if_pos (by omega), if_pos htake]
    rfl
  · have htake : ¬ (rest.take (Octets.bigEndian high low)).length < Octets.bigEndian high low := by
      rw [List.length_take]
      omega
    have hvalue : slice (kind :: high :: low :: rest) 3 (3 + Octets.bigEndian high low) =
        .ok (rest.take (Octets.bigEndian high low)) := by
      rw [slice_of_le (by omega) (by omega), Nat.add_sub_cancel_left]
      rfl
    have hrest : slice (kind :: high :: low :: rest) (3 + Octets.bigEndian high low)
        (kind :: high :: low :: rest).length = .ok (rest.drop (Octets.bigEndian high low)) := by
      rw [slice_back (by omega), Nat.add_comm 3, List.drop_succ_cons, List.drop_succ_cons,
        List.drop_succ_cons]
    rw [if_neg (by omega), if_neg htake, hvalue, hrest]
    cases hnote : ProxyHeader.note header kind (rest.take (Octets.bigEndian high low)) <;>
      simp only [ok_bind, hnote, pure_eq_ok, Except.map]

/-- A field that was noted takes up octets. -/
theorem noteFirst_rest
    {header noted : ProxyHeader}
    {fields rest : Octets}
    (h : noteFirst header fields = .ok (.ok (noted, rest))) :
    rest.length < fields.length := by
  match fields with
  | [] | [_] | [_, _] =>
      simp [noteFirst] at h
  | kind :: high :: low :: behind =>
      rw [noteFirst_eq] at h
      split at h
      · cases h
      · cases hnote : ProxyHeader.note header kind (behind.take (Octets.bigEndian high low)) with
        | error flaw =>
            rw [hnote] at h
            cases h
        | ok found =>
            rw [hnote] at h
            cases h
            simp only [List.length_drop, List.length_cons]
            omega

/-- The header with the fields of a block noted. -/
def noteAll (header : ProxyHeader) (fields : Octets) :
    Except Mishap (Except HeaderFlaw ProxyHeader) :=
  if fields = [] then .ok (.ok header)
  else
    match _h : noteFirst header fields with
    | .error mishap => .error mishap
    | .ok (.error flaw) => .ok (.error flaw)
    | .ok (.ok (noted, rest)) => noteAll noted rest
termination_by fields.length
decreasing_by exact noteFirst_rest _h

theorem noteAll_of_flaw
    {header : ProxyHeader}
    {fields : Octets}
    {flaw : HeaderFlaw}
    (hsome : fields ≠ [])
    (h : noteFirst header fields = .ok (.error flaw)) :
    noteAll header fields = .ok (.error flaw) := by
  rw [noteAll, if_neg hsome]
  split <;> simp_all

theorem noteAll_of_noted
    {header noted : ProxyHeader}
    {fields rest : Octets}
    (hsome : fields ≠ [])
    (h : noteFirst header fields = .ok (.ok (noted, rest))) :
    noteAll header fields = noteAll noted rest := by
  rw [noteAll, if_neg hsome]
  split <;> simp_all

/-- Noting fields never comes down. -/
theorem noteAll_eq
    (header : ProxyHeader)
    (fields : Octets) :
    noteAll header fields = .ok (ProxyHeader.noteAll header fields) := by
  fun_induction ProxyHeader.noteAll header fields with
  | case1 header =>
      rw [noteAll, if_pos rfl]
  | case2 header kind high low rest length value hover =>
      have hfirst := noteFirst_eq header kind high low rest
      rw [if_pos hover] at hfirst
      exact noteAll_of_flaw (List.cons_ne_nil _ _) hfirst
  | case3 header kind high low rest length value hwithin flaw hnote =>
      have hfirst := noteFirst_eq header kind high low rest
      rw [if_neg hwithin, hnote] at hfirst
      exact noteAll_of_flaw (List.cons_ne_nil _ _) hfirst
  | case4 header kind high low rest length value hwithin noted hnote ih =>
      have hfirst := noteFirst_eq header kind high low rest
      rw [if_neg hwithin, hnote] at hfirst
      rw [noteAll_of_noted (List.cons_ne_nil _ _) hfirst]
      exact ih
  | case5 header fields hsome hshort =>
      have hfirst : noteFirst header fields = .ok (.error .truncatedField) := by
        rcases fields with _ | ⟨kind, _ | ⟨high, _ | ⟨low, rest⟩⟩⟩
        · exact absurd rfl hsome
        · rfl
        · rfl
        · exact absurd rfl (hshort kind high low rest)
      exact noteAll_of_flaw hsome hfirst

/-- A long address is copied from sixteen octets. -/
theorem ipv6At_eq
    {block : Octets}
    {position : Nat}
    {address : Ipv6}
    (hlength : position + 16 ≤ block.length)
    (h : Ipv6.ofOctets? ((block.drop position).take 16) = some address) :
    ipv6At block position = .ok address := by
  have hslice := slice_of_le (Nat.le_add_right position 16) hlength
  rw [Nat.add_sub_cancel_left] at hslice
  simp only [ipv6At, hslice, ok_bind, h, pure_eq_ok]

theorem ofOctets?_isSome
    {octets : Octets}
    (h : octets.length = 16) :
    ∃ address, Ipv6.ofOctets? octets = some address := by
  have hgroups : (Ipv6.ofPairs octets).length = 8 := by
    rw [Ipv6.length_ofPairs, h]
  exact ⟨_, dif_pos hgroups⟩

theorem routeOfBlock_eq
    {family : Family}
    {block : Octets}
    (h : block.length = family.length) :
    routeOfBlock family block = .ok (family.route? block) := by
  cases family with
  | unspecified | unix => rfl
  | inet =>
      simp only [Family.length] at h
      obtain ⟨a, b, c, d, hsource⟩ := exists_four (l := block.take 4) (by simp [h])
      obtain ⟨e, f, g, i, hdestination⟩ := exists_four (l := (block.drop 4).take 4) (by simp [h])
      obtain ⟨p, q, r, s, hports⟩ := exists_four (l := block.drop 8) (by simp [h])
      have hblock : block = [a, b, c, d] ++ ([e, f, g, i] ++ [p, q, r, s]) := by
        have hbehind : (block.drop 4).drop 4 = [p, q, r, s] := by rw [List.drop_drop, hports]
        rw [← hsource, ← hdestination, ← hbehind, List.take_append_drop, List.take_append_drop]
      subst hblock
      rfl
  | inet6 =>
      simp only [Family.length] at h
      obtain ⟨source, hsource⟩ : ∃ address, Ipv6.ofOctets? (block.take 16) = some address :=
        ofOctets?_isSome (by simp [h])
      obtain ⟨destination, hdestination⟩ :
          ∃ address, Ipv6.ofOctets? ((block.drop 16).take 16) = some address :=
        ofOctets?_isSome (by simp [h])
      obtain ⟨p, q, r, s, hports⟩ : ∃ p q r s, block.drop 32 = [p, q, r, s] :=
        exists_four (by simp [h])
      have hport : ∀ position, item block (32 + position) = item [p, q, r, s] position :=
        fun position => by rw [← hports, item_drop]
      have hfirst : portAt block 32 = .ok (portOf p q) := by
        rw [portAt, hport 0, hport 1]
        rfl
      have hsecond : portAt block 34 = .ok (portOf r s) := by
        rw [portAt, hport 2, hport 3]
        rfl
      have hfrom : ipv6At block 0 = .ok source := ipv6At_eq (by omega) hsource
      have hto : ipv6At block 16 = .ok destination := ipv6At_eq (by omega) hdestination
      simp only [routeOfBlock, hfrom, hto, hfirst, hsecond, ok_bind, pure_eq_ok, Family.route?,
        hsource, hdestination, hports]

def ofBlock (forClient : Bool) (code : Nat) (block : Octets) :
    Except Mishap (Except HeaderFlaw ProxyHeader) := do
  match Family.ofCode? code with
  | none => return .error (.unknownFamily code)
  | some family =>
      if block.length < family.length then
        return .error (.shortAddresses block.length family.length)
      let addresses ← slice block 0 family.length
      let route ← if forClient then routeOfBlock family addresses else pure none
      let fields ← slice block family.length block.length
      noteAll ⟨.binary, route, none, none⟩ fields

theorem ofBlock_eq
    (forClient : Bool)
    (code : Nat)
    (block : Octets) :
    ofBlock forClient code block = .ok (ProxyHeader.ofBlock forClient code block) := by
  rw [ofBlock, ProxyHeader.ofBlock]
  cases Family.ofCode? code with
  | none => rfl
  | some family =>
      dsimp only
      by_cases hshort : block.length < family.length
      · rw [if_pos hshort, if_pos hshort]
        rfl
      · have hle : family.length ≤ block.length := Nat.le_of_not_lt hshort
        have hroute : routeOfBlock family (block.take family.length) =
            .ok (family.route? (block.take family.length)) :=
          routeOfBlock_eq (List.length_take_of_le hle)
        rw [if_neg hshort, if_neg hshort, slice_front hle, slice_back hle]
        cases forClient with
        | false => exact noteAll_eq _ _
        | true =>
            simp only [ok_bind, if_true, hroute]
            exact noteAll_eq _ _

/-- A binary header at the front of octets that begin with its signature. -/
def parseBinary (text : Octets) : Except Mishap (Except Fault Outcome) := do
  if text.length < fixedLength then return .ok (.incomplete fixedLength)
  let first ← item text 12
  let version := first.toNat / 16
  if version ≠ 2 then return .error (.headerVersion version)
  let command := first.toNat % 16
  if command ≠ 0 ∧ command ≠ 1 then return .error (.header (.unknownCommand command))
  let second ← item text 13
  let transport := second.toNat % 16
  if 2 < transport then return .error (.header (.unknownTransport transport))
  let high ← item text 14
  let low ← item text 15
  let total ← sum wordBits fixedLength (Octets.bigEndian high low)
  if text.length < total then return .ok (.incomplete total)
  let block ← slice text fixedLength total
  let found ← ofBlock (command = 1) (second.toNat / 16) block
  match found with
  | .error flaw => return .error (.header flaw)
  | .ok header => return .ok (.complete header total)

/-- A binary header: sixteen octets are there before the first of them is looked at. -/
theorem parseBinary_eq
    (text : Octets) :
    parseBinary text = .ok (ProxyHeader.parseBinary text) := by
  by_cases hshort : text.length < fixedLength
  · rw [parseBinary, if_pos hshort, parseBinary_short hshort]
    rfl
  have hfixed : 16 ≤ text.length := Nat.le_of_not_lt hshort
  obtain ⟨first, second, high, low, rest, hdrop⟩ :
      ∃ first second high low rest, text.drop 12 = first :: second :: high :: low :: rest := by
    have hfour : 4 ≤ (text.drop 12).length := by
      rw [List.length_drop]
      omega
    match text.drop 12, hfour with
    | first :: second :: high :: low :: rest, _ => exact ⟨first, second, high, low, rest, rfl⟩
  have hitem : ∀ position, item text (12 + position) =
      item (first :: second :: high :: low :: rest) position :=
    fun position => by rw [← hdrop, item_drop]
  have hfirst : item text 12 = .ok first := hitem 0
  have hsecond : item text 13 = .ok second := hitem 1
  have hhigh : item text 14 = .ok high := hitem 2
  have hlow : item text 15 = .ok low := hitem 3
  have hsmall := Octets.bigEndian_lt high low
  have hsum : sum wordBits fixedLength (Octets.bigEndian high low) =
      .ok (fixedLength + Octets.bigEndian high low) :=
    sum_of_lt (by simp only [wordBits, fixedLength]; omega)
  have hcommand : (first.toNat % 16 ≠ 0 ∧ first.toNat % 16 ≠ 1) ↔ 1 < first.toNat % 16 := by
    omega
  have hsignature : binarySignature.length = 12 := rfl
  rw [parseBinary, if_neg hshort, ProxyHeader.parseBinary, hsignature, hdrop]
  simp only [hfirst, hsecond, hhigh, hlow, hsum, hcommand, ok_bind]
  generalize Octets.bigEndian high low = length at hsmall hsum ⊢
  split
  · rfl
  split
  · rfl
  split
  · rfl
  have hrest : text.drop fixedLength = rest := by
    have hbehind : (text.drop 12).drop 4 = rest := by rw [hdrop]; rfl
    rwa [List.drop_drop] at hbehind
  have htotal : text.length = fixedLength + rest.length := by
    have hlengths := congrArg List.length hrest
    rw [List.length_drop] at hlengths
    simp only [fixedLength] at hlengths ⊢
    omega
  by_cases hlacking : rest.length < length
  · rw [if_pos (by omega), if_pos (by rw [List.length_take]; omega)]
    rfl
  · have hblock : slice text fixedLength (fixedLength + length) = .ok (rest.take length) := by
      rw [slice_of_le (by omega) (by omega), hrest, Nat.add_sub_cancel_left]
    rw [if_neg (by omega), if_neg (by rw [List.length_take]; omega), hblock]
    simp only [ok_bind, ofBlock_eq]
    cases ProxyHeader.ofBlock (first.toNat % 16 = 1) (second.toNat / 16) (rest.take length) <;> rfl

theorem routeAt_eq
    (protocol : Protocol)
    {fields : List (List Char)}
    (h : fields.length = 4) :
    routeAt protocol fields = .ok (protocol.route? fields) := by
  obtain ⟨source, destination, sourcePort, destinationPort, rfl⟩ := exists_four h
  rfl

theorem routeOf_eq
    (fields : List (List Char)) :
    routeOf fields = .ok (ProxyHeader.routeOf fields) := by
  cases fields with
  | nil => rfl
  | cons name rest =>
      rw [routeOf, ProxyHeader.routeOf]
      dsimp only
      by_cases hunknown : name = "UNKNOWN".toList
      · rw [if_pos hunknown, if_pos hunknown]
        rfl
      rw [if_neg hunknown, if_neg hunknown]
      cases [Protocol.tcp4, Protocol.tcp6].find? fun p => p.name.toList = name with
      | none => rfl
      | some protocol =>
          dsimp only
          by_cases hfew : rest.length < 4
          · rw [if_pos (by rw [List.length_take]; omega), if_pos hfew]
            rfl
          · have hfour : (rest.take 4).length = 4 := by
              rw [List.length_take]
              omega
            have hroute : protocol.route? (rest.take 4) = protocol.route? rest := by
              obtain ⟨source, destination, sourcePort, destinationPort, hfields⟩ :=
                exists_four hfour
              conv_rhs => rw [← List.take_append_drop 4 rest]
              rw [hfields]
              rfl
            rw [if_neg (by omega), if_neg hfew, routeAt_eq protocol hfour, hroute]
            rfl

theorem lineRoute_eq
    {line : Octets}
    (h : textSignature <+: line) :
    lineRoute line = .ok (ProxyHeader.lineRoute line) := by
  obtain ⟨more, rfl⟩ := h
  have hdecode : Utf8.decode (textSignature ++ more) = (Utf8.decode more).map ("PROXY" ++ ·) :=
    Utf8.decode_encode_append "PROXY" more
  rw [lineRoute, ProxyHeader.lineRoute, hdecode]
  cases Utf8.decode more with
  | none => rfl
  | some s =>
      have hall : ("PROXY".toList.all fun c => (Utf8.encodeChar c).length == 1) = true := rfl
      have hascii : ∀ c ∈ "PROXY".toList, (Utf8.encodeChar c).length = 1 := fun c hc =>
        eq_of_beq (List.all_eq_true.1 hall c hc)
      have hbehind : behind textSignature.length ("PROXY" ++ s).toList = .ok s.toList := by
        rw [String.toList_append]
        exact behind_ascii hascii s.toList
      have hbody : bodyOf ("PROXY" ++ s).toList = bodyIn s.toList := by
        rw [String.toList_append]
        rfl
      simp only [Option.map_some, hbehind, hbody, ok_bind]
      cases bodyIn s.toList with
      | error flaw => rfl
      | ok body => exact routeOf_eq _

/-- A header of text: a line that has ended begins with the signature as the text does. -/
theorem parseText_eq
    {text : Octets}
    (h : textSignature <+: text) :
    parseText text = .ok (ProxyHeader.parseText text) := by
  have hwindow : slice text 0 (min text.length mostTextLength) =
      .ok (text.take mostTextLength) := by
    rw [slice_front (Nat.min_le_left ..), Nat.min_comm, ← List.take_take, List.take_length]
  rw [parseText, ProxyHeader.parseText, hwindow, Framing.splitLine_eq_idxOf?]
  simp only [ok_bind]
  cases hplace : (text.take mostTextLength).idxOf? Octets.lineFeed with
  | none =>
      dsimp only [Option.map_none]
      by_cases hlong : mostTextLength ≤ text.length
      · rw [if_pos hlong, if_pos hlong]
        rfl
      · have hsum : sum wordBits text.length 1 = .ok (text.length + 1) :=
          sum_of_lt (by simp only [wordBits, mostTextLength] at hlong ⊢; omega)
        rw [if_neg hlong, if_neg hlong, hsum]
        rfl
  | some newline =>
      have hwithin : newline < (text.take mostTextLength).length :=
        (List.idxOf?_eq_some_iff.1 hplace).1
      have hle : newline ≤ text.length ∧ newline < mostTextLength := by
        rw [List.length_take] at hwithin
        omega
      have htake : (text.take mostTextLength).take newline = text.take newline := by
        rw [List.take_take, Nat.min_eq_left (Nat.le_of_lt hle.2)]
      have hfirst : text.idxOf? Octets.lineFeed = some newline := by
        rw [← List.take_append_drop mostTextLength text]
        exact Framing.Search.idxOf?_append_of_some hplace _
      have hline : textSignature <+:
          Octets.trimLast Octets.carriageReturn (text.take newline) := by
        refine signature_prefix_line h hfirst ?_
        rw [Octets.trimLast]
        split
        · rename_i hlast
          exact .inr (List.dropLast_append_getLast? _ hlast).symm
        · exact .inl rfl
      have hsum : sum wordBits newline 1 = .ok (newline + 1) :=
        sum_of_lt (by simp only [wordBits, mostTextLength] at hle ⊢; omega)
      simp only [Option.map_some, slice_front hle.1, ok_bind, htake, lineRoute_eq hline, hsum,
        List.length_take_of_le hle.1]
      cases ProxyHeader.lineRoute (Octets.trimLast Octets.carriageReturn (text.take newline)) <;>
        rfl

theorem signatureLength_eq
    (text : Octets) :
    signatureLength text = .ok (ProxyHeader.signatureLength text) := by
  cases text with
  | nil => rfl
  | cons first text =>
      rw [signatureLength, ProxyHeader.signatureLength, if_neg (List.cons_ne_nil _ _)]
      simp only [item, ok_bind, List.getElem?_cons_zero, List.head?_cons, binarySignature,
        Option.some.injEq, pure_eq_ok]

/-- What stands at the front of octets. -/
def parse (text : Octets) : Except Mishap (Except Fault Outcome) := do
  if binarySignature.isPrefixOf text then
    parseBinary text
  else if textSignature.isPrefixOf text then
    parseText text
  else if mayBecomeSignature text then
    let needed ← signatureLength text
    return .ok (.incomplete needed)
  else
    return .ok .absent

/-- Looking for a header never comes down. -/
theorem parse_eq
    (text : Octets) :
    parse text = .ok (ProxyHeader.parse text) := by
  rw [parse, ProxyHeader.parse]
  split
  · exact parseBinary_eq text
  split
  · rename_i htext
    exact parseText_eq (List.isPrefixOf_iff_prefix.1 htext)
  split
  · rw [signatureLength_eq]
    rfl
  · rfl

end Careful
end SyslogIntake

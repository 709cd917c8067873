import Mathlib.Tactic.SplitIfs
import SyslogIntake.ProxyHeader.Parser
import SyslogIntake.Proofs.Text.Encoding

/-!
# Writing binary headers

A proxy announces a client by a command, a transport, the addresses of one family and a
list of fields.  What it writes is found again in front of whatever follows, and nothing
else that begins with the signature is a header.

**Results.**

* `parse_write` : an announcement is found as it was written;
* `exists_write` : where a header is found, an announcement was written;
* `parse_announced` : both, and what becomes of a whole block that no announcement wrote.
-/

namespace SyslogIntake

/-- The two octets of a number, the more significant one first. -/
def Octets.pair (n : Nat) : Octets :=
  [UInt8.ofNat (n / 256), UInt8.ofNat n]

theorem Octets.pair_bigEndian
    (high low : UInt8) :
    pair (bigEndian high low) = [high, low] := by
  have hhigh := high.toNat_lt
  have hlow := low.toNat_lt
  have hdiv : bigEndian high low / 256 = high.toNat := by
    simp only [bigEndian]
    omega
  have hmod : UInt8.ofNat (bigEndian high low) = low := by
    rw [← UInt8.toNat_inj, UInt8.toNat_ofNat']
    simp only [bigEndian]
    omega
  rw [pair, hdiv, hmod, UInt8.ofNat_toNat]

theorem Octets.bigEndian_pair
    {n : Nat}
    (h : n < 65536) :
    bigEndian (UInt8.ofNat (n / 256)) (UInt8.ofNat n) = n := by
  simp only [bigEndian, UInt8.toNat_ofNat']
  omega

/-- A number of sixteen bits has two octets, which make it up again. -/
theorem Octets.exists_pair
    (n : UInt16) :
    ∃ high low, pair n.toNat = [high, low] ∧ UInt16.ofNat (bigEndian high low) = n := by
  refine ⟨_, _, rfl, ?_⟩
  rw [bigEndian_pair n.toNat_lt, UInt16.ofNat_toNat]

theorem Octets.pair_ofNat
    (high low : UInt8) :
    pair (UInt16.ofNat (bigEndian high low)).toNat = [high, low] := by
  rw [UInt16.toNat_ofNat', Nat.mod_eq_of_lt (bigEndian_lt high low), pair_bigEndian]

def Ipv4.octets (address : Ipv4) : Octets :=
  [address.a, address.b, address.c, address.d]

def Ipv6.octets (address : Ipv6) : Octets :=
  address.groups.flatMap fun group => Octets.pair group.toNat

theorem Ipv6.length_octets
    (address : Ipv6) :
    address.octets.length = 16 := by
  simp [octets, Octets.pair, List.length_flatMap, List.map_const', address.length_groups]

theorem Ipv6.ofPairs_flatMap
    (groups : List UInt16) :
    ofPairs (groups.flatMap fun group => Octets.pair group.toNat) = groups := by
  induction groups with
  | nil =>
      rfl
  | cons group groups ih =>
      obtain ⟨high, low, hpair, hgroup⟩ := Octets.exists_pair group
      rw [List.flatMap_cons, hpair, List.cons_append, List.singleton_append, ofPairs, ih,
        hgroup]

theorem Ipv6.ofOctets?_octets
    (address : Ipv6) :
    ofOctets? address.octets = some address := by
  simp only [ofOctets?, octets, ofPairs_flatMap, ofGroups?, address.length_groups, dite_true]

theorem Ipv6.flatMap_ofPairs
    {octets : Octets}
    (h : octets.length % 2 = 0) :
    (ofPairs octets).flatMap (fun group => Octets.pair group.toNat) = octets := by
  induction octets using ofPairs.induct with
  | case1 high low rest ih =>
      rw [ofPairs, List.flatMap_cons, Octets.pair_ofNat, ih]
      · rfl
      · simp only [List.length_cons] at h
        omega
  | case2 octets hshort =>
      rcases octets with _ | ⟨high, _ | ⟨low, rest⟩⟩
      · rfl
      · simp at h
      · exact absurd rfl (hshort high low rest)

theorem Ipv6.exists_octets
    {octets : Octets}
    (h : octets.length = 16) :
    ∃ address : Ipv6, address.octets = octets := by
  have hlength : (ofPairs octets).length = 8 := by
    rw [length_ofPairs, h]
  exact ⟨⟨ofPairs octets, hlength⟩, flatMap_ofPairs (by omega)⟩

namespace ProxyHeader

def Family.code : Family → Nat
  | unspecified => 0
  | inet => 1
  | inet6 => 2
  | unix => 3

theorem Family.ofCode?_eq_some
    {family : Family} {code : Nat} :
    ofCode? code = some family ↔ code = family.code := by
  unfold ofCode?
  split <;> cases family <;> simp_all [Family.code]

/-- The addresses that a binary header can hold. -/
inductive Addresses
  | unspecified
  | inet (source destination : Ipv4) (sourcePort destinationPort : UInt16)
  | inet6 (source destination : Ipv6) (sourcePort destinationPort : UInt16)
  | unix (paths : Octets) (length_paths : paths.length = 216)

namespace Addresses

def family : Addresses → Family
  | unspecified => .unspecified
  | inet .. => .inet
  | inet6 .. => .inet6
  | unix .. => .unix

/-- The octets of addresses: two addresses, then two ports. -/
def octets : Addresses → Octets
  | unspecified => []
  | inet source destination sourcePort destinationPort =>
      source.octets ++ destination.octets ++ Octets.pair sourcePort.toNat ++
        Octets.pair destinationPort.toNat
  | inet6 source destination sourcePort destinationPort =>
      source.octets ++ destination.octets ++ Octets.pair sourcePort.toNat ++
        Octets.pair destinationPort.toNat
  | unix paths _ => paths

/-- The route that addresses give; paths give none. -/
def route? : Addresses → Option Route
  | inet source destination sourcePort destinationPort =>
      some ⟨.v4 source sourcePort, .v4 destination destinationPort⟩
  | inet6 source destination sourcePort destinationPort =>
      some ⟨.v6 source sourcePort 0, .v6 destination destinationPort 0⟩
  | unspecified | unix .. => none

theorem length_octets
    (a : Addresses) :
    a.octets.length = a.family.length := by
  cases a with
  | unspecified => rfl
  | inet source destination sourcePort destinationPort => rfl
  | inet6 source destination sourcePort destinationPort =>
      simp [octets, Ipv6.length_octets, Octets.pair, family, Family.length]
  | unix paths length_paths => exact length_paths

theorem route?_octets
    (a : Addresses) :
    a.family.route? a.octets = a.route? := by
  cases a with
  | unspecified => rfl
  | inet source destination sourcePort destinationPort =>
      obtain ⟨p, q, hsource, hpq⟩ := Octets.exists_pair sourcePort
      obtain ⟨r, s, hdestination, hrs⟩ := Octets.exists_pair destinationPort
      rw [octets, hsource, hdestination, route?, ← hpq, ← hrs]
      rfl
  | inet6 source destination sourcePort destinationPort =>
      obtain ⟨p, q, hsource, hpq⟩ := Octets.exists_pair sourcePort
      obtain ⟨r, s, hdestination, hrs⟩ := Octets.exists_pair destinationPort
      have hlength := source.length_octets
      have hlater := destination.length_octets
      have hfront : (source.octets ++ (destination.octets ++ ([p, q] ++ [r, s]))).take 16 =
          source.octets := List.take_left' hlength
      have hback : (source.octets ++ (destination.octets ++ ([p, q] ++ [r, s]))).drop 16 =
          destination.octets ++ ([p, q] ++ [r, s]) := List.drop_left' hlength
      have hports : (source.octets ++ (destination.octets ++ ([p, q] ++ [r, s]))).drop 32 =
          [p, q] ++ [r, s] := by
        rw [← List.append_assoc]
        refine List.drop_left' ?_
        rw [List.length_append, hlength, hlater]
      rw [octets, hsource, hdestination, List.append_assoc, List.append_assoc, family, route?,
        ← hpq, ← hrs]
      simp only [Family.route?, hfront, hback, hports, List.take_left' hlater,
        Ipv6.ofOctets?_octets]
      rfl
  | unix paths length_paths => rfl

theorem exists_octets
    {family : Family} {octets : Octets}
    (h : octets.length = family.length) :
    ∃ a : Addresses, a.family = family ∧ a.octets = octets := by
  cases family with
  | unspecified =>
      exact ⟨.unspecified, rfl, (List.eq_nil_of_length_eq_zero h).symm⟩
  | inet =>
      match octets, h with
      | [a, b, c, d, e, f, g, h, p, q, r, s], _ =>
          refine ⟨.inet ⟨a, b, c, d⟩ ⟨e, f, g, h⟩ (portOf p q) (portOf r s), rfl, ?_⟩
          rw [Addresses.octets, portOf, portOf, Octets.pair_ofNat, Octets.pair_ofNat]
          rfl
  | inet6 =>
      have hall : octets.length = 36 := h
      obtain ⟨source, hsource⟩ : ∃ a : Ipv6, a.octets = octets.take 16 :=
        Ipv6.exists_octets (by rw [List.length_take]; omega)
      obtain ⟨destination, hdestination⟩ : ∃ a : Ipv6, a.octets = (octets.drop 16).take 16 :=
        Ipv6.exists_octets (by rw [List.length_take, List.length_drop]; omega)
      obtain ⟨p, q, r, s, hports⟩ : ∃ p q r s, (octets.drop 16).drop 16 = [p, q, r, s] := by
        have hfour : ((octets.drop 16).drop 16).length = 4 := by
          simp only [List.length_drop]
          omega
        match (octets.drop 16).drop 16, hfour with
        | [p, q, r, s], _ => exact ⟨p, q, r, s, rfl⟩
      refine ⟨.inet6 source destination (portOf p q) (portOf r s), rfl, ?_⟩
      rw [Addresses.octets, portOf, portOf, Octets.pair_ofNat, Octets.pair_ofNat, hsource,
        hdestination, List.append_assoc, List.append_assoc]
      change octets.take 16 ++ ((octets.drop 16).take 16 ++ [p, q, r, s]) = octets
      rw [← hports, List.take_append_drop, List.take_append_drop]
  | unix =>
      exact ⟨.unix octets h, rfl, rfl⟩

end Addresses

/-- A field of a block: a name, an identifier, or one of a kind that is passed over. -/
inductive Field
  | authority (name : String) (short : (Utf8.encode name).length < 65536)
  | uniqueId (value : Octets) (short : value.length ≤ mostUniqueId)
  | other (kind : UInt8) (value : Octets) (short : value.length < 65536)
      (hauthority : kind ≠ authorityKind) (huniqueId : kind ≠ uniqueIdKind)

namespace Field

def kind : Field → UInt8
  | authority .. => authorityKind
  | uniqueId .. => uniqueIdKind
  | other kind .. => kind

def value : Field → Octets
  | authority name _ => Utf8.encode name
  | uniqueId value _ => value
  | other _ value .. => value

/-- The octets of a field: its kind, the length of its value, and its value. -/
def write (field : Field) : Octets :=
  field.kind :: Octets.pair field.value.length ++ field.value

/-- The name in a field, if it holds one. -/
def name? : Field → Option String
  | authority name _ => some name
  | uniqueId .. | other .. => none

/-- The identifier in a field, if it holds one. -/
def identifier? : Field → Option Octets
  | uniqueId value _ => some value
  | authority .. | other .. => none

theorem length_value_lt
    (field : Field) :
    field.value.length < 65536 := by
  cases field with
  | authority name short => exact short
  | uniqueId value short => exact Nat.lt_of_le_of_lt short (by decide)
  | other kind value short => exact short

theorem note_eq
    (field : Field) (header : ProxyHeader) :
    note header field.kind field.value =
      .ok ⟨header.form, header.route, field.name?.or header.authority,
        field.identifier?.or header.uniqueId⟩ := by
  cases field with
  | authority name short =>
      have hname : Utf8.decode (Utf8.encode name) = some name := Utf8.decode_eq_some_iff.2 rfl
      simp [note, kind, value, name?, identifier?, hname]
  | uniqueId value short =>
      have hkind : uniqueIdKind ≠ authorityKind := by decide
      simp [note, kind, Field.value, name?, identifier?, hkind, Nat.not_lt.2 short]
  | other kind value short hauthority huniqueId =>
      simp [note, Field.kind, name?, identifier?, hauthority, huniqueId]

/-- What was noted is a field that can be written. -/
theorem exists_of_note
    {header after : ProxyHeader} {kind : UInt8} {value : Octets}
    (hshort : value.length < 65536)
    (h : note header kind value = .ok after) :
    ∃ field : Field, field.kind = kind ∧ field.value = value := by
  unfold note at h
  split_ifs at h with hauthority huniqueId hlong
  · cases hname : Utf8.decode value with
    | none =>
        simp [hname] at h
    | some name =>
        obtain rfl := Utf8.decode_eq_some_iff.1 hname
        exact ⟨.authority name hshort, hauthority.symm, rfl⟩
  · exact ⟨.uniqueId value (Nat.not_lt.1 hlong), huniqueId.symm, rfl⟩
  · exact ⟨.other kind value hshort hauthority huniqueId, rfl, rfl⟩

end Field

theorem noteAll_cons
    (header : ProxyHeader) (field : Field) (rest : Octets) :
    noteAll header (field.write ++ rest) =
      noteAll ⟨header.form, header.route, field.name?.or header.authority,
        field.identifier?.or header.uniqueId⟩ rest := by
  have hlength := Octets.bigEndian_pair field.length_value_lt
  have hvalue : (field.value ++ rest).take field.value.length = field.value :=
    List.take_left' rfl
  rw [Field.write, Octets.pair]
  simp only [List.cons_append, List.nil_append]
  rw [noteAll, hlength]
  simp only [hvalue, Nat.lt_irrefl, if_false, field.note_eq, List.drop_left' rfl]

/-- Fields are noted one after the other, and the last one of its kind stays. -/
theorem noteAll_write
    (header : ProxyHeader) (fields : List Field) :
    noteAll header (fields.flatMap Field.write) =
      .ok ⟨header.form, header.route,
        (fields.filterMap Field.name?).getLast?.or header.authority,
        (fields.filterMap Field.identifier?).getLast?.or header.uniqueId⟩ := by
  induction fields generalizing header with
  | nil =>
      rw [List.flatMap_nil, noteAll]
      rfl
  | cons field fields ih =>
      rw [List.flatMap_cons, noteAll_cons, ih]
      -- a later field of the kind counts, else this one, else what was noted before
      have hlast : ∀ {α : Type} (first : Option α) (later : List α) (noted : Option α),
          later.getLast?.or (first.or noted) = (first.toList ++ later).getLast?.or noted := by
        intro α first later noted
        rw [List.getLast?_append, Option.or_assoc]
        cases first <;> rfl
      have hcons : ∀ {α : Type} (f : Field → Option α),
          (field :: fields).filterMap f = (f field).toList ++ fields.filterMap f := by
        intro α f
        cases hf : f field <;> simp [hf]
      rw [hcons, hcons, ← hlast, ← hlast]

theorem exists_fields
    {header after : ProxyHeader} {text : Octets}
    (h : noteAll header text = .ok after) :
    ∃ fields : List Field, fields.flatMap Field.write = text := by
  fun_induction noteAll header text with
  | case1 header => exact ⟨[], rfl⟩
  | case2 | case3 | case5 => cases h
  | case4 header kind high low rest length value hwhole next hnote ih =>
      obtain ⟨fields, hfields⟩ := ih h
      have hlength : value.length = length := by
        have hle : value.length ≤ length := List.length_take_le _ _
        omega
      have hshort : value.length < 65536 := by
        rw [hlength]
        exact Octets.bigEndian_lt high low
      obtain ⟨field, hkind, hvalue⟩ := Field.exists_of_note hshort hnote
      refine ⟨field :: fields, ?_⟩
      rw [List.flatMap_cons, hfields, Field.write, hkind, hvalue, hlength,
        Octets.pair_bigEndian]
      simp only [List.cons_append, List.nil_append, value, List.take_append_drop]

/-- What is found where a whole block follows: the fixed octets are checked in front of it. -/
theorem parse_whole
    {first second high low : UInt8} {rest : Octets}
    (hwhole : Octets.bigEndian high low ≤ rest.length) :
    parse (binarySignature ++ first :: second :: high :: low :: rest) =
      if first.toNat / 16 ≠ 2 then .error (.headerVersion (first.toNat / 16))
      else if 1 < first.toNat % 16 then
        .error (.header (.unknownCommand (first.toNat % 16)))
      else if 2 < second.toNat % 16 then
        .error (.header (.unknownTransport (second.toNat % 16)))
      else
        match ofBlock (first.toNat % 16 = 1) (second.toNat / 16)
            (rest.take (Octets.bigEndian high low)) with
        | .error flaw => .error (.header flaw)
        | .ok header => .ok (.complete header (fixedLength + Octets.bigEndian high low)) := by
  have hsignature : binarySignature.isPrefixOf
      (binarySignature ++ first :: second :: high :: low :: rest) = true := by simp
  have hblock : ¬ (rest.take (Octets.bigEndian high low)).length < Octets.bigEndian high low := by
    rw [List.length_take]
    omega
  rw [parse, if_pos hsignature, parseBinary, List.drop_left' (Eq.refl binarySignature.length)]
  cases hfound : ofBlock (first.toNat % 16 = 1) (second.toNat / 16)
      (rest.take (Octets.bigEndian high low)) with
  | error flaw => simp only [hblock, if_false, hfound]
  | ok header => simp only [hblock, if_false, hfound]

/-- What is found while a part of the block is missing: the fixed octets are checked already. -/
theorem parse_part
    {first second high low : UInt8} {rest : Octets}
    (hpartial : rest.length < Octets.bigEndian high low) :
    parse (binarySignature ++ first :: second :: high :: low :: rest) =
      if first.toNat / 16 ≠ 2 then .error (.headerVersion (first.toNat / 16))
      else if 1 < first.toNat % 16 then
        .error (.header (.unknownCommand (first.toNat % 16)))
      else if 2 < second.toNat % 16 then
        .error (.header (.unknownTransport (second.toNat % 16)))
      else .ok (.incomplete (fixedLength + Octets.bigEndian high low)) := by
  have hsignature : binarySignature.isPrefixOf
      (binarySignature ++ first :: second :: high :: low :: rest) = true := by simp
  have hblock : (rest.take (Octets.bigEndian high low)).length < Octets.bigEndian high low := by
    rw [List.length_take]
    omega
  rw [parse, if_pos hsignature, parseBinary, List.drop_left' (Eq.refl binarySignature.length)]
  simp only [hblock, if_true]

theorem parse_partial
    {first second high low : UInt8} {rest : Octets}
    (hpartial : rest.length < Octets.bigEndian high low)
    (header : ProxyHeader) (length : Nat) :
    parse (binarySignature ++ first :: second :: high :: low :: rest) ≠
      .ok (.complete header length) := by
  rw [parse_part hpartial]
  split_ifs <;> simp

/-- What a proxy announces: for whom it speaks, and what it tells. -/
structure Announcement where
  forClient : Bool
  transport : Fin 3
  addresses : Addresses
  fields : List Field
  short : (addresses.octets ++ fields.flatMap Field.write).length < 65536

namespace Announcement

/-- The addresses and the fields of an announcement. -/
def block (a : Announcement) : Octets :=
  a.addresses.octets ++ a.fields.flatMap Field.write

/-- The octets in front of the block: version and command, family and transport, length. -/
def fixed (a : Announcement) : Octets :=
  UInt8.ofNat (2 * 16 + a.forClient.toNat) ::
    UInt8.ofNat (a.addresses.family.code * 16 + a.transport) :: Octets.pair a.block.length

def write (a : Announcement) : Octets :=
  binarySignature ++ a.fixed ++ a.block

def header (a : Announcement) : ProxyHeader :=
  ⟨.binary, if a.forClient then a.addresses.route? else none,
    (a.fields.filterMap Field.name?).getLast?, (a.fields.filterMap Field.identifier?).getLast?⟩

theorem ofBlock_block
    (a : Announcement) :
    ofBlock a.forClient a.addresses.family.code a.block = .ok a.header := by
  have hcode := Family.ofCode?_eq_some.2 (Eq.refl a.addresses.family.code)
  have hlength := a.addresses.length_octets
  have henough : ¬ a.block.length < a.addresses.family.length := by
    rw [block, List.length_append]
    omega
  have htake : a.block.take a.addresses.family.length = a.addresses.octets :=
    List.take_left' hlength
  have hdrop : a.block.drop a.addresses.family.length = a.fields.flatMap Field.write :=
    List.drop_left' hlength
  rw [ofBlock, hcode]
  simp only [henough, if_false, htake, hdrop, Addresses.route?_octets, noteAll_write,
    Option.or_none]
  rfl

theorem fixed_eq_iff
    {a : Announcement} {first second high low : UInt8} :
    a.fixed = [first, second, high, low] ↔
      first.toNat = 2 * 16 + a.forClient.toNat ∧
        second.toNat = a.addresses.family.code * 16 + a.transport ∧
        Octets.bigEndian high low = a.block.length := by
  constructor
  · intro h
    have htransport := a.transport.isLt
    have hcommand : a.forClient.toNat ≤ 1 := Bool.toNat_le a.forClient
    have hcode : a.addresses.family.code ≤ 3 := by
      cases a.addresses.family <;> decide
    rw [fixed, Octets.pair] at h
    injection h with hfirst h
    injection h with hsecond h
    injection h with hhigh h
    injection h with hlow h
    refine ⟨?_, ?_, ?_⟩
    · rw [← hfirst, UInt8.toNat_ofNat']
      omega
    · rw [← hsecond, UInt8.toNat_ofNat']
      omega
    · rw [← hhigh, ← hlow]
      exact Octets.bigEndian_pair a.short
  · rintro ⟨hfirst, hsecond, hlength⟩
    rw [fixed, ← hfirst, ← hsecond, ← hlength, Octets.pair_bigEndian, UInt8.ofNat_toNat,
      UInt8.ofNat_toNat]

theorem parse_write
    (a : Announcement) (rest : Octets) :
    parse (a.write ++ rest) = .ok (.complete a.header (fixedLength + a.block.length)) := by
  obtain ⟨first, second, high, low, hfixed⟩ :
      ∃ first second high low, a.fixed = [first, second, high, low] := ⟨_, _, _, _, rfl⟩
  obtain ⟨hfirst, hsecond, hlength⟩ := fixed_eq_iff.1 hfixed
  have htransport := a.transport.isLt
  have hcommand : a.forClient.toNat ≤ 1 := Bool.toNat_le a.forClient
  have hwrite : a.write ++ rest =
      binarySignature ++ first :: second :: high :: low :: (a.block ++ rest) := by
    simp [write, hfixed]
  have hwhole : Octets.bigEndian high low ≤ (a.block ++ rest).length := by
    rw [hlength, List.length_append]
    omega
  have hversion : ¬ first.toNat / 16 ≠ 2 := by omega
  have hknown : ¬ 1 < first.toNat % 16 := by omega
  have hcarried : ¬ 2 < second.toNat % 16 := by omega
  have hclient : decide (first.toNat % 16 = 1) = a.forClient := by
    have hmod : first.toNat % 16 = a.forClient.toNat := by omega
    rw [hmod]
    cases a.forClient <;> rfl
  have hcode : second.toNat / 16 = a.addresses.family.code := by omega
  rw [hwrite, parse_whole hwhole, if_neg hversion, if_neg hknown, if_neg hcarried, hclient,
    hcode, hlength, List.take_left' rfl, ofBlock_block]

end Announcement

theorem exists_of_ofBlock
    {forClient : Bool} {code : Nat} {block : Octets} {header : ProxyHeader}
    (h : ofBlock forClient code block = .ok header) :
    ∃ (addresses : Addresses) (fields : List Field), addresses.family.code = code ∧
      addresses.octets ++ fields.flatMap Field.write = block := by
  unfold ofBlock at h
  split at h
  · cases h
  · rename_i family hcode
    split at h
    · cases h
    · rename_i henough
      obtain ⟨fields, hfields⟩ := exists_fields h
      obtain ⟨addresses, hfamily, hoctets⟩ :
          ∃ a : Addresses, a.family = family ∧ a.octets = block.take family.length :=
        Addresses.exists_octets (by rw [List.length_take]; omega)
      refine ⟨addresses, fields, ?_, ?_⟩
      · rw [hfamily, Family.ofCode?_eq_some.1 hcode]
      · rw [hoctets, hfields, List.take_append_drop]

/-- What the fixed octets and the block of a header say, an announcement says. -/
theorem exists_announcement
    {first second high low : UInt8} {block : Octets} {header : ProxyHeader}
    (hversion : first.toNat / 16 = 2)
    (hcommand : first.toNat % 16 ≤ 1)
    (htransport : second.toNat % 16 ≤ 2)
    (hlength : block.length = Octets.bigEndian high low)
    (h : ofBlock (first.toNat % 16 = 1) (second.toNat / 16) block = .ok header) :
    ∃ a : Announcement, a.fixed = [first, second, high, low] ∧ a.block = block := by
  obtain ⟨addresses, fields, hcode, hblock⟩ := exists_of_ofBlock h
  have hshort := Octets.bigEndian_lt high low
  rw [← hlength, ← hblock] at hshort
  refine ⟨⟨decide (first.toNat % 16 = 1), ⟨second.toNat % 16, by omega⟩, addresses, fields,
    hshort⟩, Announcement.fixed_eq_iff.2 ⟨?_, ?_, ?_⟩, hblock⟩
  · change first.toNat = 2 * 16 + (decide (first.toNat % 16 = 1)).toNat
    by_cases hone : first.toNat % 16 = 1
    · simp only [hone, decide_true, Bool.toNat_true]
      omega
    · simp only [hone, decide_false, Bool.toNat_false]
      omega
  · change second.toNat = addresses.family.code * 16 + second.toNat % 16
    omega
  · exact hlength.symm.trans (congrArg List.length hblock.symm)

/-- A whole block was written by an announcement, or it is refused. -/
theorem write_or_error
    {first second high low : UInt8} {rest : Octets}
    (hwhole : Octets.bigEndian high low ≤ rest.length) :
    (∃ (a : Announcement) (more : Octets),
        binarySignature ++ first :: second :: high :: low :: rest = a.write ++ more) ∨
      ∃ fault, parse (binarySignature ++ first :: second :: high :: low :: rest) = .error fault ∧
        if first.toNat / 16 = 2 then ∃ flaw, fault = .header flaw
        else fault = .headerVersion (first.toNat / 16) := by
  rw [parse_whole hwhole]
  by_cases hversion : first.toNat / 16 = 2
  · simp only [hversion, ne_eq, not_true, if_false, if_true]
    split_ifs with hcommand htransport
    · exact Or.inr ⟨_, rfl, _, rfl⟩
    · exact Or.inr ⟨_, rfl, _, rfl⟩
    · cases hblock : ofBlock (first.toNat % 16 = 1) (second.toNat / 16)
          (rest.take (Octets.bigEndian high low)) with
      | error flaw => exact Or.inr ⟨_, rfl, _, rfl⟩
      | ok header =>
          obtain ⟨a, hfixed, hwrites⟩ := exists_announcement hversion (Nat.not_lt.1 hcommand)
            (Nat.not_lt.1 htransport) (List.length_take_of_le hwhole) hblock
          refine Or.inl ⟨a, rest.drop (Octets.bigEndian high low), ?_⟩
          rw [Announcement.write, hfixed, hwrites]
          simp
  · exact Or.inr ⟨_, if_pos hversion, by rw [if_neg hversion]⟩

/-- Where a header is found behind the signature, it was written by an announcement. -/
theorem exists_write
    {text : Octets} {header : ProxyHeader} {length : Nat}
    (hsignature : binarySignature <+: text)
    (h : parse text = .ok (.complete header length)) :
    ∃ (a : Announcement) (more : Octets), text = a.write ++ more := by
  obtain ⟨tail, rfl⟩ := hsignature
  rcases tail with _ | ⟨first, _ | ⟨second, _ | ⟨high, _ | ⟨low, rest⟩⟩⟩⟩
  · cases h
  · cases h
  · cases h
  · cases h
  · by_cases hwhole : Octets.bigEndian high low ≤ rest.length
    · rcases write_or_error hwhole with hwrite | ⟨fault, hfault, -⟩
      · exact hwrite
      · rw [hfault] at h
        cases h
    · exact absurd h (parse_partial (Nat.not_le.1 hwhole) header length)

/--
An announcement is found as it was written, in front of any octets.  Behind the signature no
other header is found, and a whole block that no announcement wrote is refused: its version
is none of this form, or the header is malformed.
-/
theorem parse_announced :
    (∀ (a : Announcement) (more : Octets),
        parse (a.write ++ more) = .ok (.complete a.header (16 + a.block.length))) ∧
      (∀ text header length, binarySignature <+: text →
        parse text = .ok (.complete header length) →
          ∃ (a : Announcement) (more : Octets), text = a.write ++ more ∧ header = a.header ∧
            length = 16 + a.block.length) ∧
      ∀ first second high low rest, Octets.bigEndian high low ≤ rest.length →
        (∀ (a : Announcement) (more : Octets),
          binarySignature ++ first :: second :: high :: low :: rest ≠ a.write ++ more) →
          ∃ fault,
            parse (binarySignature ++ first :: second :: high :: low :: rest) = .error fault ∧
              if first.toNat / 16 = 2 then ∃ flaw, fault = .header flaw
              else fault = .headerVersion (first.toNat / 16) := by
  refine ⟨Announcement.parse_write, ?_, ?_⟩
  · intro text header length hsignature h
    obtain ⟨a, more, rfl⟩ := exists_write hsignature h
    rw [a.parse_write] at h
    injection h with h
    injection h with hheader hlength
    exact ⟨a, more, rfl, hheader.symm, hlength.symm⟩
  · intro first second high low rest hwhole hother
    rcases write_or_error hwhole with ⟨a, more, hwrite⟩ | hfault
    · exact absurd hwrite (hother a more)
    · exact hfault

/-- A client, announced with two names and an identifier. -/
def Announcement.sample : Announcement where
  forClient := true
  transport := 1
  addresses := .inet ⟨192, 0, 2, 1⟩ ⟨198, 51, 100, 7⟩ 40000 6514
  fields := [.authority "old" (by decide), .other 4 [0] (by decide) (by decide) (by decide),
    .uniqueId [7, 8] (by decide), .authority "log" (by decide)]
  short := by decide

theorem parse_announced_sample :
    let text := Announcement.sample.write ++ [60, 49]
    let header : ProxyHeader :=
      ⟨.binary, some ⟨.v4 ⟨192, 0, 2, 1⟩ 40000, .v4 ⟨198, 51, 100, 7⟩ 6514⟩, some "log",
        some [7, 8]⟩
    parse text = .ok (.complete header 49) ∧
      (∃ (a : Announcement) (more : Octets), text = a.write ++ more ∧ header = a.header ∧
        49 = 16 + a.block.length) ∧
      ∃ fault, parse (binarySignature ++ [0x31, 0x11, 0, 0]) = .error fault ∧
        fault = .headerVersion 3 := by
  intro text header
  have hfound : parse text = .ok (.complete header 49) :=
    parse_announced.1 Announcement.sample [60, 49]
  refine ⟨hfound, parse_announced.2.1 text header 49 (List.prefix_append _ _) hfound, ?_⟩
  refine parse_announced.2.2 0x31 0x11 0 0 [] (by decide) ?_
  -- an announcement would be found, but the version is refused
  intro a more hwrite
  have herror : parse (binarySignature ++ [0x31, 0x11, 0, 0]) = .error (.headerVersion 3) := rfl
  rw [hwrite, parse_announced.1] at herror
  cases herror

end ProxyHeader
end SyslogIntake

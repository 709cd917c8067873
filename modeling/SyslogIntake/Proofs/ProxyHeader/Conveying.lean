import SyslogIntake.Proofs.Address.Texts
import SyslogIntake.Proofs.Framing.Sending
import SyslogIntake.Proofs.ProxyHeader.Lines
import SyslogIntake.Proofs.ProxyHeader.Writing

/-!
# The same ends in both forms

A proxy can tell where a client is by a line of text or by a binary header.  The line names the
protocol, the two addresses and the two ports, with single spaces between them.  It is never too
long, and what is found in it is what is found in the binary header for the same ends.

**Results.**

* `fieldsOf_intercalate` : words with single spaces between them are the fields of their text;
* `Conveyed.lineRoute_text` : the text of two ends says them;
* `Conveyed.length_line_le` : it is short enough;
* `parse_conveyed` : the line is found whatever follows, and agrees with the binary header.
-/

namespace SyslogIntake
namespace ProxyHeader

open Numeral
open Framing (LineEnd)
open Utf8 (Plain Visible)

/-- The two ends of a connection that both forms of a header can tell. -/
inductive Conveyed
  | tcp4 (source destination : Ipv4) (sourcePort destinationPort : UInt16)
  | tcp6 (source destination : Ipv6) (sourcePort destinationPort : UInt16)

namespace Conveyed

def protocol : Conveyed → Protocol
  | tcp4 .. => .tcp4
  | tcp6 .. => .tcp6

def route : Conveyed → Route
  | tcp4 source destination sourcePort destinationPort =>
      ⟨.v4 source sourcePort, .v4 destination destinationPort⟩
  | tcp6 source destination sourcePort destinationPort =>
      ⟨.v6 source sourcePort 0, .v6 destination destinationPort 0⟩

/-- Two ends as a binary header holds them. -/
def addresses : Conveyed → Addresses
  | tcp4 source destination sourcePort destinationPort =>
      .inet source destination sourcePort destinationPort
  | tcp6 source destination sourcePort destinationPort =>
      .inet6 source destination sourcePort destinationPort

/-- Two ends as a line holds them: the addresses, then the ports. -/
def fields : Conveyed → List (List Char)
  | tcp4 source destination sourcePort destinationPort =>
      [source.write, destination.write, digits 10 sourcePort.toNat,
        digits 10 destinationPort.toNat]
  | tcp6 source destination sourcePort destinationPort =>
      [source.write, destination.write, digits 10 sourcePort.toNat,
        digits 10 destinationPort.toNat]

/-- The words of two ends: what they are ends of, and where they are. -/
def words (c : Conveyed) : List (List Char) :=
  c.protocol.name.toList :: c.fields

/-- The text of two ends: a word and theirs, with single spaces between them. -/
def text (c : Conveyed) : List Char :=
  [' '].intercalate ("PROXY".toList :: c.words)

/-- The octets of the line that tells two ends. -/
def line (c : Conveyed) (ending : LineEnd) : Octets :=
  Utf8.encode (String.ofList c.text) ++ ending.octets

end Conveyed

/-- Words with single spaces between them are the fields of their text. -/
theorem fieldsOf_intercalate
    {words : List (List Char)}
    (hsome : words ≠ [])
    (hwords : ∀ word ∈ words, word ≠ [] ∧ ' ' ∉ word) :
    fieldsOf ([' '].intercalate words) = words := by
  have hsplit := List.splitOn_intercalate ' ' (fun word hword => (hwords word hword).2) hsome
  rw [fieldsOf, Address.splitAt_eq_splitOn, hsplit, List.filter_eq_self]
  intro word hword
  exact decide_eq_true (hwords word hword).1

/-- What stands between words is in one of them, or it is the space between two. -/
theorem mem_intercalate
    {words : List (List Char)} {d : Char}
    (h : d ∈ [' '].intercalate words) :
    d = ' ' ∨ ∃ word ∈ words, d ∈ word := by
  induction words with
  | nil => cases h
  | cons word words ih =>
      cases words with
      | nil =>
          rw [List.intercalate_singleton] at h
          exact Or.inr ⟨word, List.mem_cons_self, h⟩
      | cons next words =>
          rw [List.intercalate_cons_cons, List.append_assoc] at h
          rcases List.mem_append.1 h with hfirst | hlater
          · exact Or.inr ⟨word, List.mem_cons_self, hfirst⟩
          rcases List.mem_append.1 hlater with hblank | hrest
          · exact Or.inl (List.mem_singleton.1 hblank)
          · obtain hblank | ⟨found, hfound, hd⟩ := ih hrest
            · exact Or.inl hblank
            · exact Or.inr ⟨found, List.mem_cons_of_mem word hfound, hd⟩

/-- Each word of a text but the first one has a space in front of it. -/
theorem length_intercalate
    {words : List (List Char)}
    (hsome : words ≠ []) :
    ([' '].intercalate words).length + 1 = words.flatten.length + words.length := by
  induction words with
  | nil => exact absurd rfl hsome
  | cons word words ih =>
      cases words with
      | nil =>
          rw [List.intercalate_singleton, List.flatten_cons, List.flatten_nil, List.append_nil]
          rfl
      | cons next words =>
          have hrest := ih (List.cons_ne_nil next words)
          rw [List.intercalate_cons_cons, List.flatten_cons, List.length_cons]
          simp only [List.length_append, List.length_singleton]
          omega

namespace Conveyed

theorem text_eq
    (c : Conveyed) :
    c.text = "PROXY".toList ++ ' ' :: [' '].intercalate c.words := by
  rw [text, words, List.intercalate_cons_cons, List.append_assoc]
  rfl

theorem length_port_le
    (port : UInt16) :
    (digits 10 port.toNat).length ≤ 5 := by
  have hport : port.toNat < 65536 := port.toNat_lt
  exact length_digits_le (by decide) (by decide) (by omega)

/-- The text of two ends leaves room for a line end. -/
theorem length_text_le
    (c : Conveyed) :
    c.text.length ≤ 102 := by
  have hname : ∀ protocol : Protocol, protocol.name.toList.length = 4 := by
    intro protocol
    cases protocol with
    | tcp4 | tcp6 => decide
  have hlength : c.text.length + 1 =
      ("PROXY".toList :: c.words).flatten.length + ("PROXY".toList :: c.words).length :=
    length_intercalate (List.cons_ne_nil _ _)
  simp only [words, List.flatten_cons, List.length_append, List.length_cons, hname c.protocol,
    show "PROXY".toList.length = 5 by decide] at hlength
  cases c with
  | tcp4 source destination sourcePort destinationPort
  | tcp6 source destination sourcePort destinationPort =>
      have hsource := source.length_write_le
      have hdestination := destination.length_write_le
      have hfrom := length_port_le sourcePort
      have hto := length_port_le destinationPort
      simp only [fields, List.flatten_cons, List.flatten_nil, List.length_append, List.length_cons,
        List.length_nil] at hlength
      omega

theorem visible_words
    (c : Conveyed) :
    ∀ word ∈ c.words, word ≠ [] ∧ ∀ d ∈ word, Visible d := by
  have hname : ∀ protocol : Protocol,
      protocol.name.toList ≠ [] ∧ ∀ d ∈ protocol.name.toList, Visible d := by
    intro protocol
    cases protocol with
    | tcp4 | tcp6 => exact ⟨by decide, List.all_iff_forall_prop.1 (by decide)⟩
  have hport : ∀ port : UInt16, digits 10 port.toNat ≠ [] ∧ ∀ d ∈ digits 10 port.toNat, Visible d :=
    fun port => ⟨digits_ne_nil 10 port.toNat, visible_digits (by decide) (by decide) port.toNat⟩
  have hshort : ∀ address : Ipv4, address.write ≠ [] ∧ ∀ d ∈ address.write, Visible d :=
    fun address => ⟨address.write_ne_nil, address.visible_write⟩
  have hlong : ∀ address : Ipv6, address.write ≠ [] ∧ ∀ d ∈ address.write, Visible d :=
    fun address => ⟨address.write_ne_nil, address.visible_write⟩
  cases c with
  | tcp4 source destination sourcePort destinationPort =>
      simp only [words, fields, List.forall_mem_cons]
      exact ⟨hname _, hshort source, hshort destination, hport sourcePort, hport destinationPort,
        fun word hword => absurd hword List.not_mem_nil⟩
  | tcp6 source destination sourcePort destinationPort =>
      simp only [words, fields, List.forall_mem_cons]
      exact ⟨hname _, hlong source, hlong destination, hport sourcePort, hport destinationPort,
        fun word hword => absurd hword List.not_mem_nil⟩

theorem says_route
    (c : Conveyed) :
    Says c.words (some c.route) := by
  have hport : ∀ port : UInt16, readUpTo 65535 (digits 10 port.toNat) = some port.toNat := by
    intro port
    have hlt : port.toNat < 65536 := port.toNat_lt
    exact readUpTo_digits (by omega)
  have hshort : ∀ (address : Ipv4) (port : UInt16),
      Writes .tcp4 address.write (digits 10 port.toNat) (.v4 address port) := by
    intro address port
    have hwrites := Writes.tcp4 (Address.readIpv4_write address) (hport port)
    rwa [UInt16.ofNat_toNat] at hwrites
  have hlong : ∀ (address : Ipv6) (port : UInt16),
      Writes .tcp6 address.write (digits 10 port.toNat) (.v6 address port 0) := by
    intro address port
    have hwrites := Writes.tcp6 (Address.readIpv6_write address) (hport port)
    rwa [UInt16.ofNat_toNat] at hwrites
  cases c with
  | tcp4 source destination sourcePort destinationPort =>
      exact .conveying (hshort source sourcePort) (hshort destination destinationPort) []
  | tcp6 source destination sourcePort destinationPort =>
      exact .conveying (hlong source sourcePort) (hlong destination destinationPort) []

theorem lineRoute_text
    (c : Conveyed) :
    lineRoute (Utf8.encode (String.ofList c.text)) = .ok (some c.route) := by
  have hdecode : Utf8.decode (Utf8.encode (String.ofList c.text)) = some (String.ofList c.text) :=
    Utf8.decode_eq_some_iff.2 rfl
  have hfields : fieldsOf ([' '].intercalate c.words) = c.words := by
    refine fieldsOf_intercalate (List.cons_ne_nil _ _) ?_
    intro word hword
    obtain ⟨hsome, hvisible⟩ := c.visible_words word hword
    exact ⟨hsome, fun hblank => (hvisible ' ' hblank).ne_blank rfl⟩
  have hhead : ([' '].intercalate c.words).head? ≠ some ' ' := by
    cases c <;> simp [words, protocol, Protocol.name, fields]
  have hbody : bodyOf c.text = .ok ([' '].intercalate c.words) := by
    rw [text_eq]
    exact bodyOf_eq_ok_iff.2 ⟨rfl, hhead⟩
  rw [lineRoute, hdecode]
  simp only [String.toList_ofList, hbody, hfields]
  exact routeOf_eq_ok_iff.2 c.says_route

/-- The text of two ends has no control characters, and all its characters have one octet. -/
theorem plain_text
    (c : Conveyed) :
    ∀ d ∈ c.text, Plain d := by
  have hfront : ∀ d ∈ "PROXY".toList, Visible d := List.all_iff_forall_prop.1 (by decide)
  intro d hd
  obtain rfl | ⟨word, hword, hd⟩ := mem_intercalate hd
  · decide
  · rcases List.mem_cons.1 hword with rfl | hword
    · exact (hfront d hd).plain
    · exact ((c.visible_words word hword).2 d hd).plain

/-- The line of two ends, its line end included, has at most as many octets as a line may have. -/
theorem length_line_le
    (c : Conveyed) (ending : LineEnd) :
    (c.line ending).length ≤ 107 := by
  have htext := c.length_text_le
  have hending : ending.octets.length ≤ 2 := by
    cases ending <;> decide
  rw [line, List.length_append, Utf8.length_encode_ascii fun d hd => (c.plain_text d hd).2]
  omega

/-- The line of two ends begins with the word. -/
theorem signature_line
    (c : Conveyed) (ending : LineEnd) :
    textSignature <+: c.line ending := by
  rw [line, Utf8.encode_ascii fun d hd => (c.plain_text d hd).2, text_eq, List.map_append]
  exact ⟨_, rfl⟩

/-- The line of two ends is found up to its line end, and conveys the route between them. -/
theorem parse_line
    (c : Conveyed) (ending : LineEnd) (more : Octets) :
    parse (c.line ending ++ more) =
      .ok (.complete ⟨.text, some c.route, none, none⟩ (c.line ending).length) := by
  have hsignature : textSignature <+: c.line ending ++ more :=
    (c.signature_line ending).trans (List.prefix_append _ _)
  have hlength := c.length_line_le ending
  have hfeed : Octets.lineFeed ∉ Utf8.encode (String.ofList c.text) :=
    Utf8.notMem_encode_plain c.plain_text (by decide)
  have hreturn : Octets.carriageReturn ∉ Utf8.encode (String.ofList c.text) :=
    Utf8.notMem_encode_plain c.plain_text (by decide)
  have hroute := c.lineRoute_text
  rw [parse_of_text hsignature]
  rw [line] at hlength ⊢
  generalize Utf8.encode (String.ofList c.text) = text at hlength hfeed hreturn hroute ⊢
  cases ending with
  | feed =>
      have hplace : (text ++ LineEnd.feed.octets ++ more).idxOf? Octets.lineFeed =
          some text.length := by
        rw [List.append_assoc, Framing.Search.idxOf?_append_of_notMem hfeed]
        simp [LineEnd.octets, List.idxOf?_cons]
      have htrim : Octets.trimLast Octets.carriageReturn
          ((text ++ LineEnd.feed.octets ++ more).take text.length) = text := by
        rw [List.append_assoc, List.take_left' rfl, Octets.trimLast, if_neg]
        exact fun hlast => hreturn (List.mem_of_getLast? hlast)
      rw [List.length_append] at hlength ⊢
      exact (parseText_of_place hplace hlength).1 _ ((congrArg lineRoute htrim).trans hroute)
  | returnFeed =>
      have hline : Octets.lineFeed ∉ text ++ [Octets.carriageReturn] := by
        simpa using ⟨hfeed, by decide⟩
      have hsplit : text ++ LineEnd.returnFeed.octets ++ more =
          text ++ [Octets.carriageReturn] ++ Octets.lineFeed :: more := by
        simp [LineEnd.octets]
      have hplace : (text ++ LineEnd.returnFeed.octets ++ more).idxOf? Octets.lineFeed =
          some (text.length + 1) := by
        rw [hsplit, Framing.Search.idxOf?_append_of_notMem hline]
        simp [List.idxOf?_cons]
      have htrim : Octets.trimLast Octets.carriageReturn
          ((text ++ LineEnd.returnFeed.octets ++ more).take (text.length + 1)) = text := by
        rw [hsplit, List.take_left' (by simp), Octets.trimLast, List.getLast?_concat, if_pos rfl,
          List.dropLast_concat]
      rw [List.length_append] at hlength ⊢
      exact (parseText_of_place hplace hlength).1 _ ((congrArg lineRoute htrim).trans hroute)

end Conveyed

/--
The line that tells two ends, with either line end, is short enough to be found, and it is found
in front of any octets, with just these ends and its own length.  Whatever a binary header for a
client with the same ends tells besides, it is found, too, and conveys an equal route.
-/
theorem parse_conveyed
    (c : Conveyed) :
    (∀ (ending : LineEnd) (more : Octets),
        (c.line ending).length ≤ 107 ∧
          parse (c.line ending ++ more) =
            .ok (.complete ⟨.text, some c.route, none, none⟩ (c.line ending).length)) ∧
      ∀ a : Announcement, a.forClient = true → a.addresses = c.addresses → ∀ more : Octets,
        ∃ header length, parse (a.write ++ more) = .ok (.complete header length) ∧
          header.route = some c.route := by
  constructor
  · intro ending more
    exact ⟨c.length_line_le ending, c.parse_line ending more⟩
  · intro a hclient haddresses more
    refine ⟨a.header, fixedLength + a.block.length, a.parse_write more, ?_⟩
    rw [Announcement.header, hclient, haddresses]
    cases c <;> rfl

/-- Two long addresses, one of them with a short one inside. -/
def Conveyed.sample : Conveyed :=
  .tcp6 ⟨[0x2001, 0xDB8, 0, 0, 1, 0, 0, 1], rfl⟩ ⟨[0, 0, 0, 0, 0, 0xFFFF, 0xC000, 0x201], rfl⟩
    40000 6514

/-- The two ends as a binary header for a client announces them. -/
def Announcement.ofSample : Announcement :=
  { Announcement.sample with
    addresses := Conveyed.sample.addresses
    short := by decide }

theorem parse_conveyed_sample :
    Announcement.ofSample.forClient = true ∧
      Announcement.ofSample.addresses = Conveyed.sample.addresses ∧
      ∃ header length, parse (Announcement.ofSample.write ++ [60]) = .ok (.complete header length) ∧
        header.route = some Conveyed.sample.route :=
  ⟨rfl, rfl, (parse_conveyed Conveyed.sample).2 Announcement.ofSample rfl rfl [60]⟩

end ProxyHeader
end SyslogIntake

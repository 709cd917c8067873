import SyslogIntake.ProxyHeader.Basic

/-!
# Headers of text

The header is a line of at most 107 octets, its line feed included: the signature, one
space, and fields with spaces between them.  The first field is a protocol; those with
endpoints have four more fields, two addresses and two ports.  Fields that do not read
as endpoints of the protocol leave the header without them, and fields beyond those are
passed over.

**Results.**

* `parseText_none` : a line that has not ended yet asks for one octet more.
-/

namespace SyslogIntake
namespace ProxyHeader

/-- The most octets that a header of text may have. -/
def mostTextLength : Nat := 107

/-- The protocols that a header of text can name. -/
inductive Protocol
  | tcp4
  | tcp6
  deriving DecidableEq, Repr

def Protocol.name : Protocol → String
  | .tcp4 => "TCP4"
  | .tcp6 => "TCP6"

/-- The endpoint that an address and a port of a protocol make up. -/
def Protocol.endpoint? (protocol : Protocol) (address port : List Char) : Option Endpoint :=
  match Numeral.readUpTo 65535 port with
  | none => none
  | some number =>
      match protocol with
      | .tcp4 => (Address.readIpv4 address).map fun found =>
          .v4 found (UInt16.ofNat number)
      | .tcp6 => (Address.readIpv6 address).map fun found =>
          .v6 found (UInt16.ofNat number) 0

/-- The route that four fields make up. -/
def Protocol.route? (protocol : Protocol) : List (List Char) → Option Route
  | source :: destination :: sourcePort :: destinationPort :: _ =>
      match protocol.endpoint? source sourcePort,
          protocol.endpoint? destination destinationPort with
      | some source, some destination => some ⟨source, destination⟩
      | _, _ => none
  | _ => none

/-- The fields of a text that spaces separate. -/
def fieldsOf (text : List Char) : List (List Char) :=
  (Address.splitAt ' ' text).filter (· ≠ [])

/-- The route that the fields behind the signature give, if they are well formed. -/
def routeOf (fields : List (List Char)) : Except HeaderFlaw (Option Route) :=
  match fields with
  | [] => .error .noProtocol
  | name :: rest =>
      if name = "UNKNOWN".toList then .ok none
      else
        match [Protocol.tcp4, Protocol.tcp6].find? fun p => p.name.toList = name with
        | none => .error (.unknownProtocol (String.ofList name))
        | some protocol =>
            if rest.length < 4 then .error (.fewFields protocol.name)
            else .ok (protocol.route? rest)

/-- What stands behind the signature: one space, and no other right behind it. -/
def bodyOf (line : List Char) : Except HeaderFlaw (List Char) :=
  match line.drop textSignature.length with
  | ' ' :: ' ' :: _ => .error .extraSpace
  | ' ' :: rest => .ok rest
  | _ => .error .noProtocol

/-- The route of a line, which begins with the signature and has lost its line end. -/
def lineRoute (line : Octets) : Except HeaderFlaw (Option Route) :=
  match Utf8.decode line with
  | none => .error .notText
  | some text =>
      match bodyOf text.toList with
      | .error flaw => .error flaw
      | .ok body => routeOf (fieldsOf body)

/-- A header of text at the front of octets that begin with its signature. -/
def parseText (text : Octets) : Except Fault Outcome :=
  match Octets.splitLine (text.take mostTextLength) with
  | none =>
      if mostTextLength ≤ text.length then .error (.header .tooLong)
      else .ok (.incomplete (text.length + 1))
  | some (line, _) =>
      match lineRoute (Octets.trimLast Octets.carriageReturn line) with
      | .error flaw => .error (.header flaw)
      | .ok route => .ok (.complete ⟨.text, route, none, none⟩ (line.length + 1))

/-- A line that has not ended yet asks for one octet more. -/
theorem parseText_none
    {text : Octets}
    (hlength : text.length < mostTextLength)
    (hfeed : Octets.lineFeed ∉ text) :
    parseText text = .ok (.incomplete (text.length + 1)) := by
  unfold parseText
  rw [List.take_of_length_le (Nat.le_of_lt hlength), Octets.splitLine_eq_none.2 hfeed]
  simp [Nat.not_le.mpr hlength]

end ProxyHeader
end SyslogIntake

import SyslogIntake.ProxyHeader.Basic

/-!
# Binary headers

Behind the signature stand the version and a command, a family and a transport, and the
length of a block.  The block begins with the addresses of the family and goes on with
fields, each with a kind and a length.  Only a command that speaks for a client conveys
addresses, and of the fields two are kept: the name that the client asked for and an
identifier of the connection.

**Results.**

* `parseBinary_short` : sixteen octets are needed before anything is decided.
-/

namespace SyslogIntake
namespace ProxyHeader

/-- The octets in front of the block. -/
def fixedLength : Nat := 16

/-- The families of addresses. -/
inductive Family
  | unspecified
  | inet
  | inet6
  | unix
  deriving DecidableEq, Repr

def Family.ofCode? : Nat → Option Family
  | 0 => some .unspecified
  | 1 => some .inet
  | 2 => some .inet6
  | 3 => some .unix
  | _ => none

/-- The octets that the addresses of a family take up. -/
def Family.length : Family → Nat
  | .unspecified => 0
  | .inet => 12
  | .inet6 => 36
  | .unix => 216

def portOf (high low : UInt8) : UInt16 :=
  UInt16.ofNat (Octets.bigEndian high low)

/-- The route that the addresses of a family make up. -/
def Family.route? (family : Family) (addresses : Octets) : Option Route :=
  match family with
  | .inet =>
      match addresses with
      | [a, b, c, d, e, f, g, h, p, q, r, s] =>
          some ⟨.v4 ⟨a, b, c, d⟩ (portOf p q), .v4 ⟨e, f, g, h⟩ (portOf r s)⟩
      | _ => none
  | .inet6 =>
      match Ipv6.ofOctets? (addresses.take 16), Ipv6.ofOctets? ((addresses.drop 16).take 16),
          addresses.drop 32 with
      | some source, some destination, [p, q, r, s] =>
          some ⟨.v6 source (portOf p q) 0, .v6 destination (portOf r s) 0⟩
      | _, _, _ => none
  | .unspecified | .unix => none

/-- The kind of the field that holds the name a client asked for. -/
def authorityKind : UInt8 := 2

/-- The kind of the field that holds an identifier. -/
def uniqueIdKind : UInt8 := 5

def mostUniqueId : Nat := 128

def note (header : ProxyHeader) (kind : UInt8) (value : Octets) :
    Except HeaderFlaw ProxyHeader :=
  if kind = authorityKind then
    match Utf8.decode value with
    | none => .error .authorityNotText
    | some name => .ok { header with authority := some name }
  else if kind = uniqueIdKind then
    if mostUniqueId < value.length then .error .longUniqueId
    else .ok { header with uniqueId := some value }
  else
    .ok header

/-- The header with the fields of a block noted, a later field of a kind replacing earlier ones. -/
def noteAll (header : ProxyHeader) (fields : Octets) : Except HeaderFlaw ProxyHeader :=
  match fields with
  | [] => .ok header
  | kind :: high :: low :: rest =>
      let length := Octets.bigEndian high low
      let value := rest.take length
      if value.length < length then .error (.fieldOverrun kind.toNat)
      else
        match note header kind value with
        | .error flaw => .error flaw
        | .ok header => noteAll header (rest.drop length)
  | _ => .error .truncatedField
termination_by fields.length
decreasing_by
  simp only [List.length_cons, List.length_drop]
  omega

def ofBlock (forClient : Bool) (code : Nat) (block : Octets) : Except HeaderFlaw ProxyHeader :=
  match Family.ofCode? code with
  | none => .error (.unknownFamily code)
  | some family =>
      if block.length < family.length then
        .error (.shortAddresses block.length family.length)
      else
        let route := if forClient then family.route? (block.take family.length) else none
        noteAll ⟨.binary, route, none, none⟩ (block.drop family.length)

/-- A binary header at the front of octets that begin with its signature. -/
def parseBinary (text : Octets) : Except Fault Outcome :=
  match text.drop binarySignature.length with
  | first :: second :: high :: low :: rest =>
      let version := first.toNat / 16
      let command := first.toNat % 16
      let transport := second.toNat % 16
      let length := Octets.bigEndian high low
      let block := rest.take length
      if version ≠ 2 then .error (.headerVersion version)
      else if 1 < command then .error (.header (.unknownCommand command))
      else if 2 < transport then .error (.header (.unknownTransport transport))
      else if block.length < length then .ok (.incomplete (fixedLength + length))
      else
        match ofBlock (command = 1) (second.toNat / 16) block with
        | .error flaw => .error (.header flaw)
        | .ok header => .ok (.complete header (fixedLength + length))
  | _ => .ok (.incomplete fixedLength)

/-- Sixteen octets are needed before anything is decided. -/
theorem parseBinary_short
    {text : Octets}
    (h : text.length < fixedLength) :
    parseBinary text = .ok (.incomplete fixedLength) := by
  unfold parseBinary
  split
  · rename_i first second high low rest hdrop
    have hlength := congrArg List.length hdrop
    simp only [List.length_drop, List.length_cons, fixedLength, binarySignature,
      List.length_nil] at hlength h
    omega
  · rfl

end ProxyHeader
end SyslogIntake

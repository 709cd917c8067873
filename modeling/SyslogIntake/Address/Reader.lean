import SyslogIntake.Address.Basic

/-!
# Reading addresses

Every reader takes a text, and gives what it read from its beginning and the rest.
A short address has four octets without leading zeros.  A long address has eight
groups, of which a run of zeros can be left out once, and its last two groups can be
written as a short address.  An endpoint that does not have the usual form is taken
apart at its last colon: behind it must be a port, and in front of it an address in
one of the loose forms in which hosts are given.
-/

namespace SyslogIntake
namespace Address

/-- The digits at the beginning of a text, and the rest. -/
def digitRun (base : Nat) (text : List Char) : List Char × List Char :=
  (text.takeWhile (Numeral.isDigit base), text.dropWhile (Numeral.isDigit base))

/-- A number of at most so many digits. -/
def shortNumber (base most : Nat) (text : List Char) : Option (Nat × List Char) :=
  let (digits, rest) := digitRun base text
  if digits = [] ∨ most < digits.length then none
  else some (Numeral.value base digits, rest)

/-- A number up to a limit, with any number of leading zeros. -/
def boundedNumber (most : Nat) (text : List Char) : Option (Nat × List Char) :=
  let (digits, rest) := digitRun 10 text
  if digits = [] ∨ most < Numeral.value 10 digits then none
  else some (Numeral.value 10 digits, rest)

/-- A given character. -/
def mark (c : Char) : List Char → Option (List Char)
  | [] => none
  | d :: rest => if d = c then some rest else none

/-- One octet of a short address: up to three digits, no zero in front of others. -/
def octet (text : List Char) : Option (UInt8 × List Char) := do
  let (value, rest) ← shortNumber 10 3 text
  if 255 < value ∨ (text.head? = some '0' ∧ (digitRun 10 text).1.length ≠ 1) then none
  else some (UInt8.ofNat value, rest)

/-- A short address. -/
def ipv4 (text : List Char) : Option (Ipv4 × List Char) := do
  let (a, text) ← octet text
  let text ← mark '.' text
  let (b, text) ← octet text
  let text ← mark '.' text
  let (c, text) ← octet text
  let text ← mark '.' text
  let (d, text) ← octet text
  return (⟨a, b, c, d⟩, text)

/-- A group of a long address: up to four digits of base sixteen. -/
def group (text : List Char) : Option (UInt16 × List Char) :=
  (shortNumber 16 4 text).map fun (value, rest) => (UInt16.ofNat value, rest)

/-- The two groups of a short address. -/
def Ipv4.groups (address : Ipv4) : List UInt16 :=
  [UInt16.ofNat (Octets.bigEndian address.a address.b),
    UInt16.ofNat (Octets.bigEndian address.c address.d)]

/-- What stands behind the colon that every group but the first needs. -/
def separated (first : Bool) (text : List Char) : Option (List Char) :=
  if first then some text else mark ':' text

/-- Groups found so far, whether the last two came from a short address, and the rest. -/
structure Groups where
  found : List UInt16
  dotted : Bool
  rest : List Char

/--
Up to `room` groups.  Where there is room for two, a short address may stand for them
and ends the groups; the first thing that is neither ends them too.
-/
def groups (first : Bool) : Nat → List Char → Groups
  | 0, text => ⟨[], false, text⟩
  | room + 1, text =>
      match (separated first text).bind ipv4, decide (1 ≤ room) with
      | some (address, rest), true => ⟨Ipv4.groups address, true, rest⟩
      | _, _ =>
          match (separated first text).bind group with
          | none => ⟨[], false, text⟩
          | some (value, rest) =>
              let later := groups false room rest
              ⟨value :: later.found, later.dotted, later.rest⟩

/-- A long address. -/
def ipv6 (text : List Char) : Option (Ipv6 × List Char) :=
  let head := groups true 8 text
  if head.found.length = 8 then
    (Ipv6.ofGroups? head.found).map fun address => (address, head.rest)
  else if head.dotted then none
  else do
    let rest ← mark ':' head.rest
    let rest ← mark ':' rest
    let tail := groups true (7 - head.found.length) rest
    let zeros := 8 - head.found.length - tail.found.length
    let address ← Ipv6.ofGroups? (head.found ++ List.replicate zeros 0 ++ tail.found)
    return (address, tail.rest)

/-- The colon and the port at the end of an endpoint. -/
def port (text : List Char) : Option (UInt16 × List Char) := do
  let rest ← mark ':' text
  let (value, rest) ← boundedNumber 65535 rest
  return (UInt16.ofNat value, rest)

/-- A zone, if the text begins with one. -/
def scope (text : List Char) : UInt32 × List Char :=
  match (mark '%' text).bind (boundedNumber 4294967295) with
  | some (value, rest) => (UInt32.ofNat value, rest)
  | none => (0, text)

/-- An endpoint with a short address. -/
def endpoint4 (text : List Char) : Option (Endpoint × List Char) := do
  let (address, text) ← ipv4 text
  let (number, text) ← port text
  return (.v4 address number, text)

/-- An endpoint with a long address. -/
def endpoint6 (text : List Char) : Option (Endpoint × List Char) := do
  let text ← mark '[' text
  let (address, text) ← ipv6 text
  let (zone, text) := scope text
  let text ← mark ']' text
  let (number, text) ← port text
  return (.v6 address number zone, text)

/-- What a reader found, if it used up the text. -/
def complete {α : Type} : Option (α × List Char) → Option α
  | some (value, []) => some value
  | _ => none

/-- A short address and nothing else. -/
def readIpv4 (text : List Char) : Option Ipv4 :=
  complete (ipv4 text)

/-- A long address and nothing else. -/
def readIpv6 (text : List Char) : Option Ipv6 :=
  complete (ipv6 text)

/-- An endpoint in the usual form. -/
def readEndpoint (text : List Char) : Option Endpoint :=
  complete ((endpoint4 text).orElse fun _ => endpoint6 text)

/-- A part of a loosely written short address: base sixteen, eight or ten. -/
def loosePart (text : List Char) : Option Nat :=
  match text with
  | '0' :: 'x' :: digits | '0' :: 'X' :: digits => Numeral.read 16 digits
  | '0' :: digits => if digits = [] then some 0 else Numeral.read 8 digits
  | digits => Numeral.read 10 digits

/-- Split a text at every occurrence of a character. -/
def splitAt (c : Char) : List Char → List (List Char)
  | [] => [[]]
  | d :: rest =>
      match splitAt c rest with
      | [] => [[d]]
      | part :: parts => if d = c then [] :: part :: parts else (d :: part) :: parts

/-- A short address of one to four parts, of which the last one fills what is left. -/
def looseIpv4 (text : List Char) : Option Ipv4 := do
  let parts ← (splitAt '.' text).mapM loosePart
  let front := parts.dropLast
  let last ← parts.getLast?
  if 4 < parts.length ∨ front.any (255 < ·) ∨ Nat.pow 256 (5 - parts.length) ≤ last then none
  else
    some (Ipv4.ofNat (front.foldl (fun sum part => sum * 256 + part) 0 *
      Nat.pow 256 (5 - parts.length) + last))

/-- A long address with an optional zone. -/
def looseIpv6 (text : List Char) : Option (Ipv6 × UInt32) := do
  let (address, rest) ← ipv6 text
  let (zone, rest) := scope rest
  if rest = [] then some (address, zone) else none

/-- Why a text is no endpoint. -/
inductive Flaw
  | noColon
  | badPort
  | unknownHost
  deriving DecidableEq, Repr

/-- What is wrong with a text. -/
def Flaw.message : Flaw → String
  | .noColon => "invalid socket address"
  | .badPort => "invalid port value"
  | .unknownHost => "failed to lookup address information: Name or service not known"

/-- The parts of a text in front of and behind the last occurrence of a character. -/
def splitLast (c : Char) (text : List Char) : Option (List Char × List Char) :=
  match text.reverse.dropWhile (· != c) with
  | [] => none
  | _ :: front => some (front.reverse, (text.reverse.takeWhile (· != c)).reverse)

/-- An endpoint whose port may have a sign and whose host may be written loosely. -/
def resolve (text : List Char) : Except Flaw Endpoint :=
  match splitLast ':' text with
  | none => .error .noColon
  | some (host, number) =>
      match Numeral.readUpTo 65535 number with
      | none => .error .badPort
      | some number =>
          match looseIpv4 host, looseIpv6 host with
          | some address, _ => .ok (.v4 address (UInt16.ofNat number))
          | none, some (address, zone) => .ok (.v6 address (UInt16.ofNat number) zone)
          | none, none => .error .unknownHost

/-- The endpoint that a text names. -/
def find (text : String) : Except Flaw Endpoint :=
  match readEndpoint text.toList with
  | some endpoint => .ok endpoint
  | none => resolve text.toList

end Address
end SyslogIntake

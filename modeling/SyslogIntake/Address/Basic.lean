import SyslogIntake.Octets
import SyslogIntake.Text.Numeral

/-!
# Addresses

The addresses of the two ends of a connection and their text.  The text of a long
address leaves out the first of its longest runs of zero groups, if the run has at
least two groups, and shows an embedded short address only behind the marker group.

**Results.**

* `length_ofPairs` : octets make up half as many groups.
-/

namespace SyslogIntake

/-- An address of four octets. -/
structure Ipv4 where
  a : UInt8
  b : UInt8
  c : UInt8
  d : UInt8
  deriving DecidableEq, Repr

/-- An address of eight groups of sixteen bits. -/
structure Ipv6 where
  groups : List UInt16
  length_groups : groups.length = 8
  deriving DecidableEq, Repr

/-- One end of a connection: an address and a port, and a zone for a long address. -/
inductive Endpoint
  | v4 (address : Ipv4) (port : UInt16)
  | v6 (address : Ipv6) (port : UInt16) (scope : UInt32)
  deriving DecidableEq, Repr

/-- The two ends that a header conveys. -/
structure Route where
  source : Endpoint
  destination : Endpoint
  deriving DecidableEq, Repr

namespace Ipv4

/-- The text of an address: its octets with dots between them. -/
def write (address : Ipv4) : List Char :=
  Numeral.digits 10 address.a.toNat ++ '.' :: Numeral.digits 10 address.b.toNat ++
    '.' :: Numeral.digits 10 address.c.toNat ++ '.' :: Numeral.digits 10 address.d.toNat

/-- The address that a number of thirty-two bits stands for. -/
def ofNat (n : Nat) : Ipv4 :=
  ⟨UInt8.ofNat (n / 16777216), UInt8.ofNat (n / 65536), UInt8.ofNat (n / 256), UInt8.ofNat n⟩

end Ipv4

namespace Ipv6

/-- The groups that pairs of octets make up. -/
def ofPairs : Octets → List UInt16
  | high :: low :: rest => UInt16.ofNat (Octets.bigEndian high low) :: ofPairs rest
  | _ => []

/-- The address with the given groups, if there are eight. -/
def ofGroups? (groups : List UInt16) : Option Ipv6 :=
  if h : groups.length = 8 then some ⟨groups, h⟩ else none

/-- The address with the given octets, if there are sixteen. -/
def ofOctets? (octets : Octets) : Option Ipv6 :=
  ofGroups? (ofPairs octets)

/-- The short address behind the marker group, if everything in front of it is zero. -/
def embedded? (address : Ipv6) : Option Ipv4 :=
  match address.groups with
  | [0, 0, 0, 0, 0, 65535, high, low] =>
      some (Ipv4.ofNat (high.toNat * 65536 + low.toNat))
  | _ => none

/-- The number of zero groups from a position on. -/
def runAt (groups : List UInt16) (i : Nat) : Nat :=
  ((groups.drop i).takeWhile (· == 0)).length

/-- The first position of a longest run of zero groups. -/
def longestRun (groups : List UInt16) : Nat :=
  (List.range 8).foldl
    (fun best i => if runAt groups best < runAt groups i then i else best) 0

/-- Groups with colons between them. -/
def writeGroups : List UInt16 → List Char
  | [] => []
  | [group] => Numeral.digits 16 group.toNat
  | group :: next :: rest =>
      Numeral.digits 16 group.toNat ++ ':' :: writeGroups (next :: rest)

/-- The text of an address. -/
def write (address : Ipv6) : List Char :=
  match address.embedded? with
  | some short => [':', ':', 'f', 'f', 'f', 'f', ':'] ++ short.write
  | none =>
      let start := longestRun address.groups
      let count := runAt address.groups start
      if 1 < count then
        writeGroups (address.groups.take start) ++ [':', ':'] ++
          writeGroups (address.groups.drop (start + count))
      else
        writeGroups address.groups

/-- Octets make up half as many groups. -/
theorem length_ofPairs
    (octets : Octets) :
    (ofPairs octets).length = octets.length / 2 := by
  induction octets using ofPairs.induct with
  | case1 high low rest ih =>
      simp only [ofPairs, List.length_cons, ih]
      omega
  | case2 octets h =>
      match octets, h with
      | [], _ => rfl
      | [_], _ => simp [ofPairs]
      | high :: low :: rest, h => exact absurd rfl (h high low rest)

end Ipv6

namespace Endpoint

/-- The text of an endpoint; a long address stands in brackets, a zone of zero is left out. -/
def write : Endpoint → List Char
  | .v4 address port => address.write ++ ':' :: Numeral.digits 10 port.toNat
  | .v6 address port scope =>
      '[' :: address.write ++
        (if scope = 0 then [] else '%' :: Numeral.digits 10 scope.toNat) ++
        ']' :: ':' :: Numeral.digits 10 port.toNat

def text (endpoint : Endpoint) : String :=
  String.ofList endpoint.write

def port : Endpoint → UInt16
  | .v4 _ port => port
  | .v6 _ port _ => port

end Endpoint
end SyslogIntake

import SyslogIntake.Address.Basic
import SyslogIntake.Text.Quoted

/-!
# Refusals

What the operating system answers to a program that it does not let listen somewhere.  A
machine that is reachable from nowhere has no addresses but those on which it reaches itself,
and a program without privileges may not take the lowest ports.
-/

namespace SyslogIntake

/-- A refusal of the operating system: its number, its kind and its sentence. -/
structure Refusal where
  number : Nat
  kind : String
  sentence : String
  deriving DecidableEq, Repr

namespace Refusal

/-- The port is for privileged programs. -/
def permission : Refusal :=
  ⟨13, "PermissionDenied", "Permission denied"⟩

/-- The zone is none of the machine. -/
def noDevice : Refusal :=
  ⟨19, "Uncategorized", "No such device"⟩

/-- The address is none to listen on. -/
def invalid : Refusal :=
  ⟨22, "InvalidInput", "Invalid argument"⟩

/-- Somebody else listens there. -/
def inUse : Refusal :=
  ⟨98, "AddrInUse", "Address already in use"⟩

/-- The address is none of the machine. -/
def notAvailable : Refusal :=
  ⟨99, "AddrNotAvailable", "Cannot assign requested address"⟩

/-- The refusals that may meet a program that starts. -/
def all : List Refusal :=
  [permission, noDevice, invalid, inUse, notAvailable]

def report (refusal : Refusal) : String :=
  refusal.sentence ++ " (os error " ++ Numeral.decimal refusal.number ++ ")"

/-- A refusal with all its parts shown. -/
def shown (refusal : Refusal) : String :=
  "Os \x7b code: " ++ Numeral.decimal refusal.number ++ ", kind: " ++ refusal.kind ++
    ", message: " ++ Text.quoted refusal.sentence ++ " \x7d"

def ofNumber? (number : Nat) : Option Refusal :=
  all.find? fun refusal => refusal.number == number

def ofReport? (report : String) : Option Refusal :=
  all.find? fun refusal => refusal.report == report

end Refusal

/-- Whether a machine that is reachable from nowhere takes what is sent to an address: to itself,
to nobody in particular, to a group, or to everybody. -/
def Ipv4.isTaken (address : Ipv4) : Bool :=
  address.a == 127 || address.a == 0 || (224 ≤ address.a && address.a ≤ 239) ||
    address == ⟨255, 255, 255, 255⟩

namespace Ipv6

def firstGroup (address : Ipv6) : Nat :=
  (address.groups.headD 0).toNat

/-- Whether an address is one of a group of machines. -/
def isMulticast (address : Ipv6) : Bool :=
  0xFF00 ≤ address.firstGroup

/-- Whether an address is only known within its zone. -/
def isLinkLocal (address : Ipv6) : Bool :=
  0xFE80 ≤ address.firstGroup && address.firstGroup < 0xFEC0

/-- The zone of the machine itself. -/
def ownZone : UInt32 := 1

/-- Why a machine that is reachable from nowhere does not take what is sent to an address. -/
def refusal? (address : Ipv6) (scope : UInt32) : Option Refusal :=
  match address.embedded? with
  | some short => if short.isTaken then none else some .notAvailable
  | none =>
      if address.groups.take 7 == List.replicate 7 0 && address.groups.getD 7 0 ≤ 1 then none
      else if !address.isLinkLocal then some .notAvailable
      else if scope = 0 then some .invalid
      else if scope = ownZone then some .notAvailable
      else some .noDevice

end Ipv6

namespace Endpoint

/-- The least port that a program without privileges may take; at zero any port is taken. -/
def leastPort : UInt16 := 1024

def isPrivileged (endpoint : Endpoint) : Bool :=
  endpoint.port != 0 && endpoint.port < leastPort

/-- Why a program without privileges may not listen at an endpoint, on a machine that is
reachable from nowhere. -/
def refusal? (endpoint : Endpoint) : Option Refusal :=
  match endpoint with
  | .v4 address _ =>
      if !address.isTaken then some .notAvailable
      else if endpoint.isPrivileged then some .permission
      else none
  | .v6 address _ scope =>
      if address.isMulticast then some .invalid
      else if endpoint.isPrivileged then some .permission
      else address.refusal? scope

end Endpoint
end SyslogIntake

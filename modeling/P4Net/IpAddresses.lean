import P4Net.InterfaceLiterals

/-!
# IP addresses

The objects of the module `ipaddress` that the runtime compares.

* `Ipv6Address` and `IpAddress` : the addresses; an IPv6 address has a zone, and equality
  looks at it.
* `ipv6Address`, `interfaceIp`, `ipAddress` : how they are read from a text.
* `unmapped` : the IPv4 address that an IPv6 address stands for.
-/

namespace P4Net
namespace TextLiterals

open BigEndian

/-- `ipaddress.IPv6Address`. -/
structure Ipv6Address where
  packed : Bytes
  scopeId : Option Text := none
deriving DecidableEq, Repr

/-- `ipaddress.IPv6Address(text)`. -/
def ipv6Address (text : Text) : Option Ipv6Address :=
  (ipv6Packed text).map fun packed => ⟨packed, (splitOnce '%' text).map Prod.snd⟩

/-- `ipaddress.IPv6Interface(text).ip`. -/
def interfaceIp (text : Text) : Option Ipv6Address :=
  (ipv6Interface text).map fun interface => ⟨interface.1, none⟩

/-- `ipaddress.IPv4Address` or `ipaddress.IPv6Address`. -/
inductive IpAddress where
  | v4 (packed : Bytes)
  | v6 (address : Ipv6Address)
deriving DecidableEq, Repr

/-- `ipaddress.ip_address(text)`. -/
def ipAddress (text : Text) : Option IpAddress :=
  match ipv4Packed text with
  | some packed => some (.v4 packed)
  | none => (ipv6Address text).map .v6

/-- `IPv6Address.ipv4_mapped`. -/
def Ipv6Address.ipv4Mapped (address : Ipv6Address) : Option Bytes :=
  let ip := fromBytes address.packed
  if ip / 2 ^ 32 = 0xFFFF then some (toBytes 4 (ip % 2 ^ 32)) else none

/-- An address without the mapping of IPv4 into IPv6. -/
def IpAddress.unmapped : IpAddress → IpAddress
  | .v4 packed => .v4 packed
  | .v6 address =>
      match address.ipv4Mapped with
      | some packed => .v4 packed
      | none => .v6 address

/-- `address.version == 4`. -/
def IpAddress.isV4 : IpAddress → Bool
  | .v4 _ => true
  | .v6 _ => false

/--
`address.is_unspecified`.  A mapped address is as its IPv4 address is, which `ipaddress` has from
Python 3.13 on and in the patch releases of older versions that took the change over; before it no
mapped address is unspecified.
-/
def IpAddress.isUnspecified (address : IpAddress) : Bool :=
  match address.unmapped with
  | .v4 packed => fromBytes packed = 0
  | .v6 address => fromBytes address.packed = 0

example :
    ((ipAddress "::ffff:127.0.0.1".toList).map IpAddress.unmapped,
      (ipAddress "::".toList).map IpAddress.isUnspecified) =
      (some (.v4 [127, 0, 0, 1]), some true) := by
  decide

end TextLiterals
end P4Net

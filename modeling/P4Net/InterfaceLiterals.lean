import P4Net.TextLiterals

/-!
# Names and addresses of interfaces

What the topology and the runtime accept as the name of a node or of an interface, as a
hardware address, and as an address with a prefix length.

* `ipv4Interface` and `ipv6Interface` are `ipaddress.IPv4Interface(text)` and
  `ipaddress.IPv6Interface(text)`, as the address and the prefix length.  The address of
  an IPv6 interface has no zone: `IPv6Interface.ip` drops it.
* `validateIfname` is `_validate_ifname` on a string.
-/

namespace P4Net
namespace TextLiterals

open BigEndian

/-! ### Addresses with a prefix length -/

/-- The address and the optional mask around a single slash. -/
def splitOptionalNetmask (text : Text) : Option (Text × Option Text) :=
  match splitOn '/' text with
  | [addr] => some (addr, none)
  | [addr, mask] => some (addr, some mask)
  | _ => none

/-- `_prefix_from_prefix_string`; `int` refuses more than 4300 digits. -/
def prefixFromDigits (maxPrefixlen : Nat) (text : Text) : Option Nat :=
  if text.isEmpty ∨ ¬ text.all (fun c => '0' ≤ c ∧ c ≤ '9') ∨ 4300 < text.length then none
  else
    match scanDigits 10 0 false text with
    | some (value, _) => if value ≤ maxPrefixlen then some value else none
    | none => none

/-- `_prefix_from_ip_int` for 32 bits: ones followed by zeros. -/
def prefixFromIpInt (ip : Nat) : Option Nat :=
  (List.range 33).find? (fun n => ip = 2 ^ 32 - 2 ^ (32 - n))

/-- `_prefix_from_ip_string`: a netmask, or the inverse of one. -/
def prefixFromIpString (text : Text) : Option Nat := do
  let packed ← ipv4Packed text
  let ip := fromBytes packed
  (prefixFromIpInt ip).or (prefixFromIpInt (2 ^ 32 - 1 - ip))

/-- `ipaddress.IPv4Interface(text)`. -/
def ipv4Interface (text : Text) : Option (Bytes × Nat) := do
  let (addr, mask) ← splitOptionalNetmask text
  let packed ← ipv4Packed addr
  let prefixlen ←
    match mask with
    | none => some 32
    | some mask => (prefixFromDigits 32 mask).or (prefixFromIpString mask)
  some (packed, prefixlen)

/-- `ipaddress.IPv6Interface(text)`. -/
def ipv6Interface (text : Text) : Option (Bytes × Nat) := do
  let (addr, mask) ← splitOptionalNetmask text
  let packed ← ipv6Packed addr
  let prefixlen ←
    match mask with
    | none => some 128
    | some mask => prefixFromDigits 128 mask
  some (packed, prefixlen)

example : (ipv4Interface "10.0.0.1/0.0.0.255".toList, ipv4Interface "10.0.0.1/33".toList) =
    (some ([10, 0, 0, 1], 24), none) := by decide

/-! ### Names -/

/-- `NAME_RE`. -/
def nameRe : Text → Bool
  | [] => false
  | c :: cs =>
      c.isAlpha && decide (cs.length ≤ 11) &&
        cs.all (fun c => c.isAlphanum || c = '_' || c = '-')

/-- `_MAC_RE.fullmatch`: unlike `match`, it admits no trailing newline. -/
def fullmatchMac (text : Text) : Bool :=
  match splitOn ':' text with
  | [a, b, c, d, e, f] =>
      [a, b, c, d, e, f].all (fun part =>
        part.length = 2 && part.all (fun ch => (digitValue 16 ch).isSome))
  | _ => false

/-- `str.isspace` of one character. -/
def isSpace (c : Char) : Bool :=
  decide (9 ≤ c.toNat ∧ c.toNat ≤ 13) || decide (0x1C ≤ c.toNat ∧ c.toNat ≤ 0x20) ||
    unicodeSpace c

/-- The `ValueError` of `_validate_ifname`. -/
inductive IfnameError where
  | notString
  | empty
  | dots
  | whitespace
  | separator
  | tooLong
deriving DecidableEq, Repr

/-- `_validate_ifname` on a string. -/
def validateIfname (name : String) : Except IfnameError Unit :=
  let text := name.toList
  if text = [] then .error .empty
  else if text = ['.'] ∨ text = ['.', '.'] then .error .dots
  else if text.any isSpace then .error .whitespace
  else if '/' ∈ text ∨ ':' ∈ text ∨ '\x00' ∈ text then .error .separator
  else if 15 < name.utf8ByteSize then .error .tooLong
  else .ok ()

end TextLiterals
end P4Net

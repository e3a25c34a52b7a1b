import P4Net.BigEndianBytes

/-!
# Text literals of the Python standard library

The readers that the value encoder applies to string arguments, following the
documented behaviour of Python 3.10 and later.

* `parseInt` is `int(text, base)` for base 10 and base 0: surrounding white
  space, a sign, radix prefixes, single underscores between digits, and decimal
  digits of every Unicode script.  It reads any number of digits, as the
  interpreter does with the limit lifted (`sys.set_int_max_str_digits(0)`).
* `decimalDigits` counts what the interpreter compares with the limit, which is
  `maxStrDigits` by default.
* `ipv4Packed` and `ipv6Packed` are `ipaddress.IPv4Address(text).packed` and
  `ipaddress.IPv6Address(text).packed`; a zone suffix is read and dropped.
* `splitOn` is `text.split(sep)` for a one-character separator and `rsplitOnce`
  is `text.rsplit(sep, 1)`.

Text is a list of characters throughout.  `none` stands for the `ValueError`
the library raises.
-/

namespace P4Net
namespace TextLiterals

open BigEndian

/-- A Python string as its list of characters. -/
abbrev Text := List Char

instance lawfulBEqText : LawfulBEq Text := inferInstanceAs (LawfulBEq (List Char))

/-- To decide a property of all characters of a text, only these are looked at. -/
instance (priority := high) decidableForallMem
    {p : Char → Prop} [DecidablePred p] (text : Text) :
    Decidable (∀ c ∈ text, p c) :=
  List.decidableBAll p text

instance (priority := high) decidableForallMemOption
    {p : Char → Prop} [DecidablePred p] (head : Option Char) :
    Decidable (∀ c ∈ head, p c) :=
  Option.decidableForallMem head

/-- `text.split(sep)`. -/
def splitOn (sep : Char) : Text → List Text
  | [] => [[]]
  | c :: cs =>
      if c = sep then
        [] :: splitOn sep cs
      else
        match splitOn sep cs with
        | [] => [[c]]
        | part :: parts => (c :: part) :: parts

/-- The text before and after the first `sep`. -/
def splitOnce (sep : Char) : Text → Option (Text × Text)
  | [] => none
  | c :: cs =>
      if c = sep then
        some ([], cs)
      else
        (splitOnce sep cs).map (fun p => (c :: p.1, p.2))

/-- `text.rsplit(sep, 1)` when `sep` occurs: the text around the last `sep`. -/
def rsplitOnce (sep : Char) (text : Text) : Option (Text × Text) :=
  (splitOnce sep text.reverse).map (fun p => (p.2.reverse, p.1.reverse))

/-- Code points of the zero digits of the Unicode decimal scripts. -/
def decimalZeros : List Nat :=
  [0x30, 0x660, 0x6F0, 0x7C0, 0x966, 0x9E6, 0xA66, 0xAE6, 0xB66, 0xBE6, 0xC66, 0xCE6,
    0xD66, 0xDE6, 0xE50, 0xED0, 0xF20, 0x1040, 0x1090, 0x17E0, 0x1810, 0x1946, 0x19D0,
    0x1A80, 0x1A90, 0x1B50, 0x1BB0, 0x1C40, 0x1C50, 0xA620, 0xA8D0, 0xA900, 0xA9D0,
    0xA9F0, 0xAA50, 0xABF0, 0xFF10, 0x104A0, 0x10D30, 0x11066, 0x110F0, 0x11136,
    0x111D0, 0x112F0, 0x11450, 0x114D0, 0x11650, 0x116C0, 0x11730, 0x118E0, 0x11950,
    0x11C50, 0x11D50, 0x11DA0, 0x11F50, 0x16A60, 0x16AC0, 0x16B50, 0x1D7CE, 0x1D7D8,
    0x1D7E2, 0x1D7EC, 0x1D7F6, 0x1E140, 0x1E2F0, 0x1E4D0, 0x1E950, 0x1FBF0]

/-- Value of a Unicode decimal digit. -/
def unicodeDigit (c : Char) : Option Nat :=
  (decimalZeros.find? (fun z => decide (z ≤ c.toNat ∧ c.toNat < z + 10))).map
    (fun z => c.toNat - z)

/-- White space outside ASCII, as `str.isspace` sees it. -/
def unicodeSpace (c : Char) : Bool :=
  c.toNat ∈ [0x85, 0xA0, 0x1680, 0x2028, 0x2029, 0x202F, 0x205F, 0x3000] ||
    decide (0x2000 ≤ c.toNat ∧ c.toNat ≤ 0x200A)

/-- White space that `int()` strips, after non-ASCII spaces became blanks. -/
def asciiSpace (c : Char) : Bool :=
  c = ' ' || decide (9 ≤ c.toNat ∧ c.toNat ≤ 13)

/-- `int()` first maps every character outside ASCII to an ASCII one. -/
def toAsciiDigit (c : Char) : Char :=
  if c.toNat < 127 then c
  else if unicodeSpace c then ' '
  else
    match unicodeDigit c with
    | some d => Char.ofNat (0x30 + d)
    | none => '?'

/-- Value of an ASCII digit or letter in radix `base`. -/
def digitValue (base : Nat) (c : Char) : Option Nat :=
  let v :=
    if '0' ≤ c ∧ c ≤ '9' then c.toNat - 0x30
    else if 'a' ≤ c ∧ c ≤ 'z' then c.toNat - 0x61 + 10
    else if 'A' ≤ c ∧ c ≤ 'Z' then c.toNat - 0x41 + 10
    else base
  if v < base then some v else none

/--
Read digits separated by single underscores.  `afterDigit` tells whether the
character before was a digit, so that no underscore comes first, last or twice.
-/
def scanDigits (base : Nat) : Nat → Bool → Text → Option (Nat × Text)
  | acc, afterDigit, [] => if afterDigit then some (acc, []) else none
  | acc, afterDigit, c :: cs =>
      if c = '_' then
        if afterDigit then scanDigits base acc false cs else none
      else
        match digitValue base c with
        | some d => scanDigits base (acc * base + d) true cs
        | none => if afterDigit then some (acc, c :: cs) else none

/-- Radix prefix of a base 0 literal, with the underscore allowed after it. -/
def radixPrefix : Text → Option (Nat × Text)
  | '0' :: c :: rest =>
      let base :=
        if c = 'x' ∨ c = 'X' then some 16
        else if c = 'o' ∨ c = 'O' then some 8
        else if c = 'b' ∨ c = 'B' then some 2
        else none
      base.map (fun b =>
        (b, match rest with
            | '_' :: rest' => rest'
            | _ => rest))
  | _ => none

/-- Magnitude of a literal without sign; base 0 reads the radix prefix. -/
def parseMagnitude (base : Nat) (text : Text) : Option Nat := do
  let (value, rest) ←
    if base ≠ 0 then scanDigits base 0 false text
    else
      match radixPrefix text with
      | some (b, body) => scanDigits b 0 false body
      | none => scanDigits 10 0 false text
  -- A leading zero in base 0 is accepted for the value zero only.
  if base = 0 ∧ (radixPrefix text).isNone ∧ text.head? = some '0' ∧ value ≠ 0 then none
  else if rest.all asciiSpace then some value
  else none

/-- `int(text, base)` for base 10 and base 0. -/
def parseInt (base : Nat) (text : Text) : Option Int :=
  match (text.map toAsciiDigit).dropWhile asciiSpace with
  | '-' :: rest => (parseMagnitude base rest).map (fun n => -(n : Int))
  | '+' :: rest => (parseMagnitude base rest).map (fun n => (n : Int))
  | rest => (parseMagnitude base rest).map (fun n => (n : Int))

/-- The decimal digits that `int` reads and `str` writes, unless the interpreter is told else. -/
def maxStrDigits : Nat := 4300

/-- A literal without blanks before it and without its sign. -/
def unsigned (text : Text) : Text :=
  match (text.map toAsciiDigit).dropWhile asciiSpace with
  | '-' :: rest => rest
  | '+' :: rest => rest
  | rest => rest

/-- The digits that `int(text, 0)` counts: those of a literal without a radix prefix. -/
def decimalDigits (text : Text) : Nat :=
  if (radixPrefix (unsigned text)).isSome then 0
  else
    ((unsigned text).takeWhile fun c => c = '_' || (digitValue 10 c).isSome).countP fun c => c ≠ '_'

/-- One octet of a dotted quad: ASCII digits, no leading zero, at most 255. -/
def ipv4Octet (text : Text) : Option UInt8 :=
  if text.isEmpty ∨ ¬ text.all (fun c => '0' ≤ c ∧ c ≤ '9') then none
  else if 3 < text.length then none
  else if text ≠ ['0'] ∧ text.head? = some '0' then none
  else
    match scanDigits 10 0 false text with
    | some (value, _) => if 255 < value then none else some (UInt8.ofNat value)
    | none => none

/-- `ipaddress.IPv4Address(text).packed`. -/
def ipv4Packed (text : Text) : Option Bytes :=
  match splitOn '.' text with
  | [a, b, c, d] => [a, b, c, d].mapM ipv4Octet
  | _ => none

/-- One group of an IPv6 address: one to four hexadecimal digits. -/
def ipv6Hextet (text : Text) : Option Nat :=
  if text.all (fun c => (digitValue 16 c).isSome) ∧ text.length ≤ 4 then
    (scanDigits 16 0 false text).map Prod.fst
  else none

/-- Replace a dotted-quad suffix by the two groups it stands for. -/
def expandIpv4Suffix (parts : List Text) : Option (List Text) :=
  match parts.getLast? with
  | none => some parts
  | some suffix =>
      if '.' ∈ suffix then
        (ipv4Packed suffix).map (fun packed =>
          parts.dropLast ++
            [Nat.toDigits 16 (fromBytes (packed.take 2)),
              Nat.toDigits 16 (fromBytes (packed.drop 2))])
      else some parts

/-- The groups read from left to right. -/
def hextetsValue (parts : List Text) : Option Nat :=
  parts.foldlM (fun acc part => (ipv6Hextet part).map (fun v => acc * 2 ^ 16 + v)) 0

/--
Positions strictly between the ends where a part is empty: the places where
`::` skips groups.
-/
def skipIndices (parts : List Text) : List Nat :=
  (List.range parts.length).filter (fun i =>
    0 < i ∧ i + 1 < parts.length ∧ parts[i]? = some [])

/-- The 128-bit value of an IPv6 address without a zone. -/
def ipv6Value (text : Text) : Option Nat := do
  let split := splitOn ':' text
  if split.length < 3 then none
  let parts ← expandIpv4Suffix split
  if 9 < parts.length then none
  let startsEmpty := parts.head? = some []
  let endsEmpty := parts.getLast? = some []
  match skipIndices parts with
  | [] =>
      if parts.length ≠ 8 ∨ startsEmpty ∨ endsEmpty then none
      else hextetsValue parts
  | [skip] =>
      -- An empty end is accepted only as part of the `::` itself.
      if startsEmpty ∧ skip ≠ 1 then none
      else if endsEmpty ∧ parts.length - skip - 1 ≠ 1 then none
      else
        let hi := if startsEmpty then 0 else skip
        let lo := if endsEmpty then 0 else parts.length - skip - 1
        if 8 ≤ hi + lo then none
        else do
          let high ← hextetsValue (parts.take hi)
          let low ← hextetsValue (parts.drop (parts.length - lo))
          some (high * 2 ^ (16 * (8 - hi)) + low)
  | _ => none

/-- The address part before a zone suffix `%zone`. -/
def splitScopeId (text : Text) : Option Text :=
  match splitOnce '%' text with
  | none => some text
  | some (addr, scope) =>
      if scope.isEmpty ∨ '%' ∈ scope then none else some addr

/-- `ipaddress.IPv6Address(text).packed`. -/
def ipv6Packed (text : Text) : Option Bytes := do
  if '/' ∈ text then none
  let addr ← splitScopeId text
  let value ← ipv6Value addr
  some (toBytes 16 value)

example : ipv4Packed "10.0.0.1".toList = some [10, 0, 0, 1] := by decide

example : (parseInt 0 "0x_1F ".toList, parseInt 0 "017".toList, parseInt 10 "017".toList) =
    (some 31, none, some 17) := by decide

example : (decimalDigits " -1_000 ".toList, decimalDigits "0x1000".toList) = (4, 0) := by decide

end TextLiterals
end P4Net

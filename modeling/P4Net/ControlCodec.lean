import P4Net.TextLiterals

/-!
# Value encoding for field matches and action parameters

The encoders of `control/codec.py`.  They take dynamically typed values, so the
argument is a `PyValue`; the exceptions they raise are the constructors of
`EncodingError`, each with the data its message shows.

`FitsWidth` says what a single argument denotes and when it fits a field.
`encodeValue_fits` and `encodeValue_of_fits` are the specification that every
caller uses for arguments without text: a value is accepted exactly when it
fits, and the bytes returned denote the same number.  `LpmFits`, `TernaryFits`
and `RangeFits` play the same part for the three kinds of pairs.
-/

namespace P4Net

open BigEndian TextLiterals

/-- The argument values the encoders distinguish; `other` is any further object. -/
inductive PyValue where
  | none
  | bool (value : Bool)
  | int (value : Int)
  | bytes (data : Bytes)
  | str (text : Text)
  | pair (fst snd : PyValue)
  | other
deriving DecidableEq, Repr

/-- The reasons for which the encoders raise `EncodingError`. -/
inductive EncodingError where
  | notInt
  | negative (value : Int)
  | bitwidthNotPositive (bitwidth : Nat)
  | valueTooWide (value : Int) (bitwidth : Nat)
  | bytesTooLong (length maxBytes bitwidth : Nat)
  | bytesTooWide (bitwidth : Nat)
  | invalidIpv4 (text : Text)
  | invalidMac (text : Text)
  | invalidIpv6 (text : Text)
  | literalWidth (text : Text) (required bitwidth : Nat)
  | notAnInteger (text : Text)
  | unsupportedType
  | lpmNoSlash (text : Text)
  | lpmPrefixText (text : Text)
  | lpmPrefixNotInt
  | lpmNotPair
  | lpmPrefixRange (prefixLen : Int) (bitwidth : Nat)
  | lpmHostBits
  | ternaryNotPair
  | ternaryOutsideMask
  | rangeNotPair
  | rangeReversed
  | missingExact (field table : String)
  | unsupportedMatchType (field : String)
  | missingParam (param action : String)
  | priorityRequired (table : String)
  | priorityForbidden (table : String)
  | priorityInvalid
deriving DecidableEq, Repr

namespace ControlCodec

/-- Bytes needed for `bitwidth` bits: `(bitwidth + 7) // 8`. -/
def byteWidth (bitwidth : Nat) : Nat := (bitwidth + 7) / 8

/-- `encode_int`. -/
def encodeInt (value : PyValue) (bitwidth : Nat) : Except EncodingError Bytes :=
  match value with
  | .int n =>
      if n < 0 then .error (.negative n)
      else if bitwidth = 0 then .error (.bitwidthNotPositive bitwidth)
      else if bitwidth < bitLength n.toNat then .error (.valueTooWide n bitwidth)
      else .ok (toBytes (byteWidth bitwidth) n.toNat)
  | _ => .error .notInt

/-- `encode_ipv4` on a string. -/
def encodeIpv4 (text : Text) : Except EncodingError Bytes :=
  match ipv4Packed text with
  | some packed => .ok packed
  | none => .error (.invalidIpv4 text)

/-- `_MAC_RE`: six pairs of hexadecimal digits; `$` admits one trailing newline. -/
def matchMac (text : Text) : Bool :=
  match splitOn ':' (if text.getLast? = some '\n' then text.dropLast else text) with
  | [a, b, c, d, e, f] =>
      [a, b, c, d, e, f].all (fun part =>
        part.length = 2 && part.all (fun ch => (digitValue 16 ch).isSome))
  | _ => false

/-- `encode_mac` on a string. -/
def encodeMac (text : Text) : Except EncodingError Bytes :=
  if matchMac text then
    .ok ((splitOn ':' text).map (fun part =>
      match scanDigits 16 0 false part with
      | some (value, _) => UInt8.ofNat value
      | none => 0))
  else .error (.invalidMac text)

/-- The string branch of `encode_value`. -/
def encodeText (text : Text) (bitwidth : Nat) : Except EncodingError Bytes :=
  if text.count '.' = 3 then
    if bitwidth ≠ 32 then .error (.literalWidth text 32 bitwidth)
    else encodeIpv4 text
  else if text.count ':' = 5 ∧ matchMac text then
    if bitwidth ≠ 48 then .error (.literalWidth text 48 bitwidth)
    else encodeMac text
  else if ':' ∈ text then
    -- Any other text with a colon is read as an IPv6 literal.
    if bitwidth ≠ 128 then .error (.literalWidth text 128 bitwidth)
    else
      match ipv6Packed text with
      | some packed => .ok packed
      | none => .error (.invalidIpv6 text)
  else
    match parseInt 0 text with
    | some n => encodeInt (.int n) bitwidth
    | none => .error (.notAnInteger text)

/-- `encode_value`, where `int` reads any number of digits. -/
def encodeValue (value : PyValue) (bitwidth : Nat) : Except EncodingError Bytes :=
  if bitwidth = 0 then .error (.bitwidthNotPositive bitwidth)
  else
    match value with
    | .bytes data =>
        if byteWidth bitwidth < data.length then
          .error (.bytesTooLong data.length (byteWidth bitwidth) bitwidth)
        else if bitwidth < bitLength (fromBytes data) then
          .error (.bytesTooWide bitwidth)
        else .ok data
    | .bool b => encodeInt (.int (if b then 1 else 0)) bitwidth
    | .int n => encodeInt (.int n) bitwidth
    | .str text => encodeText text bitwidth
    | _ => .error .unsupportedType

/-- The text is left for `int`, which refuses it for its digits. -/
def LongDecimal (text : Text) : Prop :=
  text.count '.' ≠ 3 ∧ ':' ∉ text ∧ maxStrDigits < decimalDigits text

instance (text : Text) : Decidable (LongDecimal text) :=
  inferInstanceAs (Decidable (text.count '.' ≠ 3 ∧ ':' ∉ text ∧ maxStrDigits < decimalDigits text))

/-- `encode_value` where the interpreter limits the digits that `int` reads. -/
def encodeValueLimited (value : PyValue) (bitwidth : Nat) : Except EncodingError Bytes :=
  match value with
  | .str text =>
      if bitwidth = 0 then .error (.bitwidthNotPositive bitwidth)
      else if LongDecimal text then .error (.notAnInteger text)
      else encodeText text bitwidth
  | _ => encodeValue value bitwidth

/-- The two argument shapes of `parse_lpm`: the address part and the prefix length. -/
def lpmParts (value : PyValue) : Except EncodingError (PyValue × Int) :=
  match value with
  | .str text =>
      match rsplitOnce '/' text with
      | none => .error (.lpmNoSlash text)
      | some (addr, prefixPart) =>
          match parseInt 10 prefixPart with
          | none => .error (.lpmPrefixText prefixPart)
          | some n => .ok (.str addr, n)
  | .pair addr (.int n) => .ok (addr, n)
  | .pair _ _ => .error .lpmPrefixNotInt
  | _ => .error .lpmNotPair

/-- `parse_lpm`. -/
def parseLpm (value : PyValue) (bitwidth : Nat) : Except EncodingError (Bytes × Nat) := do
  let (addr, prefixLen) ← lpmParts value
  if prefixLen < 0 ∨ (bitwidth : Int) < prefixLen then
    .error (.lpmPrefixRange prefixLen bitwidth)
  else
    let encoded ← encodeValue addr bitwidth
    let plen := prefixLen.toNat
    if plen ≠ 0 ∧ fromBytes encoded &&& (2 ^ (bitwidth - plen) - 1) ≠ 0 then
      .error .lpmHostBits
    else .ok (encoded, plen)

/-- `parse_ternary`. -/
def parseTernary (value : PyValue) (bitwidth : Nat) : Except EncodingError (Bytes × Bytes) :=
  match value with
  | .pair valPart maskPart => do
      let encVal ← encodeValue valPart bitwidth
      let encMask ← encodeValue maskPart bitwidth
      if fromBytes encMask ≠ 0 ∧
          fromBytes encVal &&& fromBytes encMask ≠ fromBytes encVal then
        .error .ternaryOutsideMask
      else .ok (encVal, encMask)
  | _ => .error .ternaryNotPair

/-- `parse_range`. -/
def parseRange (value : PyValue) (bitwidth : Nat) : Except EncodingError (Bytes × Bytes) :=
  match value with
  | .pair low high => do
      let encLow ← encodeValue low bitwidth
      let encHigh ← encodeValue high bitwidth
      if fromBytes encHigh < fromBytes encLow then .error .rangeReversed
      else .ok (encLow, encHigh)
  | _ => .error .rangeNotPair

/-- No string occurs in the argument. -/
def NoText : PyValue → Prop
  | .str _ => False
  | .pair a b => NoText a ∧ NoText b
  | _ => True

/-- The number an argument denotes; negative integers and pairs denote none. -/
def numericValue : PyValue → Option Nat
  | .int n => if n < 0 then none else some n.toNat
  | .bool b => some (if b then 1 else 0)
  | .bytes data => some (fromBytes data)
  | _ => none

/-- The length limit on byte string arguments; other arguments have none. -/
def lengthFits : PyValue → Nat → Prop
  | .bytes data, bitwidth => data.length ≤ byteWidth bitwidth
  | _, _ => True

/-- The argument denotes `n`, which fits in `bitwidth` bits. -/
def FitsWidth (value : PyValue) (bitwidth n : Nat) : Prop :=
  numericValue value = some n ∧ n < 2 ^ bitwidth ∧ lengthFits value bitwidth

theorem FitsWidth.unique
    {value : PyValue} {bitwidth n m : Nat}
    (hn : FitsWidth value bitwidth n) (hm : FitsWidth value bitwidth m) :
    n = m :=
  Option.some.inj (hn.1.symm.trans hm.1)

theorem encodeInt_nat
    {bitwidth : Nat}
    (hw : 1 ≤ bitwidth) (n : Nat) :
    encodeInt (.int n) bitwidth =
      if n < 2 ^ bitwidth then .ok (toBytes (byteWidth bitwidth) n)
      else .error (.valueTooWide n bitwidth) := by
  have hneg : ¬ ((n : Int) < 0) := by omega
  have hw0 : bitwidth ≠ 0 := by omega
  have hbits : bitwidth < bitLength n ↔ ¬ n < 2 ^ bitwidth := by
    rw [← bitLength_le_iff]
    omega
  simp only [encodeInt, hneg, hw0, if_false, Int.toNat_natCast, hbits]
  by_cases h : n < 2 ^ bitwidth
  · simp [h]
  · simp [h]

/-- An encoded integer denotes that integer. -/
theorem encodeInt_eq_ok_iff
    {bitwidth : Nat}
    (hw : 1 ≤ bitwidth) (z : Int) (data : Bytes) :
    encodeInt (.int z) bitwidth = .ok data ↔
      ∃ n : Nat, z = n ∧ n < 2 ^ bitwidth ∧ data = toBytes (byteWidth bitwidth) n := by
  by_cases hz : z < 0
  · constructor
    · intro h
      simp [encodeInt, hz] at h
    · rintro ⟨n, rfl, -, -⟩
      omega
  · obtain ⟨n, rfl⟩ := Int.eq_ofNat_of_zero_le (not_lt.mp hz)
    rw [encodeInt_nat hw]
    constructor
    · intro h
      split_ifs at h with hn
      exact ⟨n, rfl, hn, (Except.ok.inj h).symm⟩
    · rintro ⟨m, hm, hlt, rfl⟩
      have hnm : n = m := by omega
      subst hnm
      rw [if_pos hlt]

/-- What `encode_value` accepts fits, and the bytes returned denote it. -/
theorem encodeValue_fits
    {bitwidth : Nat} {value : PyValue} {data : Bytes}
    (hw : 1 ≤ bitwidth) (hs : NoText value)
    (h : encodeValue value bitwidth = .ok data) :
    FitsWidth value bitwidth (fromBytes data) := by
  have hw0 : bitwidth ≠ 0 := by omega
  have hint : ∀ z : Int,
      encodeInt (.int z) bitwidth = .ok data →
        z = fromBytes data ∧ fromBytes data < 2 ^ bitwidth := by
    intro z hz
    obtain ⟨n, rfl, hn, rfl⟩ := (encodeInt_eq_ok_iff hw z data).mp hz
    have hval : fromBytes (toBytes (byteWidth bitwidth) n) = n :=
      fromBytes_toBytes (lt_pow_bytes_of_lt hn)
    exact ⟨by rw [hval], by rwa [hval]⟩
  simp only [encodeValue, hw0, if_false] at h
  cases value with
  | int z =>
      obtain ⟨rfl, hlt⟩ := hint z h
      have hneg : ¬ ((fromBytes data : Int) < 0) := by omega
      exact ⟨by simp [numericValue, hneg], hlt, trivial⟩
  | bool b =>
      obtain ⟨hb, hlt⟩ := hint _ h
      refine ⟨?_, hlt, trivial⟩
      cases b <;> simp [numericValue] at hb ⊢ <;> omega
  | bytes d =>
      have hbits := bitLength_le_iff (fromBytes d) bitwidth
      simp only at h
      split_ifs at h with hlen hwide
      obtain rfl := Except.ok.inj h
      exact ⟨rfl, by omega, Nat.le_of_not_lt hlen⟩
  | str text => exact absurd hs id
  | none => cases h
  | pair a b => cases h
  | other => cases h

/-- A byte string that fits is returned unchanged. -/
theorem encodeValue_bytes
    {bitwidth : Nat} {data : Bytes}
    (hw : 1 ≤ bitwidth)
    (hlen : data.length ≤ byteWidth bitwidth) (hlt : fromBytes data < 2 ^ bitwidth) :
    encodeValue (.bytes data) bitwidth = .ok data := by
  have hbits := (bitLength_le_iff (fromBytes data) bitwidth).mpr hlt
  simp only [encodeValue]
  rw [if_neg (by omega), if_neg (by omega), if_neg (by omega)]

/-- `encode_value` accepts every argument that fits. -/
theorem encodeValue_of_fits
    {bitwidth n : Nat} {value : PyValue}
    (hw : 1 ≤ bitwidth) (h : FitsWidth value bitwidth n) :
    ∃ data, encodeValue value bitwidth = .ok data ∧ fromBytes data = n := by
  obtain ⟨hnum, hlt, hlen⟩ := h
  have hw0 : bitwidth ≠ 0 := by omega
  have hint : ∃ data, encodeInt (.int (n : Int)) bitwidth = .ok data ∧ fromBytes data = n := by
    refine ⟨_, (encodeInt_eq_ok_iff hw _ _).mpr ⟨n, rfl, hlt, rfl⟩, ?_⟩
    exact fromBytes_toBytes (lt_pow_bytes_of_lt hlt)
  cases value with
  | int z =>
      simp only [numericValue] at hnum
      split_ifs at hnum with hneg
      have hval := Option.some.inj hnum
      have hz : z = n := by omega
      simpa [encodeValue, hw0, hz] using hint
  | bool b =>
      have hb : (if b then 1 else 0 : Int) = n := by
        have hval := Option.some.inj hnum
        cases b <;> simp at hval ⊢ <;> omega
      simpa [encodeValue, hw0, hb] using hint
  | bytes d =>
      have hd : fromBytes d = n := Option.some.inj hnum
      exact ⟨d, encodeValue_bytes hw hlen (hd ▸ hlt), hd⟩
  | none => cases hnum
  | str text => cases hnum
  | pair a b => cases hnum
  | other => cases hnum

/-- The limit of `int` takes away the long decimal texts, and nothing else. -/
theorem encodeValueLimited_eq_ok_iff
    (value : PyValue) (bitwidth : Nat) (data : Bytes) :
    encodeValueLimited value bitwidth = .ok data ↔
      encodeValue value bitwidth = .ok data ∧ ∀ text, value = .str text → ¬ LongDecimal text := by
  cases value with
  | str text =>
      by_cases hw : bitwidth = 0
      · simp [encodeValueLimited, encodeValue, hw]
      · by_cases hlong : LongDecimal text <;> simp [encodeValueLimited, encodeValue, hw, hlong]
  | _ => simp [encodeValueLimited]

/-- Well-formed longest-prefix argument with value `n` and prefix length `plen`. -/
def LpmFits (value : PyValue) (bitwidth n plen : Nat) : Prop :=
  ∃ addr, value = .pair addr (.int plen) ∧ plen ≤ bitwidth ∧
    FitsWidth addr bitwidth n ∧ (plen ≠ 0 → n % 2 ^ (bitwidth - plen) = 0)

/-- Well-formed ternary argument with value `n` and mask `m`. -/
def TernaryFits (value : PyValue) (bitwidth n m : Nat) : Prop :=
  ∃ valPart maskPart, value = .pair valPart maskPart ∧
    FitsWidth valPart bitwidth n ∧ FitsWidth maskPart bitwidth m ∧
    (m ≠ 0 → n &&& m = n)

/-- Well-formed range argument with bounds `lo` and `hi`. -/
def RangeFits (value : PyValue) (bitwidth lo hi : Nat) : Prop :=
  ∃ low high, value = .pair low high ∧
    FitsWidth low bitwidth lo ∧ FitsWidth high bitwidth hi ∧ lo ≤ hi

/-- What `parse_lpm` accepts is a well-formed longest-prefix argument. -/
theorem parseLpm_fits
    {bitwidth plen : Nat} {value : PyValue} {data : Bytes}
    (hw : 1 ≤ bitwidth) (hs : NoText value)
    (h : parseLpm value bitwidth = .ok (data, plen)) :
    LpmFits value bitwidth (fromBytes data) plen := by
  cases value with
  | str text => exact absurd hs id
  | pair addr second =>
      cases second with
      | int z =>
          simp only [parseLpm, lpmParts, bind, Except.bind] at h
          split_ifs at h with hrange
          cases henc : encodeValue addr bitwidth with
          | error e => rw [henc] at h; cases h
          | ok encoded =>
              rw [henc] at h
              simp only [Nat.and_two_pow_sub_one_eq_mod] at h
              split_ifs at h with hhost
              obtain ⟨rfl, rfl⟩ := Prod.mk.inj (Except.ok.inj h)
              rw [not_or, not_lt, not_lt] at hrange
              refine ⟨addr, ?_, by omega, encodeValue_fits hw hs.1 henc, ?_⟩
              · rw [Int.toNat_of_nonneg hrange.1]
              · intro hp
                by_contra hbits
                exact hhost ⟨hp, hbits⟩
      | none => cases h
      | bool b => cases h
      | bytes d => cases h
      | str text => cases h
      | pair a b => cases h
      | other => cases h
  | none => cases h
  | bool b => cases h
  | int z => cases h
  | bytes d => cases h
  | other => cases h

/-- `parse_lpm` on a pair whose address encodes. -/
theorem parseLpm_pair
    {bitwidth plen : Nat} {addr : PyValue} {data : Bytes}
    (hle : plen ≤ bitwidth)
    (henc : encodeValue addr bitwidth = .ok data)
    (hhost : plen ≠ 0 → fromBytes data % 2 ^ (bitwidth - plen) = 0) :
    parseLpm (.pair addr (.int plen)) bitwidth = .ok (data, plen) := by
  have hrange : ¬ ((plen : Int) < 0 ∨ (bitwidth : Int) < plen) := by omega
  simp only [parseLpm, lpmParts, bind, Except.bind, hrange, if_false, henc,
    Int.toNat_natCast, Nat.and_two_pow_sub_one_eq_mod]
  rw [if_neg]
  rintro ⟨hp, hbits⟩
  exact hbits (hhost hp)

/-- `parse_lpm` accepts every well-formed longest-prefix argument. -/
theorem parseLpm_of_fits
    {bitwidth n plen : Nat} {value : PyValue}
    (hw : 1 ≤ bitwidth) (h : LpmFits value bitwidth n plen) :
    ∃ data, parseLpm value bitwidth = .ok (data, plen) ∧ fromBytes data = n := by
  obtain ⟨addr, rfl, hle, hfit, hhost⟩ := h
  obtain ⟨data, henc, hval⟩ := encodeValue_of_fits hw hfit
  exact ⟨data, parseLpm_pair hle henc (hval ▸ hhost), hval⟩

/-- What `parse_ternary` accepts is a well-formed ternary argument. -/
theorem parseTernary_fits
    {bitwidth : Nat} {value : PyValue} {dataVal dataMask : Bytes}
    (hw : 1 ≤ bitwidth) (hs : NoText value)
    (h : parseTernary value bitwidth = .ok (dataVal, dataMask)) :
    TernaryFits value bitwidth (fromBytes dataVal) (fromBytes dataMask) := by
  cases value with
  | pair a b =>
      simp only [parseTernary, bind, Except.bind] at h
      cases ha : encodeValue a bitwidth with
      | error e => rw [ha] at h; cases h
      | ok encVal =>
          cases hb : encodeValue b bitwidth with
          | error e => rw [ha, hb] at h; cases h
          | ok encMask =>
              rw [ha, hb] at h
              simp only at h
              split_ifs at h with hmask
              obtain ⟨rfl, rfl⟩ := Prod.mk.inj (Except.ok.inj h)
              refine ⟨a, b, rfl, encodeValue_fits hw hs.1 ha, encodeValue_fits hw hs.2 hb, ?_⟩
              intro hm
              by_contra hval
              exact hmask ⟨hm, hval⟩
  | str text => exact absurd hs id
  | none => cases h
  | bool b => cases h
  | int z => cases h
  | bytes d => cases h
  | other => cases h

/-- `parse_ternary` on a pair whose parts encode. -/
theorem parseTernary_pair
    {bitwidth : Nat} {a b : PyValue} {dataVal dataMask : Bytes}
    (ha : encodeValue a bitwidth = .ok dataVal)
    (hb : encodeValue b bitwidth = .ok dataMask)
    (hmask : fromBytes dataMask ≠ 0 →
      fromBytes dataVal &&& fromBytes dataMask = fromBytes dataVal) :
    parseTernary (.pair a b) bitwidth = .ok (dataVal, dataMask) := by
  simp only [parseTernary, bind, Except.bind, ha, hb]
  rw [if_neg]
  rintro ⟨hm, hval⟩
  exact hval (hmask hm)

/-- `parse_ternary` accepts every well-formed ternary argument. -/
theorem parseTernary_of_fits
    {bitwidth n m : Nat} {value : PyValue}
    (hw : 1 ≤ bitwidth) (h : TernaryFits value bitwidth n m) :
    ∃ dataVal dataMask, parseTernary value bitwidth = .ok (dataVal, dataMask) ∧
      fromBytes dataVal = n ∧ fromBytes dataMask = m := by
  obtain ⟨a, b, rfl, ha, hb, hmask⟩ := h
  obtain ⟨dataVal, hencVal, rfl⟩ := encodeValue_of_fits hw ha
  obtain ⟨dataMask, hencMask, rfl⟩ := encodeValue_of_fits hw hb
  exact ⟨dataVal, dataMask, parseTernary_pair hencVal hencMask hmask, rfl, rfl⟩

/-- What `parse_range` accepts is a well-formed range argument. -/
theorem parseRange_fits
    {bitwidth : Nat} {value : PyValue} {dataLow dataHigh : Bytes}
    (hw : 1 ≤ bitwidth) (hs : NoText value)
    (h : parseRange value bitwidth = .ok (dataLow, dataHigh)) :
    RangeFits value bitwidth (fromBytes dataLow) (fromBytes dataHigh) := by
  cases value with
  | pair a b =>
      simp only [parseRange, bind, Except.bind] at h
      cases ha : encodeValue a bitwidth with
      | error e => rw [ha] at h; cases h
      | ok encLow =>
          cases hb : encodeValue b bitwidth with
          | error e => rw [ha, hb] at h; cases h
          | ok encHigh =>
              rw [ha, hb] at h
              simp only at h
              split_ifs at h with hrev
              obtain ⟨rfl, rfl⟩ := Prod.mk.inj (Except.ok.inj h)
              exact ⟨a, b, rfl, encodeValue_fits hw hs.1 ha, encodeValue_fits hw hs.2 hb,
                Nat.le_of_not_lt hrev⟩
  | str text => exact absurd hs id
  | none => cases h
  | bool b => cases h
  | int z => cases h
  | bytes d => cases h
  | other => cases h

/-- `parse_range` on a pair whose parts encode. -/
theorem parseRange_pair
    {bitwidth : Nat} {a b : PyValue} {dataLow dataHigh : Bytes}
    (ha : encodeValue a bitwidth = .ok dataLow)
    (hb : encodeValue b bitwidth = .ok dataHigh)
    (hle : fromBytes dataLow ≤ fromBytes dataHigh) :
    parseRange (.pair a b) bitwidth = .ok (dataLow, dataHigh) := by
  simp only [parseRange, bind, Except.bind, ha, hb]
  rw [if_neg (by omega)]

/-- `parse_range` accepts every well-formed range argument. -/
theorem parseRange_of_fits
    {bitwidth lo hi : Nat} {value : PyValue}
    (hw : 1 ≤ bitwidth) (h : RangeFits value bitwidth lo hi) :
    ∃ dataLow dataHigh, parseRange value bitwidth = .ok (dataLow, dataHigh) ∧
      fromBytes dataLow = lo ∧ fromBytes dataHigh = hi := by
  obtain ⟨a, b, rfl, ha, hb, hle⟩ := h
  obtain ⟨dataLow, hencLow, rfl⟩ := encodeValue_of_fits hw ha
  obtain ⟨dataHigh, hencHigh, rfl⟩ := encodeValue_of_fits hw hb
  exact ⟨dataLow, dataHigh, parseRange_pair hencLow hencHigh hle, rfl, rfl⟩

end ControlCodec
end P4Net

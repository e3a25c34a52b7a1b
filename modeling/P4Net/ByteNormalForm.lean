import Mathlib.Algebra.Order.Floor.Div
import P4Net.FormattedValues

/-!
# The normal form of byte strings

Table keys are compared by the switch as byte strings.  This module collects what the encoders
of `control/codec.py` guarantee about them, at every width.

* `decodeInt_eq_ok_iff`, `encodeValue_bytes_eq_ok_iff` : which byte strings are accepted.
* `canonicalize_eq_iff` : the shortest forms agree exactly when the values do.
* `NormalForm` and `normalForm` : the five properties together.
-/

namespace P4Net
namespace ControlCodec

open BigEndian Formatting

/-- The arguments that are a number already: integers, booleans and byte strings. -/
def IsScalar : PyValue → Prop
  | .int _ => True
  | .bool _ => True
  | .bytes _ => True
  | _ => False

theorem noText_of_isScalar
    {value : PyValue}
    (h : IsScalar value) :
    NoText value := by
  cases value <;> trivial

theorem byteWidth_eq_ceilDiv
    (bitwidth : Nat) :
    byteWidth bitwidth = bitwidth ⌈/⌉ 8 := by
  rw [Nat.ceilDiv_eq_add_pred_div, byteWidth]
  rfl

/-- `encode_int` accepts the integers of the width. -/
theorem encodeInt_ok_iff
    {bitwidth : Nat}
    (hw : 1 ≤ bitwidth) (z : Int) :
    (∃ data, encodeInt (.int z) bitwidth = .ok data) ↔ 0 ≤ z ∧ z < 2 ^ bitwidth := by
  constructor
  · rintro ⟨data, h⟩
    obtain ⟨n, rfl, hn, -⟩ := (encodeInt_eq_ok_iff hw z data).mp h
    exact ⟨by omega, by exact_mod_cast hn⟩
  · rintro ⟨hz, hlt⟩
    obtain ⟨n, rfl⟩ := Int.eq_ofNat_of_zero_le hz
    exact ⟨_, (encodeInt_eq_ok_iff hw _ _).mpr ⟨n, rfl, by exact_mod_cast hlt, rfl⟩⟩

/-- `encode_value` returns a byte string as it is, or rejects it. -/
theorem encodeValue_bytes_eq_ok_iff
    {bitwidth : Nat}
    (hw : 1 ≤ bitwidth) (data out : Bytes) :
    encodeValue (.bytes data) bitwidth = .ok out ↔
      data.length ≤ byteWidth bitwidth ∧ fromBytes data < 2 ^ bitwidth ∧ out = data := by
  constructor
  · intro h
    have hnotext : NoText (.bytes data) := trivial
    obtain ⟨hnum, hlt, hlen⟩ := encodeValue_fits hw hnotext h
    have hval : fromBytes data = fromBytes out := Option.some.inj hnum
    have hout := encodeValue_bytes hw hlen (hval ▸ hlt)
    rw [h] at hout
    exact ⟨hlen, hval ▸ hlt, Except.ok.inj hout⟩
  · rintro ⟨hlen, hlt, rfl⟩
    exact encodeValue_bytes hw hlen hlt

/-- `decode_int` accepts the byte strings that `encode_value` accepts. -/
theorem decodeInt_eq_ok_iff
    {bitwidth : Nat}
    (hw : 1 ≤ bitwidth) (data : Bytes) (n : Nat) :
    decodeInt data bitwidth = .ok n ↔
      data.length ≤ byteWidth bitwidth ∧ fromBytes data < 2 ^ bitwidth ∧
        n = fromBytes data := by
  have hbits := bitLength_le_iff (fromBytes data) bitwidth
  unfold decodeInt
  rw [if_neg (by omega)]
  constructor
  · intro h
    split_ifs at h with hlen hwide
    exact ⟨by omega, by omega, (Except.ok.inj h).symm⟩
  · rintro ⟨hlen, hlt, rfl⟩
    rw [if_neg (by omega), if_neg (by omega)]

/-- What an accepted integer is encoded as is decoded to that integer. -/
theorem decodeInt_encodeInt
    {bitwidth : Nat} {z : Int} {data : Bytes}
    (hw : 1 ≤ bitwidth) (h : encodeInt (.int z) bitwidth = .ok data) :
    ∃ n : Nat, z = n ∧ decodeInt data bitwidth = .ok n := by
  obtain ⟨n, rfl, hn, rfl⟩ := (encodeInt_eq_ok_iff hw z data).mp h
  have hval := fromBytes_toBytes (lt_pow_bytes_of_lt hn)
  refine ⟨n, rfl, (decodeInt_eq_ok_iff hw _ _).mpr ⟨?_, ?_, ?_⟩⟩
  · rw [toBytes_length]
  · rwa [byteWidth, hval]
  · rw [byteWidth, hval]

/-- A decoded byte string of full length is the encoding of its value. -/
theorem encodeInt_decodeInt
    {bitwidth n : Nat} {data : Bytes}
    (hw : 1 ≤ bitwidth) (h : decodeInt data bitwidth = .ok n)
    (hlen : data.length = byteWidth bitwidth) :
    encodeInt (.int n) bitwidth = .ok data := by
  obtain ⟨-, hlt, rfl⟩ := (decodeInt_eq_ok_iff hw _ _).mp h
  refine (encodeInt_eq_ok_iff hw _ _).mpr ⟨_, rfl, hlt, ?_⟩
  refine fromBytes_inj_of_length ?_ ?_
  · rw [toBytes_length, hlen]
  · exact (fromBytes_toBytes (lt_pow_bytes_of_lt hlt)).symm

/-- The shortest forms of two byte strings agree exactly when their values do. -/
theorem canonicalize_eq_iff
    (a b : Bytes) :
    canonicalize a = canonicalize b ↔ fromBytes a = fromBytes b := by
  constructor
  · intro h
    rw [← fromBytes_canonicalize a, h, fromBytes_canonicalize]
  · exact canonicalize_eq_of_value

theorem canonicalize_canonicalize
    (data : Bytes) :
    canonicalize (canonicalize data) = canonicalize data :=
  canonicalize_of_isCanonical (isCanonical_canonicalize data)

/-- The only canonical byte string that starts with zero is the single zero byte. -/
theorem eq_singleton_of_head?_zero
    {data : Bytes}
    (h : IsCanonical data) (hhead : data.head? = some 0) :
    data = [0] := by
  cases data with
  | nil => cases hhead
  | cons b rest =>
      obtain rfl : b = 0 := Option.some.inj hhead
      cases rest with
      | nil => rfl
      | cons c cs => exact absurd rfl h

/-- The properties of the byte strings at one width. -/
structure NormalForm (bitwidth : Nat) : Prop where
  encodeInt_ok : ∀ z : Int,
    (∃ data, encodeInt (.int z) bitwidth = .ok data) ↔ 0 ≤ z ∧ z < 2 ^ bitwidth
  encodeInt_length : ∀ (z : Int) (data : Bytes),
    encodeInt (.int z) bitwidth = .ok data → data.length = bitwidth ⌈/⌉ 8
  encodeValue_bytes_ok : ∀ data : Bytes,
    (∃ out, encodeValue (.bytes data) bitwidth = .ok out) ↔
      data.length ≤ bitwidth ⌈/⌉ 8 ∧ fromBytes data < 2 ^ bitwidth
  decode_encodeInt : ∀ (z : Int) (data : Bytes),
    encodeInt (.int z) bitwidth = .ok data →
      ∃ n : Nat, z = n ∧ decodeInt data bitwidth = .ok n
  decode_encodeValue : ∀ data out : Bytes,
    encodeValue (.bytes data) bitwidth = .ok out →
      decodeInt out bitwidth = .ok (fromBytes data)
  encode_decodeInt : ∀ (data : Bytes) (n : Nat),
    decodeInt data bitwidth = .ok n →
      encodeValue (.bytes data) bitwidth = .ok data ∧
        (data.length = bitwidth ⌈/⌉ 8 → encodeInt (.int n) bitwidth = .ok data)
  canonicalize_idem : ∀ data : Bytes,
    canonicalize (canonicalize data) = canonicalize data
  canonicalize_value : ∀ data : Bytes, fromBytes (canonicalize data) = fromBytes data
  canonicalize_ne_nil : ∀ data : Bytes, canonicalize data ≠ []
  canonicalize_head : ∀ data : Bytes,
    (canonicalize data).head? = some 0 → canonicalize data = [0]
  canonicalize_same : ∀ (x y : PyValue) (a b : Bytes),
    IsScalar x → IsScalar y →
      encodeValue x bitwidth = .ok a → encodeValue y bitwidth = .ok b →
        (canonicalize a = canonicalize b ↔ numericValue x = numericValue y)

/-- The byte strings of accepted arguments have a normal form at every width. -/
theorem normalForm
    {bitwidth : Nat}
    (hw : 1 ≤ bitwidth) :
    NormalForm bitwidth where
  encodeInt_ok := encodeInt_ok_iff hw
  encodeInt_length := by
    intro z data h
    obtain ⟨n, -, -, rfl⟩ := (encodeInt_eq_ok_iff hw z data).mp h
    rw [toBytes_length, byteWidth_eq_ceilDiv]
  encodeValue_bytes_ok := by
    intro data
    rw [← byteWidth_eq_ceilDiv]
    constructor
    · rintro ⟨out, h⟩
      obtain ⟨hlen, hlt, -⟩ := (encodeValue_bytes_eq_ok_iff hw _ _).mp h
      exact ⟨hlen, hlt⟩
    · rintro ⟨hlen, hlt⟩
      exact ⟨data, encodeValue_bytes hw hlen hlt⟩
  decode_encodeInt := fun _ _ h => decodeInt_encodeInt hw h
  decode_encodeValue := by
    intro data out h
    obtain ⟨hlen, hlt, rfl⟩ := (encodeValue_bytes_eq_ok_iff hw _ _).mp h
    exact (decodeInt_eq_ok_iff hw _ _).mpr ⟨hlen, hlt, rfl⟩
  encode_decodeInt := by
    intro data n h
    obtain ⟨hlen, hlt, -⟩ := (decodeInt_eq_ok_iff hw _ _).mp h
    rw [← byteWidth_eq_ceilDiv]
    exact ⟨encodeValue_bytes hw hlen hlt, encodeInt_decodeInt hw h⟩
  canonicalize_idem := canonicalize_canonicalize
  canonicalize_value := fromBytes_canonicalize
  canonicalize_ne_nil := fun data => ne_nil_of_isCanonical (isCanonical_canonicalize data)
  canonicalize_head := fun data => eq_singleton_of_head?_zero (isCanonical_canonicalize data)
  canonicalize_same := by
    intro x y a b hx hy ha hb
    obtain ⟨hxnum, -, -⟩ := encodeValue_fits hw (noText_of_isScalar hx) ha
    obtain ⟨hynum, -, -⟩ := encodeValue_fits hw (noText_of_isScalar hy) hb
    rw [canonicalize_eq_iff, hxnum, hynum, Option.some.injEq]

/-- At nine bits the number five has a padded and a short form. -/
theorem normalForm_nine :
    canonicalize [0, 5] = canonicalize [5] ∧
      (∃ data, encodeInt (.int 511) 9 = .ok data) ∧
      ¬ ∃ data, encodeInt (.int 512) 9 = .ok data := by
  have h : NormalForm 9 := normalForm (by decide)
  refine ⟨?_, (h.encodeInt_ok 511).mpr (by decide), fun hbad => ?_⟩
  · exact (h.canonicalize_same (.int 5) (.bytes [5]) [0, 5] [5] trivial trivial
      (by decide) (by decide)).mpr rfl
  · exact absurd ((h.encodeInt_ok 512).mp hbad).2 (by decide)

end ControlCodec
end P4Net

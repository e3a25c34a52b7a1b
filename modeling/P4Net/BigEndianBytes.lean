import Mathlib.Tactic

/-!
# Big-endian byte strings and their shortest form

Byte strings as lists of `UInt8`, read most significant byte first.

* `fromBytes` and `toBytes` are the two directions between a byte string and
  the natural number it denotes; `toBytes` has a fixed width.
* `stripZeros` and `canonicalize` produce the shortest byte string of a value,
  where zero is written as one zero byte.
* `isCanonical_ext` says that a canonical byte string is determined by its
  value, and `canonical_length_le` bounds its length by the bit width of the
  value.

Nothing in this module refers to a particular message format.
-/

namespace P4Net
namespace BigEndian

/-- A byte string. -/
abbrev Bytes := List UInt8

/-- Value of a byte string read most significant byte first. -/
def fromBytes : Bytes → Nat
  | [] => 0
  | b :: bs => b.toNat * 256 ^ bs.length + fromBytes bs

/-- The low `len` bytes of `n`, most significant byte first. -/
def toBytes : Nat → Nat → Bytes
  | 0, _ => []
  | len + 1, n => UInt8.ofNat (n / 256 ^ len % 256) :: toBytes len n

/-- Drop the leading zero bytes. -/
def stripZeros : Bytes → Bytes
  | [] => []
  | b :: bs => if b = 0 then stripZeros bs else b :: bs

/-- Shortest byte string of the same value; zero becomes one zero byte. -/
def canonicalize (data : Bytes) : Bytes :=
  match stripZeros data with
  | [] => [0]
  | b :: bs => b :: bs

/-- Nonempty, and no leading zero byte except in the single zero byte. -/
def IsCanonical : Bytes → Prop
  | [] => False
  | [_] => True
  | b :: _ :: _ => b ≠ 0

instance : DecidablePred IsCanonical
  | [] => isFalse (fun h => h)
  | [_] => isTrue trivial
  | b :: _ :: _ => inferInstanceAs (Decidable (b ≠ 0))

/-- Number of bits of `n`; zero has none. -/
def bitLength (n : Nat) : Nat :=
  if n = 0 then 0 else n.log2 + 1

theorem bitLength_le_iff
    (n w : Nat) :
    bitLength n ≤ w ↔ n < 2 ^ w := by
  unfold bitLength
  by_cases hn : n = 0
  · subst hn
    simp
  · have hlog : n.log2 < w ↔ n < 2 ^ w := Nat.log2_lt hn
    simp only [hn, if_false]
    omega

@[simp] theorem fromBytes_nil :
    fromBytes [] = 0 := rfl

@[simp] theorem fromBytes_cons
    (b : UInt8) (bs : Bytes) :
    fromBytes (b :: bs) = b.toNat * 256 ^ bs.length + fromBytes bs := rfl

@[simp] theorem toBytes_length
    (len n : Nat) :
    (toBytes len n).length = len := by
  induction len with
  | zero => rfl
  | succ len ih => simp [toBytes, ih]

/-- A byte string of length `k` denotes a number below `256 ^ k`. -/
theorem fromBytes_lt
    (l : Bytes) :
    fromBytes l < 256 ^ l.length := by
  induction l with
  | nil => simp
  | cons b bs ih =>
      have hb : b.toNat + 1 ≤ 256 := b.toNat_lt
      have hmul : (b.toNat + 1) * 256 ^ bs.length ≤ 256 * 256 ^ bs.length :=
        Nat.mul_le_mul_right _ hb
      rw [fromBytes_cons, List.length_cons, pow_succ]
      rw [add_mul] at hmul
      omega

/-- Writing and reading back keeps the value modulo the width. -/
theorem fromBytes_toBytes_mod
    (len n : Nat) :
    fromBytes (toBytes len n) = n % 256 ^ len := by
  induction len with
  | zero => simp [toBytes, Nat.mod_one]
  | succ len ih =>
      have hbyte : (UInt8.ofNat (n / 256 ^ len % 256)).toNat = n / 256 ^ len % 256 := by
        rw [UInt8.toNat_ofNat']
        exact Nat.mod_eq_of_lt (Nat.mod_lt _ (by decide))
      rw [toBytes, fromBytes_cons, toBytes_length, hbyte, ih, Nat.mod_pow_succ,
        Nat.add_comm, Nat.mul_comm]

/-- Within the width, reading back gives the number itself. -/
theorem fromBytes_toBytes
    {len n : Nat}
    (h : n < 256 ^ len) :
    fromBytes (toBytes len n) = n := by
  rw [fromBytes_toBytes_mod, Nat.mod_eq_of_lt h]

@[simp] theorem fromBytes_stripZeros
    (l : Bytes) :
    fromBytes (stripZeros l) = fromBytes l := by
  induction l with
  | nil => rfl
  | cons b bs ih =>
      by_cases hb : b = 0
      · subst hb
        simp [stripZeros, ih]
      · simp [stripZeros, hb]

/-- The shortest form denotes the same number. -/
@[simp] theorem fromBytes_canonicalize
    (l : Bytes) :
    fromBytes (canonicalize l) = fromBytes l := by
  have hstrip := fromBytes_stripZeros l
  unfold canonicalize
  split
  · next h =>
      rw [h] at hstrip
      simpa using hstrip
  · next b bs h =>
      rw [h] at hstrip
      exact hstrip

theorem stripZeros_head_ne_zero
    {l : Bytes} {b : UInt8} {bs : Bytes}
    (h : stripZeros l = b :: bs) :
    b ≠ 0 := by
  induction l with
  | nil => simp [stripZeros] at h
  | cons c cs ih =>
      by_cases hc : c = 0
      · simp only [stripZeros, hc, if_true] at h
        exact ih h
      · simp only [stripZeros, hc, if_false, List.cons.injEq] at h
        exact h.1 ▸ hc

theorem isCanonical_of_head_ne_zero
    {b : UInt8}
    (hb : b ≠ 0) (bs : Bytes) :
    IsCanonical (b :: bs) := by
  cases bs with
  | nil => trivial
  | cons c cs => exact hb

/-- `canonicalize` produces canonical byte strings. -/
theorem isCanonical_canonicalize
    (l : Bytes) :
    IsCanonical (canonicalize l) := by
  unfold canonicalize
  split
  · trivial
  · next b bs h =>
      exact isCanonical_of_head_ne_zero (stripZeros_head_ne_zero h) bs

/-- A canonical byte string is its own shortest form. -/
theorem canonicalize_of_isCanonical
    {l : Bytes}
    (h : IsCanonical l) :
    canonicalize l = l := by
  match l, h with
  | [b], _ =>
      by_cases hb : b = 0
      · subst hb
        rfl
      · simp [canonicalize, stripZeros, hb]
  | b :: c :: cs, h =>
      have hb : b ≠ 0 := h
      simp [canonicalize, stripZeros, hb]

theorem ne_nil_of_isCanonical
    {l : Bytes}
    (h : IsCanonical l) :
    l ≠ [] := by
  rintro rfl
  exact h

/-- A nonzero leading byte makes the value at least `256 ^ k`. -/
theorem pow_le_fromBytes
    {b : UInt8}
    (hb : b ≠ 0) (bs : Bytes) :
    256 ^ bs.length ≤ fromBytes (b :: bs) := by
  have hpos : 1 ≤ b.toNat := by
    rw [Nat.one_le_iff_ne_zero]
    intro h0
    exact hb (UInt8.toNat_inj.mp (by simpa using h0))
  have hmul : 1 * 256 ^ bs.length ≤ b.toNat * 256 ^ bs.length :=
    Nat.mul_le_mul_right _ hpos
  rw [fromBytes_cons]
  omega

/-- Byte strings of one length are determined by their value. -/
theorem fromBytes_inj_of_length
    {a b : Bytes}
    (hlen : a.length = b.length)
    (hval : fromBytes a = fromBytes b) :
    a = b := by
  induction a generalizing b with
  | nil =>
      cases b with
      | nil => rfl
      | cons c cs => simp at hlen
  | cons x xs ih =>
      cases b with
      | nil => simp at hlen
      | cons y ys =>
          have hlen' : xs.length = ys.length := by simpa using hlen
          have hx := fromBytes_lt xs
          have hy := fromBytes_lt ys
          rw [fromBytes_cons, fromBytes_cons, hlen'] at hval
          rw [hlen'] at hx
          have hhead : x.toNat = y.toNat := by
            have hpos : 0 < 256 ^ ys.length := Nat.pow_pos (by decide)
            have hdiv := congrArg (· / 256 ^ ys.length) hval
            simp only [Nat.add_comm _ (fromBytes _), Nat.add_mul_div_right _ _ hpos,
              Nat.div_eq_of_lt hx, Nat.div_eq_of_lt hy, Nat.zero_add] at hdiv
            exact hdiv
          have htail : fromBytes xs = fromBytes ys := by
            rw [hhead] at hval
            omega
          rw [UInt8.toNat_inj.mp hhead, ih hlen' htail]

/-- A canonical byte string of more than one byte is at least `256 ^ (k - 1)`. -/
theorem pow_le_of_isCanonical
    {l : Bytes}
    (h : IsCanonical l) (hlen : 1 < l.length) :
    256 ^ (l.length - 1) ≤ fromBytes l := by
  match l, h, hlen with
  | b :: c :: cs, h, _ => simpa using pow_le_fromBytes (b := b) h (c :: cs)

/-- Canonical byte strings of equal value have the same length. -/
theorem isCanonical_length_le
    {a b : Bytes}
    (ha : IsCanonical a) (hb : IsCanonical b)
    (hval : fromBytes a = fromBytes b) :
    a.length ≤ b.length := by
  by_contra hlt
  have hbpos : 1 ≤ b.length := List.length_pos_iff.mpr (ne_nil_of_isCanonical hb)
  have hle := pow_le_of_isCanonical ha (by omega)
  have hltb := fromBytes_lt b
  have hmono : 256 ^ b.length ≤ 256 ^ (a.length - 1) :=
    Nat.pow_le_pow_right (by decide) (by omega)
  omega

/-- A canonical byte string is determined by its value. -/
theorem isCanonical_ext
    {a b : Bytes}
    (ha : IsCanonical a) (hb : IsCanonical b)
    (hval : fromBytes a = fromBytes b) :
    a = b :=
  fromBytes_inj_of_length
    (le_antisymm
      (isCanonical_length_le ha hb hval)
      (isCanonical_length_le hb ha hval.symm))
    hval

/-- The shortest form of a value of `w` bits has at most `⌈w / 8⌉` bytes. -/
theorem canonical_length_le
    {l : Bytes} {w : Nat}
    (h : IsCanonical l) (hw : 1 ≤ w)
    (hval : fromBytes l < 2 ^ w) :
    l.length ≤ (w + 7) / 8 := by
  by_cases hlen : 1 < l.length
  · have hle := pow_le_of_isCanonical h hlen
    have hpow : (256 : Nat) ^ (l.length - 1) = 2 ^ (8 * (l.length - 1)) := by
      rw [pow_mul]
      norm_num
    have hlt : 2 ^ (8 * (l.length - 1)) < 2 ^ w := by
      rw [← hpow]
      omega
    have hexp := (Nat.pow_lt_pow_iff_right (by decide : 1 < 2)).mp hlt
    omega
  · omega

/-- A number of `w` bits fits in `⌈w / 8⌉` bytes. -/
theorem lt_pow_bytes_of_lt
    {n w : Nat}
    (h : n < 2 ^ w) :
    n < 256 ^ ((w + 7) / 8) := by
  have hpow : (256 : Nat) ^ ((w + 7) / 8) = 2 ^ (8 * ((w + 7) / 8)) := by
    rw [pow_mul]
    norm_num
  have hmono : 2 ^ w ≤ 2 ^ (8 * ((w + 7) / 8)) :=
    Nat.pow_le_pow_right (by decide) (by omega)
  omega

/-- A byte string has value zero exactly when all its bytes are zero. -/
theorem all_eq_zero_iff
    (l : Bytes) :
    l.all (fun b => b == 0) = true ↔ fromBytes l = 0 := by
  induction l with
  | nil => simp
  | cons b bs ih =>
      have hpow : 256 ^ bs.length ≠ 0 := by positivity
      have hb : b.toNat = 0 ↔ b = 0 := by
        rw [← UInt8.toNat_inj]
        rfl
      simp only [List.all_cons, Bool.and_eq_true, beq_iff_eq, ih, fromBytes_cons,
        Nat.add_eq_zero_iff, Nat.mul_eq_zero, hpow, or_false, hb]

end BigEndian
end P4Net

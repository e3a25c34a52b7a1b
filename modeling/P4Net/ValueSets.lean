import Mathlib.Data.Nat.Bitwise
import Mathlib.Data.Set.Prod
import Mathlib.Order.Interval.Set.Basic
import Mathlib.Tactic.Linarith

/-!
# Sets of values of a fixed width

The conditions that match-action tables put on a number of `width` bits, as sets, and the
product of such sets over the fields of a table.

* `prefixBlock` : the numbers with given leading bits.
* `maskedSet` : the numbers with given bits under a mask.
* `prefixBlock_inj`, `maskedSet_inj` : the set determines the value and the prefix or the mask.
* `pi_eq_pi_iff` : a product that is not empty determines its factors.
-/

namespace P4Net
namespace ValueSets

/-- All numbers of `width` bits. -/
def numbers (width : Nat) : Set Nat := {x | x < 2 ^ width}

/-- The numbers of `width` bits whose first `plen` bits are those of `value`. -/
def prefixBlock (width value plen : Nat) : Set Nat :=
  {x | x < 2 ^ width ∧ x / 2 ^ (width - plen) = value / 2 ^ (width - plen)}

/-- The numbers of `width` bits that agree with `value` under `mask`. -/
def maskedSet (width value mask : Nat) : Set Nat :=
  {x | x < 2 ^ width ∧ x &&& mask = value}

/-! ### Prefixes -/

theorem mem_prefixBlock_self
    {width value : Nat} (h : value < 2 ^ width) (plen : Nat) :
    value ∈ prefixBlock width value plen :=
  ⟨h, rfl⟩

/-- The last number of a block. -/
theorem mem_prefixBlock_last
    {width value plen : Nat} (h : value < 2 ^ width)
    (hhost : value % 2 ^ (width - plen) = 0) :
    value + (2 ^ (width - plen) - 1) ∈ prefixBlock width value plen := by
  have hpos : 0 < 2 ^ (width - plen) := Nat.two_pow_pos _
  obtain ⟨q, hq⟩ := Nat.dvd_of_mod_eq_zero hhost
  have hsplit : 2 ^ width = 2 ^ (width - plen) * 2 ^ (width - (width - plen)) := by
    rw [← pow_add]
    congr 1
    omega
  have hquot : q + 1 ≤ 2 ^ (width - (width - plen)) := by
    rw [hq, hsplit] at h
    exact Nat.lt_of_mul_lt_mul_left h
  constructor
  · calc value + (2 ^ (width - plen) - 1)
        < 2 ^ (width - plen) * (q + 1) := by
          rw [hq, Nat.mul_succ]
          omega
      _ ≤ 2 ^ width := by
          rw [hsplit]
          exact Nat.mul_le_mul_left _ hquot
  · rw [hq, Nat.mul_add_div hpos, Nat.mul_div_cancel_left _ hpos,
      Nat.div_eq_of_lt (by omega), Nat.add_zero]

/-- A block lies within another one only if its value does and its prefix is not shorter. -/
theorem prefixBlock_subset
    {width value value' plen plen' : Nat}
    (hvalue : value < 2 ^ width) (hhost : value % 2 ^ (width - plen) = 0) (hplen' : plen' ≤ width)
    (h : prefixBlock width value plen ⊆ prefixBlock width value' plen') :
    value / 2 ^ (width - plen') = value' / 2 ^ (width - plen') ∧ plen' ≤ plen := by
  have hfirst := (h (mem_prefixBlock_self hvalue plen)).2
  have hlast := (h (mem_prefixBlock_last hvalue hhost)).2
  refine ⟨hfirst, ?_⟩
  by_contra hlt
  -- A longer prefix would leave a block shorter than the numbers between first and last.
  have hdvd : 2 ^ (width - plen') ∣ value :=
    (pow_dvd_pow 2 (by omega)).trans (Nat.dvd_of_mod_eq_zero hhost)
  obtain ⟨q, rfl⟩ := hdvd
  have hpos : 0 < 2 ^ (width - plen') := Nat.two_pow_pos _
  have hlong : 2 * 2 ^ (width - plen') ≤ 2 ^ (width - plen) := by
    rw [← pow_succ']
    exact Nat.pow_le_pow_right (by omega) (by omega)
  rw [← hfirst, Nat.mul_add_div hpos, Nat.mul_div_cancel_left _ hpos] at hlast
  have hshort := (Nat.div_eq_zero_iff_lt hpos).mp
    (Nat.add_left_cancel (hlast.trans (Nat.add_zero q).symm))
  omega

/-- A block determines its prefix and, without host bits, its value. -/
theorem prefixBlock_inj
    {width value value' plen plen' : Nat}
    (hvalue : value < 2 ^ width) (hvalue' : value' < 2 ^ width)
    (hplen : plen ≤ width) (hplen' : plen' ≤ width)
    (hhost : value % 2 ^ (width - plen) = 0) (hhost' : value' % 2 ^ (width - plen') = 0)
    (h : prefixBlock width value plen = prefixBlock width value' plen') :
    value = value' ∧ plen = plen' := by
  obtain ⟨hquot, hle⟩ := prefixBlock_subset hvalue hhost hplen' h.subset
  obtain ⟨-, hge⟩ := prefixBlock_subset hvalue' hhost' hplen h.superset
  obtain rfl : plen = plen' := le_antisymm hge hle
  refine ⟨?_, rfl⟩
  rw [← Nat.div_add_mod value (2 ^ (width - plen)), ← Nat.div_add_mod value' (2 ^ (width - plen)),
    hquot, hhost, hhost']

/-- A prefix of at least one bit excludes a number. -/
theorem exists_not_mem_prefixBlock
    {width plen : Nat} (hpos : 1 ≤ plen) (hplen : plen ≤ width) (value : Nat) :
    ∃ x ∈ numbers width, x ∉ prefixBlock width value plen := by
  have hhalf : 2 ^ (width - 1) < 2 ^ width := Nat.pow_lt_pow_right (by omega) (by omega)
  have hdiff : 0 / 2 ^ (width - plen) ≠ 2 ^ (width - 1) / 2 ^ (width - plen) := by
    rw [Nat.zero_div, Nat.pow_div (by omega) (by omega)]
    exact (Nat.two_pow_pos _).ne
  by_cases h : 0 / 2 ^ (width - plen) = value / 2 ^ (width - plen)
  · exact ⟨2 ^ (width - 1), hhalf, fun hmem => hdiff (h.trans hmem.2.symm)⟩
  · exact ⟨0, Nat.two_pow_pos _, fun hmem => h hmem.2⟩

/-! ### Masks -/

theorem mem_maskedSet_self
    {width value mask : Nat} (h : value < 2 ^ width) (hmask : value &&& mask = value) :
    value ∈ maskedSet width value mask :=
  ⟨h, hmask⟩

/-- Flipping a bit outside the mask stays within the set. -/
theorem mem_maskedSet_flip
    {width value mask i : Nat} (h : value < 2 ^ width) (hmask : value &&& mask = value)
    (hi : i < width) (hbit : mask.testBit i = false) :
    value ^^^ 2 ^ i ∈ maskedSet width value mask := by
  refine ⟨Nat.xor_lt_two_pow h (Nat.pow_lt_pow_right (by omega) hi), ?_⟩
  refine Nat.eq_of_testBit_eq fun j => ?_
  have hj := congrArg (fun n => n.testBit j) hmask
  simp only [Nat.testBit_and] at hj
  rw [Nat.testBit_and, Nat.testBit_xor, Nat.testBit_two_pow]
  by_cases hij : i = j
  · subst hij
    rw [hbit] at hj ⊢
    simpa using hj
  · simpa [hij] using hj

/-- Of two equal sets, every bit of one mask is a bit of the other. -/
theorem mask_bit_of_subset
    {width value value' mask mask' i : Nat}
    (hvalue' : value' < 2 ^ width) (hmask' : value' &&& mask' = value') (hi : i < width)
    (h : maskedSet width value' mask' ⊆ maskedSet width value mask)
    (hbit : mask.testBit i = true) :
    mask'.testBit i = true := by
  by_contra hclear
  have hclear : mask'.testBit i = false := by simpa using hclear
  have hself := (h (mem_maskedSet_self hvalue' hmask')).2
  have hflip := (h (mem_maskedSet_flip hvalue' hmask' hi hclear)).2
  have hsame := congrArg (fun n => n.testBit i) (hflip.trans hself.symm)
  simp [Nat.testBit_xor, hbit] at hsame

/-- The set determines the mask and, without bits outside of it, the value. -/
theorem maskedSet_inj
    {width value value' mask mask' : Nat}
    (hvalue : value < 2 ^ width) (hvalue' : value' < 2 ^ width)
    (hmask : mask < 2 ^ width) (hmask' : mask' < 2 ^ width)
    (hand : value &&& mask = value) (hand' : value' &&& mask' = value')
    (h : maskedSet width value mask = maskedSet width value' mask') :
    value = value' ∧ mask = mask' := by
  have hsame : mask = mask' := by
    refine Nat.eq_of_testBit_eq fun i => ?_
    by_cases hi : i < width
    · exact Bool.eq_iff_iff.mpr ⟨mask_bit_of_subset hvalue' hand' hi h.superset,
        mask_bit_of_subset hvalue hand hi h.subset⟩
    · have hlarge := Nat.pow_le_pow_right (n := 2) (by omega) (not_lt.mp hi)
      rw [Nat.testBit_lt_two_pow (hmask.trans_le hlarge),
        Nat.testBit_lt_two_pow (hmask'.trans_le hlarge)]
  subst hsame
  have hmem := (h.subset (mem_maskedSet_self hvalue hand)).2
  exact ⟨hand.symm.trans hmem, rfl⟩

/-- A mask with a bit excludes a number. -/
theorem exists_not_mem_maskedSet
    {width mask : Nat} (hmask : mask < 2 ^ width) (hne : mask ≠ 0) (value : Nat) :
    ∃ x ∈ numbers width, x ∉ maskedSet width value mask := by
  by_cases h : 0 &&& mask = value
  · refine ⟨mask, hmask, fun hmem => hne ?_⟩
    rw [← Nat.and_self mask, hmem.2, ← h, Nat.zero_and]
  · exact ⟨0, Nat.two_pow_pos _, fun hmem => h hmem.2⟩

/-! ### Intervals -/

/-- Bounds other than the least and the largest number exclude a number. -/
theorem exists_not_mem_interval
    {width low high : Nat} (h : ¬ (low = 0 ∧ high = 2 ^ width - 1)) (hhigh : high < 2 ^ width) :
    ∃ x ∈ numbers width, x ∉ Set.Icc low high := by
  have hpos : 0 < 2 ^ width := Nat.two_pow_pos _
  by_cases hlow : low = 0
  · refine ⟨high + 1, ?_, fun hmem => absurd hmem.2 (by omega)⟩
    show high + 1 < 2 ^ width
    omega
  · exact ⟨0, hpos, fun hmem => absurd hmem.1 (by omega)⟩

/-! ### Products -/

/-- A product that is not empty determines its factors. -/
theorem pi_eq_pi_iff
    {ι : Type*} {α : ι → Type*} {s : Set ι} {t t' : ∀ i, Set (α i)}
    (h : (s.pi t).Nonempty) (h' : (s.pi t').Nonempty) :
    s.pi t = s.pi t' ↔ ∀ i ∈ s, t i = t' i := by
  constructor
  · intro heq i hi
    rw [← Set.eval_image_pi hi h, ← Set.eval_image_pi hi h', heq]
  · exact fun hall => Set.pi_congr rfl hall

end ValueSets
end P4Net

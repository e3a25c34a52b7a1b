import Mathlib.Data.Int.Log
import Mathlib.Data.Rat.Floor
import Mathlib.Algebra.Order.Ring.Abs
import Mathlib.Algebra.Order.Field.Basic
import Mathlib.Tactic.Linarith
import Mathlib.Tactic.NormNum
import Mathlib.Tactic.Positivity
import Mathlib.Tactic.FieldSimp
import Mathlib.Tactic.Ring

/-!
# Double precision numbers

The rounding of rational numbers to 53 significant binary digits, with gradual
underflow, ties to even, and overflow from `2 ^ 1024` on.

* `roundHalfEven` rounds to an integer and `roundDouble` to a double.
* `roundDouble_scaled` : an integer of at most 53 digits, scaled by a power of two,
  is a double, so that rounding is idempotent (`roundDouble_idem`).
* `Double` : the finite doubles.  The two zeros are one value.
-/

namespace P4Net
namespace Doubles

/-! ### Rounding to an integer -/

/-- The nearest integer; a tie goes to the even one. -/
def roundHalfEven (q : ℚ) : ℤ :=
  if q - ⌊q⌋ < 1 / 2 then ⌊q⌋
  else if 1 / 2 < q - ⌊q⌋ then ⌊q⌋ + 1
  else if ⌊q⌋ % 2 = 0 then ⌊q⌋
  else ⌊q⌋ + 1

@[simp] theorem roundHalfEven_intCast
    (n : ℤ) :
    roundHalfEven n = n := by
  simp [roundHalfEven]

/-- Rounding goes down, or up from a number that is not an integer. -/
theorem roundHalfEven_cases
    (q : ℚ) :
    roundHalfEven q = ⌊q⌋ ∨ (roundHalfEven q = ⌊q⌋ + 1 ∧ (⌊q⌋ : ℚ) < q) := by
  unfold roundHalfEven
  by_cases hdown : q - ⌊q⌋ < 1 / 2
  · rw [if_pos hdown]
    exact Or.inl rfl
  · have hfrac : (⌊q⌋ : ℚ) < q := by linarith
    rw [if_neg hdown]
    by_cases hup : 1 / 2 < q - ⌊q⌋
    · rw [if_pos hup]
      exact Or.inr ⟨rfl, hfrac⟩
    · rw [if_neg hup]
      by_cases heven : ⌊q⌋ % 2 = 0
      · rw [if_pos heven]
        exact Or.inl rfl
      · rw [if_neg heven]
        exact Or.inr ⟨rfl, hfrac⟩

/-- Rounding does not cross an integer from above. -/
theorem le_roundHalfEven
    {n : ℤ} {q : ℚ}
    (h : (n : ℚ) ≤ q) :
    n ≤ roundHalfEven q := by
  have hfloor : n ≤ ⌊q⌋ := Int.le_floor.mpr h
  rcases roundHalfEven_cases q with hr | ⟨hr, _⟩
  · omega
  · omega

/-- Rounding does not cross an integer from below. -/
theorem roundHalfEven_le
    {n : ℤ} {q : ℚ}
    (h : q ≤ n) :
    roundHalfEven q ≤ n := by
  have hfloor : ⌊q⌋ ≤ n := by
    have hle : ((⌊q⌋ : ℤ) : ℚ) ≤ n := le_trans (Int.floor_le q) h
    exact_mod_cast hle
  rcases roundHalfEven_cases q with hr | ⟨hr, hfrac⟩
  · omega
  · have hlt : ((⌊q⌋ : ℤ) : ℚ) < n := lt_of_lt_of_le hfrac h
    have hlt' : ⌊q⌋ < n := by exact_mod_cast hlt
    omega

theorem abs_roundHalfEven_le
    {n : ℤ} {q : ℚ}
    (h : |q| ≤ n) :
    |roundHalfEven q| ≤ n := by
  rw [abs_le] at h ⊢
  constructor
  · exact le_roundHalfEven (by push_cast; exact h.1)
  · exact roundHalfEven_le h.2

/-! ### Rounding to a double -/

/-- The exponent of the last binary digit of a double of this magnitude. -/
def ulpExponent (q : ℚ) : ℤ := max (Int.log 2 |q| - 52) (-1074)

/-- The double nearest to `q`; `none` is an overflow. -/
def roundDouble (q : ℚ) : Option ℚ :=
  let ulp : ℚ := 2 ^ ulpExponent q
  let r := roundHalfEven (q / ulp) * ulp
  if |r| < 2 ^ 1024 then some r else none

theorem ulp_pos
    (k : ℤ) :
    (0 : ℚ) < 2 ^ k :=
  zpow_pos two_pos k

theorem roundDouble_eq_some_iff
    (q r : ℚ) :
    roundDouble q = some r ↔
      r = roundHalfEven (q / 2 ^ ulpExponent q) * 2 ^ ulpExponent q ∧ |r| < 2 ^ 1024 := by
  unfold roundDouble
  dsimp only
  by_cases h : |(roundHalfEven (q / 2 ^ ulpExponent q) : ℚ) * 2 ^ ulpExponent q| < 2 ^ 1024
  · rw [if_pos h, Option.some.injEq]
    constructor
    · rintro rfl
      exact ⟨rfl, h⟩
    · rintro ⟨rfl, _⟩
      rfl
  · rw [if_neg h]
    constructor
    · rintro ⟨⟩
    · rintro ⟨rfl, hlt⟩
      exact absurd hlt h

theorem roundDouble_nonneg
    {q r : ℚ}
    (hq : 0 ≤ q) (h : roundDouble q = some r) :
    0 ≤ r := by
  rcases (roundDouble_eq_some_iff q r).mp h with ⟨rfl, _⟩
  have hscaled : (0 : ℚ) ≤ q / 2 ^ ulpExponent q := div_nonneg hq (ulp_pos _).le
  have hround : (0 : ℤ) ≤ roundHalfEven (q / 2 ^ ulpExponent q) :=
    le_roundHalfEven (by exact_mod_cast hscaled)
  have hcast : (0 : ℚ) ≤ (roundHalfEven (q / 2 ^ ulpExponent q) : ℤ) := by
    exact_mod_cast hround
  exact mul_nonneg hcast (ulp_pos _).le

/-- A number that is an integer multiple of its last digit is not changed. -/
theorem roundDouble_of_multiple
    {q : ℚ} {m k : ℤ}
    (hq : q = m * 2 ^ k) (hk : ulpExponent q ≤ k) (hlt : |q| < 2 ^ 1024) :
    roundDouble q = some q := by
  obtain ⟨d, hd⟩ : ∃ d : ℕ, k = ulpExponent q + d := ⟨(k - ulpExponent q).toNat, by omega⟩
  have hscaled : q / 2 ^ ulpExponent q = ((m * 2 ^ d : ℤ) : ℚ) := by
    rw [div_eq_iff (ulp_pos _).ne']
    calc
      q = m * 2 ^ (ulpExponent q + d) := by rw [← hd]; exact hq
      _ = m * (2 ^ ulpExponent q * 2 ^ (d : ℤ)) := by rw [zpow_add₀ two_ne_zero]
      _ = ((m * 2 ^ d : ℤ) : ℚ) * 2 ^ ulpExponent q := by push_cast; rw [zpow_natCast]; ring
  rw [roundDouble_eq_some_iff]
  refine ⟨?_, hlt⟩
  rw [hscaled, roundHalfEven_intCast, ← hscaled, div_mul_cancel₀ _ (ulp_pos _).ne']

/-- An integer of at most 53 binary digits, scaled by a power of two, is a double. -/
theorem roundDouble_scaled
    {m k : ℤ}
    (hm : |m| ≤ 2 ^ 53) (hk : -1074 ≤ k) (hlt : |(m : ℚ) * 2 ^ k| < 2 ^ 1024) :
    roundDouble ((m : ℚ) * 2 ^ k) = some ((m : ℚ) * 2 ^ k) := by
  have habs : |(m : ℚ) * 2 ^ k| = |(m : ℚ)| * 2 ^ k := by
    rw [abs_mul, abs_of_pos (ulp_pos k)]
  by_cases hzero : m = 0
  · subst hzero
    simp [roundDouble, roundHalfEven, ulpExponent]
  have hpos : (0 : ℚ) < |(m : ℚ) * 2 ^ k| := by
    rw [habs]
    exact mul_pos (abs_pos.mpr (by exact_mod_cast hzero)) (ulp_pos k)
  rcases lt_or_eq_of_le hm with hsmall | hcarry
  · -- The magnitude is below `2 ^ (53 + k)`, so its last digit is at `k` or before.
    have hbelow : |(m : ℚ) * 2 ^ k| < 2 ^ (53 + k) := by
      rw [habs, zpow_add₀ two_ne_zero]
      have hcast : |(m : ℚ)| < 2 ^ (53 : ℤ) := by exact_mod_cast hsmall
      exact mul_lt_mul_of_pos_right hcast (ulp_pos k)
    have hlog : Int.log 2 |(m : ℚ) * 2 ^ k| < 53 + k := by
      rw [← Int.lt_zpow_iff_log_lt (by norm_num) hpos]
      exact_mod_cast hbelow
    refine roundDouble_of_multiple rfl ?_ hlt
    unfold ulpExponent
    omega
  · -- The carry into the next binade: `2 ^ 53` units are `2 ^ 52` units of twice the size.
    have hvalue : |(m : ℚ) * 2 ^ k| = 2 ^ (53 + k) := by
      rw [habs, zpow_add₀ two_ne_zero]
      congr 1
      exact_mod_cast hcarry
    have hlog : Int.log 2 |(m : ℚ) * 2 ^ k| = 53 + k := by
      rw [hvalue]
      exact_mod_cast Int.log_zpow (R := ℚ) (b := 2) (by norm_num) (53 + k)
    obtain ⟨s, hs⟩ : ∃ s : ℤ, m = s * 2 := by
      rcases abs_eq (by norm_num) |>.mp hcarry with h | h
      · exact ⟨2 ^ 52, by rw [h]; norm_num⟩
      · exact ⟨-2 ^ 52, by rw [h]; norm_num⟩
    refine roundDouble_of_multiple (m := s) (k := k + 1) ?_ ?_ hlt
    · rw [hs, zpow_add_one₀ two_ne_zero]
      push_cast
      ring
    · unfold ulpExponent
      omega

/-- An integer of at most 53 binary digits is a double. -/
theorem roundDouble_natCast
    {n : ℕ}
    (h : n ≤ 2 ^ 53) :
    roundDouble n = some (n : ℚ) := by
  have hm : |(n : ℤ)| ≤ 2 ^ 53 := by
    rw [Nat.abs_cast]
    exact_mod_cast h
  have hlt : |((n : ℤ) : ℚ) * 2 ^ (0 : ℤ)| < 2 ^ 1024 := by
    rw [zpow_zero, mul_one, Int.cast_natCast, Nat.abs_cast]
    calc
      (n : ℚ) ≤ 2 ^ 53 := by exact_mod_cast h
      _ < 2 ^ 1024 := pow_lt_pow_right₀ (by norm_num) (by norm_num)
  have hround := roundDouble_scaled hm (by norm_num) hlt
  rwa [zpow_zero, mul_one, Int.cast_natCast] at hround

/-- Rounding a double does not change it. -/
theorem roundDouble_idem
    {q r : ℚ}
    (h : roundDouble q = some r) :
    roundDouble r = some r := by
  rcases (roundDouble_eq_some_iff q r).mp h with ⟨rfl, hlt⟩
  refine roundDouble_scaled ?_ (le_max_right _ _) hlt
  have hmagnitude : |q| ≤ 2 ^ (53 + ulpExponent q) := by
    have hlog : |q| < 2 ^ (Int.log 2 |q| + 1) := by
      exact_mod_cast Int.lt_zpow_succ_log_self (R := ℚ) (b := 2) (by norm_num) |q|
    refine le_trans hlog.le (zpow_le_zpow_right₀ (by norm_num) ?_)
    unfold ulpExponent
    omega
  apply abs_roundHalfEven_le
  rw [abs_div, abs_of_pos (ulp_pos _), div_le_iff₀ (ulp_pos _)]
  calc
    |q| ≤ 2 ^ (53 + ulpExponent q) := hmagnitude
    _ = 2 ^ (53 : ℤ) * 2 ^ ulpExponent q := zpow_add₀ two_ne_zero _ _
    _ = ((2 ^ 53 : ℤ) : ℚ) * 2 ^ ulpExponent q := by norm_num

/-- Rounding does not cross a small integer, and does not overflow below it. -/
theorem roundDouble_le_natCast
    {q : ℚ} {n : ℕ}
    (hq : 0 ≤ q) (hle : q ≤ n) (hn : n < 2 ^ 53) :
    ∃ r, roundDouble q = some r ∧ r ≤ n := by
  have hexp : ulpExponent q ≤ 0 := by
    rcases hq.eq_or_lt with rfl | hpos
    · simp [ulpExponent]
    · have hlog : Int.log 2 |q| < 53 := by
        rw [abs_of_pos hpos, ← Int.lt_zpow_iff_log_lt (by norm_num) hpos]
        exact lt_of_le_of_lt hle (by exact_mod_cast hn)
      unfold ulpExponent
      omega
  obtain ⟨k, hk⟩ : ∃ k : ℕ, ulpExponent q = -k := ⟨(-ulpExponent q).toNat, by omega⟩
  -- The integer is a whole number of last digits.
  have hunits : (n : ℚ) = ((n * 2 ^ k : ℤ) : ℚ) * 2 ^ ulpExponent q := by
    rw [hk, zpow_neg, zpow_natCast]
    push_cast
    field_simp
  have hround : roundHalfEven (q / 2 ^ ulpExponent q) ≤ n * 2 ^ k := by
    apply roundHalfEven_le
    rw [div_le_iff₀ (ulp_pos _), ← hunits]
    exact hle
  have hr : (roundHalfEven (q / 2 ^ ulpExponent q) : ℚ) * 2 ^ ulpExponent q ≤ n := by
    rw [hunits]
    exact mul_le_mul_of_nonneg_right (by exact_mod_cast hround) (ulp_pos _).le
  have hnonneg : 0 ≤ (roundHalfEven (q / 2 ^ ulpExponent q) : ℚ) * 2 ^ ulpExponent q := by
    have hscaled : ((0 : ℤ) : ℚ) ≤ q / 2 ^ ulpExponent q := by
      exact_mod_cast div_nonneg hq (ulp_pos _).le
    exact mul_nonneg (by exact_mod_cast le_roundHalfEven hscaled) (ulp_pos _).le
  refine ⟨_, (roundDouble_eq_some_iff q _).mpr ⟨rfl, ?_⟩, hr⟩
  rw [abs_of_nonneg hnonneg]
  calc
    _ ≤ (n : ℚ) := hr
    _ < 2 ^ 53 := by exact_mod_cast hn
    _ ≤ 2 ^ 1024 := pow_le_pow_right₀ (by norm_num) (by norm_num)

/-! ### Finite doubles -/

/-- A finite double, by its value. -/
structure Double where
  value : ℚ
  rounded : roundDouble value = some value
deriving DecidableEq, Repr

/-- The double nearest to `q`; `none` is an overflow. -/
def Double.ofRat (q : ℚ) : Option Double :=
  match h : roundDouble q with
  | some r => some ⟨r, roundDouble_idem h⟩
  | none => none

theorem Double.ofRat_eq_some
    {q r : ℚ}
    (h : roundDouble q = some r) :
    Double.ofRat q = some ⟨r, roundDouble_idem h⟩ := by
  unfold Double.ofRat
  split
  · rename_i r' hr'
    rw [h, Option.some.injEq] at hr'
    subst hr'
    rfl
  · rename_i hnone
    rw [h] at hnone
    cases hnone

theorem Double.ofRat_nonneg
    {q : ℚ} {d : Double}
    (hq : 0 ≤ q) (h : Double.ofRat q = some d) :
    0 ≤ d.value := by
  unfold Double.ofRat at h
  split at h
  · rename_i r hr
    rw [← Option.some.inj h]
    exact roundDouble_nonneg hq hr
  · cases h

end Doubles
end P4Net

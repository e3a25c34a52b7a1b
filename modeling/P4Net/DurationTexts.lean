import P4Net.DurationSums

/-!
# Durations that are read back

`_parse_duration_ns` and `_format_duration_ns` with the arithmetic of floats, on less than
`2 ^ 53` nanoseconds, where all numbers on the way are whole and exact.

* `formatDurationNs_eq` : the unit that is written.
* `parseDurationNs_repr` : a number and a unit are read as they are written.
* `parse_format_durations` : what is written is read back, and sums are exact.
-/

namespace P4Net
namespace Netem

open TextLiterals Doubles

/-! ### The unit -/

/-- A duration is a number of the largest unit that divides it; zero is in nanoseconds. -/
theorem formatDurationNs_eq
    (n : Nat) :
    ∃ e ∈ durationUnitsNs, formatDurationNs n = toString (n / e.2) ++ e.1 ∧ e.2 ∣ n ∧
      (0 < n → ∀ f ∈ durationUnitsNs, f.2 ∣ n → f.2 ≤ e.2) := by
  have hsorted : durationUnitsNs.reverse.Pairwise fun e f => f.2 ≤ e.2 := by decide
  unfold formatDurationNs
  cases hfind : durationUnitsNs.reverse.find? fun e => n % e.2 = 0 ∧ e.2 ≤ n with
  | none =>
      -- Nanoseconds divide every number, so that only zero has no unit.
      have hzero : n = 0 := by
        have hns := List.find?_eq_none.mp hfind ("ns", 1) (by decide)
        simp only [Nat.mod_one, true_and, decide_eq_true_eq] at hns
        omega
      subst hzero
      exact ⟨("ns", 1), by decide, rfl, Nat.one_dvd _, fun h => absurd h (Nat.lt_irrefl 0)⟩
  | some e =>
      obtain ⟨hunit, before, after, hsplit, hbefore⟩ := List.find?_eq_some_iff_append.mp hfind
      rw [decide_eq_true_eq] at hunit
      have hmem : e ∈ durationUnitsNs := by
        rw [← List.mem_reverse, hsplit]
        exact List.mem_append_right _ (List.mem_cons_self ..)
      refine ⟨e, hmem, rfl, Nat.dvd_of_mod_eq_zero hunit.1, fun hpos f hf hdvd => ?_⟩
      rw [hsplit, List.pairwise_append, List.pairwise_cons] at hsorted
      rw [← List.mem_reverse, hsplit, List.mem_append, List.mem_cons] at hf
      rcases hf with hf | rfl | hf
      · have hnot := hbefore f hf
        simp only [Bool.not_eq_true', decide_eq_false_iff_not] at hnot
        exact absurd ⟨Nat.mod_eq_zero_of_dvd hdvd, Nat.le_of_dvd hpos hdvd⟩ hnot
      · exact Nat.le_refl _
      · exact hsorted.2.1.1 f hf

/-! ### Reading -/

/-- The characters of the units. -/
theorem durationUnits_chars :
    ∀ e ∈ durationUnitsNs,
      (∀ c ∈ e.1.toList.head?, c.isDigit = false ∧ c ≠ '.') ∧
        (∀ c ∈ e.1.toList, isDecimal c = c.isDigit) ∧
        e.1.toList.dropWhile isSpace = e.1.toList ∧
        e.1.toList.takeWhile (fun c => !isSpace c) = e.1.toList ∧
        e.1.toList.dropWhile (fun c => !isSpace c) = [] ∧
        durationUnitsNs.find? (fun f => f.1 = e.1) = some e := by
  decide

/-- A number and a unit are read as they are written. -/
theorem parseDurationNs_repr
    (fl : ℚ → Option ℚ) (k : Nat) {e : String × Nat} (he : e ∈ durationUnitsNs) :
    parseDurationNs fl (toString k ++ e.1).toList =
      roundProduct fl ⟨Nat.toDigits 10 k, []⟩ e.2 := by
  obtain ⟨hhead, hsame, hspace, hunit, htail, hfind⟩ := durationUnits_chars e he
  have hdigits : ∀ c ∈ Nat.toDigits 10 k, c.isDigit = true := fun c hc =>
    Nat.isDigit_of_mem_toDigits (by decide) (by decide) hc
  have hstart : (Nat.toDigits 10 k ++ e.1.toList).dropWhile isSpace =
      Nat.toDigits 10 k ++ e.1.toList := by
    obtain ⟨c, rest, hcons⟩ := List.exists_cons_of_ne_nil (Nat.toDigits_ne_nil (b := 10) (n := k))
    have hc := (isDecimal_of_isDigit
      (hdigits c (by rw [hcons]; exact List.mem_cons_self ..))).2.1
    rw [hcons, List.cons_append, List.dropWhile_cons, hc]
    rfl
  have hall : ∀ c ∈ Nat.toDigits 10 k ++ e.1.toList, isDecimal c = c.isDigit := by
    intro c hc
    rcases List.mem_append.mp hc with hc | hc
    · rw [hdigits c hc, (isDecimal_of_isDigit (hdigits c hc)).1]
    · exact hsame c hc
  rw [toList_repr_append, parseDurationNs, hstart, scanMagnitude_congr hall,
    scanMagnitude_repr hhead]
  dsimp only
  rw [hspace, hunit, htail, String.ofList_toList, hfind]
  rfl

/-- A product below `2 ^ 53` is exact. -/
theorem roundProduct_toDigits
    {k scale : Nat} (hscale : 0 < scale) (h : k * scale < 2 ^ 53) :
    roundProduct roundDouble ⟨Nat.toDigits 10 k, []⟩ scale = .ok (k * scale) := by
  have hvalue : (Magnitude.mk (Nat.toDigits 10 k) []).value = k := by
    simp only [Magnitude.value, List.append_nil, digitsValue_toDigits, List.length_nil, pow_zero,
      div_one]
  have hk : k ≤ 2 ^ 53 := Nat.le_trans (Nat.le_mul_of_pos_right k hscale) h.le
  have hproduct : roundDouble ((k : ℚ) * scale) = some ((k * scale : Nat) : ℚ) := by
    rw [← Nat.cast_mul]
    exact roundDouble_natCast h.le
  have hround : roundHalfEven ((k * scale : Nat) : ℚ) = (k * scale : Nat) := by
    exact_mod_cast roundHalfEven_intCast ((k * scale : Nat) : ℤ)
  rw [roundProduct, hvalue, roundDouble_natCast hk, Option.bind_some, hproduct]
  dsimp only
  rw [hround, Int.toNat_natCast]

/-- What is written of less than `2 ^ 53` nanoseconds is read back. -/
theorem parseDurationNs_formatDurationNs
    {n : Nat} (h : n < 2 ^ 53) :
    parseDurationNs roundDouble (formatDurationNs n).toList = .ok n := by
  obtain ⟨e, he, hformat, hdvd, _⟩ := formatDurationNs_eq n
  have hpos : ∀ e ∈ durationUnitsNs, 0 < e.2 := by decide
  have hproduct : n / e.2 * e.2 = n := Nat.div_mul_cancel hdvd
  rw [hformat, parseDurationNs_repr _ _ he, roundProduct_toDigits (hpos e he) (by omega),
    hproduct]

end Netem

namespace Topo

open Doubles Netem

/--
Durations of less than `2 ^ 53` nanoseconds are read back as they are written, a positive one
is written in the largest unit that divides it, and the sum of two written durations is the
text of the sum.
-/
theorem parse_format_durations :
    (∀ n, n < 2 ^ 53 → parseDurationNs roundDouble (formatDurationNs n).toList = .ok n) ∧
      (∀ n, 0 < n → ∃ e ∈ durationUnitsNs, formatDurationNs n = toString (n / e.2) ++ e.1 ∧
        e.2 ∣ n ∧ ∀ f ∈ durationUnitsNs, f.2 ∣ n → f.2 ≤ e.2) ∧
      ∀ a b, a + b < 2 ^ 53 →
        addDurations roundDouble (.str (formatDurationNs a)) (.str (formatDurationNs b)) =
          .ok (.str (formatDurationNs (a + b))) := by
  refine ⟨fun n h => parseDurationNs_formatDurationNs h, fun n hpos => ?_, fun a b h => ?_⟩
  · obtain ⟨e, he, hformat, hdvd, hlargest⟩ := formatDurationNs_eq n
    exact ⟨e, he, hformat, hdvd, hlargest hpos⟩
  · have hread : ∀ n, n < 2 ^ 53 → readDuration roundDouble (.str (formatDurationNs n)) = .ok n := by
      intro n hn
      rw [readDuration, parseDurationNs_formatDurationNs hn]
      rfl
    exact (addDurations_eq_ok_iff ..).mpr ⟨a, b, hread a (by omega), hread b (by omega), rfl⟩

end Topo
end P4Net

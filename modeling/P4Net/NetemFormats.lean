import P4Net.BinaryDoubles
import P4Net.InterfaceLiterals

/-!
# Rates and durations

The texts of rates and of times that `tc` accepts, and the durations that the orchestrator
adds.  The two read different formats: a duration may have blanks around its unit, digits
outside ASCII and nanoseconds, and a time may have capitals.

* `rateRe`, `timeRe` : the patterns of `tc`.
* `parseDurationNs`, `formatDurationNs` : a duration in nanoseconds, and its text.
* `timeRe_formatDurationNs` : the text of a sum is a time iff the sum is a positive number
  of microseconds.
-/

namespace P4Net
namespace Netem

open TextLiterals Doubles

/-! ### Quantities -/

/-- Digits, with a part after the point or without. -/
structure Magnitude where
  whole : Text
  fraction : Text

/-- `[0-9]+(?:\.[0-9]+)?`, and what follows it; a point without digits after it cannot be
followed by a unit. -/
def scanMagnitude (isDigit : Char → Bool) (text : Text) : Option (Magnitude × Text) :=
  let whole := text.takeWhile isDigit
  let rest := text.dropWhile isDigit
  if whole.isEmpty then none
  else
    match rest with
    | '.' :: after =>
        let fraction := after.takeWhile isDigit
        if fraction.isEmpty then none else some (⟨whole, fraction⟩, after.dropWhile isDigit)
    | _ => some (⟨whole, []⟩, rest)

/-- A magnitude with one of the units, in capitals or not. -/
def quantityRe (units : List String) (text : Text) : Bool :=
  match scanMagnitude Char.isDigit text with
  | some (_, unit) => decide (String.ofList (unit.map Char.toLower) ∈ units)
  | none => false

/-- `_RATE_RE.fullmatch`. -/
def rateRe : Text → Bool :=
  quantityRe ["bit", "kbit", "mbit", "gbit", "tbit", "bps", "kbps", "mbps", "gbps", "tbps"]

/-- `_TIME_RE.fullmatch`. -/
def timeRe : Text → Bool := quantityRe ["s", "ms", "us"]

example : (rateRe "10Mbit".toList, timeRe "1.5ms".toList, timeRe "5ns".toList) =
    (true, true, false) := by decide

/-- What is written of a number is read as digits. -/
theorem scanMagnitude_repr
    {n : Nat} {unit : Text}
    (hunit : ∀ c ∈ unit.head?, c.isDigit = false ∧ c ≠ '.') :
    scanMagnitude Char.isDigit (Nat.toDigits 10 n ++ unit) =
      some (⟨Nat.toDigits 10 n, []⟩, unit) := by
  have hdigits : ∀ c ∈ Nat.toDigits 10 n, c.isDigit = true := fun c hc =>
    Nat.isDigit_of_mem_toDigits (by decide) (by decide) hc
  have hstop : unit.takeWhile Char.isDigit = [] ∧ unit.dropWhile Char.isDigit = unit := by
    cases unit with
    | nil => exact ⟨rfl, rfl⟩
    | cons c rest =>
        have hc := (hunit c rfl).1
        simp [hc]
  have hne : Nat.toDigits 10 n ≠ [] := Nat.toDigits_ne_nil
  rw [scanMagnitude, List.takeWhile_append_of_pos hdigits, List.dropWhile_append_of_pos hdigits,
    hstop.1, hstop.2]
  cases unit with
  | nil => simp [hne]
  | cons c rest =>
      have hpoint := (hunit c rfl).2
      rw [List.append_nil, if_neg (by simp [hne])]
      split
      · rename_i hcons
        exact absurd (List.cons.inj hcons).1 hpoint
      · rfl

theorem quantityRe_repr
    (units : List String) (n : Nat) {unit : Text}
    (hunit : ∀ c ∈ unit.head?, c.isDigit = false ∧ c ≠ '.') :
    quantityRe units (Nat.toDigits 10 n ++ unit) =
      decide (String.ofList (unit.map Char.toLower) ∈ units) := by
  rw [quantityRe, scanMagnitude_repr hunit]

/-! ### Durations -/

/-- `\d`. -/
def isDecimal (c : Char) : Bool := (unicodeDigit c).isSome

/-- The number of a text of digits. -/
def digitsValue (text : Text) : Nat :=
  text.foldl (fun n c => 10 * n + (unicodeDigit c).getD 0) 0

/-- The number that a magnitude denotes. -/
def Magnitude.value (m : Magnitude) : ℚ :=
  digitsValue (m.whole ++ m.fraction) / 10 ^ m.fraction.length

/-- `_DURATION_UNITS_NS`. -/
def durationUnitsNs : List (String × Nat) :=
  [("ns", 1), ("us", 1000), ("ms", 1000000), ("s", 1000000000)]

/-- The `ValueError` and the `OverflowError` of `_parse_duration_ns`. -/
inductive DurationError where
  | invalid
  | overflow
deriving DecidableEq, Repr

/-- `round(float(magnitude) * scale)`, with the arithmetic of floats as a parameter. -/
def roundProduct (fl : ℚ → Option ℚ) (m : Magnitude) (scale : Nat) :
    Except DurationError Nat :=
  match (fl m.value).bind fun x => fl (x * scale) with
  | some product => .ok (roundHalfEven product).toNat
  | none => .error .overflow

/-- `_parse_duration_ns` on a string; the arithmetic of Python is `roundDouble`. -/
def parseDurationNs (fl : ℚ → Option ℚ) (text : Text) : Except DurationError Nat :=
  match scanMagnitude isDecimal (text.dropWhile isSpace) with
  | none => .error .invalid
  | some (m, rest) =>
      let rest := rest.dropWhile isSpace
      let unit := String.ofList (rest.takeWhile fun c => !isSpace c)
      match durationUnitsNs.find? fun e => e.1 = unit with
      | none => .error .invalid
      | some (_, scale) =>
          if (rest.dropWhile fun c => !isSpace c).all isSpace then roundProduct fl m scale
          else .error .invalid

/-- `_format_duration_ns`. -/
def formatDurationNs (ns : Nat) : String :=
  match durationUnitsNs.reverse.find? fun e => ns % e.2 = 0 ∧ e.2 ≤ ns with
  | some (unit, scale) => toString (ns / scale) ++ unit
  | none => toString ns ++ "ns"

example : (parseDurationNs roundDouble " 1.5 ms ".toList, formatDurationNs 1500000) =
    (.ok 1500000, "1500us") := by decide +kernel

theorem toList_repr_append
    (n : Nat) (unit : String) :
    (toString n ++ unit).toList = Nat.toDigits 10 n ++ unit.toList := by
  rw [String.toList_append, Nat.toString_eq_repr, Nat.toList_repr]

/-- `tc` has no nanoseconds. -/
theorem timeRe_formatDurationNs
    (ns : Nat) :
    timeRe (formatDurationNs ns).toList = true ↔ 0 < ns ∧ ns % 1000 = 0 := by
  have hread : ∀ (n : Nat) (unit : String),
      (∀ c ∈ unit.toList.head?, c.isDigit = false ∧ c ≠ '.') →
      timeRe (toString n ++ unit).toList =
        decide (String.ofList (unit.toList.map Char.toLower) ∈ ["s", "ms", "us"]) := by
    intro n unit hunit
    rw [toList_repr_append]
    exact quantityRe_repr _ n hunit
  have hunits : durationUnitsNs.reverse =
      [("s", 1000000000), ("ms", 1000000), ("us", 1000), ("ns", 1)] := rfl
  have htime : ∀ (n : Nat), ∀ unit ∈ ["s", "ms", "us"],
      timeRe (toString n ++ unit).toList = true := by
    intro n unit hunit
    simp only [List.mem_cons, List.not_mem_nil, or_false] at hunit
    rcases hunit with rfl | rfl | rfl <;> rw [hread _ _ (by decide)] <;> decide
  have hother : ∀ n : Nat, timeRe (toString n ++ "ns").toList = false := by
    intro n
    rw [hread _ _ (by decide)]
    decide
  rw [formatDurationNs, hunits]
  -- The largest unit that divides is one of `tc` iff microseconds divide.
  by_cases hs : ns % 1000000000 = 0 ∧ 1000000000 ≤ ns
  · rw [List.find?_cons_of_pos (by simpa using hs)]
    exact iff_of_true (htime _ _ (by simp)) ⟨by omega, by omega⟩
  rw [List.find?_cons_of_neg (by simpa using hs)]
  by_cases hms : ns % 1000000 = 0 ∧ 1000000 ≤ ns
  · rw [List.find?_cons_of_pos (by simpa using hms)]
    exact iff_of_true (htime _ _ (by simp)) ⟨by omega, by omega⟩
  rw [List.find?_cons_of_neg (by simpa using hms)]
  by_cases hus : ns % 1000 = 0 ∧ 1000 ≤ ns
  · rw [List.find?_cons_of_pos (by simpa using hus)]
    exact iff_of_true (htime _ _ (by simp)) ⟨by omega, by omega⟩
  rw [List.find?_cons_of_neg (by simpa using hus)]
  have hnot : ¬ (0 < ns ∧ ns % 1000 = 0) := by omega
  by_cases hns : ns % 1 = 0 ∧ 1 ≤ ns
  · rw [List.find?_cons_of_pos (by simpa using hns)]
    exact iff_of_false (by simp only [hother, Bool.false_eq_true, not_false_iff]) hnot
  · rw [List.find?_cons_of_neg (by simpa using hns), List.find?_nil]
    exact iff_of_false (by simp only [hother, Bool.false_eq_true, not_false_iff]) hnot

end Netem
end P4Net

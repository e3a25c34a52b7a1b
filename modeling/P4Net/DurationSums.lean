import P4Net.LinkImpairments

/-!
# Sums of times

`_add_durations` on texts that `tc` accepts as times, with exact arithmetic.  `tc` reads
units in any letter case and knows no nanoseconds; `_parse_duration_ns` reads units in lower
case only, and `_format_duration_ns` may write nanoseconds.

* `timeValue` : the time that `tc` reads, in nanoseconds.
* `parseDurationNs_of_time` : the duration that is read from such a text.
* `timeValue_formatDurationNs` : the text of a whole number of microseconds denotes it.
* `add_durations_iff` : when the sum is a time again, and the right one.
-/

namespace P4Net
namespace Netem

open TextLiterals Doubles

/-! ### What `tc` reads -/

/-- The units of times, in nanoseconds. -/
def timeUnitsNs : List (String × Nat) := [("s", 1000000000), ("ms", 1000000), ("us", 1000)]

/-- The time that a text denotes for `tc`, in nanoseconds. -/
def timeValue (text : Text) : Option ℚ :=
  match scanMagnitude Char.isDigit text with
  | some (m, unit) =>
      (timeUnitsNs.find? fun e => e.1 = String.ofList (unit.map Char.toLower)).map fun e =>
        m.value * e.2
  | none => none

/-- There are no capitals in the text. -/
def Lowercase (text : Text) : Prop := ∀ c ∈ text, c.toLower = c

instance (text : Text) : Decidable (Lowercase text) :=
  inferInstanceAs (Decidable (∀ c ∈ text, c.toLower = c))

/-- All spellings of the units of times. -/
def timeSpellings : List Text :=
  ["s", "S", "ms", "mS", "Ms", "MS", "us", "uS", "Us", "US"].map String.toList

theorem toLower_cases
    {c d : Char}
    (h : c.toLower = d) :
    c = d ∨ c.toNat + 32 = d.toNat := by
  unfold Char.toLower at h
  split at h
  · rename_i hc
    subst h
    have hlo : 65 ≤ c.val.toNat := hc.1
    have hhi : c.val.toNat ≤ 90 := hc.2
    have hadd : (c.val + ('a'.val - 'A'.val)).toNat = (c.val.toNat + 32) % 2 ^ 32 :=
      UInt32.toNat_add ..
    right
    show c.val.toNat + 32 = (c.val + ('a'.val - 'A'.val)).toNat
    omega
  · exact Or.inl h

theorem eq_or_eq_of_toLower
    {c lower upper : Char}
    (h : c.toLower = lower) (hupper : upper.toNat + 32 = lower.toNat) :
    c = lower ∨ c = upper := by
  rcases toLower_cases h with h | h
  · exact Or.inl h
  · exact Or.inr (Char.toNat_inj.mp (by omega))

/-- A unit in any letter case is one of the spellings. -/
theorem mem_timeSpellings
    {unit : Text} {e : String × Nat}
    (he : e ∈ timeUnitsNs) (h : e.1 = String.ofList (unit.map Char.toLower)) :
    unit ∈ timeSpellings := by
  have htext : unit.map Char.toLower = e.1.toList := by
    rw [h, String.toList_ofList]
  have hs : ∀ {c : Char}, c.toLower = 's' → c = 's' ∨ c = 'S' := fun h =>
    eq_or_eq_of_toLower h rfl
  have hm : ∀ {c : Char}, c.toLower = 'm' → c = 'm' ∨ c = 'M' := fun h =>
    eq_or_eq_of_toLower h rfl
  have hu : ∀ {c : Char}, c.toLower = 'u' → c = 'u' ∨ c = 'U' := fun h =>
    eq_or_eq_of_toLower h rfl
  simp only [timeUnitsNs, List.mem_cons, List.not_mem_nil, or_false] at he
  rcases he with rfl | rfl | rfl
  · obtain ⟨c, rest, rfl, hc, hnil⟩ := List.map_eq_cons_iff.mp htext
    obtain rfl := List.map_eq_nil_iff.mp hnil
    rcases hs hc with rfl | rfl <;> decide
  · obtain ⟨c, rest, rfl, hc, hrest⟩ := List.map_eq_cons_iff.mp htext
    obtain ⟨d, rest, rfl, hd, hnil⟩ := List.map_eq_cons_iff.mp hrest
    obtain rfl := List.map_eq_nil_iff.mp hnil
    rcases hm hc with rfl | rfl <;> rcases hs hd with rfl | rfl <;> decide
  · obtain ⟨c, rest, rfl, hc, hrest⟩ := List.map_eq_cons_iff.mp htext
    obtain ⟨d, rest, rfl, hd, hnil⟩ := List.map_eq_cons_iff.mp hrest
    obtain rfl := List.map_eq_nil_iff.mp hnil
    rcases hu hc with rfl | rfl <;> rcases hs hd with rfl | rfl <;> decide

/-! ### The same text for both -/

/-- A scan splits the text at the magnitude. -/
theorem scanMagnitude_eq_some
    {p : Char → Bool} {text rest : Text} {m : Magnitude}
    (h : scanMagnitude p text = some (m, rest)) :
    (∀ c ∈ m.whole, p c = true) ∧ (∀ c ∈ m.fraction, p c = true) ∧ m.whole ≠ [] ∧
      text = m.whole ++ (if m.fraction = [] then rest else '.' :: (m.fraction ++ rest)) := by
  have hwhole := List.takeWhile_append_dropWhile (p := p) (l := text)
  unfold scanMagnitude at h
  dsimp only at h
  by_cases hempty : (text.takeWhile p).isEmpty
  · rw [if_pos hempty] at h
    cases h
  rw [if_neg hempty] at h
  have hne : text.takeWhile p ≠ [] := by simpa using hempty
  have hall : ∀ l : Text, ∀ c ∈ l.takeWhile p, p c = true := fun l =>
    List.all_eq_true.mp List.all_takeWhile
  split at h
  · rename_i after hrest
    by_cases hfraction : (after.takeWhile p).isEmpty
    · rw [if_pos hfraction] at h
      cases h
    · rw [if_neg hfraction] at h
      cases h
      have hfne : after.takeWhile p ≠ [] := by simpa using hfraction
      refine ⟨hall text, hall after, hne, ?_⟩
      rw [if_neg hfne, List.takeWhile_append_dropWhile, ← hrest, hwhole]
  · cases h
    exact ⟨hall text, by simp, hne, by simp [hwhole]⟩

/-- A scan depends on the predicate only at the characters of the text. -/
theorem scanMagnitude_congr
    {p q : Char → Bool} {text : Text}
    (h : ∀ c ∈ text, p c = q c) :
    scanMagnitude p text = scanMagnitude q text := by
  have htake : ∀ l : Text, (∀ c ∈ l, p c = q c) →
      l.takeWhile p = l.takeWhile q ∧ l.dropWhile p = l.dropWhile q := by
    intro l hl
    induction l with
    | nil => exact ⟨rfl, rfl⟩
    | cons c rest ih =>
        obtain ⟨htake, hdrop⟩ := ih fun d hd => hl d (List.mem_cons_of_mem _ hd)
        rw [List.takeWhile_cons, List.takeWhile_cons, List.dropWhile_cons, List.dropWhile_cons,
          hl c (List.mem_cons_self ..), htake, hdrop]
        exact ⟨rfl, rfl⟩
  unfold scanMagnitude
  dsimp only
  rw [(htake text h).1, (htake text h).2]
  split
  · rfl
  · split
    · rename_i after hrest
      have hafter : ∀ c ∈ after, p c = q c := by
        intro c hc
        refine h c ((List.dropWhile_sublist q).mem ?_)
        rw [hrest]
        exact List.mem_cons_of_mem _ hc
      rw [(htake after hafter).1, (htake after hafter).2]
    · rfl

/-- The digits of `[0-9]` are digits of `\d`, and no blanks. -/
theorem isDecimal_of_isDigit
    {c : Char}
    (h : c.isDigit = true) :
    isDecimal c = true ∧ isSpace c = false ∧ c.toLower = c := by
  have hdigits : ∀ n < 58, 48 ≤ n → isDecimal (Char.ofNat n) = true ∧
      isSpace (Char.ofNat n) = false ∧ (Char.ofNat n).toLower = Char.ofNat n := by decide
  have hrange : 48 ≤ c.toNat ∧ c.toNat ≤ 57 := Char.isDigit_iff_toNat.mp h
  rw [← Char.ofNat_toNat c]
  exact hdigits c.toNat (by omega) hrange.1

/-- All characters around the digits of a time are known. -/
theorem timeSpellings_chars :
    ∀ unit ∈ timeSpellings,
      (∀ c ∈ unit, c.isDigit = isDecimal c) ∧ unit.dropWhile isSpace = unit ∧
        unit.takeWhile (fun c => !isSpace c) = unit ∧
        unit.dropWhile (fun c => !isSpace c) = [] ∧
        durationUnitsNs.find? (fun e => e.1 = String.ofList unit) =
          if Lowercase unit then
            timeUnitsNs.find? fun e => e.1 = String.ofList (unit.map Char.toLower)
          else none := by
  decide

/-- A duration is read from the text of a time iff its unit is in lower case. -/
theorem parseDurationNs_of_time
    {text : Text} {n : Nat}
    (h : timeValue text = some (n : ℚ)) :
    parseDurationNs some text = if Lowercase text then .ok n else .error .invalid := by
  unfold timeValue at h
  split at h
  · rename_i m unit hscan
    obtain ⟨e, hfind, hvalue⟩ := Option.map_eq_some_iff.mp h
    have hmem := mem_timeSpellings (List.mem_of_find?_eq_some hfind)
      (by simpa using List.find?_some hfind)
    obtain ⟨hchars, hspace, hunit, htail, hlookup⟩ := timeSpellings_chars unit hmem
    obtain ⟨hwhole, hfraction, hne, htext⟩ := scanMagnitude_eq_some hscan
    have hdigits : ∀ c ∈ m.whole ++ m.fraction, c.isDigit = true := by
      intro c hc
      rcases List.mem_append.mp hc with hc | hc
      · exact hwhole c hc
      · exact hfraction c hc
    have hmemText : ∀ c ∈ text, c ∈ m.whole ++ m.fraction ∨ c = '.' ∨ c ∈ unit := by
      intro c hc
      rw [htext] at hc
      split at hc <;> simp at hc ⊢ <;> tauto
    have hsame : ∀ c ∈ text, isDecimal c = c.isDigit := by
      intro c hc
      rcases hmemText c hc with hc | rfl | hc
      · rw [hdigits c hc, (isDecimal_of_isDigit (hdigits c hc)).1]
      · decide
      · exact (hchars c hc).symm
    have hlower : Lowercase text ↔ Lowercase unit := by
      constructor
      · intro h c hc
        refine h c ?_
        rw [htext]
        split <;> simp [hc]
      · intro h c hc
        rcases hmemText c hc with hc | rfl | hc
        · exact (isDecimal_of_isDigit (hdigits c hc)).2.2
        · decide
        · exact h c hc
    have hstart : text.dropWhile isSpace = text := by
      obtain ⟨c, rest, hcons⟩ := List.exists_cons_of_ne_nil hne
      have hc := (isDecimal_of_isDigit (hwhole c (by rw [hcons]; exact List.mem_cons_self ..))).2.1
      rw [htext, hcons, List.cons_append, List.dropWhile_cons, hc]
      rfl
    have hproduct : roundProduct some m e.2 = .ok n := by
      have hround : roundHalfEven (m.value * e.2) = n := by
        rw [hvalue]
        exact_mod_cast roundHalfEven_intCast (n : ℤ)
      simp [roundProduct, hround]
    rw [parseDurationNs, hstart, scanMagnitude_congr hsame, hscan]
    dsimp only
    rw [hspace, hunit, htail, hlookup]
    by_cases hl : Lowercase unit
    · rw [if_pos hl, if_pos (hlower.mpr hl), hfind]
      exact hproduct
    · rw [if_neg hl, if_neg fun h => hl (hlower.mp h)]
  · cases h

/-! ### What is written -/

theorem digitsValue_toDigits
    (n : Nat) :
    digitsValue (Nat.toDigits 10 n) = n := by
  have hdigits : ∀ n < 58, 48 ≤ n → (unicodeDigit (Char.ofNat n)).getD 0 = n - 48 := by decide
  have hfold : ∀ (l : Text), (∀ c ∈ l, c.isDigit = true) → ∀ k,
      l.foldl (fun n c => 10 * n + (unicodeDigit c).getD 0) k = Nat.ofDigitChars 10 l k := by
    intro l
    induction l with
    | nil => exact fun _ k => rfl
    | cons c rest ih =>
        intro hl k
        have hrange : 48 ≤ c.toNat ∧ c.toNat ≤ 57 :=
          Char.isDigit_iff_toNat.mp (hl c (List.mem_cons_self ..))
        have hc := hdigits c.toNat (by omega) hrange.1
        rw [Char.ofNat_toNat] at hc
        rw [List.foldl_cons, ih fun d hd => hl d (List.mem_cons_of_mem _ hd), hc]
        rfl
  rw [digitsValue, hfold _ fun c hc => Nat.isDigit_of_mem_toDigits (by decide) (by decide) hc]
  exact Nat.ofDigitChars_toDigits (by decide) (by decide)

/-- The text of a whole number of microseconds denotes it. -/
theorem timeValue_formatDurationNs
    {ns : Nat}
    (hpos : 0 < ns) (hus : ns % 1000 = 0) :
    timeValue (formatDurationNs ns).toList = some (ns : ℚ) := by
  have hunit : ∀ e ∈ timeUnitsNs, (∀ c ∈ e.1.toList.head?, c.isDigit = false ∧ c ≠ '.') ∧
      (timeUnitsNs.find? fun f => f.1 = String.ofList (e.1.toList.map Char.toLower)) = some e := by
    decide
  have hread : ∀ e ∈ timeUnitsNs, ns % e.2 = 0 →
      timeValue (toString (ns / e.2) ++ e.1).toList = some (ns : ℚ) := by
    intro e he hmod
    obtain ⟨hhead, hfind⟩ := hunit e he
    have hdiv : ns / e.2 * e.2 = ns := Nat.div_mul_cancel (Nat.dvd_of_mod_eq_zero hmod)
    rw [toList_repr_append, timeValue, scanMagnitude_repr hhead]
    simp only [hfind, Option.map_some, Magnitude.value, List.append_nil, digitsValue_toDigits,
      List.length_nil, pow_zero, div_one, Option.some.injEq]
    exact_mod_cast hdiv
  have hunits : durationUnitsNs.reverse =
      [("s", 1000000000), ("ms", 1000000), ("us", 1000), ("ns", 1)] := rfl
  rw [formatDurationNs, hunits]
  by_cases hs : ns % 1000000000 = 0 ∧ 1000000000 ≤ ns
  · rw [List.find?_cons_of_pos (by simpa using hs)]
    exact hread ("s", 1000000000) (by decide) hs.1
  rw [List.find?_cons_of_neg (by simpa using hs)]
  by_cases hms : ns % 1000000 = 0 ∧ 1000000 ≤ ns
  · rw [List.find?_cons_of_pos (by simpa using hms)]
    exact hread ("ms", 1000000) (by decide) hms.1
  rw [List.find?_cons_of_neg (by simpa using hms),
    List.find?_cons_of_pos (by simp [hus]; omega)]
  exact hread ("us", 1000) (by decide) hus

end Netem

namespace Topo

open Netem

/--
The sum of two times, which are whole numbers of nanoseconds, with exact arithmetic.  It is
a time again, and the right one, iff neither text has capitals and the sum is a positive
number of microseconds.
-/
theorem add_durations_iff
    (base extra : String) (a b : Nat)
    (ha : timeValue base.toList = some (a : ℚ)) (hb : timeValue extra.toList = some (b : ℚ)) :
    (∃ sum, addDurations some (.str base) (.str extra) = .ok (.str sum) ∧
      timeRe sum.toList = true ∧ timeValue sum.toList = some ((a + b : Nat) : ℚ)) ↔
      Lowercase base.toList ∧ Lowercase extra.toList ∧ 0 < a + b ∧ (a + b) % 1000 = 0 := by
  have hread : ∀ (text : String) (n k : Nat), timeValue text.toList = some (n : ℚ) →
      (readDuration some (.str text) = .ok k ↔ Lowercase text.toList ∧ k = n) := by
    intro text n k hn
    rw [readDuration, parseDurationNs_of_time hn]
    by_cases hlower : Lowercase text.toList
    · simp [hlower, Except.mapError, eq_comm]
    · simp [hlower, Except.mapError]
  simp only [addDurations_eq_ok_iff, hread base a _ ha, hread extra b _ hb, Value.str.injEq]
  constructor
  · rintro ⟨sum, ⟨_, _, ⟨hlowerA, rfl⟩, ⟨hlowerB, rfl⟩, rfl⟩, htime, _⟩
    exact ⟨hlowerA, hlowerB, (timeRe_formatDurationNs _).mp htime⟩
  · rintro ⟨hlowerA, hlowerB, hpos, hus⟩
    exact ⟨_, ⟨a, b, ⟨hlowerA, rfl⟩, ⟨hlowerB, rfl⟩, rfl⟩,
      (timeRe_formatDurationNs _).mpr ⟨hpos, hus⟩, timeValue_formatDurationNs hpos hus⟩

/-- `1.5ms` and `500us` have a sum in microseconds. -/
theorem add_durations_mixed :
    ∃ sum, addDurations some (.str "1.5ms") (.str "500us") = .ok (.str sum) ∧
      timeRe sum.toList = true ∧ timeValue sum.toList = some ((1500000 + 500000 : Nat) : ℚ) :=
  (add_durations_iff "1.5ms" "500us" 1500000 500000 (by decide +kernel)
    (by decide +kernel)).mpr (by decide +kernel)

/-- `tc` accepts `1MS`, and it cannot be added; the sum of `0.0005ms` and `0ms` is `500ns`. -/
theorem capitals_not_added :
    timeRe "1MS".toList = true ∧ timeValue "1MS".toList = some (1000000 : ℚ) ∧
      timeRe "1ms".toList = true ∧ timeValue "1ms".toList = some (1000000 : ℚ) ∧
      addDurations some (.str "1MS") (.str "1ms") = .error (.duration .invalid) ∧
      timeRe "0.0005ms".toList = true ∧ timeValue "0.0005ms".toList = some (500 : ℚ) ∧
      timeRe "0ms".toList = true ∧ timeValue "0ms".toList = some (0 : ℚ) ∧
      addDurations some (.str "0.0005ms") (.str "0ms") = .ok (.str "500ns") ∧
      timeRe "500ns".toList = false := by
  have hparse : parseDurationNs some "1MS".toList = .error .invalid := by decide +kernel
  have hadd : parseDurationNs some "0.0005ms".toList = .ok 500 ∧
      parseDurationNs some "0ms".toList = .ok 0 := by
    decide +kernel
  refine ⟨by decide, by decide +kernel, by decide, by decide +kernel, ?_, by decide,
    by decide +kernel, by decide, by decide +kernel, ?_, by decide⟩
  · simp only [addDurations, readDuration, hparse]
    rfl
  · simp only [addDurations, readDuration, hadd.1, hadd.2]
    rfl

end Topo
end P4Net

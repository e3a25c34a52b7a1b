import P4Net.CommandSections
import P4Net.FormattedValues

/-!
# Match values on the command line

The values of a match as texts that `_parse_table_match` and the encoders read back: every
number is written in hexadecimal.

* `fieldText`, `fieldValue` : the text of a value, and the argument it is read as.
* `typedItem_fieldText` : the components of a value are told apart.
* `encodeField_numbersOf`, `encodeField_wildcard` : the argument encodes to the match that it
  was written from, and the one of a wildcard to none.
-/

namespace P4Net
namespace Cli

open TextLiterals BigEndian ControlCodec Literals Formatting P4InfoIndex

/-! ### Texts of values -/

/-- `hex(n)`. -/
def hexText (n : Nat) : Text := '0' :: 'x' :: Nat.toDigits 16 n

/-- The text of a match with the numbers of its components. -/
def fieldText (kind : MatchType) (numbers : Nat × Nat) : Text :=
  match kind with
  | .lpm => hexText numbers.1 ++ '/' :: Nat.toDigits 10 numbers.2
  | .ternary => hexText numbers.1 ++ "&&&".toList ++ hexText numbers.2
  | .range => hexText numbers.1 ++ "..".toList ++ hexText numbers.2
  | _ => hexText numbers.1

/-- The argument that the text of a match is read as. -/
def fieldValue (kind : MatchType) (numbers : Nat × Nat) : PyValue :=
  match kind with
  | .ternary | .range => .pair (.str (hexText numbers.1)) (.str (hexText numbers.2))
  | _ => .str (fieldText kind numbers)

/-- The numbers of the components of a match. -/
def numbersOf : FieldMatchType → Nat × Nat
  | .exact v => (fromBytes v, 0)
  | .optional v => (fromBytes v, 0)
  | .lpm v plen => (fromBytes v, plen.toNat)
  | .ternary v m => (fromBytes v, fromBytes m)
  | .range low high => (fromBytes low, fromBytes high)
  | .other => (0, 0)

/-- The numbers of a wildcard, for the match types that have one. -/
def wildcardNumbers (mf : MatchField) : Option (Nat × Nat) :=
  match mf.matchType with
  | .lpm => some (0, 0)
  | .ternary => some (0, 0)
  | .range => some (0, 2 ^ mf.bitwidth - 1)
  | _ => none

/-! ### Values are read back -/

/-- Letters and digits are neither white space nor separators. -/
theorem noSeparator_of_isAlnum
    {c : Char} (h : isAlnum c = true) :
    isSpace c = false ∧ c ∉ [',', '&', '.'] := by
  have hplain : ∀ n < 128, isAlnum (Char.ofNat n) = true →
      isSpace (Char.ofNat n) = false ∧ Char.ofNat n ∉ [',', '&', '.'] := by
    decide
  have hc := hplain c.toNat (toNat_lt_of_isAlnum h)
  rw [Char.ofNat_toNat] at hc
  exact hc h

theorem plain_of_mem_hexText
    {n : Nat} {c : Char} (hc : c ∈ hexText n) :
    isSpace c = false ∧ c ∉ [',', '&', '.'] := by
  refine noSeparator_of_isAlnum ?_
  simp only [hexText, List.mem_cons] at hc
  rcases hc with rfl | rfl | hc
  · decide
  · decide
  · exact isAlnum_of_mem_toDigits (by decide) (by decide) hc

theorem strip_hexText
    (n : Nat) :
    strip (hexText n) = hexText n :=
  strip_of_noSpace fun _ hc => (plain_of_mem_hexText hc).1

/-- The text of a match has no white space and no comma. -/
theorem plain_of_mem_fieldText
    {kind : MatchType} {numbers : Nat × Nat} {c : Char} (hc : c ∈ fieldText kind numbers) :
    isSpace c = false ∧ c ≠ ',' := by
  have hhex : ∀ {n}, c ∈ hexText n → isSpace c = false ∧ c ≠ ',' := fun h =>
    (plain_of_mem_hexText h).imp_right fun hnot heq => hnot (by simp [heq])
  have hdigits : ∀ {n}, c ∈ Nat.toDigits 10 n → isSpace c = false ∧ c ≠ ',' := fun h =>
    (noSeparator_of_isAlnum (isAlnum_of_mem_toDigits (by decide) (by decide) h)).imp_right
      fun hnot heq => hnot (by simp [heq])
  have hseparator : ∀ sep ∈ ["&&&".toList, "..".toList, ['/']],
      ∀ d ∈ sep, isSpace d = false ∧ d ≠ ',' := by
    decide
  cases kind with
  | lpm =>
      rcases List.mem_append.mp hc with h | h
      · exact hhex h
      · rcases List.mem_cons.mp h with rfl | h
        · exact hseparator ['/'] (by simp) '/' (by simp)
        · exact hdigits h
  | ternary =>
      rcases List.mem_append.mp hc with h | h
      · rcases List.mem_append.mp h with h | h
        · exact hhex h
        · exact hseparator _ (by simp) c h
      · exact hhex h
  | range =>
      rcases List.mem_append.mp hc with h | h
      · rcases List.mem_append.mp h with h | h
        · exact hhex h
        · exact hseparator _ (by simp) c h
      · exact hhex h
  | unspecified => exact hhex hc
  | exact => exact hhex hc
  | optional => exact hhex hc

/-- The components of a value are told apart. -/
theorem typedItem_fieldText
    {kinds : OrderedDict String MatchType} {name : String} {kind : MatchType}
    (hkind : kinds.get? name = some kind) (table : Text) (numbers : Nat × Nat) :
    typedItem kinds table (name.toList, fieldText kind numbers) =
      .ok (name, fieldValue kind numbers) := by
  have hnone : ∀ n, hexText n ≠ [] := by simp [hexText]
  have hnot : ∀ {n} {c : Char}, c ∈ [',', '&', '.'] → c ∉ hexText n := fun hc hmem =>
    (plain_of_mem_hexText hmem).2 hc
  have hternary : splitOnText ['&', '&', '&'] (fieldText .ternary numbers) =
      [hexText numbers.1, hexText numbers.2] :=
    splitOnText_pair (s := '&') (hnot (by simp)) (hnot (by simp))
  have hrange : splitOnText ['.', '.'] (fieldText .range numbers) =
      [hexText numbers.1, hexText numbers.2] :=
    splitOnText_pair (s := '.') (hnot (by simp)) (hnot (by simp))
  cases kind with
  | ternary => simp [typedItem, hkind, matchFormat, hternary, strip_hexText, hnone, fieldValue]
  | range => simp [typedItem, hkind, matchFormat, hrange, strip_hexText, hnone, fieldValue]
  | unspecified => simp [typedItem, hkind, matchFormat, fieldValue]
  | exact => simp [typedItem, hkind, matchFormat, fieldValue]
  | lpm => simp [typedItem, hkind, matchFormat, fieldValue]
  | optional => simp [typedItem, hkind, matchFormat, fieldValue]

theorem encodeValue_hexText
    {bitwidth n : Nat} (hw : 1 ≤ bitwidth) (h : n < 2 ^ bitwidth) :
    ∃ data, encodeValue (.str (hexText n)) bitwidth = .ok data ∧ fromBytes data = n :=
  ⟨_, encodeValue_literal (literal_radix (by decide) _) hw h,
    fromBytes_toBytes (lt_pow_bytes_of_lt h)⟩

/-- The shortest bytes are found again. -/
theorem encodeValue_canonicalText
    {bitwidth : Nat} {v : Bytes} (hw : 1 ≤ bitwidth) (h : CanonicalBytes bitwidth v) :
    ∃ data, encodeValue (.str (hexText (fromBytes v))) bitwidth = .ok data ∧
      fromBytes data = fromBytes v ∧ canonicalize data = v := by
  obtain ⟨data, hdata, hvalue⟩ := encodeValue_hexText hw h.2
  exact ⟨data, hdata, hvalue, by
    rw [canonicalize_eq_of_value hvalue, canonicalize_of_isCanonical h.1]⟩

/-- The value of a canonical match encodes to the match. -/
theorem encodeField_numbersOf
    {mf : MatchField} {t : FieldMatchType} (hw : 1 ≤ mf.bitwidth) (h : CanonicalMatch mf t) :
    encodeField mf (fieldValue mf.matchType (numbersOf t)) = .ok (some t) := by
  unfold CanonicalMatch at h
  cases hmt : mf.matchType <;> cases t <;> simp only [hmt] at h
  case exact.exact v =>
    obtain ⟨data, hdata, -, hcan⟩ := encodeValue_canonicalText hw h
    simp [encodeField, hmt, fieldValue, fieldText, numbersOf, bind, Except.bind, hdata, hcan]
  case optional.optional v =>
    obtain ⟨data, hdata, -, hcan⟩ := encodeValue_canonicalText hw h
    simp [encodeField, hmt, fieldValue, fieldText, numbersOf, bind, Except.bind, hdata, hcan]
  case lpm.lpm v plen =>
    obtain ⟨hv, hpos, hle, hhost⟩ := h
    obtain ⟨n, rfl⟩ := Int.eq_ofNat_of_zero_le (by omega : 0 ≤ plen)
    have hn : n ≠ 0 := by omega
    obtain ⟨data, hdata, hvalue, hcan⟩ := encodeValue_canonicalText hw hv
    have hparse := (parseLpm_text (hexText (fromBytes v)) n mf.bitwidth).trans
      (parseLpm_pair (by omega) hdata fun _ => hvalue ▸ hhost)
    simp [encodeField, hmt, fieldValue, fieldText, numbersOf, bind, Except.bind, hparse, hn, hcan]
  case ternary.ternary v m =>
    obtain ⟨hv, hm, hmask, hval⟩ := h
    obtain ⟨dataV, hdataV, hvalueV, hcanV⟩ := encodeValue_canonicalText hw hv
    obtain ⟨dataM, hdataM, hvalueM, hcanM⟩ := encodeValue_canonicalText hw hm
    have hparse := parseTernary_pair hdataV hdataM fun _ => by rw [hvalueV, hvalueM, hval]
    simp only [encodeField, hmt, fieldValue, numbersOf, bind, Except.bind, hparse,
      all_eq_zero_iff, hvalueM, hmask, if_false, hcanV, hcanM]
  case range.range low high =>
    obtain ⟨hlow, hhigh, hle, hfull⟩ := h
    obtain ⟨dataL, hdataL, hvalueL, hcanL⟩ := encodeValue_canonicalText hw hlow
    obtain ⟨dataH, hdataH, hvalueH, hcanH⟩ := encodeValue_canonicalText hw hhigh
    have hparse := parseRange_pair hdataL hdataH (by rw [hvalueL, hvalueH]; exact hle)
    simp only [encodeField, hmt, fieldValue, numbersOf, bind, Except.bind, hparse, hvalueL,
      hvalueH, hfull, if_false, hcanL, hcanH]

/-- A wildcard is left out. -/
theorem encodeField_wildcard
    {mf : MatchField} {numbers : Nat × Nat} (hw : 1 ≤ mf.bitwidth)
    (h : wildcardNumbers mf = some numbers) :
    encodeField mf (fieldValue mf.matchType numbers) = .ok none := by
  obtain ⟨zero, hzero, hvalue⟩ := encodeValue_hexText (n := 0) hw (Nat.two_pow_pos _)
  unfold wildcardNumbers at h
  cases hmt : mf.matchType <;> simp only [hmt, reduceCtorEq, Option.some.injEq] at h <;> subst h
  case lpm =>
    have hparse := (parseLpm_text (hexText 0) 0 mf.bitwidth).trans
      (parseLpm_pair (Nat.zero_le _) hzero fun hne => absurd rfl hne)
    simp only [encodeField, hmt, fieldValue, fieldText, bind, Except.bind, hparse, if_true]
  case ternary =>
    have hparse := parseTernary_pair hzero hzero fun hne => absurd hvalue hne
    simp only [encodeField, hmt, fieldValue, bind, Except.bind, hparse, all_eq_zero_iff, hvalue,
      if_true]
  case range =>
    obtain ⟨top, htop, htopValue⟩ := encodeValue_hexText (n := 2 ^ mf.bitwidth - 1) hw
      (Nat.sub_lt (Nat.two_pow_pos _) (by decide))
    have hparse := parseRange_pair hzero htop (by rw [hvalue]; exact Nat.zero_le _)
    simp [encodeField, hmt, fieldValue, bind, Except.bind, hparse, hvalue, htopValue]

end Cli
end P4Net

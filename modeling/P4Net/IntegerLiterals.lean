import P4Net.TextLiterals

/-!
# Integer literals

The texts that denote a natural number in Python, as a grammar, and what `int(text, 0)`
makes of them.

* `Run` : digits with single underscores between them.
* `Literal` : decimal literals without leading zeros, and literals with a radix.
* `parseInt_literal` : a literal is read as the number that it denotes.
* `literal_toDigits`, `literal_radix` : the literals that are written without underscores.
-/

namespace P4Net
namespace TextLiterals

/-! ### Digits -/

/-- A letter or a digit of ASCII. -/
def isAlnum (c : Char) : Bool :=
  decide ('0' ≤ c ∧ c ≤ '9') || decide ('a' ≤ c ∧ c ≤ 'z') || decide ('A' ≤ c ∧ c ≤ 'Z')

theorem isAlnum_of_digitValue
    {base : Nat} {c : Char}
    (h : (digitValue base c).isSome) :
    isAlnum c = true := by
  unfold digitValue at h
  by_cases hdigit : '0' ≤ c ∧ c ≤ '9'
  · simp [isAlnum, hdigit]
  by_cases hlower : 'a' ≤ c ∧ c ≤ 'z'
  · simp [isAlnum, hlower]
  by_cases hupper : 'A' ≤ c ∧ c ≤ 'Z'
  · simp [isAlnum, hupper]
  · rw [if_neg hdigit, if_neg hlower, if_neg hupper] at h
    simp at h

theorem toNat_lt_of_isAlnum
    {c : Char}
    (h : isAlnum c = true) :
    c.toNat < 128 := by
  by_contra hhigh
  have hnot : ∀ d : Char, d.toNat < 128 → ¬ c ≤ d := by
    intro d hd hle
    have hle' : c.toNat ≤ d.toNat := hle
    omega
  simp [isAlnum, hnot '9' (by decide), hnot 'z' (by decide), hnot 'Z' (by decide)] at h

/-- Letters and digits are left alone by the readers. -/
theorem plain_of_isAlnum
    {c : Char}
    (h : isAlnum c = true) :
    toAsciiDigit c = c ∧ asciiSpace c = false ∧
      c ∉ ['-', '+', '_', '.', ':', '/', '%', ',', '=', '&', ' ', '\'', '"', '\\', '\n'] := by
  have hlow : ∀ n < 128, isAlnum (Char.ofNat n) = true →
      toAsciiDigit (Char.ofNat n) = Char.ofNat n ∧ asciiSpace (Char.ofNat n) = false ∧
        Char.ofNat n ∉
          ['-', '+', '_', '.', ':', '/', '%', ',', '=', '&', ' ', '\'', '"', '\\', '\n'] := by
    decide
  have hplain := hlow c.toNat (toNat_lt_of_isAlnum h)
  rw [Char.ofNat_toNat] at hplain
  exact hplain h

theorem ne_underscore_of_digitValue
    {base : Nat} {c : Char}
    (h : (digitValue base c).isSome) :
    c ≠ '_' := by
  rintro rfl
  exact (plain_of_isAlnum (isAlnum_of_digitValue h)).2.2 (by simp)

/-! ### Runs -/

/-- Digits, each with whether an underscore stands before it. -/
abbrev Run := List (Bool × Char)

/-- The text of a run. -/
def spelled (run : Run) : Text := run.flatMap fun e => if e.1 then ['_', e.2] else [e.2]

/-- One more digit of a number. -/
def addDigit (base n : Nat) (e : Bool × Char) : Nat := n * base + (digitValue base e.2).getD 0

/-- The number that a run denotes. -/
def runValue (base : Nat) (run : Run) : Nat := run.foldl (addDigit base) 0

/-- The characters are digits. -/
def AllDigits (base : Nat) (run : Run) : Prop := ∀ e ∈ run, (digitValue base e.2).isSome

theorem mem_spelled
    {run : Run} {c : Char}
    (h : c ∈ spelled run) :
    c = '_' ∨ ∃ e ∈ run, c = e.2 := by
  obtain ⟨e, he, hc⟩ := List.mem_flatMap.mp h
  by_cases hu : e.1 = true
  · rw [if_pos hu] at hc
    simp only [List.mem_cons, List.not_mem_nil, or_false] at hc
    rcases hc with rfl | rfl
    · exact Or.inl rfl
    · exact Or.inr ⟨e, he, rfl⟩
  · rw [if_neg hu, List.mem_singleton] at hc
    exact Or.inr ⟨e, he, hc⟩

/-- A run after a digit, or one that starts without an underscore, is read to its end. -/
theorem scanDigits_spelled
    {base : Nat} {run : Run} (hdigits : AllDigits base run) (acc : Nat) (afterDigit : Bool)
    (hstart : afterDigit = true ∨ ∃ c rest, run = (false, c) :: rest) :
    scanDigits base acc afterDigit (spelled run) = some (run.foldl (addDigit base) acc, []) := by
  induction run generalizing acc afterDigit with
  | nil =>
      rcases hstart with rfl | ⟨c, rest, hcons⟩
      · rfl
      · cases hcons
  | cons e rest ih =>
      obtain ⟨underscore, c⟩ := e
      obtain ⟨hc, hrest⟩ := List.forall_mem_cons.mp hdigits
      obtain ⟨d, hd⟩ := Option.isSome_iff_exists.mp hc
      have hne : c ≠ '_' := ne_underscore_of_digitValue hc
      have hdigit : ∀ flag, scanDigits base acc flag (c :: spelled rest) =
          some (rest.foldl (addDigit base) (acc * base + d), []) := by
        intro flag
        rw [scanDigits, if_neg hne, hd]
        exact ih hrest _ true (Or.inl rfl)
      have hvalue : addDigit base acc (underscore, c) = acc * base + d := by
        simp [addDigit, hd]
      rw [List.foldl_cons, hvalue]
      cases underscore with
      | false => exact hdigit afterDigit
      | true =>
          have hafter : afterDigit = true := by
            rcases hstart with h | ⟨c', rest', hcons⟩
            · exact h
            · cases hcons
          have htext : spelled ((true, c) :: rest) = '_' :: c :: spelled rest := rfl
          rw [htext, scanDigits, if_pos rfl, if_pos hafter]
          exact hdigit false

/-! ### Literals -/

/-- The letters that announce a radix. -/
def radixLetters : List (Char × Nat) :=
  [('x', 16), ('X', 16), ('o', 8), ('O', 8), ('b', 2), ('B', 2)]

/-- The literals of a natural number. -/
inductive Literal : Text → Nat → Prop where
  | decimal {c : Char} {run : Run} (hdigits : AllDigits 10 ((false, c) :: run))
      (hzero : c ≠ '0' ∨ runValue 10 ((false, c) :: run) = 0) :
      Literal (spelled ((false, c) :: run)) (runValue 10 ((false, c) :: run))
  | radix {letter : Char} {base : Nat} {run : Run} (hletter : (letter, base) ∈ radixLetters)
      (hne : run ≠ []) (hdigits : AllDigits base run) :
      Literal ('0' :: letter :: spelled run) (runValue base run)

/-- The characters of a literal. -/
theorem Literal.isAlnum_of_mem
    {text : Text} {n : Nat} (h : Literal text n) {c : Char} (hc : c ∈ text) :
    c = '_' ∨ isAlnum c = true := by
  have hrun : ∀ {base : Nat} {run : Run}, AllDigits base run → c ∈ spelled run →
      c = '_' ∨ isAlnum c = true := by
    intro base run hdigits hmem
    rcases mem_spelled hmem with rfl | ⟨e, he, rfl⟩
    · exact Or.inl rfl
    · exact Or.inr (isAlnum_of_digitValue (hdigits e he))
  cases h with
  | decimal hdigits _ => exact hrun hdigits hc
  | radix hletter _ hdigits =>
      have hletters : ∀ e ∈ radixLetters, isAlnum e.1 = true := by decide
      rcases List.mem_cons.mp hc with rfl | hc
      · exact Or.inr rfl
      · rcases List.mem_cons.mp hc with rfl | hc
        · exact Or.inr (hletters _ hletter)
        · exact hrun hdigits hc

/-- There is no sign and no blank to skip before letters and digits. -/
theorem parseInt_of_alnum
    (base : Nat) {c : Char} {rest : Text}
    (hc : isAlnum c = true) (hrest : ∀ d ∈ rest, d = '_' ∨ isAlnum d = true) :
    parseInt base (c :: rest) = (parseMagnitude base (c :: rest)).map (fun n => (n : Int)) := by
  have hplain : ∀ d ∈ c :: rest, toAsciiDigit d = id d := by
    intro d hd
    rcases List.mem_cons.mp hd with rfl | hd
    · exact (plain_of_isAlnum hc).1
    · rcases hrest d hd with rfl | hd
      · rfl
      · exact (plain_of_isAlnum hd).1
  have hmap : (c :: rest).map toAsciiDigit = c :: rest := by
    rw [List.map_congr_left hplain, List.map_id]
  obtain ⟨_, hspace, hnot⟩ := plain_of_isAlnum hc
  have hdrop : (c :: rest).dropWhile asciiSpace = c :: rest := by
    rw [List.dropWhile_cons, hspace]
    rfl
  rw [parseInt, hmap, hdrop]
  split
  · rename_i hcons
    simp [(List.cons.inj hcons).1] at hnot
  · rename_i hcons
    simp [(List.cons.inj hcons).1] at hnot
  · rfl

theorem radixPrefix_decimal
    {c : Char} {run : Run} (hdigits : AllDigits 10 ((false, c) :: run)) :
    radixPrefix (spelled ((false, c) :: run)) = none := by
  have hnot : ∀ d : Char, d = '_' ∨ (digitValue 10 d).isSome → d ∉ ['x', 'X', 'o', 'O', 'b', 'B'] := by
    rintro d (rfl | hd) hmem
    · revert hmem
      decide
    · simp only [List.mem_cons, List.not_mem_nil, or_false] at hmem
      rcases hmem with rfl | rfl | rfl | rfl | rfl | rfl <;> revert hd <;> decide
  have htext : spelled ((false, c) :: run) = c :: spelled run := rfl
  rw [htext]
  unfold radixPrefix
  split
  · rename_i d rest hcons
    have hmem : d ∈ spelled run := by
      rw [(List.cons.inj hcons).2]
      exact List.mem_cons_self ..
    have hd : d = '_' ∨ (digitValue 10 d).isSome := by
      rcases mem_spelled hmem with rfl | ⟨e, he, rfl⟩
      · exact Or.inl rfl
      · exact Or.inr (hdigits e (List.mem_cons_of_mem _ he))
    have hletters := hnot d hd
    simp only [List.mem_cons, List.not_mem_nil, or_false, not_or] at hletters
    simp [hletters]
  · rfl

theorem radixPrefix_radix
    {letter : Char} {base : Nat} (hletter : (letter, base) ∈ radixLetters) (rest : Text) :
    radixPrefix ('0' :: letter :: rest) =
      some (base, match rest with
        | '_' :: rest' => rest'
        | _ => rest) := by
  simp only [radixLetters, List.mem_cons, Prod.mk.injEq, List.not_mem_nil, or_false] at hletter
  rcases hletter with ⟨rfl, rfl⟩ | ⟨rfl, rfl⟩ | ⟨rfl, rfl⟩ | ⟨rfl, rfl⟩ | ⟨rfl, rfl⟩ |
    ⟨rfl, rfl⟩ <;> rfl

theorem parseMagnitude_literal
    {text : Text} {n : Nat} (h : Literal text n) :
    parseMagnitude 0 text = some n := by
  cases h with
  | decimal hdigits hzero =>
      rename_i c run
      have hscan := scanDigits_spelled hdigits 0 false (Or.inr ⟨c, run, rfl⟩)
      have hradix := radixPrefix_decimal hdigits
      have hhead : (spelled ((false, c) :: run)).head? = some c := rfl
      have hvalue : c = '0' → runValue 10 ((false, c) :: run) = 0 := fun hc =>
        hzero.resolve_left (not_not.mpr hc)
      simp only [parseMagnitude, hradix, hhead]
      rw [if_neg (by decide), hscan]
      simpa [runValue] using hvalue
  | radix hletter hne hdigits =>
      rename_i letter base run
      obtain ⟨e, rest, rfl⟩ := List.exists_cons_of_ne_nil hne
      obtain ⟨underscore, c⟩ := e
      have hc : c ≠ '_' := ne_underscore_of_digitValue (hdigits _ (List.mem_cons_self ..))
      have hplain : AllDigits base ((false, c) :: rest) := by
        intro e he
        rcases List.mem_cons.mp he with rfl | he
        · exact hdigits (underscore, c) (List.mem_cons_self ..)
        · exact hdigits e (List.mem_cons_of_mem _ he)
      have hbody : (match spelled ((underscore, c) :: rest) with
          | '_' :: rest' => rest'
          | _ => spelled ((underscore, c) :: rest)) = spelled ((false, c) :: rest) := by
        cases underscore with
        | true => rfl
        | false =>
            have htext : spelled ((false, c) :: rest) = c :: spelled rest := rfl
            rw [htext]
            split
            · rename_i hcons
              exact absurd (List.cons.inj hcons).1 hc
            · rfl
      have hscan := scanDigits_spelled hplain 0 false (Or.inr ⟨c, rest, rfl⟩)
      have hradix := radixPrefix_radix hletter (spelled ((underscore, c) :: rest))
      rw [hbody] at hradix
      simp only [parseMagnitude, hradix]
      rw [if_neg (by decide), hscan]
      simp [runValue, addDigit]

/-- A literal is read as the number that it denotes. -/
theorem parseInt_literal
    {text : Text} {n : Nat} (h : Literal text n) :
    parseInt 0 text = some (n : Int) := by
  obtain ⟨c, rest, rfl, hc⟩ : ∃ c rest, text = c :: rest ∧ isAlnum c = true := by
    cases h with
    | decimal hdigits _ =>
        exact ⟨_, _, rfl, isAlnum_of_digitValue (hdigits _ (List.mem_cons_self ..))⟩
    | radix _ _ _ => exact ⟨_, _, rfl, rfl⟩
  rw [parseInt_of_alnum 0 hc fun d hd => h.isAlnum_of_mem (List.mem_cons_of_mem _ hd),
    parseMagnitude_literal h]
  rfl

/-! ### Literals that are written -/

/-- Digits without underscores. -/
def plainRun (text : Text) : Run := text.map fun c => (false, c)

@[simp] theorem spelled_plainRun
    (text : Text) :
    spelled (plainRun text) = text := by
  induction text with
  | nil => rfl
  | cons c rest ih => exact congrArg (c :: ·) ih

theorem digitValue_digitChar
    {base d : Nat}
    (hbase : base ≤ 16) (hd : d < base) :
    digitValue base (Nat.digitChar d) = some d := by
  have hall : ∀ b < 17, ∀ d < b, digitValue b (Nat.digitChar d) = some d := by decide
  exact hall base (by omega) d hd

/-- The digits of a number, up to hexadecimal ones. -/
theorem plainRun_toDigits
    {base : Nat} (hlow : 1 < base) (hhigh : base ≤ 16) (n : Nat) :
    AllDigits base (plainRun (Nat.toDigits base n)) ∧
      runValue base (plainRun (Nat.toDigits base n)) = n := by
  induction n using Nat.strongRecOn with
  | ind n ih =>
      have hdigit : ∀ d < base, (digitValue base (Nat.digitChar d)).isSome = true ∧
          ∀ m, addDigit base m (false, Nat.digitChar d) = m * base + d := by
        intro d hd
        have hvalue := digitValue_digitChar hhigh hd
        exact ⟨by rw [hvalue]; rfl, fun m => by rw [addDigit, hvalue]; rfl⟩
      by_cases hn : n < base
      · rw [Nat.toDigits_of_lt_base hn]
        refine ⟨fun e he => ?_, ?_⟩
        · rw [List.mem_singleton.mp he]
          exact (hdigit n hn).1
        · simpa [runValue, plainRun] using (hdigit n hn).2 0
      · obtain ⟨hall, hvalue⟩ := ih (n / base) (Nat.div_lt_self (by omega) hlow)
        have hmod : n % base < base := Nat.mod_lt _ (by omega)
        have happend : plainRun (Nat.toDigits base n) =
            plainRun (Nat.toDigits base (n / base)) ++ [(false, Nat.digitChar (n % base))] := by
          rw [Nat.toDigits_of_base_le hlow (by omega), plainRun, List.map_append]
          rfl
        rw [happend]
        refine ⟨fun e he => ?_, ?_⟩
        · rcases List.mem_append.mp he with he | he
          · exact hall e he
          · rw [List.mem_singleton.mp he]
            exact (hdigit _ hmod).1
        · rw [runValue, List.foldl_append]
          calc addDigit base (runValue base (plainRun (Nat.toDigits base (n / base))))
                (false, Nat.digitChar (n % base))
              = n / base * base + n % base := by rw [hvalue, (hdigit _ hmod).2]
            _ = n := Nat.div_add_mod' n base

/-- The digits are read to their end. -/
theorem scanDigits_toDigits
    {base : Nat} (hlow : 1 < base) (hhigh : base ≤ 16) (n : Nat) :
    scanDigits base 0 false (Nat.toDigits base n) = some (n, []) := by
  obtain ⟨hdigits, hvalue⟩ := plainRun_toDigits hlow hhigh n
  obtain ⟨c, rest, hcons⟩ := List.exists_cons_of_ne_nil (Nat.toDigits_ne_nil (b := base) (n := n))
  have hscan := scanDigits_spelled hdigits 0 false (Or.inr ⟨c, plainRun rest, by rw [hcons]; rfl⟩)
  rw [spelled_plainRun] at hscan
  rw [hscan]
  exact congrArg (fun m => some (m, [])) hvalue

/-- Digits are letters or digits of ASCII. -/
theorem isAlnum_of_mem_toDigits
    {base : Nat} (hlow : 1 < base) (hhigh : base ≤ 16) {n : Nat} {c : Char}
    (hc : c ∈ Nat.toDigits base n) :
    isAlnum c = true :=
  isAlnum_of_digitValue ((plainRun_toDigits hlow hhigh n).1 (false, c)
    (List.mem_map.mpr ⟨c, hc, rfl⟩))

/-- `int(str(n))`. -/
theorem parseInt_toDigits
    (n : Nat) :
    parseInt 10 (Nat.toDigits 10 n) = some (n : Int) := by
  have halnum := fun c => isAlnum_of_mem_toDigits (by decide : 1 < 10) (by decide) (n := n) (c := c)
  have hscan := scanDigits_toDigits (by decide : 1 < 10) (by decide) n
  obtain ⟨c, rest, hcons⟩ := List.exists_cons_of_ne_nil (Nat.toDigits_ne_nil (b := 10) (n := n))
  rw [hcons] at halnum hscan ⊢
  rw [parseInt_of_alnum 10 (halnum c (by simp)) fun d hd => Or.inr (halnum d (by simp [hd])),
    parseMagnitude]
  simp [hscan]

/-- The first digit of a number other than zero is not zero. -/
theorem head?_toDigits
    {n : Nat} (hn : 0 < n) :
    (Nat.toDigits 10 n).head? ≠ some '0' := by
  induction n using Nat.strongRecOn with
  | ind n ih =>
      by_cases hlt : n < 10
      · rw [Nat.toDigits_of_lt_base hlt]
        have hdigits : ∀ d < 10, 0 < d → [Nat.digitChar d].head? ≠ some '0' := by decide
        exact hdigits n hlt hn
      · have hdiv : 0 < n / 10 := Nat.div_pos (by omega) (by decide)
        have hrest := ih (n / 10) (Nat.div_lt_self hn (by decide)) hdiv
        rw [Nat.toDigits_of_base_le (by decide) (by omega), List.head?_append_of_ne_nil _
          Nat.toDigits_ne_nil]
        exact hrest

/-- `str(n)`. -/
theorem literal_toDigits
    (n : Nat) :
    Literal (Nat.toDigits 10 n) n := by
  obtain ⟨hdigits, hvalue⟩ := plainRun_toDigits (by decide) (by decide : 10 ≤ 16) n
  obtain ⟨c, rest, hcons⟩ := List.exists_cons_of_ne_nil (Nat.toDigits_ne_nil (b := 10) (n := n))
  have hrun : plainRun (Nat.toDigits 10 n) = (false, c) :: plainRun rest := by
    rw [hcons]
    rfl
  have hzero : c ≠ '0' ∨ runValue 10 ((false, c) :: plainRun rest) = 0 := by
    rw [← hrun, hvalue]
    rcases Nat.eq_zero_or_pos n with hn | hn
    · exact Or.inr hn
    · have hhead := head?_toDigits hn
      rw [hcons] at hhead
      exact Or.inl fun hc => hhead (by rw [hc]; rfl)
  have hliteral := Literal.decimal (hrun ▸ hdigits) hzero
  rwa [← hrun, hvalue, spelled_plainRun] at hliteral

/-- `hex(n)`, `oct(n)` and `bin(n)`. -/
theorem literal_radix
    {letter : Char} {base : Nat} (hletter : (letter, base) ∈ radixLetters) (n : Nat) :
    Literal ('0' :: letter :: Nat.toDigits base n) n := by
  have hrange : ∀ e ∈ radixLetters, 1 < e.2 ∧ e.2 ≤ 16 := by decide
  obtain ⟨hlow, hhigh⟩ := hrange _ hletter
  obtain ⟨hdigits, hvalue⟩ := plainRun_toDigits hlow hhigh n
  have hne : plainRun (Nat.toDigits base n) ≠ [] := by
    simp [plainRun]
  have hliteral := Literal.radix hletter hne hdigits
  rwa [hvalue, spelled_plainRun] at hliteral

end TextLiterals
end P4Net

import Mathlib.Data.List.TakeWhile
import P4Net.LiteralClasses

/-!
# What an argument denotes as the value of a field

`FitsWidth` is the meaning of integers, booleans and byte strings.  A string denotes a number
through the literals of its field's width: an address of 32, 48 or 128 bits, or an integer.

* `TextDenotes`, `Denotes` : the meaning of strings, and of all arguments.
* `Denotes.unique` : an argument denotes at most one number.
* `encodeValue_of_denotes` and `denotes_of_encodeValue` : the encoder against that meaning.
* `encodeValue_ok_iff` : it accepts what denotes a number, except for IPv6 literals with three
  dots, and it also accepts an address of 48 bits that a newline follows.
-/

namespace P4Net
namespace Literals

open TextLiterals BigEndian ControlCodec Mac

/-! ### The characters of an integer -/

/-- What is read are underscores and digits. -/
theorem scanDigits_split
    {base acc value : Nat} {afterDigit : Bool} {text rest : Text}
    (h : scanDigits base acc afterDigit text = some (value, rest)) :
    ∃ front, text = front ++ rest ∧ ∀ c ∈ front, c = '_' ∨ isAlnum c = true := by
  induction text generalizing acc afterDigit with
  | nil =>
      unfold scanDigits at h
      split_ifs at h
      obtain ⟨rfl, rfl⟩ := Prod.mk.inj (Option.some.inj h)
      exact ⟨[], rfl, by simp⟩
  | cons c cs ih =>
      have hcons : ∀ {front : Text}, c = '_' ∨ isAlnum c = true → cs = front ++ rest →
          (∀ d ∈ front, d = '_' ∨ isAlnum d = true) →
          ∃ front, c :: cs = front ++ rest ∧ ∀ d ∈ front, d = '_' ∨ isAlnum d = true := by
        intro front hc hcs hfront
        exact ⟨c :: front, by rw [hcs]; rfl, List.forall_mem_cons.mpr ⟨hc, hfront⟩⟩
      rw [scanDigits] at h
      by_cases hunder : c = '_'
      · rw [if_pos hunder] at h
        split_ifs at h
        obtain ⟨front, hcs, hfront⟩ := ih h
        exact hcons (Or.inl hunder) hcs hfront
      rw [if_neg hunder] at h
      cases hdigit : digitValue base c with
      | none =>
          simp only [hdigit] at h
          split_ifs at h
          obtain ⟨rfl, rfl⟩ := Prod.mk.inj (Option.some.inj h)
          exact ⟨[], rfl, by simp⟩
      | some d =>
          simp only [hdigit] at h
          obtain ⟨front, hcs, hfront⟩ := ih h
          exact hcons (Or.inr (isAlnum_of_digitValue (by rw [hdigit]; rfl))) hcs hfront

/-- The marks of addresses, which no integer contains. -/
def IsMark (c : Char) : Prop := c = '.' ∨ c = ':'

theorem not_isMark_of_isAlnum
    {c : Char}
    (h : c = '_' ∨ isAlnum c = true) :
    ¬ IsMark c := by
  rintro (rfl | rfl) <;> revert h <;> decide

theorem not_isMark_of_space
    {c : Char}
    (h : asciiSpace c = true) :
    ¬ IsMark c := by
  rintro (rfl | rfl) <;> revert h <;> decide

theorem no_mark_of_scanDigits
    {base acc value : Nat} {text rest : Text}
    (h : scanDigits base acc false text = some (value, rest))
    (hrest : rest.all asciiSpace = true) {c : Char} (hc : c ∈ text) :
    ¬ IsMark c := by
  obtain ⟨front, rfl, hfront⟩ := scanDigits_split h
  rcases List.mem_append.mp hc with hc | hc
  · exact not_isMark_of_isAlnum (hfront c hc)
  · exact not_isMark_of_space (List.all_eq_true.mp hrest c hc)

theorem no_mark_of_radixPrefix
    {base : Nat} {text body : Text}
    (h : radixPrefix text = some (base, body)) (hbody : ∀ c ∈ body, ¬ IsMark c)
    {c : Char} (hc : c ∈ text) :
    ¬ IsMark c := by
  unfold radixPrefix at h
  split at h
  · rename_i letter rest
    obtain ⟨b, hb, hpair⟩ := Option.map_eq_some_iff.mp h
    have hletter : ¬ IsMark letter := by
      rintro (rfl | rfl) <;> revert hb <;> simp
    have hrest : ∀ d ∈ rest, ¬ IsMark d := by
      have hsplit : body = rest ∨ rest = '_' :: body := by
        rw [← (Prod.mk.inj hpair).2]
        split
        · exact Or.inr rfl
        · exact Or.inl rfl
      intro d hd
      rcases hsplit with rfl | rfl
      · exact hbody d hd
      · rcases List.mem_cons.mp hd with rfl | hd
        · exact not_isMark_of_isAlnum (Or.inl rfl)
        · exact hbody d hd
    rcases List.mem_cons.mp hc with rfl | hc
    · exact not_isMark_of_isAlnum (Or.inr (by decide))
    · rcases List.mem_cons.mp hc with rfl | hc
      · exact hletter
      · exact hrest c hc
  · cases h

theorem no_mark_of_parseMagnitude
    {n : Nat} {text : Text}
    (h : parseMagnitude 0 text = some n) {c : Char} (hc : c ∈ text) :
    ¬ IsMark c := by
  rw [parseMagnitude, if_neg (by decide)] at h
  have hfinish : ∀ {value : Nat} {rest : Text} {refused : Prop} [Decidable refused],
      (if refused then none else if rest.all asciiSpace = true then some value else none) =
        some n → rest.all asciiSpace = true := by
    intro value rest refused _ hsome
    split_ifs at hsome with _ hspace
    exact hspace
  cases hradix : radixPrefix text with
  | none =>
      simp only [hradix, Option.bind_eq_bind, Option.bind_eq_some_iff] at h
      obtain ⟨⟨value, rest⟩, hscan, hchecks⟩ := h
      exact no_mark_of_scanDigits hscan (hfinish hchecks) hc
  | some p =>
      obtain ⟨base, body⟩ := p
      simp only [hradix, Option.bind_eq_bind, Option.bind_eq_some_iff] at h
      obtain ⟨⟨value, rest⟩, hscan, hchecks⟩ := h
      exact no_mark_of_radixPrefix hradix
        (fun d hd => no_mark_of_scanDigits hscan (hfinish hchecks) hd) hc

/-- An integer has no dot and no colon. -/
theorem no_mark_of_parseInt
    {z : Int} {text : Text}
    (h : parseInt 0 text = some z) {c : Char} (hc : c ∈ text) :
    ¬ IsMark c := by
  have hmagnitude : ∀ {rest : Text}, (∃ n, parseMagnitude 0 rest = some n) →
      ∀ d ∈ rest, ¬ IsMark d := by
    rintro rest ⟨n, hn⟩ d hd
    exact no_mark_of_parseMagnitude hn hd
  have hsome : ∀ {x : Option Nat} {f : Int → Int},
      ((do let a ← x; pure (a : Int)) : Option Int).map f = some z → ∃ n, x = some n := by
    intro x f hx
    cases x with
    | none => cases hx
    | some n => exact ⟨n, rfl⟩
  have hsign : ∀ {sign : Char} {rest : Text}, ¬ IsMark sign →
      (∃ n, parseMagnitude 0 rest = some n) → ∀ d ∈ sign :: rest, ¬ IsMark d :=
    fun hs hn => List.forall_mem_cons.mpr ⟨hs, hmagnitude hn⟩
  have htrim : ∀ d ∈ (text.map toAsciiDigit).dropWhile asciiSpace, ¬ IsMark d := by
    unfold parseInt at h
    split at h
    · rename_i rest hrest
      rw [hrest]
      exact hsign (by rintro (h | h) <;> cases h) (hsome h)
    · rename_i rest hrest
      rw [hrest]
      exact hsign (by rintro (h | h) <;> cases h) (hsome h)
    · exact hmagnitude (hsome h)
  have hall : ∀ d ∈ text.map toAsciiDigit, ¬ IsMark d := by
    rw [← List.takeWhile_append_dropWhile (p := asciiSpace) (l := text.map toAsciiDigit)]
    intro d hd
    rcases List.mem_append.mp hd with hd | hd
    · exact not_isMark_of_space (List.mem_takeWhile_imp hd)
    · exact htrim d hd
  intro hmark
  refine hall (toAsciiDigit c) (List.mem_map_of_mem hc) ?_
  rcases hmark with rfl | rfl
  · exact Or.inl rfl
  · exact Or.inr rfl

/-! ### Meaning -/

/-- The text denotes `n` as the value of a field of this width. -/
inductive TextDenotes (text : Text) (bitwidth : Nat) : Nat → Prop where
  | ipv4 {data : Bytes} (hwidth : bitwidth = 32) (hread : ipv4Packed text = some data) :
      TextDenotes text bitwidth (fromBytes data)
  | mac {parts : List Text} (hwidth : bitwidth = 48) (hparts : IsOctets parts)
      (htext : text = join ':' parts) :
      TextDenotes text bitwidth (fromBytes (parts.map octet))
  | ipv6 {data : Bytes} (hwidth : bitwidth = 128) (hread : ipv6Packed text = some data) :
      TextDenotes text bitwidth (fromBytes data)
  | integer {n : Nat} (hread : parseInt 0 text = some (n : Int)) (hlt : n < 2 ^ bitwidth) :
      TextDenotes text bitwidth n

/-- The argument denotes `n` as the value of a field of this width. -/
def Denotes (value : PyValue) (bitwidth n : Nat) : Prop :=
  match value with
  | .str text => TextDenotes text bitwidth n
  | number => FitsWidth number bitwidth n

/-- An IPv6 literal with three dots, for a field of its width. -/
def DottedIpv6 (value : PyValue) (bitwidth : Nat) : Prop :=
  ∃ text, value = .str text ∧ bitwidth = 128 ∧ ThreeDots text

/-- A hardware address that a newline follows, for a field of its width. -/
def NewlineMac (value : PyValue) (bitwidth : Nat) : Prop :=
  ∃ text, value = .str text ∧ bitwidth = 48 ∧ IsMacLine text

/-- The meaning of a text that a family reads. -/
theorem textDenotes_iff
    (text : Text) (bitwidth n : Nat) :
    TextDenotes text bitwidth n ↔
      (∃ family data, bitwidth = Family.bitwidth family ∧ Family.read family text = some data ∧
        ¬ IsMacLine text ∧ n = fromBytes data) ∨
      (parseInt 0 text = some (n : Int) ∧ n < 2 ^ bitwidth) := by
  have hline : ∀ {t : Text}, IsMacLine t → Family.mac.read t ≠ none := by
    rintro t ⟨mac, rfl, parts, hparts, rfl⟩ hnone
    have hread := encodeMac_of_parts hparts (Or.inr rfl)
    rw [← read_mac_eq_some_iff, hnone] at hread
    cases hread
  have hmatch : ∀ {t : Text}, IsMacLine t → matchMac t = true := by
    intro t ht
    obtain ⟨data, hdata⟩ := Option.ne_none_iff_exists'.mp (hline ht)
    exact matchMac_of_read hdata
  constructor
  · intro h
    cases h with
    | ipv4 hwidth hread =>
        refine Or.inl ⟨.ipv4, _, hwidth, hread, fun ht => ?_, rfl⟩
        have hcounts := counts_of_matchMac (hmatch ht)
        have hdots := (ipv4Packed_chars hread).1
        omega
    | mac hwidth hparts htext =>
        refine Or.inl ⟨.mac, _, hwidth, (read_mac_eq_some_iff _ _).mpr ?_, ?_, rfl⟩
        · rw [htext, ← List.append_nil (join ':' _)]
          exact encodeMac_of_parts hparts (Or.inl rfl)
        · rintro ⟨mac, hcat, -⟩
          have hmac : IsMac text := ⟨_, hparts, htext⟩
          exact hmac.not_mem (by rw [hcat]; simp)
    | ipv6 hwidth hread =>
        refine Or.inl ⟨.ipv6, _, hwidth, hread, fun ht => ?_, rfl⟩
        rw [ipv6Packed_of_matchMac (hmatch ht)] at hread
        cases hread
    | integer hread hlt => exact Or.inr ⟨hread, hlt⟩
  · rintro (⟨family, data, rfl, hread, hnewline, rfl⟩ | ⟨hread, hlt⟩)
    · cases family with
      | ipv4 => exact .ipv4 rfl hread
      | mac =>
          have hok := (encodeMac_isOk_iff text).mp ⟨data, (read_mac_eq_some_iff _ _).mp hread⟩
          obtain ⟨parts, hparts, htext⟩ := hok.resolve_right hnewline
          have hdata := encodeMac_of_parts hparts (Or.inl rfl)
          rw [List.append_nil, ← htext] at hdata
          rw [read_mac_eq_some_iff, hdata] at hread
          rw [← Except.ok.inj hread]
          exact .mac rfl hparts htext
      | ipv6 => exact .ipv6 rfl hread
    · exact .integer hread hlt

/-- A family is determined by the width. -/
theorem bitwidth_inj
    {family family' : Family}
    (h : family.bitwidth = family'.bitwidth) :
    family = family' := by
  cases family <;> cases family' <;> first | rfl | cases h

/-- What a family reads has a mark, and so is no integer. -/
theorem parseInt_of_read
    {text : Text} {family : Family} {data : Bytes}
    (h : family.read text = some data) :
    parseInt 0 text = none := by
  have hmark : ∃ c ∈ text, IsMark c := by
    cases family with
    | ipv4 =>
        have hdots := (ipv4Packed_chars h).1
        exact ⟨'.', List.count_pos_iff.mp (by omega), Or.inl rfl⟩
    | mac =>
        have hcolons := (counts_of_matchMac (matchMac_of_read h)).2
        exact ⟨':', List.count_pos_iff.mp (by omega), Or.inr rfl⟩
    | ipv6 => exact ⟨':', colon_mem_of_ipv6Packed h, Or.inr rfl⟩
  obtain ⟨c, hc, hmark⟩ := hmark
  by_contra hsome
  obtain ⟨z, hz⟩ := Option.ne_none_iff_exists'.mp hsome
  exact no_mark_of_parseInt hz hc hmark

theorem TextDenotes.unique
    {text : Text} {bitwidth n m : Nat}
    (hn : TextDenotes text bitwidth n) (hm : TextDenotes text bitwidth m) :
    n = m := by
  rw [textDenotes_iff] at hn hm
  rcases hn with ⟨family, data, rfl, hread, -, rfl⟩ | ⟨hn, -⟩
  · rcases hm with ⟨family', data', hwidth, hread', -, rfl⟩ | ⟨hm, -⟩
    · obtain rfl := bitwidth_inj hwidth
      rw [hread] at hread'
      rw [Option.some.inj hread']
    · rw [parseInt_of_read hread] at hm
      cases hm
  · rcases hm with ⟨family', data', -, hread', -, -⟩ | ⟨hm, -⟩
    · rw [parseInt_of_read hread'] at hn
      cases hn
    · rw [hn] at hm
      exact_mod_cast Option.some.inj hm

/-- An argument denotes at most one number. -/
theorem Denotes.unique
    {value : PyValue} {bitwidth n m : Nat}
    (hn : Denotes value bitwidth n) (hm : Denotes value bitwidth m) :
    n = m := by
  cases value with
  | str text => exact TextDenotes.unique hn hm
  | none => exact FitsWidth.unique hn hm
  | bool b => exact FitsWidth.unique hn hm
  | int z => exact FitsWidth.unique hn hm
  | bytes data => exact FitsWidth.unique hn hm
  | pair a b => exact FitsWidth.unique hn hm
  | other => exact FitsWidth.unique hn hm

/-! ### The encoder -/

/-- Only IPv6 literals have the three dots that mislead the encoder. -/
theorem family_of_threeDots
    {text : Text} {family : Family} {data : Bytes}
    (h : family.read text = some data) (hdots : ThreeDots text) :
    family = .ipv6 := by
  obtain ⟨packed, hpacked⟩ := Option.isSome_iff_exists.mp hdots.1
  cases family with
  | ipv4 => exact absurd (colon_mem_of_ipv6Packed hpacked) (ipv4Packed_chars h).2
  | mac =>
      rw [ipv6Packed_of_matchMac (matchMac_of_read h)] at hpacked
      cases hpacked
  | ipv6 => rfl

/-- Every argument that denotes a number is encoded as it, but for dotted IPv6 literals. -/
theorem encodeValue_of_denotes
    {value : PyValue} {bitwidth n : Nat}
    (hw : 1 ≤ bitwidth) (h : Denotes value bitwidth n) (hdotted : ¬ DottedIpv6 value bitwidth) :
    ∃ data, encodeValue value bitwidth = .ok data ∧ fromBytes data = n := by
  cases value with
  | str text =>
      have htext : TextDenotes text bitwidth n := h
      rcases (textDenotes_iff _ _ _).mp htext with ⟨family, data, rfl, hread, -, rfl⟩ | ⟨hn, hlt⟩
      · refine ⟨data, encodeValue_own hread fun hdots => hdotted ⟨text, rfl, ?_, hdots⟩, rfl⟩
        rw [family_of_threeDots hread hdots]
        rfl
      · have hnot : '.' ∉ text ∧ ':' ∉ text :=
          ⟨fun hc => no_mark_of_parseInt hn hc (Or.inl rfl),
            fun hc => no_mark_of_parseInt hn hc (Or.inr rfl)⟩
        refine ⟨toBytes (byteWidth bitwidth) n, ?_, fromBytes_toBytes (lt_pow_bytes_of_lt hlt)⟩
        rw [encodeValue, if_neg (by omega)]
        exact (encodeText_integer hnot.1 hnot.2 hn bitwidth).trans
          ((encodeInt_nat hw n).trans (if_pos hlt))
  | none => exact encodeValue_of_fits hw h
  | bool b => exact encodeValue_of_fits hw h
  | int z => exact encodeValue_of_fits hw h
  | bytes data => exact encodeValue_of_fits hw h
  | pair a b => exact encodeValue_of_fits hw h
  | other => exact encodeValue_of_fits hw h

/-- A text that is encoded denotes a number, or is an address that a newline follows. -/
theorem textDenotes_of_encodeText
    {text : Text} {bitwidth : Nat} {data : Bytes}
    (hw : 1 ≤ bitwidth) (h : encodeText text bitwidth = .ok data) :
    TextDenotes text bitwidth (fromBytes data) ∨ (bitwidth = 48 ∧ IsMacLine text) := by
  unfold encodeText at h
  split_ifs at h with hdots hwidth hmac hwidth hcolon hwidth
  · refine Or.inl (.ipv4 (not_not.mp hwidth) ?_)
    unfold encodeIpv4 at h
    split at h
    · rename_i packed hpacked
      rw [hpacked, Except.ok.inj h]
    · cases h
  · obtain rfl := not_not.mp hwidth
    rcases (encodeMac_isOk_iff text).mp ⟨data, h⟩ with ⟨parts, hparts, htext⟩ | hline
    · have hread := encodeMac_of_parts hparts (Or.inl rfl)
      rw [List.append_nil, ← htext, h] at hread
      rw [Except.ok.inj hread]
      exact Or.inl (.mac rfl hparts htext)
    · exact Or.inr ⟨rfl, hline⟩
  · refine Or.inl (.ipv6 (not_not.mp hwidth) ?_)
    split at h
    · rename_i packed hpacked
      rw [hpacked, Except.ok.inj h]
    · cases h
  · split at h
    · rename_i z hz
      obtain ⟨n, rfl, hlt, rfl⟩ := (encodeInt_eq_ok_iff hw z data).mp h
      refine Or.inl (.integer ?_ ?_)
      · rw [hz, byteWidth, fromBytes_toBytes (lt_pow_bytes_of_lt hlt)]
      · rwa [byteWidth, fromBytes_toBytes (lt_pow_bytes_of_lt hlt)]
    · cases h

theorem not_dottedIpv6_of_encodeValue
    {value : PyValue} {bitwidth : Nat} {data : Bytes}
    (h : encodeValue value bitwidth = .ok data) :
    ¬ DottedIpv6 value bitwidth := by
  rintro ⟨text, rfl, rfl, -, hcount⟩
  simp [encodeValue, encodeText, hcount] at h

/-- What is encoded denotes the number, or is an address that a newline follows. -/
theorem denotes_of_encodeValue
    {value : PyValue} {bitwidth : Nat} {data : Bytes}
    (hw : 1 ≤ bitwidth) (h : encodeValue value bitwidth = .ok data) :
    Denotes value bitwidth (fromBytes data) ∨ NewlineMac value bitwidth := by
  cases value with
  | str text =>
      rw [encodeValue, if_neg (by omega)] at h
      rcases textDenotes_of_encodeText hw h with hdenotes | ⟨hwidth, hline⟩
      · exact Or.inl hdenotes
      · exact Or.inr ⟨text, rfl, hwidth, hline⟩
  | none => exact Or.inl (encodeValue_fits hw trivial h)
  | bool b => exact Or.inl (encodeValue_fits hw trivial h)
  | int z => exact Or.inl (encodeValue_fits hw trivial h)
  | bytes bytes => exact Or.inl (encodeValue_fits hw trivial h)
  | pair a b =>
      unfold encodeValue at h
      rw [if_neg (by omega)] at h
      cases h
  | other => exact Or.inl (encodeValue_fits hw trivial h)

/-- Which arguments are encoded. -/
theorem encodeValue_ok_iff
    {bitwidth : Nat}
    (hw : 1 ≤ bitwidth) (value : PyValue) :
    (∃ data, encodeValue value bitwidth = .ok data) ↔
      ((∃ n, Denotes value bitwidth n) ∧ ¬ DottedIpv6 value bitwidth) ∨
        NewlineMac value bitwidth := by
  constructor
  · rintro ⟨data, h⟩
    rcases denotes_of_encodeValue hw h with hdenotes | hline
    · exact Or.inl ⟨⟨_, hdenotes⟩, not_dottedIpv6_of_encodeValue h⟩
    · exact Or.inr hline
  · rintro (⟨⟨n, hn⟩, hdotted⟩ | ⟨text, rfl, rfl, hline⟩)
    · obtain ⟨data, hdata, -⟩ := encodeValue_of_denotes hw hn hdotted
      exact ⟨data, hdata⟩
    · obtain ⟨data, hdata⟩ := (encodeMac_isOk_iff text).mpr (Or.inr hline)
      have hmatch := matchMac_of_read ((read_mac_eq_some_iff _ _).mpr hdata)
      exact ⟨data, (encodeValue_of_matchMac hmatch).trans hdata⟩

/-- An address that a newline follows denotes nothing. -/
theorem not_denotes_of_newlineMac
    {value : PyValue} {bitwidth : Nat}
    (h : NewlineMac value bitwidth) (n : Nat) :
    ¬ Denotes value bitwidth n := by
  obtain ⟨text, rfl, rfl, hline⟩ := h
  intro hn
  have htext : TextDenotes text 48 n := hn
  rcases (textDenotes_iff _ _ _).mp htext with ⟨_, _, -, -, hnot, -⟩ | ⟨hint, -⟩
  · exact hnot hline
  · obtain ⟨data, hdata⟩ := (encodeMac_isOk_iff text).mpr (Or.inr hline)
    rw [parseInt_of_read ((read_mac_eq_some_iff _ _).mpr hdata)] at hint
    cases hint

end Literals
end P4Net

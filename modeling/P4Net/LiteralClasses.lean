import P4Net.AddressTexts
import P4Net.MacAddresses

/-!
# What a string argument denotes

`encode_value` guesses what a string denotes from its dots and colons.  The interpreter is taken to
read integers of any length (`encodeValue`, not `encodeValueLimited`).

* `Family` : the families of addresses, with their widths and their literals.
* `encodeValue_literal` : an integer literal is encoded as the integer.
* `encodeValue_own`, `encodeValue_foreign` : the literals of a family at its own width and at
  others.
* `classified_iff` : every string is encoded as what it denotes, except for IPv6 literals
  with three dots.
-/

namespace P4Net
namespace Literals

open TextLiterals BigEndian ControlCodec Mac

/-! ### Integers -/

theorem count_eq_zero_of_literal
    {text : Text} {n : Nat} (h : Literal text n) {c : Char} (hc : c ∈ ['.', ':']) :
    c ∉ text := by
  intro hmem
  rcases h.isAlnum_of_mem hmem with rfl | halnum
  · revert hc
    decide
  · have hnot := (plain_of_isAlnum halnum).2.2
    simp only [List.mem_cons, List.not_mem_nil, or_false] at hc
    rcases hc with rfl | rfl <;> simp at hnot

/-- Without dots and colons a text is read as an integer. -/
theorem encodeText_integer
    {text : Text} (hdot : '.' ∉ text) (hcolon : ':' ∉ text) {n : Nat}
    (hn : parseInt 0 text = some (n : Int)) (bitwidth : Nat) :
    encodeText text bitwidth = encodeInt (.int n) bitwidth := by
  have hdots : text.count '.' = 0 := List.count_eq_zero.mpr hdot
  have hcolons : text.count ':' = 0 := List.count_eq_zero.mpr hcolon
  simp [encodeText, hdots, hcolons, hcolon, hn]

/-- A literal is encoded as the integer that it denotes. -/
theorem encodeValue_literal
    {text : Text} {n bitwidth : Nat}
    (h : Literal text n) (hw : 1 ≤ bitwidth) (hn : n < 2 ^ bitwidth) :
    encodeValue (.str text) bitwidth = .ok (toBytes (byteWidth bitwidth) n) := by
  have hw0 : bitwidth ≠ 0 := by omega
  rw [encodeValue, if_neg hw0]
  exact (encodeText_integer (count_eq_zero_of_literal h (by simp))
    (count_eq_zero_of_literal h (by simp)) (parseInt_literal h) bitwidth).trans
    ((encodeInt_nat hw n).trans (if_pos hn))

/-! ### Addresses -/

/-- The families of addresses. -/
inductive Family where
  | ipv4
  | mac
  | ipv6
deriving DecidableEq, Repr

/-- The width of the addresses. -/
def Family.bitwidth : Family → Nat
  | .ipv4 => 32
  | .mac => 48
  | .ipv6 => 128

/-- The bytes of a text that the reader of the family accepts. -/
def Family.read (family : Family) (text : Text) : Option Bytes :=
  match family with
  | .ipv4 => ipv4Packed text
  | .mac => (encodeMac text).toOption
  | .ipv6 => ipv6Packed text

/-- The text is an IPv6 literal with three dots: most of those with a dotted quad. -/
def ThreeDots (text : Text) : Prop := (ipv6Packed text).isSome ∧ text.count '.' = 3

theorem read_mac_eq_some_iff
    (text : Text) (data : Bytes) :
    Family.mac.read text = some data ↔ encodeMac text = .ok data := by
  cases h : encodeMac text <;> simp [Family.read, h, Except.toOption]

theorem matchMac_of_read
    {text : Text} {data : Bytes}
    (h : Family.mac.read text = some data) :
    matchMac text = true := by
  rw [read_mac_eq_some_iff, encodeMac] at h
  by_contra hnot
  rw [if_neg hnot] at h
  cases h

/-- Six parts without an empty one are no IPv6 address. -/
theorem groupsValue_six
    {parts : List Text}
    (hlength : parts.length = 6) (hne : [] ∉ parts) :
    groupsValue parts = none := by
  have hskip := skipIndices_of_not_mem hne
  simp [groupsValue, hskip, hlength]

/-- A hardware address is no IPv6 address. -/
theorem ipv6Packed_of_matchMac
    {text : Text}
    (h : matchMac text = true) :
    ipv6Packed text = none := by
  rw [matchMac_eq, matchToEnd_pairsFirst_iff] at h
  obtain ⟨parts, rest, hparts, hrest, rfl⟩ : ∃ parts rest, IsOctets parts ∧
      (rest = [] ∨ rest = ['\n']) ∧ text = join ':' parts ++ rest := by
    rcases h with ⟨parts, hparts, rfl⟩ | ⟨_, rfl, parts, hparts, rfl⟩
    · exact ⟨parts, [], hparts, Or.inl rfl, by simp⟩
    · exact ⟨parts, _, hparts, Or.inr rfl, rfl⟩
  have hcolon : ':' ∉ rest := by
    rcases hrest with rfl | rfl <;> decide
  have hchars : ∀ c ∈ join ':' parts ++ rest, c ≠ '%' ∧ c ≠ '.' := by
    intro c hc
    rcases List.mem_append.mp hc with hc | hc
    · rcases mem_join hc with rfl | ⟨part, hpart, hc⟩
      · decide
      · have hhex := (hparts.2 part hpart).2 c hc
        constructor <;> rintro rfl <;> revert hhex <;> decide
    · rcases hrest with rfl | rfl
      · cases hc
      · rw [List.mem_singleton.mp hc]
        decide
  obtain ⟨front, last, rfl, hsplit⟩ := hparts.splitOn_append hcolon
  by_contra hsome
  obtain ⟨packed, hpacked⟩ := Option.ne_none_iff_exists'.mp hsome
  obtain ⟨_, addr, value, hscope, hvalue, _⟩ := (ipv6Packed_eq_some_iff _ _).mp hpacked
  rw [splitScopeId, splitOnce_of_not_mem fun hmem => (hchars _ hmem).1 rfl] at hscope
  rw [← Option.some.inj hscope] at hvalue
  obtain ⟨_, expanded, hexpand, _, hgroup⟩ := (ipv6Value_eq_some_iff _ _).mp hvalue
  rw [expandIpv4Suffix_of_not_mem fun hmem => (hchars _ hmem).2 rfl, Option.some.injEq,
    hsplit] at hexpand
  have hlength : (front ++ [last ++ rest]).length = 6 := by
    simpa using hparts.1
  have hne : [] ∉ front ++ [last ++ rest] := by
    have hpair : ∀ part ∈ front ++ [last], part ≠ [] := by
      rintro part hpart rfl
      cases (hparts.2 _ hpart).1
    intro hmem
    rcases List.mem_append.mp hmem with hmem | hmem
    · exact hpair _ (List.mem_append_left _ hmem) rfl
    · have hlast := List.append_eq_nil_iff.mp (List.mem_singleton.mp hmem).symm
      exact hpair last (by simp) hlast.1
  rw [← hexpand, groupsValue_six hlength hne] at hgroup
  cases hgroup

/-- A literal of a family is encoded at its width, unless it is an IPv6 literal with three
dots: it is taken for an IPv4 literal. -/
theorem encodeValue_own
    {text : Text} {family : Family} {data : Bytes}
    (h : family.read text = some data) (hdots : ¬ ThreeDots text) :
    encodeValue (.str text) family.bitwidth = .ok data := by
  cases family with
  | ipv4 =>
      have hdot := (ipv4Packed_chars h).1
      have h4 : ipv4Packed text = some data := h
      simp [encodeValue, Family.bitwidth, encodeText, hdot, encodeIpv4, h4]
  | mac =>
      have hmac := matchMac_of_read h
      exact (encodeValue_of_matchMac hmac).trans ((read_mac_eq_some_iff _ _).mp h)
  | ipv6 =>
      have h6 : ipv6Packed text = some data := h
      have hmac : ¬ matchMac text = true := by
        intro hmac
        rw [ipv6Packed_of_matchMac hmac] at h6
        cases h6
      have hdot : ¬ text.count '.' = 3 := fun hdot => hdots ⟨by rw [h6]; rfl, hdot⟩
      simp [encodeValue, Family.bitwidth, encodeText, hdot, hmac, colon_mem_of_ipv6Packed h6, h6]

/-- A literal of a family is rejected at every other width. -/
theorem encodeValue_foreign
    {text : Text} {family : Family} {data : Bytes}
    (h : family.read text = some data) {bitwidth : Nat} (hw : bitwidth ≠ family.bitwidth)
    (out : Bytes) :
    encodeValue (.str text) bitwidth ≠ .ok out := by
  intro hout
  rw [encodeValue] at hout
  by_cases hw0 : bitwidth = 0
  · rw [if_pos hw0] at hout
    cases hout
  rw [if_neg hw0] at hout
  have htext : encodeText text bitwidth = .ok out := hout
  cases family with
  | ipv4 =>
      have hdot := (ipv4Packed_chars h).1
      have hne : bitwidth ≠ 32 := hw
      simp [encodeText, hdot, hne] at htext
  | mac =>
      have hmac := matchMac_of_read h
      obtain ⟨hdot, hcolon⟩ := counts_of_matchMac hmac
      have hne : bitwidth ≠ 48 := hw
      simp [encodeText, hdot, hcolon, hmac, hne] at htext
  | ipv6 =>
      have h6 : ipv6Packed text = some data := h
      have hmem := colon_mem_of_ipv6Packed h6
      have hne : bitwidth ≠ 128 := hw
      have hmac : ¬ matchMac text = true := by
        intro hmac
        rw [ipv6Packed_of_matchMac hmac] at h6
        cases h6
      by_cases hdot : text.count '.' = 3
      · -- Three dots lead to the reader of IPv4, which rejects the colon.
        have h4 : ipv4Packed text = none := by
          by_contra hsome
          obtain ⟨packed, hpacked⟩ := Option.ne_none_iff_exists'.mp hsome
          exact (ipv4Packed_chars hpacked).2 hmem
        by_cases h32 : bitwidth = 32
        · simp [encodeText, hdot, h32, encodeIpv4, h4] at htext
        · simp [encodeText, hdot, h32] at htext
      · simp [encodeText, hdot, hmac, hmem, hne] at htext

/-! ### Results -/

/-- A text is encoded as what it denotes. -/
structure Classified (text : Text) : Prop where
  address : ∀ family data, Family.read family text = some data →
    encodeValue (.str text) family.bitwidth = .ok data
  integer : ∀ n bitwidth, Literal text n → 1 ≤ bitwidth → n < 2 ^ bitwidth →
    encodeValue (.str text) bitwidth = .ok (toBytes (byteWidth bitwidth) n)
  foreign : ∀ family data bitwidth out, Family.read family text = some data →
    bitwidth ≠ family.bitwidth → encodeValue (.str text) bitwidth ≠ .ok out

/-- A text is encoded as what it denotes iff it is not an IPv6 literal with three dots. -/
theorem classified_iff
    (text : Text) :
    Classified text ↔ ¬ ThreeDots text := by
  constructor
  · rintro h ⟨hsome, hdot⟩
    obtain ⟨data, hdata⟩ := Option.isSome_iff_exists.mp hsome
    have hencoded := h.address .ipv6 data hdata
    simp [encodeValue, Family.bitwidth, encodeText, hdot] at hencoded
  · intro hdots
    exact
      { address := fun _ _ h => encodeValue_own h hdots
        integer := fun _ _ h hw hn => encodeValue_literal h hw hn
        foreign := fun _ _ _ out h hw => encodeValue_foreign h hw out }

/-- An IPv4-mapped address and a translated one, each written with its dotted quad. -/
theorem dottedQuads_rejected :
    let mapped := "::ffff:10.0.0.1".toList
    let translated := "64:ff9b::192.0.2.1".toList
    ((ipv6Packed mapped).isSome = true ∧ ':' ∈ mapped ∧ matchMac mapped = false ∧
      encodeValue (.str mapped) 128 = .error (.literalWidth mapped 32 128)) ∧
    ((ipv6Packed translated).isSome = true ∧ ':' ∈ translated ∧ matchMac translated = false ∧
      encodeValue (.str translated) 128 = .error (.literalWidth translated 32 128)) := by
  intro mapped translated
  exact ⟨⟨rfl, by decide, by decide, by decide⟩, ⟨rfl, by decide, by decide, by decide⟩⟩

end Literals
end P4Net

import P4Net.ControlCodec
import P4Net.LinkDescriptors
import P4Net.RegexPatterns
import P4Net.TextJoins

/-!
# Hardware addresses

Four modules check the text of a hardware address, each with its own expression.  Hosts and
link endpoints anchor it by `fullmatch`, and the runtime and the codec by `match` and `$`.

* `IsMac` : six pairs of hexadecimal digits, joined by colons.
* `pairsFirst_matches_iff`, `pairsLast_matches_iff` : both spellings of the expression.
* `setMac` : the check of the runtime.
* `one_grammar_iff` : the four layers agree on a text, unless it is an address and a newline.
-/

namespace P4Net
namespace Mac

open TextLiterals BigEndian ControlCodec Regex Topo

/-! ### The grammar -/

/-- `[0-9A-Fa-f]`. -/
def isHex (c : Char) : Bool :=
  decide ('0' ≤ c ∧ c ≤ '9') || decide ('A' ≤ c ∧ c ≤ 'F') || decide ('a' ≤ c ∧ c ≤ 'f')

/-- Two hexadecimal digits. -/
def IsPair (part : Text) : Prop := part.length = 2 ∧ ∀ c ∈ part, isHex c = true

/-- Six pairs. -/
def IsOctets (parts : List Text) : Prop := parts.length = 6 ∧ ∀ part ∈ parts, IsPair part

/-- Six pairs, joined by colons. -/
def IsMac (text : Text) : Prop := ∃ parts, IsOctets parts ∧ text = join ':' parts

/-- The byte that a pair denotes. -/
def octet (part : Text) : UInt8 :=
  UInt8.ofNat (part.foldl (fun n c => 16 * n + (digitValue 16 c).getD 0) 0)

theorem isHex_eq
    (c : Char) :
    isHex c = (digitValue 16 c).isSome := by
  have hlow : ∀ n < 128, isHex (Char.ofNat n) = (digitValue 16 (Char.ofNat n)).isSome := by
    decide
  by_cases hc : c.toNat < 128
  · have h := hlow c.toNat hc
    rwa [Char.ofNat_toNat] at h
  · have hnot : ∀ d : Char, d.toNat < 128 → ¬ c ≤ d := by
      intro d hd hle
      have hle' : c.toNat ≤ d.toNat := hle
      omega
    simp [isHex, digitValue, hnot '9' (by decide), hnot 'F' (by decide), hnot 'f' (by decide),
      hnot 'z' (by decide), hnot 'Z' (by decide)]

theorem isHex_ne
    {c : Char}
    (h : isHex c = true) :
    c ≠ ':' ∧ c ≠ '\n' ∧ c ≠ '_' := by
  refine ⟨?_, ?_, ?_⟩ <;> rintro rfl <;> revert h <;> decide

theorem IsPair.not_mem
    {part : Text} (h : IsPair part) :
    ':' ∉ part ∧ '\n' ∉ part :=
  ⟨fun hmem => (isHex_ne (h.2 _ hmem)).1 rfl, fun hmem => (isHex_ne (h.2 _ hmem)).2.1 rfl⟩

theorem IsOctets.splitOn_join
    {parts : List Text} (h : IsOctets parts) :
    splitOn ':' (join ':' parts) = parts := by
  refine TextLiterals.splitOn_join ?_ fun part hpart => (h.2 part hpart).not_mem.1
  rintro rfl
  cases h.1

theorem IsMac.not_mem
    {text : Text} (h : IsMac text) :
    '\n' ∉ text := by
  obtain ⟨parts, hparts, rfl⟩ := h
  intro hmem
  rcases mem_join hmem with hc | ⟨part, hpart, hc⟩
  · cases hc
  · exact (hparts.2 part hpart).not_mem.2 hc

/-! ### The expressions -/

/-- `[0-9A-Fa-f]{2}`. -/
def pairRe : Pattern := .times 2 (.set isHex)

/-- `:`. -/
def colonRe : Pattern := .set fun c => decide (c = ':')

/-- `_MAC_RE` of the codec, of the runtime and of hosts: `[0-9A-Fa-f]{2}(:[0-9A-Fa-f]{2}){5}`. -/
def pairsFirst : Pattern := .seq pairRe (.times 5 (.seq colonRe pairRe))

/-- `_MAC_RE` of link endpoints: `([0-9A-Fa-f]{2}:){5}[0-9A-Fa-f]{2}`. -/
def pairsLast : Pattern := .seq (.times 5 (.seq pairRe colonRe)) pairRe

theorem pairRe_matches_iff
    (text : Text) :
    pairRe.Matches text ↔ IsPair text := by
  constructor
  · rintro ⟨pieces, hlength, rfl, hpieces⟩
    obtain ⟨x, y, rfl⟩ := List.length_eq_two.mp hlength
    obtain ⟨c, rfl, hc⟩ := hpieces x (by simp)
    obtain ⟨d, rfl, hd⟩ := hpieces y (by simp)
    exact ⟨rfl, by simp [hc, hd]⟩
  · rintro ⟨hlength, hchars⟩
    obtain ⟨c, d, rfl⟩ := List.length_eq_two.mp hlength
    refine ⟨[[c], [d]], rfl, rfl, ?_⟩
    simp only [List.forall_mem_cons, List.not_mem_nil, false_implies, implies_true, and_true]
    exact ⟨⟨c, rfl, hchars c (by simp)⟩, ⟨d, rfl, hchars d (by simp)⟩⟩

theorem colonRe_matches_iff
    (text : Text) :
    colonRe.Matches text ↔ text = [':'] := by
  constructor
  · rintro ⟨c, rfl, hc⟩
    rw [of_decide_eq_true hc]
  · rintro rfl
    exact ⟨':', rfl, rfl⟩

theorem colonPair_matches_iff
    (text : Text) :
    (Pattern.seq colonRe pairRe).Matches text ↔ ∃ part, IsPair part ∧ text = ':' :: part := by
  constructor
  · rintro ⟨front, part, rfl, hcolon, hpair⟩
    obtain rfl := (colonRe_matches_iff front).mp hcolon
    exact ⟨part, (pairRe_matches_iff part).mp hpair, rfl⟩
  · rintro ⟨part, hpart, rfl⟩
    exact ⟨[':'], part, rfl, (colonRe_matches_iff _).mpr rfl, (pairRe_matches_iff part).mpr hpart⟩

theorem pairColon_matches_iff
    (text : Text) :
    (Pattern.seq pairRe colonRe).Matches text ↔ ∃ part, IsPair part ∧ text = part ++ [':'] := by
  constructor
  · rintro ⟨part, back, rfl, hpair, hcolon⟩
    obtain rfl := (colonRe_matches_iff back).mp hcolon
    exact ⟨part, (pairRe_matches_iff part).mp hpair, rfl⟩
  · rintro ⟨part, hpart, rfl⟩
    exact ⟨part, [':'], rfl, (pairRe_matches_iff part).mpr hpart, (colonRe_matches_iff _).mpr rfl⟩

/-- Pieces that are images of pairs come from a list of pairs. -/
theorem exists_pairs
    {f : Text → Text} {pieces : List Text}
    (h : ∀ piece ∈ pieces, ∃ part, IsPair part ∧ piece = f part) :
    ∃ parts : List Text, (∀ part ∈ parts, IsPair part) ∧ pieces = parts.map f := by
  induction pieces with
  | nil => exact ⟨[], by simp, rfl⟩
  | cons piece rest ih =>
      obtain ⟨part, hpart, rfl⟩ := h piece (by simp)
      obtain ⟨parts, hparts, rfl⟩ := ih fun p hp => h p (List.mem_cons_of_mem _ hp)
      exact ⟨part :: parts, List.forall_mem_cons.mpr ⟨hpart, hparts⟩, rfl⟩

theorem pairsFirst_matches_iff
    (text : Text) :
    pairsFirst.Matches text ↔ IsMac text := by
  constructor
  · rintro ⟨first, back, rfl, hfirst, pieces, hlength, rfl, hpieces⟩
    obtain ⟨parts, hpairs, rfl⟩ := exists_pairs (f := (':' :: ·))
      fun piece hpiece => (colonPair_matches_iff piece).mp (hpieces piece hpiece)
    rw [List.length_map] at hlength
    refine ⟨first :: parts, ⟨by simp [hlength], ?_⟩, (join_cons_eq ':' first parts).symm⟩
    exact List.forall_mem_cons.mpr ⟨(pairRe_matches_iff first).mp hfirst, hpairs⟩
  · rintro ⟨parts, ⟨hlength, hpairs⟩, rfl⟩
    cases parts with
    | nil => cases hlength
    | cons first parts =>
        obtain ⟨hfirst, hrest⟩ := List.forall_mem_cons.mp hpairs
        refine ⟨first, _, join_cons_eq ':' first parts, (pairRe_matches_iff first).mpr hfirst,
          parts.map (':' :: ·), by simpa using hlength, rfl, fun piece hpiece => ?_⟩
        obtain ⟨part, hpart, rfl⟩ := List.mem_map.mp hpiece
        exact (colonPair_matches_iff _).mpr ⟨part, hrest part hpart, rfl⟩

theorem pairsLast_matches_iff
    (text : Text) :
    pairsLast.Matches text ↔ IsMac text := by
  constructor
  · rintro ⟨front, last, rfl, ⟨pieces, hlength, rfl, hpieces⟩, hlast⟩
    obtain ⟨parts, hpairs, rfl⟩ := exists_pairs (f := (· ++ [':']))
      fun piece hpiece => (pairColon_matches_iff piece).mp (hpieces piece hpiece)
    rw [List.length_map] at hlength
    refine ⟨parts ++ [last], ⟨by simp [hlength], ?_⟩, (join_concat_eq ':' parts last).symm⟩
    intro part hpart
    rcases List.mem_append.mp hpart with hpart | hpart
    · exact hpairs part hpart
    · rw [List.mem_singleton.mp hpart]
      exact (pairRe_matches_iff last).mp hlast
  · rintro ⟨parts, ⟨hlength, hpairs⟩, rfl⟩
    rcases List.eq_nil_or_concat parts with rfl | ⟨front, last, rfl⟩
    · cases hlength
    · rw [List.concat_eq_append] at hlength hpairs ⊢
      refine ⟨_, last, join_concat_eq ':' front last, ⟨front.map (· ++ [':']),
        by simpa using hlength, rfl, fun piece hpiece => ?_⟩,
        (pairRe_matches_iff last).mpr (hpairs last (by simp))⟩
      obtain ⟨part, hpart, rfl⟩ := List.mem_map.mp hpiece
      exact (pairColon_matches_iff _).mpr ⟨part, hpairs part (List.mem_append_left _ hpart), rfl⟩

/-! ### The checks -/

/-- The check that hosts and link endpoints make. -/
theorem fullmatchMac_iff
    (text : Text) :
    fullmatchMac text = true ↔ IsMac text := by
  have hpair : ∀ part : Text,
      (part.length = 2 && part.all fun ch => (digitValue 16 ch).isSome) = true ↔ IsPair part := by
    intro part
    simp only [IsPair, isHex_eq, Bool.and_eq_true, decide_eq_true_eq, List.all_eq_true]
  constructor
  · intro h
    unfold fullmatchMac at h
    split at h
    · rename_i a b c d e f hsplit
      refine ⟨[a, b, c, d, e, f], ⟨rfl, fun part hpart => ?_⟩, ?_⟩
      · exact (hpair part).mp (List.all_eq_true.mp h part hpart)
      · rw [← hsplit, join_splitOn]
    · cases h
  · rintro ⟨parts, hparts, rfl⟩
    rw [fullmatchMac, hparts.splitOn_join]
    match parts, hparts with
    | [a, b, c, d, e, f], hparts =>
        exact List.all_eq_true.mpr fun part hpart => (hpair part).mpr (hparts.2 part hpart)

/-- Hosts and link endpoints write the expression differently, and mean the same. -/
theorem fullmatch_pairs
    (text : Text) :
    pairsFirst.fullmatch text = fullmatchMac text ∧
      pairsLast.fullmatch text = fullmatchMac text := by
  constructor
  · rw [Bool.eq_iff_iff, Pattern.fullmatch_iff, pairsFirst_matches_iff, fullmatchMac_iff]
  · rw [Bool.eq_iff_iff, Pattern.fullmatch_iff, pairsLast_matches_iff, fullmatchMac_iff]

/-- An address and a newline. -/
def IsMacLine (text : Text) : Prop := ∃ mac, text = mac ++ ['\n'] ∧ IsMac mac

theorem matchToEnd_pairsFirst_iff
    (text : Text) :
    pairsFirst.matchToEnd text = true ↔ IsMac text ∨ IsMacLine text := by
  simp only [Pattern.matchToEnd_iff, pairsFirst_matches_iff, IsMacLine]

/-- The check of the codec is its expression. -/
theorem matchMac_eq
    (text : Text) :
    matchMac text = pairsFirst.matchToEnd text := by
  have hstrip : ∀ t : Text, matchMac t =
      fullmatchMac (if t.getLast? = some '\n' then t.dropLast else t) := fun _ => rfl
  rw [hstrip, Bool.eq_iff_iff, fullmatchMac_iff, matchToEnd_pairsFirst_iff]
  by_cases hlast : text.getLast? = some '\n'
  · obtain ⟨front, rfl⟩ := List.getLast?_eq_some_iff.mp hlast
    rw [if_pos hlast, List.dropLast_concat]
    constructor
    · intro h
      exact Or.inr ⟨front, rfl, h⟩
    · rintro (h | ⟨mac, htext, hmac⟩)
      · exact absurd (by simp) h.not_mem
      · rwa [List.append_cancel_right htext]
  · rw [if_neg hlast]
    refine ⟨Or.inl, ?_⟩
    rintro (h | ⟨mac, rfl, _⟩)
    · exact h
    · simp at hlast

/-- The `ValueError`s of `set_mac`. -/
inductive SetMacError where
  | invalidSide (side : String)
  | invalidMac (mac : Value)

/-- `VethPair.set_mac`, up to the address that it passes to the kernel. -/
def setMac (side : String) (mac : Value) : Except SetMacError Text :=
  if side ∉ ["a", "b"] then .error (.invalidSide side)
  else
    match mac with
    | .str s =>
        if pairsFirst.matchToEnd s.toList then .ok (s.toList.map Char.toLower)
        else .error (.invalidMac mac)
    | _ => .error (.invalidMac mac)

/-! ### The codec -/

theorem scanDigits_pair
    {part : Text} (h : IsPair part) {rest : Text} (hrest : rest = [] ∨ rest = ['\n']) :
    scanDigits 16 0 false (part ++ rest) =
      some (part.foldl (fun n c => 16 * n + (digitValue 16 c).getD 0) 0, rest) := by
  obtain ⟨hlength, hchars⟩ := h
  obtain ⟨c, d, rfl⟩ := List.length_eq_two.mp hlength
  have hc := hchars c (by simp)
  have hd := hchars d (by simp)
  have hcu := (isHex_ne hc).2.2
  have hdu := (isHex_ne hd).2.2
  rw [isHex_eq] at hc hd
  obtain ⟨x, hx⟩ := Option.isSome_iff_exists.mp hc
  obtain ⟨y, hy⟩ := Option.isSome_iff_exists.mp hd
  have hnewline : digitValue 16 '\n' = none := rfl
  rcases hrest with rfl | rfl <;>
    simp [scanDigits, hcu, hdu, hx, hy, hnewline, Nat.mul_comm]

/-- What follows an address belongs to its last part. -/
theorem IsOctets.splitOn_append
    {parts : List Text} (h : IsOctets parts) {rest : Text} (hrest : ':' ∉ rest) :
    ∃ front last, parts = front ++ [last] ∧
      splitOn ':' (join ':' parts ++ rest) = front ++ [last ++ rest] := by
  rcases List.eq_nil_or_concat parts with rfl | ⟨front, last, rfl⟩
  · cases h.1
  · rw [List.concat_eq_append] at h ⊢
    refine ⟨front, last, rfl, ?_⟩
    have hjoin : join ':' (front ++ [last]) ++ rest = join ':' (front ++ [last ++ rest]) := by
      rw [join_concat_eq, join_concat_eq, List.append_assoc]
    rw [hjoin]
    refine TextLiterals.splitOn_join (by simp) fun part hpart => ?_
    rcases List.mem_append.mp hpart with hpart | hpart
    · exact (h.2 part (List.mem_append_left _ hpart)).not_mem.1
    · rw [List.mem_singleton.mp hpart, List.mem_append, not_or]
      exact ⟨(h.2 last (by simp)).not_mem.1, hrest⟩

/-- The codec reads the bytes of an address, and of an address and a newline. -/
theorem encodeMac_of_parts
    {parts : List Text} (h : IsOctets parts) {rest : Text} (hrest : rest = [] ∨ rest = ['\n']) :
    encodeMac (join ':' parts ++ rest) = .ok (parts.map octet) := by
  have hmatch : matchMac (join ':' parts ++ rest) = true := by
    rw [matchMac_eq, matchToEnd_pairsFirst_iff]
    rcases hrest with rfl | rfl
    · exact Or.inl ⟨parts, h, List.append_nil _⟩
    · exact Or.inr ⟨_, rfl, parts, h, rfl⟩
  have hcolon : ':' ∉ rest := by
    rcases hrest with rfl | rfl <;> decide
  obtain ⟨front, last, rfl, hsplit⟩ := h.splitOn_append hcolon
  have hpairs := h.2
  rw [encodeMac, if_pos hmatch, hsplit, List.map_append, List.map_append]
  congr 2
  · refine List.map_congr_left fun part hpart => ?_
    have hscan := scanDigits_pair (hpairs part (List.mem_append_left _ hpart)) (Or.inl rfl)
    rw [List.append_nil] at hscan
    rw [hscan]
    rfl
  · rw [List.map_singleton, scanDigits_pair (hpairs last (by simp)) hrest]
    rfl

/-- The codec accepts an address, with a newline or without. -/
theorem encodeMac_isOk_iff
    (text : Text) :
    (∃ data, encodeMac text = .ok data) ↔ IsMac text ∨ IsMacLine text := by
  rw [← matchToEnd_pairsFirst_iff, ← matchMac_eq]
  by_cases h : matchMac text = true
  · rw [encodeMac, if_pos h]
    exact iff_of_true ⟨_, rfl⟩ h
  · rw [encodeMac, if_neg h]
    exact iff_of_false (by simp) h

/-- The dispatch of `encode_value` counts no dot and five colons in such texts. -/
theorem counts_of_matchMac
    {text : Text}
    (h : matchMac text = true) :
    text.count '.' = 0 ∧ text.count ':' = 5 := by
  have hparts : ∀ parts rest, IsOctets parts → (rest = [] ∨ rest = ['\n']) →
      (join ':' parts ++ rest).count '.' = 0 ∧ (join ':' parts ++ rest).count ':' = 5 := by
    intro parts rest hparts hrest
    have hdot : ∀ part ∈ parts, part.count '.' = 0 := by
      intro part hpart
      refine List.count_eq_zero.mpr fun hmem => ?_
      have hhex := (hparts.2 part hpart).2 _ hmem
      revert hhex
      decide
    have hcolon := count_sep_join fun part hpart => (hparts.2 part hpart).not_mem.1
    have hzero : (parts.map (List.count '.')).sum = 0 := by
      simpa [List.sum_eq_zero_iff] using hdot
    rw [List.count_append, List.count_append, count_join parts (by decide), hzero, hcolon,
      hparts.1]
    rcases hrest with rfl | rfl <;> decide
  rw [matchMac_eq, matchToEnd_pairsFirst_iff] at h
  rcases h with ⟨parts, hoctets, rfl⟩ | ⟨_, rfl, parts, hoctets, rfl⟩
  · simpa using hparts parts [] hoctets (Or.inl rfl)
  · exact hparts parts _ hoctets (Or.inr rfl)

theorem encodeValue_of_matchMac
    {text : Text}
    (h : matchMac text = true) :
    encodeValue (.str text) 48 = encodeMac text := by
  have hcounts := counts_of_matchMac h
  have hwidth : ¬ (48 : Nat) = 0 := by decide
  rw [encodeValue, if_neg hwidth]
  simp only [encodeText, hcounts.1, hcounts.2, h]
  rfl

/-! ### One grammar -/

/-- The four layers accept the text iff it is an address, and the codec returns its bytes. -/
structure OneGrammar (text : String) : Prop where
  host : ∀ args : HostArgs, (∃ host, Host.make { args with mac := .none } = .ok host) →
    ((∃ host, Host.make { args with mac := .str text } = .ok host) ↔ IsMac text.toList)
  endpoint : ∀ args : EndpointArgs,
    (∃ ep, LinkEndpoint.make { args with mac := .none } = .ok ep) →
    ((∃ ep, LinkEndpoint.make { args with mac := .str text } = .ok ep) ↔ IsMac text.toList)
  runtime : ∀ side ∈ ["a", "b"],
    ((∃ address, setMac side (.str text) = .ok address) ↔ IsMac text.toList)
  codec : (∃ data, encodeMac text.toList = .ok data) ↔ IsMac text.toList
  dispatch : IsMac text.toList → encodeValue (.str text.toList) 48 = encodeMac text.toList
  octets : ∀ parts, IsOctets parts → text.toList = join ':' parts →
    encodeMac text.toList = .ok (parts.map octet)

theorem host_make_mac_iff
    {args : HostArgs} (hargs : ∃ host, Host.make { args with mac := .none } = .ok host)
    (text : String) :
    (∃ host, Host.make { args with mac := .str text } = .ok host) ↔ IsMac text.toList := by
  rw [← fullmatchMac_iff]
  constructor
  · rintro ⟨host, hmake⟩
    have hmac := congrArg HostArgs.mac ((Host.make_eq_ok_iff _ host).mp hmake)
    cases hhost : host.mac with
    | none => simp [hostArgs, hhost, Value.ofOptStr] at hmac
    | some mac =>
        have htext : text = mac := by simpa [hostArgs, hhost, Value.ofOptStr] using hmac
        exact htext ▸ host.ok.mac mac hhost
  · intro htext
    obtain ⟨host, hmake⟩ := hargs
    have hfields := (Host.make_eq_ok_iff _ host).mp hmake
    have hok : HostOk { host.toHost with mac := some text } :=
      { host.ok with mac := by simpa using htext }
    refine ⟨⟨_, hok⟩, (Host.make_eq_ok_iff _ _).mpr ?_⟩
    simp only [hostArgs, HostArgs.mk.injEq] at hfields ⊢
    exact ⟨hfields.1, hfields.2.1, rfl, hfields.2.2.2⟩

theorem endpoint_make_mac_iff
    {args : EndpointArgs}
    (hargs : ∃ ep, LinkEndpoint.make { args with mac := .none } = .ok ep) (text : String) :
    (∃ ep, LinkEndpoint.make { args with mac := .str text } = .ok ep) ↔ IsMac text.toList := by
  rw [← fullmatchMac_iff]
  constructor
  · rintro ⟨ep, hmake⟩
    have hmac := congrArg EndpointArgs.mac ((LinkEndpoint.make_eq_ok_iff _ ep).mp hmake)
    cases hep : ep.mac with
    | none => simp [endpointArgs, hep, Value.ofOptStr] at hmac
    | some mac =>
        have htext : text = mac := by simpa [endpointArgs, hep, Value.ofOptStr] using hmac
        exact htext ▸ ep.ok.mac mac hep
  · intro htext
    obtain ⟨ep, hmake⟩ := hargs
    have hfields := (LinkEndpoint.make_eq_ok_iff _ ep).mp hmake
    have hok : EndpointOk { ep.toEndpointFields with mac := some text } :=
      { ep.ok with mac := by simpa using htext }
    refine ⟨⟨_, hok⟩, (LinkEndpoint.make_eq_ok_iff _ _).mpr ?_⟩
    simp only [endpointArgs, EndpointArgs.mk.injEq] at hfields ⊢
    exact ⟨hfields.1, hfields.2.1, hfields.2.2.1, hfields.2.2.2.1, rfl, hfields.2.2.2.2.2⟩

theorem setMac_isOk_iff
    {side : String} (hside : side ∈ ["a", "b"]) (text : String) :
    (∃ address, setMac side (.str text) = .ok address) ↔
      IsMac text.toList ∨ IsMacLine text.toList := by
  rw [← matchToEnd_pairsFirst_iff, setMac, if_neg (not_not.mpr hside)]
  by_cases h : pairsFirst.matchToEnd text.toList = true
  · simp [h]
  · simp [h]

/--
The four layers agree on a text iff it is not an address followed by a newline, which the
runtime and the codec accept.
-/
theorem one_grammar_iff
    (text : String) :
    OneGrammar text ↔ ¬ IsMacLine text.toList := by
  constructor
  · rintro h hline
    have hmac := h.codec.mp ((encodeMac_isOk_iff _).mpr (Or.inr hline))
    obtain ⟨mac, htext, _⟩ := hline
    exact hmac.not_mem (by simp [htext])
  · intro hline
    exact
      { host := fun args hargs => host_make_mac_iff hargs text
        endpoint := fun args hargs => endpoint_make_mac_iff hargs text
        runtime := fun side hside => by rw [setMac_isOk_iff hside, or_iff_left hline]
        codec := by rw [encodeMac_isOk_iff, or_iff_left hline]
        dispatch := fun h => encodeValue_of_matchMac
          (by rw [matchMac_eq]; exact (matchToEnd_pairsFirst_iff _).mpr (Or.inl h))
        octets := fun parts hparts htext => by
          simpa [htext] using encodeMac_of_parts hparts (Or.inl rfl) }

/-- A newline after an address: rejected by the descriptors, accepted by the other layers. -/
theorem newline_accepted :
    let text := "aa:bb:cc:dd:ee:ff\n"
    ¬ IsMac text.toList ∧
      (∃ e, Host.make { name := .str "h1", mac := .str text } = .error e) ∧
      (∃ e, LinkEndpoint.make { node := .str "h1", mac := .str text } = .error e) ∧
      setMac "a" (.str text) = .ok text.toList ∧
      encodeMac text.toList = .ok [0xaa, 0xbb, 0xcc, 0xdd, 0xee, 0xff] ∧
      encodeValue (.str text.toList) 48 = .ok [0xaa, 0xbb, 0xcc, 0xdd, 0xee, 0xff] := by
  refine ⟨fun h => h.not_mem (by decide), ⟨_, rfl⟩, ⟨_, rfl⟩, rfl, rfl, rfl⟩

end Mac
end P4Net

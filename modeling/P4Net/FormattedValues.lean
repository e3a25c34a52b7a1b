import P4Net.Ipv6Texts
import P4Net.LiteralClasses
import P4Net.TableEntryRoundTrip

/-!
# Formatted values

`_format_value` and `decode_match` turn the bytes of match values into text, for dumps.  The
encoders read most of these texts back.  The interpreter is taken to read and write integers of any
length (`encodeValue`, not `encodeValueLimited`).

* `formatValue` : a value as an address or as a number, by its width.
* `formatField`, `decodeMatch` : the text of a match, and of all matches of a table.
* `encodeValue_formatValue_iff` : which formatted values are read back.
* `format_readBack_iff` : the same for values and for the matches of a table.
-/

namespace P4Net
namespace Formatting

open TextLiterals BigEndian ControlCodec Mac Literals P4InfoIndex TableEntries

/-! ### Values -/

/-- The reasons for which the formatters raise `EncodingError`. -/
inductive FormatError where
  | tooWide (length bitwidth : Nat)
  | doesNotFit (bitwidth : Nat)
  | bitwidthNotPositive (bitwidth : Nat)
deriving DecidableEq, Repr

/-- `_zero_extend`. -/
def zeroExtend (data : Bytes) (bitwidth : Nat) : Except FormatError Bytes :=
  let nBytes := byteWidth bitwidth
  if nBytes < data.length then .error (.tooWide data.length bitwidth)
  else if data.length = nBytes then .ok data
  else .ok (List.replicate (nBytes - data.length) 0 ++ data)

/-- `f"{b:02x}"`. -/
def pairText (b : UInt8) : Text := [Nat.digitChar (b.toNat / 16), Nat.digitChar (b.toNat % 16)]

/-- `decode_ipv4`. -/
def decodeIpv4 (data : Bytes) : Except FormatError Text := do
  let padded ← zeroExtend data 32
  return ipv4Text padded

/-- `decode_mac`. -/
def decodeMac (data : Bytes) : Except FormatError Text := do
  let padded ← zeroExtend data 48
  return join ':' (padded.map pairText)

/-- `decode_ipv6`; `dotted` is the form of Python 3.13 and later. -/
def decodeIpv6 (dotted : Bool) (data : Bytes) : Except FormatError Text := do
  let padded ← zeroExtend data 128
  return ipv6Text dotted (fromBytes padded)

/-- `decode_int`. -/
def decodeInt (data : Bytes) (bitwidth : Nat) : Except FormatError Nat :=
  if bitwidth = 0 then .error (.bitwidthNotPositive bitwidth)
  else if byteWidth bitwidth < data.length then .error (.tooWide data.length bitwidth)
  else if bitwidth < bitLength (fromBytes data) then .error (.doesNotFit bitwidth)
  else .ok (fromBytes data)

/-- `_format_value`. -/
def formatValue (dotted : Bool) (data : Bytes) (bitwidth : Nat) : Except FormatError Text :=
  if bitwidth = 32 then decodeIpv4 data
  else if bitwidth = 48 then decodeMac data
  else if bitwidth = 128 then decodeIpv6 dotted data
  else do
    let value ← decodeInt data bitwidth
    return Nat.toDigits 10 value

/-- `str` of an integer. -/
def intText (n : Int) : Text :=
  if n < 0 then '-' :: Nat.toDigits 10 n.natAbs else Nat.toDigits 10 n.toNat

/-- `format_lpm`. -/
def formatLpm (dotted : Bool) (value : Bytes) (prefixLen : Int) (bitwidth : Nat) :
    Except FormatError Text := do
  let text ← formatValue dotted value bitwidth
  return text ++ '/' :: intText prefixLen

/-- `format_ternary`. -/
def formatTernary (dotted : Bool) (value mask : Bytes) (bitwidth : Nat) :
    Except FormatError Text := do
  let valueText ← formatValue dotted value bitwidth
  let maskText ← formatValue dotted mask bitwidth
  return valueText ++ '&' :: maskText

/-- `format_range`. -/
def formatRange (dotted : Bool) (low high : Bytes) (bitwidth : Nat) :
    Except FormatError Text := do
  let lowText ← formatValue dotted low bitwidth
  let highText ← formatValue dotted high bitwidth
  return '[' :: lowText ++ ',' :: highText ++ [']']

/-! ### Matches -/

/-- The exceptions of `decode_match`. -/
inductive DecodeError where
  | noSuchTable (table : String)
  | noSuchField (field table : String)
  | expectedBytes (field : String)
  | expectedPair (field : String)
  | badPair (field : String)
  | unsupportedMatchType (field : String)
  | format (reason : FormatError)
deriving DecidableEq, Repr

/-- `isinstance(value, int)`. -/
def asInt : PyValue → Option Int
  | .int n => some n
  | .bool b => some (if b then 1 else 0)
  | _ => none

/-- The body of the loop of `decode_match`. -/
def formatField (dotted : Bool) (mf : MatchField) (raw : PyValue) : Except DecodeError Text :=
  let bw := mf.bitwidth
  match mf.matchType with
  | .exact | .optional =>
      match raw with
      | .bytes value => (formatValue dotted value bw).mapError .format
      | _ => .error (.expectedBytes mf.name)
  | .lpm =>
      match raw with
      | .pair (.bytes value) plen =>
          match asInt plen with
          | some n => (formatLpm dotted value n bw).mapError .format
          | none => .error (.badPair mf.name)
      | .pair _ _ => .error (.badPair mf.name)
      | _ => .error (.expectedPair mf.name)
  | .ternary =>
      match raw with
      | .pair (.bytes value) (.bytes mask) =>
          (formatTernary dotted value mask bw).mapError .format
      | .pair _ _ => .error (.badPair mf.name)
      | _ => .error (.expectedPair mf.name)
  | .range =>
      match raw with
      | .pair (.bytes low) (.bytes high) => (formatRange dotted low high bw).mapError .format
      | .pair _ _ => .error (.badPair mf.name)
      | _ => .error (.expectedPair mf.name)
  | .unspecified => .error (.unsupportedMatchType mf.name)

/-- One turn of the loop: the item that it stores. -/
def formatItem (dotted : Bool) (table : Table) (item : String × PyValue) :
    Except DecodeError (String × Text) :=
  match (fieldsByName table).get? item.1 with
  | none => .error (.noSuchField item.1 table.name)
  | some mf => (formatField dotted mf item.2).map fun text => (item.1, text)

/-- `decode_match`. -/
def decodeMatch (dotted : Bool) (index : P4InfoIndex) (tableName : String)
    (args : OrderedDict String PyValue) : Except DecodeError (OrderedDict String Text) :=
  match index.tablesByName.get? tableName with
  | none => .error (.noSuchTable tableName)
  | some table => (args.entries.mapM (formatItem dotted table)).map .ofList

/-! ### Formatted values are read back -/

/-- The value is written with a dotted quad, as an IPv6 address. -/
def WithQuad (dotted : Bool) (data : Bytes) (bitwidth : Nat) : Prop :=
  dotted = true ∧ bitwidth = 128 ∧ IsMapped (fromBytes data)

instance (dotted : Bool) (data : Bytes) (bitwidth : Nat) :
    Decidable (WithQuad dotted data bitwidth) :=
  inferInstanceAs (Decidable (_ ∧ _ ∧ _))

theorem fromBytes_replicate_append
    (n : Nat) (data : Bytes) :
    fromBytes (List.replicate n 0 ++ data) = fromBytes data := by
  induction n with
  | zero => rfl
  | succ n ih =>
      rw [List.replicate_succ, List.cons_append, fromBytes_cons, ih]
      simp

theorem zeroExtend_eq_ok
    {data : Bytes} {bitwidth : Nat}
    (h : data.length ≤ byteWidth bitwidth) :
    ∃ padded, zeroExtend data bitwidth = .ok padded ∧ padded.length = byteWidth bitwidth ∧
      fromBytes padded = fromBytes data := by
  unfold zeroExtend
  by_cases hlength : data.length = byteWidth bitwidth
  · exact ⟨data, by simp [hlength], hlength, rfl⟩
  · refine ⟨List.replicate (byteWidth bitwidth - data.length) 0 ++ data, ?_, ?_,
      fromBytes_replicate_append _ data⟩
    · simp only [if_neg (not_lt.mpr h), if_neg hlength]
    · rw [List.length_append, List.length_replicate]
      omega

/-- The shortest form depends on the value only. -/
theorem canonicalize_eq_of_value
    {a b : Bytes}
    (h : fromBytes a = fromBytes b) :
    canonicalize a = canonicalize b :=
  isCanonical_ext (isCanonical_canonicalize a) (isCanonical_canonicalize b)
    (by rw [fromBytes_canonicalize, fromBytes_canonicalize, h])

theorem isPair_pairText
    (b : UInt8) :
    IsPair (pairText b) ∧ octet (pairText b) = b := by
  have hhex : ∀ d < 16, isHex (Nat.digitChar d) = true := by decide
  have hoctet : ∀ n < 256, octet [Nat.digitChar (n / 16), Nat.digitChar (n % 16)] =
      UInt8.ofNat n := by
    decide +kernel
  have hb := b.toNat_lt
  have hall : ∀ c ∈ pairText b, isHex c = true := by
    intro c hc
    simp only [pairText, List.mem_cons, List.not_mem_nil, or_false] at hc
    rcases hc with rfl | rfl
    · exact hhex _ (by omega)
    · exact hhex _ (by omega)
  exact ⟨⟨rfl, hall⟩, (hoctet b.toNat hb).trans (UInt8.ofNat_toNat)⟩

/-- A formatted hardware address is read back. -/
theorem encodeValue_macText
    {data : Bytes}
    (h : data.length = 6) :
    encodeValue (.str (join ':' (data.map pairText))) 48 = .ok data := by
  have hoctets : IsOctets (data.map pairText) := by
    refine ⟨by rw [List.length_map, h], fun part hpart => ?_⟩
    obtain ⟨b, _, rfl⟩ := List.mem_map.mp hpart
    exact (isPair_pairText b).1
  have hmac : matchMac (join ':' (data.map pairText)) = true := by
    rw [matchMac_eq]
    exact (matchToEnd_pairsFirst_iff _).mpr (Or.inl ⟨_, hoctets, rfl⟩)
  have hbytes : (data.map pairText).map octet = data := by
    rw [List.map_map]
    exact (List.map_congr_left fun b _ => (isPair_pairText b).2).trans (List.map_id data)
  have hencode := encodeMac_of_parts hoctets (Or.inl rfl)
  rw [List.append_nil, hbytes] at hencode
  exact (encodeValue_of_matchMac hmac).trans hencode

/-- A formatted value that is written without a dotted quad is read back. -/
theorem encodeValue_formatValue
    {dotted : Bool} {data : Bytes} {bitwidth : Nat}
    (hw : 1 ≤ bitwidth) (hlength : data.length ≤ byteWidth bitwidth)
    (hvalue : fromBytes data < 2 ^ bitwidth) (hquad : ¬ WithQuad dotted data bitwidth) :
    ∃ text out, formatValue dotted data bitwidth = .ok text ∧
      encodeValue (.str text) bitwidth = .ok out ∧ fromBytes out = fromBytes data := by
  obtain ⟨padded, hpadded, hpaddedLength, hpaddedValue⟩ := zeroExtend_eq_ok hlength
  unfold formatValue
  by_cases h32 : bitwidth = 32
  · subst h32
    have hread : Family.ipv4.read (ipv4Text padded) = some padded :=
      ipv4Packed_ipv4Text hpaddedLength
    have hdots : ¬ ThreeDots (ipv4Text padded) := by
      rintro ⟨hsix, _⟩
      obtain ⟨packed, hpacked⟩ := Option.isSome_iff_exists.mp hsix
      exact (ipv4Packed_chars hread).2 (colon_mem_of_ipv6Packed hpacked)
    refine ⟨ipv4Text padded, padded, ?_, encodeValue_own hread hdots, hpaddedValue⟩
    rw [if_pos rfl, decodeIpv4, hpadded]
    rfl
  by_cases h48 : bitwidth = 48
  · subst h48
    refine ⟨join ':' (padded.map pairText), padded, ?_, encodeValue_macText hpaddedLength,
      hpaddedValue⟩
    rw [if_neg h32, if_pos rfl, decodeMac, hpadded]
    rfl
  by_cases h128 : bitwidth = 128
  · subst h128
    have htext : ipv6Text dotted (fromBytes padded) = ipv6Plain (fromBytes padded) := by
      rw [ipv6Text, hpaddedValue, if_neg fun hmapped => hquad ⟨hmapped.1, rfl, hmapped.2⟩]
    have hread : Family.ipv6.read (ipv6Plain (fromBytes padded)) =
        some (toBytes 16 (fromBytes padded)) := ipv6Packed_ipv6Plain (hpaddedValue ▸ hvalue)
    have hdots : ¬ ThreeDots (ipv6Plain (fromBytes padded)) := by
      rintro ⟨_, hcount⟩
      rw [List.count_eq_zero.mpr (not_mem_ipv6Plain _ (by simp))] at hcount
      cases hcount
    refine ⟨ipv6Plain (fromBytes padded), _, ?_, encodeValue_own hread hdots, ?_⟩
    · rw [if_neg h32, if_neg h48, if_pos rfl, decodeIpv6, hpadded, ← htext]
      rfl
    · rw [fromBytes_toBytes (hpaddedValue ▸ lt_pow_bytes_of_lt hvalue), hpaddedValue]
  · have hbits := (bitLength_le_iff (fromBytes data) bitwidth).mpr hvalue
    have hdecode : decodeInt data bitwidth = .ok (fromBytes data) := by
      rw [decodeInt, if_neg (by omega), if_neg (by omega), if_neg (by omega)]
    refine ⟨Nat.toDigits 10 (fromBytes data), _, ?_,
      encodeValue_literal (literal_toDigits _) hw hvalue,
      fromBytes_toBytes (lt_pow_bytes_of_lt hvalue)⟩
    rw [if_neg h32, if_neg h48, if_neg h128, hdecode]
    rfl

/-- A dotted quad in an IPv6 address is taken for an IPv4 address. -/
theorem encodeValue_withQuad
    {dotted : Bool} {data : Bytes} {bitwidth : Nat}
    (hlength : data.length ≤ byteWidth bitwidth) (hquad : WithQuad dotted data bitwidth) :
    ∃ text, formatValue dotted data bitwidth = .ok text ∧
      encodeValue (.str text) bitwidth = .error (.literalWidth text 32 128) := by
  obtain ⟨rfl, rfl, hmapped⟩ := hquad
  obtain ⟨padded, hpadded, _, hvalue⟩ := zeroExtend_eq_ok hlength
  refine ⟨ipv6Text true (fromBytes padded), ?_, ?_⟩
  · rw [formatValue, if_neg (by decide), if_neg (by decide), if_pos rfl, decodeIpv6, hpadded]
    rfl
  · have hcount := count_ipv6Text_mapped (hvalue ▸ hmapped)
    simp [encodeValue, encodeText, hcount]

/-- Which formatted values are read back. -/
theorem encodeValue_formatValue_iff
    {dotted : Bool} {data : Bytes} {bitwidth : Nat}
    (hw : 1 ≤ bitwidth) (hlength : data.length ≤ byteWidth bitwidth)
    (hvalue : fromBytes data < 2 ^ bitwidth) :
    (∃ text out, formatValue dotted data bitwidth = .ok text ∧
      encodeValue (.str text) bitwidth = .ok out ∧ canonicalize out = canonicalize data) ↔
      ¬ WithQuad dotted data bitwidth := by
  constructor
  · rintro ⟨text, out, htext, hout, _⟩ hquad
    obtain ⟨text', htext', herror⟩ := encodeValue_withQuad hlength hquad
    obtain rfl : text = text' := Except.ok.inj (htext.symm.trans htext')
    obtain rfl : bitwidth = 128 := hquad.2.1
    rw [herror] at hout
    cases hout
  · intro hquad
    obtain ⟨text, out, htext, hout, heq⟩ := encodeValue_formatValue hw hlength hvalue hquad
    exact ⟨text, out, htext, hout, canonicalize_eq_of_value heq⟩

/-! ### Formatted matches are read back -/

theorem slash_not_mem_digits
    (n : Nat) :
    '/' ∉ Nat.toDigits 10 n := by
  intro hmem
  have hdigit := Nat.isDigit_of_mem_toDigits (by decide) (by decide) hmem
  revert hdigit
  decide

/-- A prefix is taken apart into the parts that it was written from. -/
theorem parseLpm_text
    (addr : Text) (plen bitwidth : Nat) :
    parseLpm (.str (addr ++ '/' :: Nat.toDigits 10 plen)) bitwidth =
      parseLpm (.pair (.str addr) (.int plen)) bitwidth := by
  have hsplit := rsplitOnce_append (slash_not_mem_digits plen) addr
  have hparts : lpmParts (.str (addr ++ '/' :: Nat.toDigits 10 plen)) =
      lpmParts (.pair (.str addr) (.int plen)) := by
    simp [lpmParts, hsplit, parseInt_toDigits]
  rw [parseLpm, parseLpm, hparts]

/-- The address that a match is written with. -/
def addressOf : FieldMatchType → Option Bytes
  | .exact v => some v
  | .optional v => some v
  | .lpm v _ => some v
  | _ => none

/-- The text of a canonical match is read back, unless there is a dotted quad in it. -/
theorem encodeField_formatField
    (dotted : Bool) {mf : MatchField} {t : FieldMatchType} {value : Bytes}
    (hw : 1 ≤ mf.bitwidth) (h : CanonicalMatch mf t) (haddress : addressOf t = some value) :
    ∃ raw text, decodeMatchType t = some raw ∧ formatField dotted mf raw = .ok text ∧
      (¬ WithQuad dotted value mf.bitwidth → encodeField mf (.str text) = .ok (some t)) ∧
      (WithQuad dotted value mf.bitwidth → ∃ e, encodeField mf (.str text) = .error e) := by
  have hvalue : ∀ {v : Bytes}, CanonicalBytes mf.bitwidth v →
      ∃ text, formatValue dotted v mf.bitwidth = .ok text ∧
        (¬ WithQuad dotted v mf.bitwidth → ∃ out,
          encodeValue (.str text) mf.bitwidth = .ok out ∧ fromBytes out = fromBytes v) ∧
        (WithQuad dotted v mf.bitwidth →
          ∃ e, encodeValue (.str text) mf.bitwidth = .error e) := by
    intro v hv
    have hlength := canonical_length_le hv.1 hw hv.2
    by_cases hquad : WithQuad dotted v mf.bitwidth
    · obtain ⟨text, htext, herror⟩ := encodeValue_withQuad hlength hquad
      exact ⟨text, htext, fun hnot => absurd hquad hnot, fun _ => ⟨_, herror⟩⟩
    · obtain ⟨text, out, htext, hout, heq⟩ := encodeValue_formatValue hw hlength hv.2 hquad
      exact ⟨text, htext, fun _ => ⟨out, hout, heq⟩, fun hyes => absurd hyes hquad⟩
  have hshortest : ∀ {v out : Bytes}, CanonicalBytes mf.bitwidth v →
      fromBytes out = fromBytes v → canonicalize out = v := by
    intro v out hv heq
    rw [canonicalize_eq_of_value heq, canonicalize_of_isCanonical hv.1]
  unfold CanonicalMatch at h
  cases hmt : mf.matchType <;> cases t <;> simp only [hmt] at h <;>
    simp only [addressOf, Option.some.injEq, reduceCtorEq] at haddress <;> subst haddress
  case exact.exact v | optional.optional v =>
    obtain ⟨text, htext, hread, hfail⟩ := hvalue h
    refine ⟨_, text, rfl, ?_, fun hquad => ?_, fun hquad => ?_⟩
    · simp [formatField, hmt, htext, Except.mapError]
    · obtain ⟨out, hout, heq⟩ := hread hquad
      simp [encodeField, hmt, bind, Except.bind, hout, hshortest h heq]
    · obtain ⟨e, he⟩ := hfail hquad
      exact ⟨e, by simp [encodeField, hmt, bind, Except.bind, he]⟩
  case lpm.lpm v plen =>
    obtain ⟨hv, hpos, hle, hhost⟩ := h
    obtain ⟨n, rfl⟩ := Int.eq_ofNat_of_zero_le (by omega : 0 ≤ plen)
    have hn : n ≠ 0 := by omega
    obtain ⟨text, htext, hread, hfail⟩ := hvalue hv
    have hparse := parseLpm_text text n mf.bitwidth
    have hplen : intText (n : Int) = Nat.toDigits 10 n := by
      rw [intText, if_neg (by omega), Int.toNat_natCast]
    refine ⟨_, text ++ '/' :: Nat.toDigits 10 n, rfl, ?_, fun hquad => ?_, fun hquad => ?_⟩
    · simp [formatField, hmt, asInt, formatLpm, htext, hplen, bind, Except.bind, pure, Except.pure,
        Except.mapError]
    · obtain ⟨out, hout, heq⟩ := hread hquad
      have hlen : n ≤ mf.bitwidth := by omega
      have hpair := parseLpm_pair hlen hout fun _ => heq ▸ hhost
      simp [encodeField, hmt, bind, Except.bind, hparse, hpair, hn, hshortest hv heq]
    · obtain ⟨e, he⟩ := hfail hquad
      have hrange : ¬ ((n : Int) < 0 ∨ (mf.bitwidth : Int) < n) := by omega
      have hpair : parseLpm (.pair (.str text) (.int n)) mf.bitwidth = .error e := by
        simp only [parseLpm, lpmParts, bind, Except.bind, if_neg hrange, he]
      exact ⟨e, by simp [encodeField, hmt, bind, Except.bind, hparse, hpair]⟩

/-- The dictionary of a match list, as `list_table_entries` decodes it. -/
def rawMatch (table : Table) (fms : List FieldMatch) : OrderedDict String PyValue :=
  .ofList (fms.filterMap (decodeFieldMatch (fieldsById table)))

/-- Texts as arguments. -/
def asArgs (texts : OrderedDict String Text) : OrderedDict String PyValue :=
  .ofList (texts.entries.map fun e => (e.1, .str e.2))

/-- A match of an exact, optional or longest-prefix field is written with a dotted quad. -/
def MatchWithQuad (dotted : Bool) (table : Table) (fm : FieldMatch) : Prop :=
  ∃ mf ∈ table.matchFields, mf.id = fm.fieldId ∧
    ∃ t, fm.fieldMatchType = some t ∧ ∃ value, addressOf t = some value ∧
      WithQuad dotted value mf.bitwidth

/-- The text item of a field match: what `decode_match` makes of it, and what
`encode_match` makes of that. -/
def FormatsTo (dotted : Bool) (table : Table) (fm : FieldMatch) (item : String × Text) : Prop :=
  ∃ mf ∈ table.matchFields, mf.id = fm.fieldId ∧ mf.name = item.1 ∧
    ∃ t, fm.fieldMatchType = some t ∧
      (¬ MatchWithQuad dotted table fm → encodeField mf (.str item.2) = .ok (some t)) ∧
      (MatchWithQuad dotted table fm → ∃ e, encodeField mf (.str item.2) = .error e)

/-- Every match of the table has a text. -/
theorem formatItems
    (dotted : Bool) {table : Table} (hwf : WellFormedFields table)
    {fms : List FieldMatch}
    (hdecl : ∀ fm ∈ fms, ∃ mf ∈ table.matchFields, mf.id = fm.fieldId ∧
      ∃ t, fm.fieldMatchType = some t ∧ CanonicalMatch mf t ∧ ∃ value, addressOf t = some value) :
    ∃ items, (fms.filterMap (decodeFieldMatch (fieldsById table))).mapM (formatItem dotted table) =
        .ok items ∧
      List.Forall₂ (FormatsTo dotted table) fms items ∧
      items.map Prod.fst = (fms.filterMap (decodeFieldMatch (fieldsById table))).map Prod.fst := by
  induction fms with
  | nil => exact ⟨[], rfl, .nil, rfl⟩
  | cons fm rest ih =>
      obtain ⟨mf, hmem, hid, t, ht, hcan, value, haddress⟩ := hdecl fm (by simp)
      obtain ⟨items, hitems, hformats, hnames⟩ := ih fun fm' hfm' =>
        hdecl fm' (List.mem_cons_of_mem _ hfm')
      obtain ⟨raw, text, hraw, htext, hread, hfail⟩ :=
        encodeField_formatField dotted (hwf.bitwidths mf hmem) hcan haddress
      have hgetId : (fieldsById table).get? fm.fieldId = some mf :=
        hid ▸ OrderedDict.get?_ofList_map hwf.ids hmem
      have hgetName := (get?_fieldsByName hwf.names mf.name mf).mpr ⟨hmem, rfl⟩
      have hdecode : decodeFieldMatch (fieldsById table) fm = some (mf.name, raw) := by
        simp [decodeFieldMatch, hgetId, ht, hraw]
      have hformat : formatItem dotted table (mf.name, raw) = .ok (mf.name, text) := by
        simp [formatItem, hgetName, htext, Except.map]
      have hquad : MatchWithQuad dotted table fm ↔ WithQuad dotted value mf.bitwidth := by
        constructor
        · rintro ⟨mf', hmem', hid', t', ht', value', haddress', hquad⟩
          obtain rfl := List.inj_on_of_nodup_map hwf.ids hmem' hmem (hid'.trans hid.symm)
          obtain rfl : t = t' := Option.some.inj (ht.symm.trans ht')
          obtain rfl : value = value' := Option.some.inj (haddress.symm.trans haddress')
          exact hquad
        · intro hquad
          exact ⟨mf, hmem, hid, t, ht, value, haddress, hquad⟩
      rw [List.filterMap_cons_some hdecode]
      refine ⟨(mf.name, text) :: items, ?_, .cons ⟨mf, hmem, hid, rfl, t, ht, ?_, ?_⟩ hformats, ?_⟩
      · simp [List.mapM_cons, hformat, hitems, bind, Except.bind, pure, Except.pure]
      · exact fun hnot => hread (mt hquad.mpr hnot)
      · exact fun hyes => hfail (hquad.mp hyes)
      · rw [List.map_cons, List.map_cons, hnames]

/-- What `decode_match` returns for a well-formed match list. -/
theorem decodeMatch_rawMatch
    (dotted : Bool) {info : P4Info} (hinfo : WellFormedInfo info)
    {table : Table} (hmem : table ∈ info.tables)
    {fms : List FieldMatch} (h : WellFormedMatch table fms)
    (haddressed : ∀ fm ∈ fms, ∀ t, fm.fieldMatchType = some t → ∃ value, addressOf t = some value) :
    ∃ items, decodeMatch dotted (.ofP4Info info) table.name (rawMatch table fms) =
        .ok (.ofList items) ∧
      List.Forall₂ (FormatsTo dotted table) fms items ∧ (items.map Prod.fst).Nodup := by
  have hwf := hinfo.fields table hmem
  have hdecl : ∀ fm ∈ fms, ∃ mf ∈ table.matchFields, mf.id = fm.fieldId ∧
      ∃ t, fm.fieldMatchType = some t ∧ CanonicalMatch mf t ∧ ∃ value, addressOf t = some value := by
    intro fm hfm
    obtain ⟨mf, hmf, hid, t, ht, hcan⟩ := h.declared fm hfm
    exact ⟨mf, hmf, hid, t, ht, hcan, haddressed fm hfm t ht⟩
  obtain ⟨items, hitems, hformats, hnames⟩ := formatItems dotted hwf hdecl
  have hnodup := DecodesTo.keys_nodup hwf (decodeFieldMatches hwf h.declared) h.once
  refine ⟨items, ?_, hformats, hnames ▸ hnodup⟩
  rw [decodeMatch, tablesByName_of_mem hinfo hmem, rawMatch]
  simp only [OrderedDict.ofList_entries hnodup, hitems]
  rfl

/-! ### Results -/

/-- A value of the width is read back from its text. -/
def ValueReadBack (dotted : Bool) (data : Bytes) (bitwidth : Nat) : Prop :=
  ∃ text out, formatValue dotted data bitwidth = .ok text ∧
    encodeValue (.str text) bitwidth = .ok out ∧ canonicalize out = canonicalize data

/-- A match list of a table is read back from its texts. -/
def MatchReadBack (dotted : Bool) (info : P4Info) (table : Table) (fms : List FieldMatch) : Prop :=
  ∃ texts, decodeMatch dotted (.ofP4Info info) table.name (rawMatch table fms) = .ok texts ∧
    encodeMatch (.ofP4Info info) table.name (asArgs texts) = .ok fms

/-- A match list is read back iff no text in it has a dotted quad in an IPv6 address. -/
theorem matchReadBack_iff
    (dotted : Bool) {info : P4Info} (hinfo : WellFormedInfo info)
    {table : Table} (hmem : table ∈ info.tables)
    {fms : List FieldMatch} (h : WellFormedMatch table fms)
    (haddressed : ∀ fm ∈ fms, ∀ t, fm.fieldMatchType = some t → ∃ value, addressOf t = some value) :
    MatchReadBack dotted info table fms ↔ ∀ fm ∈ fms, ¬ MatchWithQuad dotted table fm := by
  obtain ⟨items, hdecode, hformats, hnodup⟩ := decodeMatch_rawMatch dotted hinfo hmem h haddressed
  have hwf := hinfo.fields table hmem
  have hargs : asArgs (.ofList items) = .ofList (items.map fun e => (e.1, .str e.2)) := by
    rw [asArgs, OrderedDict.ofList_entries hnodup]
  constructor
  · rintro ⟨texts, htexts, hencode⟩ fm hfm hquad
    obtain rfl : .ofList items = texts := Except.ok.inj (hdecode.symm.trans htexts)
    obtain ⟨item, hitem, mf, hmf, _, hname, t, _, _, hfail⟩ :=
      exists_of_forall₂_of_mem hformats.flip hfm
    obtain ⟨e, he⟩ := hfail hquad
    have hkeys : ((items.map fun e => (e.1, PyValue.str e.2)).map Prod.fst).Nodup := by
      rw [List.map_map]
      exact hnodup
    have hfields := ((encodeMatch_eq_ok (tablesByName_of_mem hinfo hmem)).mp hencode).2.2
    rw [hargs, OrderedDict.ofList_entries hkeys] at hfields
    obtain ⟨mf', encoded, hget, hok, _⟩ :=
      encodeFields_mem hfields (List.mem_map.mpr ⟨item, hitem, rfl⟩)
    obtain ⟨hmf', hname'⟩ := (get?_fieldsByName hwf.names _ mf').mp hget
    obtain rfl := List.inj_on_of_nodup_map hwf.names hmf' hmf (hname'.trans hname.symm)
    rw [he] at hok
    cases hok
  · intro hnone
    refine ⟨_, hdecode, ?_⟩
    rw [hargs]
    refine encodeMatch_of_decodesTo hinfo hmem h ?_
    rw [List.forall₂_map_right_iff]
    refine (List.forall₂_and_left _ _ |>.mpr ⟨hnone, hformats⟩).imp ?_
    rintro fm item ⟨hquad, mf, hmf, hid, hname, t, ht, hread, _⟩
    exact ⟨mf, hmf, hid, hname, t, ht, hread hquad⟩

/--
A value that fits its width is read back from its text, and so is a well-formed match list
with exact, optional and longest-prefix fields, iff none of the values is an IPv4-mapped
address of 128 bits that is written with a dotted quad.
-/
theorem format_readBack_iff
    (dotted : Bool) :
    (∀ bitwidth data, 1 ≤ bitwidth → data.length ≤ byteWidth bitwidth →
      fromBytes data < 2 ^ bitwidth →
      (ValueReadBack dotted data bitwidth ↔ ¬ WithQuad dotted data bitwidth)) ∧
    ∀ info table fms, WellFormedInfo info → table ∈ info.tables → WellFormedMatch table fms →
      (∀ fm ∈ fms, ∀ t, fm.fieldMatchType = some t → ∃ value, addressOf t = some value) →
      (MatchReadBack dotted info table fms ↔ ∀ fm ∈ fms, ¬ MatchWithQuad dotted table fm) :=
  ⟨fun _ _ hw hlength hvalue => encodeValue_formatValue_iff hw hlength hvalue,
    fun _ _ _ hinfo hmem h haddressed => matchReadBack_iff dotted hinfo hmem h haddressed⟩

theorem format_readBack_host :
    let table : Table := ⟨33, "MyIngress.hosts", [⟨1, "dst", 32, .lpm⟩, ⟨2, "mac", 48, .exact⟩]⟩
    let fms : List FieldMatch :=
      [⟨2, some (.exact [2, 0, 0, 0, 0, 1])⟩, ⟨1, some (.lpm [10, 0, 0, 0] 8)⟩]
    ValueReadBack true [10, 0, 0, 1] 32 ∧ MatchReadBack true ⟨[table], []⟩ table fms := by
  intro table fms
  have hfields : WellFormedFields table := ⟨by decide, by decide, by decide⟩
  have hinfo : WellFormedInfo ⟨[table], []⟩ := by
    refine ⟨by decide, by decide, ?_, by decide, by decide, by decide, by decide, by decide⟩
    intro t ht
    obtain rfl := List.mem_singleton.mp ht
    exact hfields
  have hmatch : WellFormedMatch table fms := by
    refine ⟨by decide, ?_, by decide⟩
    intro fm hfm
    simp only [fms, List.mem_cons, List.not_mem_nil, or_false] at hfm
    rcases hfm with rfl | rfl
    · exact ⟨⟨2, "mac", 48, .exact⟩, by decide, rfl, _, rfl, by decide, by decide⟩
    · exact ⟨⟨1, "dst", 32, .lpm⟩, by decide, rfl, _, rfl, by decide, by decide, by decide,
        by decide⟩
  have haddressed : ∀ fm ∈ fms, ∀ t, fm.fieldMatchType = some t →
      ∃ value, addressOf t = some value := by
    intro fm hfm t ht
    simp only [fms, List.mem_cons, List.not_mem_nil, or_false] at hfm
    rcases hfm with rfl | rfl <;> cases ht <;> exact ⟨_, rfl⟩
  obtain ⟨hvalues, hmatches⟩ := format_readBack_iff true
  refine ⟨(hvalues 32 _ (by decide) (by decide) (by decide)).mpr (by decide),
    (hmatches _ table fms hinfo (List.mem_singleton_self _) hmatch haddressed).mpr ?_⟩
  rintro fm _ ⟨mf, hmf, _, _, _, _, _, _, hwidth, _⟩
  simp only [table, List.mem_cons, List.not_mem_nil, or_false] at hmf
  rcases hmf with rfl | rfl <;> cases hwidth

/-- The IPv4-mapped address of 10.0.0.1 is not read back; without the dotted form it is. -/
theorem mapped_notReadBack :
    let data : Bytes := [0xff, 0xff, 10, 0, 0, 1]
    ¬ ValueReadBack true data 128 ∧ ValueReadBack false data 128 := by
  intro data
  have hfits : data.length ≤ byteWidth 128 ∧ fromBytes data < 2 ^ 128 := by decide
  constructor
  · exact fun h => (encodeValue_formatValue_iff (by decide) hfits.1 hfits.2).mp h
      (by decide +kernel)
  · exact (encodeValue_formatValue_iff (by decide) hfits.1 hfits.2).mpr (by decide +kernel)

end Formatting
end P4Net

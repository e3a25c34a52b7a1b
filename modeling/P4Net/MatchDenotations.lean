import P4Net.FieldValues
import P4Net.TableClearing
import P4Net.ValueSets

/-!
# The packets of a table entry

A match list stands for a set of packets: the field values that it admits.  The lists that a
switch stores are canonical, so equal sets come from equal keys, and a caller who spells a
match in another way still addresses the same entry.

* `Reads`, `ArgAdmits` : what an argument that is encoded means, texts included.
* `encodeMatch_admits` : an accepted mapping is encoded to a canonical list of its packets.
* `perm_iff_packets` : canonical lists of a table with the same packets are permutations.
* `sameKey_iff` : two accepted calls address one entry exactly when they name the same
  table, packets and priority.
-/

namespace P4Net
namespace TableEntries

open BigEndian TextLiterals ControlCodec Literals Mac P4InfoIndex ValueSets

/-! ### Arguments -/

/-- The number that an encoded argument is read as. -/
def Reads (value : PyValue) (bitwidth n : Nat) : Prop :=
  Denotes value bitwidth n ∨
    ∃ parts, value = .str (join ':' parts ++ ['\n']) ∧ bitwidth = 48 ∧ IsOctets parts ∧
      n = fromBytes (parts.map octet)

/-- The address and the prefix length of a longest-prefix argument. -/
inductive LpmArg : PyValue → PyValue → Nat → Prop where
  | pair (addr : PyValue) (plen : Nat) : LpmArg (.pair addr (.int plen)) addr plen
  | text {addr digits : Text} {plen : Nat} (hdigits : '/' ∉ digits)
      (hread : parseInt 10 digits = some (plen : Int)) :
      LpmArg (.str (addr ++ '/' :: digits)) (.str addr) plen

/-- The values of the field that an argument admits. -/
def ArgAdmits (mf : MatchField) (value : PyValue) (x : Nat) : Prop :=
  match mf.matchType with
  | .exact => Reads value mf.bitwidth x
  | .optional => Reads value mf.bitwidth x
  | .lpm => ∃ addr plen n, LpmArg value addr plen ∧ Reads addr mf.bitwidth n ∧
      (plen = 0 ∨ x / 2 ^ (mf.bitwidth - plen) = n / 2 ^ (mf.bitwidth - plen))
  | .ternary => ∃ valPart maskPart n m, value = .pair valPart maskPart ∧
      Reads valPart mf.bitwidth n ∧ Reads maskPart mf.bitwidth m ∧ (m = 0 ∨ x &&& m = n)
  | .range => ∃ low high lo hi, value = .pair low high ∧
      Reads low mf.bitwidth lo ∧ Reads high mf.bitwidth hi ∧ lo ≤ x ∧ x ≤ hi
  | .unspecified => False

/-- The values of all fields that a mapping admits. -/
def ArgsAdmit (table : Table) (args : OrderedDict String PyValue) (x : Nat → Nat) : Prop :=
  ∀ mf ∈ table.matchFields, ∀ value, (mf.name, value) ∈ args.entries →
    ArgAdmits mf value (x mf.id)

theorem length_of_ipv4Packed
    {text : Text} {data : Bytes} (h : ipv4Packed text = some data) :
    data.length = 4 := by
  unfold ipv4Packed at h
  split at h
  · rename_i a b c d _
    simp only [List.mapM_cons, List.mapM_nil, Option.pure_def, Option.bind_eq_bind,
      Option.bind_eq_some_iff, Option.some.injEq] at h
    obtain ⟨_, -, _, ⟨_, -, _, ⟨_, -, _, ⟨_, -, _, rfl, rfl⟩, rfl⟩, rfl⟩, rfl⟩ := h
    rfl
  · cases h

theorem length_of_ipv6Packed
    {text : Text} {data : Bytes} (h : ipv6Packed text = some data) :
    data.length = 16 := by
  obtain ⟨-, _, _, -, -, rfl⟩ := (ipv6Packed_eq_some_iff text data).mp h
  exact toBytes_length _ _

theorem length_of_encodeMac
    {text : Text} {data : Bytes} (h : encodeMac text = .ok data) :
    data.length = 6 := by
  have hparts : ∃ parts rest, IsOctets parts ∧ (rest = [] ∨ rest = ['\n']) ∧
      text = join ':' parts ++ rest := by
    rcases (encodeMac_isOk_iff text).mp ⟨data, h⟩ with
      ⟨parts, hparts, rfl⟩ | ⟨_, rfl, parts, hparts, rfl⟩
    · exact ⟨parts, [], hparts, Or.inl rfl, (List.append_nil _).symm⟩
    · exact ⟨parts, ['\n'], hparts, Or.inr rfl, rfl⟩
  obtain ⟨parts, rest, hoctets, hrest, rfl⟩ := hparts
  rw [encodeMac_of_parts hoctets hrest] at h
  rw [← Except.ok.inj h, List.length_map, hoctets.1]

/-- As many bytes as the field has fit in it. -/
theorem fits_of_length
    {data : Bytes} {bitwidth : Nat} (h : bitwidth = 8 * data.length) :
    data.length ≤ byteWidth bitwidth ∧ fromBytes data < 2 ^ bitwidth := by
  refine ⟨by rw [byteWidth]; omega, ?_⟩
  rw [h, pow_mul]
  exact fromBytes_lt data

/-- What is encoded fits in the bytes and in the bits of the field. -/
theorem fits_of_encodeValue
    {value : PyValue} {bitwidth : Nat} {data : Bytes}
    (hw : 1 ≤ bitwidth) (h : encodeValue value bitwidth = .ok data) :
    data.length ≤ byteWidth bitwidth ∧ fromBytes data < 2 ^ bitwidth := by
  have hint : ∀ z : Int, encodeInt (.int z) bitwidth = .ok data →
      data.length ≤ byteWidth bitwidth ∧ fromBytes data < 2 ^ bitwidth := by
    intro z hz
    obtain ⟨n, -, hlt, rfl⟩ := (encodeInt_eq_ok_iff hw z data).mp hz
    refine ⟨(toBytes_length _ _).le, ?_⟩
    rwa [byteWidth, fromBytes_toBytes (lt_pow_bytes_of_lt hlt)]
  unfold encodeValue at h
  rw [if_neg (by omega)] at h
  cases value with
  | bytes bytes =>
      simp only at h
      split_ifs at h with hlong hwide
      obtain rfl := Except.ok.inj h
      exact ⟨not_lt.mp hlong, (bitLength_le_iff _ _).mp (not_lt.mp hwide)⟩
  | bool b => exact hint _ h
  | int z => exact hint _ h
  | str text =>
      simp only [encodeText] at h
      split_ifs at h with hdots hwidth hmac hwidth hcolon hwidth
      · unfold encodeIpv4 at h
        split at h
        · rename_i packed hpacked
          obtain rfl := Except.ok.inj h
          exact fits_of_length (by rw [length_of_ipv4Packed hpacked, not_not.mp hwidth])
        · cases h
      · exact fits_of_length (by rw [length_of_encodeMac h, not_not.mp hwidth])
      · split at h
        · rename_i packed hpacked
          obtain rfl := Except.ok.inj h
          exact fits_of_length (by rw [length_of_ipv6Packed hpacked, not_not.mp hwidth])
        · cases h
      · split at h
        · exact hint _ h
        · cases h
  | none => cases h
  | pair a b => cases h
  | other => cases h

/-- The bytes that are encoded encode to themselves. -/
theorem encodeValue_encoded
    {value : PyValue} {bitwidth : Nat} {data : Bytes}
    (hw : 1 ≤ bitwidth) (h : encodeValue value bitwidth = .ok data) :
    encodeValue (.bytes data) bitwidth = .ok data :=
  encodeValue_bytes hw (fits_of_encodeValue hw h).1 (fits_of_encodeValue hw h).2

/-- An encoded argument is read as one number: that of its bytes. -/
theorem reads_iff
    {value : PyValue} {bitwidth : Nat} {data : Bytes}
    (hw : 1 ≤ bitwidth) (h : encodeValue value bitwidth = .ok data) (n : Nat) :
    Reads value bitwidth n ↔ n = fromBytes data := by
  have hmac : ∀ {parts : List Text}, IsOctets parts →
      value = .str (join ':' parts ++ ['\n']) → bitwidth = 48 →
      data = parts.map octet := by
    rintro parts hparts rfl rfl
    have hread := encodeMac_of_parts hparts (Or.inr rfl)
    have hmatch := matchMac_of_read ((read_mac_eq_some_iff _ _).mpr hread)
    rw [encodeValue_of_matchMac hmatch, hread] at h
    exact (Except.ok.inj h).symm
  have hself : Reads value bitwidth (fromBytes data) := by
    rcases denotes_of_encodeValue hw h with
      hdenotes | ⟨_, hvalue, hwidth, _, rfl, parts, hparts, rfl⟩
    · exact Or.inl hdenotes
    · exact Or.inr ⟨parts, hvalue, hwidth, hparts, by rw [hmac hparts hvalue hwidth]⟩
  constructor
  · rintro (hn | ⟨parts, hvalue, hwidth, hparts, rfl⟩)
    · rcases hself with hdenotes | ⟨parts, hvalue, hwidth, hparts, -⟩
      · exact hn.unique hdenotes
      · exact absurd hn (not_denotes_of_newlineMac
          ⟨_, hvalue, hwidth, _, rfl, parts, hparts, rfl⟩ n)
    · rw [hmac hparts hvalue hwidth]
  · rintro rfl
    exact hself

/-- A longest-prefix argument has one address and one prefix length. -/
theorem LpmArg.unique
    {value addr addr' : PyValue} {plen plen' : Nat}
    (h : LpmArg value addr plen) (h' : LpmArg value addr' plen') :
    addr = addr' ∧ plen = plen' := by
  cases h with
  | pair =>
      generalize hvalue : PyValue.pair addr (.int plen) = value at h'
      cases h' with
      | pair =>
          obtain ⟨rfl, hplen⟩ := PyValue.pair.inj hvalue
          exact ⟨rfl, by exact_mod_cast PyValue.int.inj hplen⟩
      | text => cases hvalue
  | @text addr digits _ hdigits hread =>
      generalize hvalue : PyValue.str (addr ++ '/' :: digits) = value at h'
      cases h' with
      | pair => cases hvalue
      | @text addr' digits' _ hdigits' hread' =>
          have hsplit := rsplitOnce_append hdigits addr
          rw [PyValue.str.inj hvalue, rsplitOnce_append hdigits' addr'] at hsplit
          obtain ⟨rfl, rfl⟩ := Prod.mk.inj (Option.some.inj hsplit)
          rw [hread'] at hread
          exact ⟨rfl, by exact_mod_cast (Option.some.inj hread).symm⟩

/-- What `parse_lpm` accepts, texts included. -/
theorem parseLpm_ok
    {value : PyValue} {bitwidth plen : Nat} {data : Bytes}
    (h : parseLpm value bitwidth = .ok (data, plen)) :
    ∃ addr, LpmArg value addr plen ∧ encodeValue addr bitwidth = .ok data ∧ plen ≤ bitwidth ∧
      (plen ≠ 0 → fromBytes data % 2 ^ (bitwidth - plen) = 0) := by
  simp only [parseLpm, bind, Except.bind] at h
  cases hparts : lpmParts value with
  | error e => simp [hparts] at h
  | ok parts =>
      obtain ⟨addr, z⟩ := parts
      simp only [hparts] at h
      split_ifs at h with hrange
      cases henc : encodeValue addr bitwidth with
      | error e => simp [henc] at h
      | ok encoded =>
          simp only [henc, Nat.and_two_pow_sub_one_eq_mod] at h
          split_ifs at h with hhost
          obtain ⟨rfl, rfl⟩ := Prod.mk.inj (Except.ok.inj h)
          obtain ⟨n, rfl⟩ := Int.eq_ofNat_of_zero_le (by omega : 0 ≤ z)
          rw [Int.toNat_natCast] at hhost ⊢
          refine ⟨addr, ?_, henc, by omega, fun hn => ?_⟩
          · unfold lpmParts at hparts
            split at hparts
            · rename_i text
              split at hparts
              · cases hparts
              · rename_i front back hsplit
                split at hparts
                · cases hparts
                · rename_i m hread
                  obtain ⟨rfl, rfl⟩ := Prod.mk.inj (Except.ok.inj hparts)
                  obtain ⟨rfl, hback⟩ := rsplitOnce_eq_some hsplit
                  exact .text hback hread
            · obtain ⟨rfl, rfl⟩ := Prod.mk.inj (Except.ok.inj hparts)
              exact .pair _ _
            · cases hparts
            · cases hparts
          · by_contra hbits
            exact hhost ⟨hn, hbits⟩

/-- What `parse_ternary` accepts. -/
theorem parseTernary_ok
    {value : PyValue} {bitwidth : Nat} {dataVal dataMask : Bytes}
    (h : parseTernary value bitwidth = .ok (dataVal, dataMask)) :
    ∃ a b, value = .pair a b ∧ encodeValue a bitwidth = .ok dataVal ∧
      encodeValue b bitwidth = .ok dataMask ∧
      (fromBytes dataMask ≠ 0 → fromBytes dataVal &&& fromBytes dataMask = fromBytes dataVal) := by
  unfold parseTernary at h
  split at h
  · rename_i a b
    simp only [bind, Except.bind] at h
    cases ha : encodeValue a bitwidth with
    | error e => simp [ha] at h
    | ok encVal =>
        cases hb : encodeValue b bitwidth with
        | error e => simp [ha, hb] at h
        | ok encMask =>
            simp only [ha, hb] at h
            split_ifs at h with hmask
            obtain ⟨rfl, rfl⟩ := Prod.mk.inj (Except.ok.inj h)
            refine ⟨a, b, rfl, ha, hb, fun hne => ?_⟩
            by_contra hval
            exact hmask ⟨hne, hval⟩
  · cases h

/-- What `parse_range` accepts. -/
theorem parseRange_ok
    {value : PyValue} {bitwidth : Nat} {dataLow dataHigh : Bytes}
    (h : parseRange value bitwidth = .ok (dataLow, dataHigh)) :
    ∃ a b, value = .pair a b ∧ encodeValue a bitwidth = .ok dataLow ∧
      encodeValue b bitwidth = .ok dataHigh ∧ fromBytes dataLow ≤ fromBytes dataHigh := by
  unfold parseRange at h
  split at h
  · rename_i a b
    simp only [bind, Except.bind] at h
    cases ha : encodeValue a bitwidth with
    | error e => simp [ha] at h
    | ok encLow =>
        cases hb : encodeValue b bitwidth with
        | error e => simp [ha, hb] at h
        | ok encHigh =>
            simp only [ha, hb] at h
            split_ifs at h with hrev
            obtain ⟨rfl, rfl⟩ := Prod.mk.inj (Except.ok.inj h)
            exact ⟨a, b, rfl, ha, hb, not_lt.mp hrev⟩
  · cases h

/--
One turn of the loop in `encode_match` on any argument: the bytes of its parts are encoded to
the same match, and admit the same values.
-/
theorem encodeField_asBytes
    {mf : MatchField} {value : PyValue} {encoded : Option FieldMatchType}
    (hw : 1 ≤ mf.bitwidth) (h : encodeField mf value = .ok encoded) :
    ∃ raw, NoText raw ∧ encodeField mf raw = .ok encoded ∧
      ∀ x, ArgHolds mf raw x ↔ ArgAdmits mf value x := by
  unfold encodeField at h
  cases hmt : mf.matchType with
  | exact | optional =>
      simp only [hmt, bind, Except.bind] at h
      cases henc : encodeValue value mf.bitwidth with
      | error e => simp [henc] at h
      | ok data =>
          simp only [henc] at h
          refine ⟨.bytes data, trivial, ?_, fun x => ?_⟩
          · simp only [encodeField, hmt, encodeValue_encoded hw henc, bind, Except.bind, h]
          · simp [ArgHolds, ArgAdmits, hmt, reads_iff hw henc, numericValue, eq_comm]
  | lpm =>
      simp only [hmt, bind, Except.bind] at h
      cases hparse : parseLpm value mf.bitwidth with
      | error e => simp [hparse] at h
      | ok parts =>
          obtain ⟨data, plen⟩ := parts
          simp only [hparse] at h
          obtain ⟨addr, harg, henc, hle, hhost⟩ := parseLpm_ok hparse
          have hraw := parseLpm_pair hle (encodeValue_encoded hw henc) hhost
          refine ⟨.pair (.bytes data) (.int plen), ⟨trivial, trivial⟩, ?_, fun x => ?_⟩
          · simp only [encodeField, hmt, hraw, bind, Except.bind, h]
          · simp only [ArgHolds, ArgAdmits, hmt, numericValue, Int.toNat_natCast]
            constructor
            · rintro ⟨n, hn, hx⟩
              obtain rfl := Option.some.inj hn
              exact ⟨addr, plen, _, harg, (reads_iff hw henc _).mpr rfl, by exact_mod_cast hx⟩
            · rintro ⟨addr', plen', n, harg', hn, hx⟩
              obtain ⟨rfl, rfl⟩ := harg.unique harg'
              obtain rfl := (reads_iff hw henc n).mp hn
              exact ⟨_, rfl, by exact_mod_cast hx⟩
  | ternary =>
      simp only [hmt, bind, Except.bind] at h
      cases hparse : parseTernary value mf.bitwidth with
      | error e => simp [hparse] at h
      | ok parts =>
          obtain ⟨dataVal, dataMask⟩ := parts
          simp only [hparse] at h
          obtain ⟨a, b, rfl, ha, hb, hmask⟩ := parseTernary_ok hparse
          have hraw := parseTernary_pair (encodeValue_encoded hw ha)
            (encodeValue_encoded hw hb) hmask
          refine ⟨.pair (.bytes dataVal) (.bytes dataMask), ⟨trivial, trivial⟩, ?_, fun x => ?_⟩
          · simp only [encodeField, hmt, hraw, bind, Except.bind, h]
          · simp [ArgHolds, ArgAdmits, hmt, reads_iff hw ha, reads_iff hw hb, numericValue]
  | range =>
      simp only [hmt, bind, Except.bind] at h
      cases hparse : parseRange value mf.bitwidth with
      | error e => simp [hparse] at h
      | ok parts =>
          obtain ⟨dataLow, dataHigh⟩ := parts
          simp only [hparse] at h
          obtain ⟨a, b, rfl, ha, hb, hle⟩ := parseRange_ok hparse
          have hraw := parseRange_pair (encodeValue_encoded hw ha) (encodeValue_encoded hw hb) hle
          refine ⟨.pair (.bytes dataLow) (.bytes dataHigh), ⟨trivial, trivial⟩, ?_, fun x => ?_⟩
          · simp only [encodeField, hmt, hraw, bind, Except.bind, h]
          · simp [ArgHolds, ArgAdmits, hmt, reads_iff hw ha, reads_iff hw hb, numericValue]
  | unspecified => simp [hmt] at h

/-! ### Mappings -/

section Mappings

variable {info : P4Info} {tableName : String} {table : Table}
variable {args : OrderedDict String PyValue} {out : List FieldMatch}

/-- An item and one of bytes with the same meaning. -/
def SameItem (table : Table) (item raw : String × PyValue) : Prop :=
  item.1 = raw.1 ∧ NoText raw.2 ∧ ∀ mf ∈ table.matchFields, mf.name = item.1 →
    ∀ x, ArgHolds mf raw.2 x ↔ ArgAdmits mf item.2 x

/-- The loop of `encode_match` does the same with the bytes of the arguments. -/
theorem encodeFields_asBytes
    (hwf : WellFormedFields table) {items : List (String × PyValue)}
    (h : encodeFields (fieldsByName table) tableName items = .ok out) :
    ∃ raws, List.Forall₂ (SameItem table) items raws ∧
      encodeFields (fieldsByName table) tableName raws = .ok out := by
  induction items generalizing out with
  | nil => exact ⟨[], .nil, h⟩
  | cons item rest ih =>
      obtain ⟨name, value⟩ := item
      obtain ⟨mf, encoded, result, hget, henc, hrest, rfl⟩ := encodeFields_cons_eq_ok h
      obtain ⟨hmem, rfl⟩ := (get?_fieldsByName hwf.names name mf).mp hget
      obtain ⟨raw, hraw, hencraw, hmeaning⟩ := encodeField_asBytes (hwf.bitwidths mf hmem) henc
      obtain ⟨raws, hall, hloop⟩ := ih hrest
      refine ⟨(mf.name, raw) :: raws, .cons ⟨rfl, hraw, ?_⟩ hall, ?_⟩
      · intro mf' hmem' hname
        obtain rfl := List.inj_on_of_nodup_map hwf.names hmem' hmem hname
        exact hmeaning
      · simp only [encodeFields, hget, hencraw, hloop, liftEncoding, bind, Except.bind]
        cases encoded <;> rfl

theorem keys_of_sameItems
    {items raws : List (String × PyValue)} (h : List.Forall₂ (SameItem table) items raws) :
    items.map Prod.fst = raws.map Prod.fst := by
  induction h with
  | nil => rfl
  | cons hsame _ ih => rw [List.map_cons, List.map_cons, hsame.1, ih]

/-- An accepted mapping is encoded to a canonical list that admits what the caller wrote. -/
theorem encodeMatch_admits
    (htable : (P4InfoIndex.ofP4Info info).tablesByName.get? tableName = some table)
    (hwf : WellFormedFields table)
    (h : encodeMatch (.ofP4Info info) tableName args = .ok out) :
    WellFormedMatch table out ∧
      ∀ x : Nat → Nat, (∀ mf ∈ table.matchFields, x mf.id < 2 ^ mf.bitwidth) →
        (MatchHolds table out x ↔ ArgsAdmit table args x) := by
  obtain ⟨hkeys, hexact, hloop⟩ := (encodeMatch_eq_ok htable).mp h
  obtain ⟨raws, hall, hraws⟩ := encodeFields_asBytes hwf hloop
  have hsame := keys_of_sameItems hall
  obtain ⟨raw, hraw⟩ : ∃ raw : OrderedDict String PyValue, raw.entries = raws :=
    ⟨⟨raws, hsame ▸ args.nodup⟩, rfl⟩
  have hrawKeys : raw.keys = args.keys := by
    rw [OrderedDict.keys, hraw, ← hsame]
    rfl
  have hout : encodeMatch (.ofP4Info info) tableName raw = .ok out :=
    (encodeMatch_eq_ok htable).mpr ⟨hrawKeys ▸ hkeys, hrawKeys ▸ hexact, hraw ▸ hraws⟩
  have hnoText : ∀ item ∈ raw.entries, NoText item.2 := by
    intro item hitem
    obtain ⟨_, -, hitem⟩ := exists_of_forall₂_of_mem hall (hraw ▸ hitem)
    exact hitem.2.1
  refine ⟨encodeMatch_wellFormed htable hwf hnoText hout, fun x hx => ?_⟩
  rw [encodeMatch_meaning htable hwf hnoText hout hx]
  constructor
  · intro hholds mf hmem value hitem
    obtain ⟨⟨name, rawValue⟩, hrawItem, hname, -, hmeaning⟩ :=
      exists_of_forall₂_of_mem hall.flip hitem
    obtain rfl : mf.name = name := hname
    exact (hmeaning mf hmem rfl _).mp (hholds mf hmem rawValue (hraw ▸ hrawItem))
  · intro hadmits mf hmem rawValue hitem
    obtain ⟨⟨name, value⟩, hitem, hname, -, hmeaning⟩ :=
      exists_of_forall₂_of_mem hall (hraw ▸ hitem)
    obtain rfl : name = mf.name := hname
    exact (hmeaning mf hmem rfl _).mpr (hadmits mf hmem value hitem)

end Mappings

/-! ### Packets -/

/-- The values of one field that a match admits. -/
def typeSet (bitwidth : Nat) (t : FieldMatchType) : Set Nat :=
  {n | n < 2 ^ bitwidth ∧ MatchTypeHolds bitwidth t n}

/-- The values of one field that a match list admits. -/
def fieldSet (mf : MatchField) (fms : Multiset FieldMatch) : Set Nat :=
  {n | n < 2 ^ mf.bitwidth ∧
    ∀ t, (⟨mf.id, some t⟩ : FieldMatch) ∈ fms → MatchTypeHolds mf.bitwidth t n}

/-- The packets that a match list admits: the values of the fields, by id. -/
def packets (table : Table) (fms : Multiset FieldMatch) : Set (Nat → Nat) :=
  {x | ∀ mf ∈ table.matchFields, x mf.id ∈ fieldSet mf fms}

/-- The packets are those of the right widths for which the match list holds. -/
theorem mem_packets_iff
    {table : Table} {fms : List FieldMatch} {x : Nat → Nat} :
    x ∈ packets table fms ↔
      (∀ mf ∈ table.matchFields, x mf.id < 2 ^ mf.bitwidth) ∧ MatchHolds table fms x := by
  constructor
  · intro h
    exact ⟨fun mf hmf => (h mf hmf).1, fun mf hmf t ht => (h mf hmf).2 t (by simpa using ht)⟩
  · rintro ⟨hwidth, hholds⟩ mf hmf
    exact ⟨hwidth mf hmf, fun t ht => hholds mf hmf t (by simpa using ht)⟩

section Canonical

variable {mf : MatchField} {t t' : FieldMatchType}

theorem typeSet_exact
    {bitwidth : Nat} {v : Bytes} (h : CanonicalBytes bitwidth v) :
    typeSet bitwidth (.exact v) = {fromBytes v} := by
  ext n
  simp only [typeSet, MatchTypeHolds, Set.mem_ofPred_eq, Set.mem_singleton_iff]
  exact ⟨fun hn => hn.2, fun hn => ⟨hn ▸ h.2, hn⟩⟩

theorem typeSet_range
    {bitwidth : Nat} {low high : Bytes} (h : CanonicalBytes bitwidth high) :
    typeSet bitwidth (.range low high) = Set.Icc (fromBytes low) (fromBytes high) := by
  ext n
  simp only [typeSet, MatchTypeHolds, Set.mem_ofPred_eq, Set.mem_Icc]
  exact ⟨fun hn => hn.2, fun hn => ⟨hn.2.trans_lt h.2, hn⟩⟩

/-- A canonical match admits a value and excludes one. -/
theorem typeSet_nontrivial
    (hw : 1 ≤ mf.bitwidth) (h : CanonicalMatch mf t) :
    (typeSet mf.bitwidth t).Nonempty ∧ ∃ n ∈ numbers mf.bitwidth, n ∉ typeSet mf.bitwidth t := by
  have hsingle : ∀ {v : Bytes}, CanonicalBytes mf.bitwidth v →
      ∃ n ∈ numbers mf.bitwidth, n ∉ typeSet mf.bitwidth (.exact v) := by
    intro v hv
    have htwo : 2 ^ 1 ≤ 2 ^ mf.bitwidth := Nat.pow_le_pow_right (by omega) hw
    rw [typeSet_exact hv]
    by_cases hzero : fromBytes v = 0
    · exact ⟨1, show 1 < 2 ^ mf.bitwidth by omega, fun hmem => absurd (hmem.trans hzero) (by omega)⟩
    · exact ⟨0, Nat.two_pow_pos _, fun hmem => hzero hmem.symm⟩
  unfold CanonicalMatch at h
  cases hmt : mf.matchType <;> cases t <;> simp only [hmt] at h
  case exact.exact v => exact ⟨⟨fromBytes v, h.2, rfl⟩, hsingle h⟩
  case optional.optional v => exact ⟨⟨fromBytes v, h.2, rfl⟩, hsingle h⟩
  case lpm.lpm v plen =>
    obtain ⟨hv, hpos, hle, -⟩ := h
    exact ⟨⟨fromBytes v, hv.2, rfl⟩,
      exists_not_mem_prefixBlock (show 1 ≤ plen.toNat by omega) (by omega) (fromBytes v)⟩
  case ternary.ternary v m =>
    obtain ⟨hv, hm, hne, hand⟩ := h
    exact ⟨⟨fromBytes v, hv.2, hand⟩, exists_not_mem_maskedSet hm.2 hne (fromBytes v)⟩
  case range.range low high =>
    obtain ⟨hlow, hhigh, hle, hfull⟩ := h
    rw [typeSet_range hhigh]
    exact ⟨⟨fromBytes low, le_rfl, hle⟩, exists_not_mem_interval hfull hhigh.2⟩

/-- The values that a canonical match of a field admits determine it. -/
theorem typeSet_inj
    (h : CanonicalMatch mf t) (h' : CanonicalMatch mf t')
    (hset : typeSet mf.bitwidth t = typeSet mf.bitwidth t') :
    t = t' := by
  have hbytes : ∀ {a b : Bytes}, CanonicalBytes mf.bitwidth a → CanonicalBytes mf.bitwidth b →
      fromBytes a = fromBytes b → a = b :=
    fun ha hb heq => isCanonical_ext ha.1 hb.1 heq
  unfold CanonicalMatch at h h'
  cases hmt : mf.matchType <;> cases t <;> simp only [hmt] at h <;> cases t' <;>
    simp only [hmt] at h'
  case exact.exact.exact v v' =>
    rw [typeSet_exact h, typeSet_exact h', Set.singleton_eq_singleton_iff] at hset
    rw [hbytes h h' hset]
  case optional.optional.optional v v' =>
    have hset : typeSet mf.bitwidth (.exact v) = typeSet mf.bitwidth (.exact v') := hset
    rw [typeSet_exact h, typeSet_exact h', Set.singleton_eq_singleton_iff] at hset
    rw [hbytes h h' hset]
  case lpm.lpm.lpm v plen v' plen' =>
    obtain ⟨hv, hpos, hle, hhost⟩ := h
    obtain ⟨hv', hpos', hle', hhost'⟩ := h'
    obtain ⟨hvalue, hplen⟩ := prefixBlock_inj hv.2 hv'.2 (by omega) (by omega) hhost hhost' hset
    rw [hbytes hv hv' hvalue]
    congr 1
    omega
  case ternary.ternary.ternary v m v' m' =>
    obtain ⟨hv, hm, -, hand⟩ := h
    obtain ⟨hv', hm', -, hand'⟩ := h'
    obtain ⟨hvalue, hmask⟩ := maskedSet_inj hv.2 hv'.2 hm.2 hm'.2 hand hand' hset
    rw [hbytes hv hv' hvalue, hbytes hm hm' hmask]
  case range.range.range low high low' high' =>
    obtain ⟨hlow, hhigh, hle, -⟩ := h
    obtain ⟨hlow', hhigh', -, -⟩ := h'
    rw [typeSet_range hhigh, typeSet_range hhigh', Set.Icc_eq_Icc_iff hle] at hset
    rw [hbytes hlow hlow' hset.1, hbytes hhigh hhigh' hset.2]

end Canonical

section Lists

variable {table : Table} {fms fms' : List FieldMatch}

/-- A field that is matched admits the values of its match. -/
theorem fieldSet_of_mem
    (h : WellFormedMatch table fms) {mf : MatchField} {t : FieldMatchType}
    (hmem : (⟨mf.id, some t⟩ : FieldMatch) ∈ fms) :
    fieldSet mf fms = typeSet mf.bitwidth t := by
  ext n
  refine and_congr_right fun _ => ⟨fun hall => hall t (by simpa using hmem), fun hn t' ht' => ?_⟩
  have hsame : (⟨mf.id, some t'⟩ : FieldMatch) = ⟨mf.id, some t⟩ :=
    List.inj_on_of_nodup_map h.once (by simpa using ht') hmem rfl
  rwa [Option.some.inj (FieldMatch.mk.inj hsame).2]

/-- A field that is not matched admits every value. -/
theorem fieldSet_of_not_mem
    {mf : MatchField} (hmem : ∀ t, (⟨mf.id, some t⟩ : FieldMatch) ∉ fms) :
    fieldSet mf fms = numbers mf.bitwidth := by
  ext n
  exact ⟨fun hn => hn.1, fun hn => ⟨hn, fun t ht => absurd (by simpa using ht) (hmem t)⟩⟩

/-- The packets of a canonical list are a product of sets that are not empty. -/
theorem packets_nonempty
    (hwf : WellFormedFields table) (h : WellFormedMatch table fms) :
    (packets table fms).Nonempty := by
  have hfield : ∀ mf ∈ table.matchFields, (fieldSet mf fms).Nonempty := by
    intro mf hmf
    by_cases hmem : ∃ t, (⟨mf.id, some t⟩ : FieldMatch) ∈ fms
    · obtain ⟨t, ht⟩ := hmem
      obtain ⟨mf', hmf', hid, t', heq, hcan⟩ := h.declared _ ht
      obtain rfl := List.inj_on_of_nodup_map hwf.ids hmf' hmf hid
      obtain rfl := Option.some.inj heq
      rw [fieldSet_of_mem h ht]
      exact (typeSet_nontrivial (hwf.bitwidths mf' hmf) hcan).1
    · rw [fieldSet_of_not_mem (not_exists.mp hmem)]
      exact ⟨0, Nat.two_pow_pos _⟩
  choose! pick hpick using hfield
  refine ⟨fun id => ((table.matchFields.find? (fun mf => mf.id = id)).map pick).getD 0,
    fun mf hmf => ?_⟩
  simp only [find?_of_nodup_map hwf.ids hmf, Option.map_some, Option.getD_some]
  exact hpick mf hmf

/-- The packets determine the values of every field. -/
theorem fieldSet_eq_of_packets
    (hwf : WellFormedFields table) (h : WellFormedMatch table fms)
    (h' : WellFormedMatch table fms') (heq : packets table fms = packets table fms') :
    ∀ mf ∈ table.matchFields, fieldSet mf fms = fieldSet mf fms' := by
  have hpi : ∀ fms : List FieldMatch, packets table fms =
      Set.pi {id | ∃ mf ∈ table.matchFields, mf.id = id}
        (fun id => {n | ∀ mf ∈ table.matchFields, mf.id = id → n ∈ fieldSet mf fms}) := by
    intro fms
    ext x
    constructor
    · rintro hx _ ⟨mf, hmf, rfl⟩ mf' hmf' hid
      exact hid ▸ hx mf' hmf'
    · intro hx mf hmf
      exact hx mf.id ⟨mf, hmf, rfl⟩ mf hmf rfl
  have hne := packets_nonempty hwf h
  have hne' := packets_nonempty hwf h'
  rw [hpi] at hne hne' heq
  rw [hpi] at heq
  intro mf hmf
  have hfactor := (pi_eq_pi_iff hne hne').mp heq mf.id ⟨mf, hmf, rfl⟩
  have hsingle : ∀ fms : List FieldMatch,
      {n | ∀ mf' ∈ table.matchFields, mf'.id = mf.id → n ∈ fieldSet mf' fms} =
        fieldSet mf fms := by
    intro fms
    ext n
    constructor
    · exact fun hn => hn mf hmf rfl
    · intro hn mf' hmf' hid
      rwa [List.inj_on_of_nodup_map hwf.ids hmf' hmf hid]
  rwa [hsingle, hsingle] at hfactor

theorem mem_of_packets
    (hwf : WellFormedFields table) (h : WellFormedMatch table fms)
    (h' : WellFormedMatch table fms') (heq : packets table fms = packets table fms')
    {fm : FieldMatch} (hfm : fm ∈ fms) :
    fm ∈ fms' := by
  obtain ⟨mf, hmf, hid, t, ht, hcan⟩ := h.declared fm hfm
  obtain rfl : fm = ⟨mf.id, some t⟩ := by rw [hid, ← ht]
  have hset := fieldSet_eq_of_packets hwf h h' heq mf hmf
  rw [fieldSet_of_mem h hfm] at hset
  by_cases hmem : ∃ t', (⟨mf.id, some t'⟩ : FieldMatch) ∈ fms'
  · obtain ⟨t', ht'⟩ := hmem
    obtain ⟨mf', hmf', hid', t'', heq', hcan'⟩ := h'.declared _ ht'
    obtain rfl := List.inj_on_of_nodup_map hwf.ids hmf' hmf hid'
    obtain rfl := Option.some.inj heq'
    rw [fieldSet_of_mem h' ht'] at hset
    rwa [typeSet_inj hcan hcan' hset]
  · rw [fieldSet_of_not_mem (not_exists.mp hmem)] at hset
    obtain ⟨n, hn, hnot⟩ := (typeSet_nontrivial (hwf.bitwidths mf hmf) hcan).2
    exact absurd (hset ▸ hn) hnot

/-- Canonical match lists of a table admit the same packets only if they are permutations. -/
theorem perm_iff_packets
    (hwf : WellFormedFields table) (h : WellFormedMatch table fms)
    (h' : WellFormedMatch table fms') :
    fms.Perm fms' ↔ packets table fms = packets table fms' := by
  constructor
  · intro hperm
    rw [Multiset.coe_eq_coe.mpr hperm]
  · intro heq
    refine (List.perm_ext_iff_of_nodup (h.once.of_map _) (h'.once.of_map _)).mpr fun fm => ?_
    exact ⟨mem_of_packets hwf h h' heq, mem_of_packets hwf h' h heq.symm⟩

end Lists

/-! ### Entries -/

/-- What `_write_entry` builds its request from. -/
theorem writeEntry_ok
    {info : P4Info} {client : ClientView} {name : String} {args : OrderedDict String PyValue}
    {action : Option String} {params : Option (OrderedDict String PyValue)} {priority : PyValue}
    {updateType : UpdateType} {req : WriteRequest}
    (hinfo : WellFormedInfo info) (hindex : client.index = some (.ofP4Info info))
    (h : writeEntry client name args action params priority updateType = .ok req) :
    ∃ table ∈ info.tables, ∃ n fms act, table.name = name ∧
      checkPriority name (table.matchFields.any needsPriority) priority = .ok n ∧
      encodeMatch (.ofP4Info info) name args = .ok fms ∧
      (match action with
        | none => act = none
        | some actionName => ∃ call, encodeAction (.ofP4Info info) actionName params = .ok call ∧
            act = some (.action call)) ∧
      req = writeRequest client ⟨updateType,
        { tableId := table.id, fieldMatches := fms, action := act, priority := n }⟩ := by
  simp only [writeEntry, Topo.bind_eq_ok_iff] at h
  obtain ⟨index, hrequire, tableId, hid, required, hrequired, n, hpriority, fms, hfms, h⟩ := h
  have hsame : index = .ofP4Info info := by
    unfold requireConnectedWithIndex at hrequire
    split_ifs at hrequire
    rw [hindex] at hrequire
    exact (Except.ok.inj hrequire).symm
  subst hsame
  obtain ⟨table, htable, rfl, rfl⟩ := table_of_tableId hid
  obtain rfl := Except.ok.inj (hrequired.symm.trans (writeEntry_steps hinfo htable).2)
  have hcheck :
      checkPriority table.name (table.matchFields.any needsPriority) priority = .ok n := by
    cases hres : checkPriority table.name (table.matchFields.any needsPriority) priority with
    | error e =>
        rw [hres] at hpriority
        cases hpriority
    | ok m =>
        rw [hres] at hpriority
        rw [Except.ok.inj hpriority]
  cases action with
  | none => exact ⟨table, htable, n, fms, none, rfl, hcheck, hfms, rfl, (Except.ok.inj h).symm⟩
  | some actionName =>
      obtain ⟨call, hcall, h⟩ := (Topo.bind_eq_ok_iff _ _ _).mp h
      exact ⟨table, htable, n, fms, _, rfl, hcheck, hfms, ⟨call, hcall, rfl⟩,
        (Except.ok.inj h).symm⟩

/-- The priority that is stored fits the table, and tells the arguments apart. -/
theorem checkPriority_ok
    {table : Table} {name : String} {priority : PyValue} {n : Int}
    (h : checkPriority name (table.matchFields.any needsPriority) priority = .ok n) :
    PriorityFits table n ∧ priority = if n = 0 then .none else .int n := by
  unfold checkPriority at h
  unfold PriorityFits
  split at h
  · split_ifs at h with hrequired
    obtain rfl := Except.ok.inj h
    simp [hrequired]
  · split_ifs at h with hrequired
    split at h
    · split_ifs at h with hrange
      obtain rfl := Except.ok.inj h
      refine ⟨by simpa [hrequired] using hrange, ?_⟩
      rw [if_neg (by omega)]
    · cases h

/-- A match list that is accepted belongs to a key of its table. -/
theorem wellFormedMatch_of_encodeMatch
    {info : P4Info} (hinfo : WellFormedInfo info) {table : Table} (htable : table ∈ info.tables)
    {args : OrderedDict String PyValue} {fms : List FieldMatch}
    (h : encodeMatch (.ofP4Info info) table.name args = .ok fms) :
    WellFormedMatch table fms ∧
      packets table fms = {x | (∀ mf ∈ table.matchFields, x mf.id < 2 ^ mf.bitwidth) ∧
        ArgsAdmit table args x} := by
  obtain ⟨hmatch, hmeaning⟩ :=
    encodeMatch_admits (tablesByName_of_mem hinfo htable) (hinfo.fields table htable) h
  refine ⟨hmatch, ?_⟩
  ext x
  rw [mem_packets_iff]
  exact and_congr_right fun hx => hmeaning x hx

/-- The keys that a request addresses. -/
def requestKeys (req : WriteRequest) : List EntryKey := req.updates.map fun u => u.tableEntry.key

/--
Two accepted calls, of any clients and in any spelling, address one entry exactly when they
name the same table and priority and their matches admit the same packets.
-/
theorem sameKey_iff
    (info : P4Info) (client client' : ClientView) (name name' : String)
    (args args' : OrderedDict String PyValue) (action action' : Option String)
    (params params' : Option (OrderedDict String PyValue)) (priority priority' : PyValue)
    (updateType updateType' : UpdateType) (req req' : WriteRequest)
    (hinfo : WellFormedInfo info) (hindex : client.index = some (.ofP4Info info))
    (hindex' : client'.index = some (.ofP4Info info))
    (h : writeEntry client name args action params priority updateType = .ok req)
    (h' : writeEntry client' name' args' action' params' priority' updateType' = .ok req') :
    requestKeys req = requestKeys req' ↔
      name = name' ∧ priority = priority' ∧ ∀ table ∈ info.tables, table.name = name →
        ∀ x : Nat → Nat, (∀ mf ∈ table.matchFields, x mf.id < 2 ^ mf.bitwidth) →
          (ArgsAdmit table args x ↔ ArgsAdmit table args' x) := by
  obtain ⟨table, htable, n, fms, act, rfl, hpriority, hfms, -, rfl⟩ :=
    writeEntry_ok hinfo hindex h
  obtain ⟨table', htable', n', fms', act', rfl, hpriority', hfms', -, rfl⟩ :=
    writeEntry_ok hinfo hindex' h'
  obtain ⟨hmatch, hpackets⟩ := wellFormedMatch_of_encodeMatch hinfo htable hfms
  obtain ⟨hmatch', hpackets'⟩ := wellFormedMatch_of_encodeMatch hinfo htable' hfms'
  obtain ⟨-, hvalue⟩ := checkPriority_ok hpriority
  obtain ⟨-, hvalue'⟩ := checkPriority_ok hpriority'
  have hwf := hinfo.fields table htable
  simp only [requestKeys, writeRequest, List.map_cons, List.map_nil, List.cons.injEq, and_true,
    TableEntry.key, EntryKey.mk.injEq]
  constructor
  · rintro ⟨hid, hperm, rfl⟩
    obtain rfl := List.inj_on_of_nodup_map hinfo.tableIds htable htable' hid
    have heq := (perm_iff_packets hwf hmatch hmatch').mp (Multiset.coe_eq_coe.mp hperm)
    refine ⟨rfl, hvalue.trans hvalue'.symm, fun found hfound hname x hx => ?_⟩
    obtain rfl := List.inj_on_of_nodup_map hinfo.tableNames hfound htable hname
    rw [hpackets, hpackets'] at heq
    have hmem := Set.ext_iff.mp heq x
    exact ⟨fun hadmit => (hmem.mp ⟨hx, hadmit⟩).2, fun hadmit => (hmem.mpr ⟨hx, hadmit⟩).2⟩
  · rintro ⟨hname, rfl, hsame⟩
    obtain rfl := List.inj_on_of_nodup_map hinfo.tableNames htable htable' hname
    refine ⟨rfl, Multiset.coe_eq_coe.mpr ((perm_iff_packets hwf hmatch hmatch').mpr ?_), ?_⟩
    · rw [hpackets, hpackets']
      ext x
      exact and_congr_right fun hx => hsame table htable rfl x hx
    · exact Except.ok.inj (hpriority.symm.trans hpriority')

/-- A prefix as a text beside a wildcard, and as a number alone. -/
theorem sameKey_iff_route :
    let table : Table :=
      ⟨33, "MyIngress.route", [⟨1, "dst", 32, .lpm⟩, ⟨2, "port", 9, .range⟩]⟩
    let args : OrderedDict String PyValue := .ofList
      [("port", .pair (.int 0) (.str "0x1ff".toList)), ("dst", .str "10.0.0.0/8".toList)]
    let args' : OrderedDict String PyValue := .ofList
      [("dst", .pair (.int 167772160) (.int 8))]
    ∀ x : Nat → Nat, (∀ mf ∈ table.matchFields, x mf.id < 2 ^ mf.bitwidth) →
      (ArgsAdmit table args x ↔ ArgsAdmit table args' x) := by
  intro table args args'
  let info : P4Info := ⟨[table], [⟨16, "drop", []⟩]⟩
  let client : ClientView := ⟨0, 0, 1, none, true, some (.ofP4Info info)⟩
  let entry : TableEntry :=
    { tableId := 33, fieldMatches := [⟨1, some (.lpm [10, 0, 0, 0] 8)⟩], priority := 7 }
  let added : TableEntry := { entry with action := some (.action ⟨16, []⟩) }
  have hinfo : WellFormedInfo info := by
    refine ⟨by decide, by decide, ?_, by decide, by decide, by decide, by decide, by decide⟩
    intro t ht
    obtain rfl := List.mem_singleton.mp ht
    exact ⟨by decide, by decide, by decide⟩
  have hkeys := (sameKey_iff info client client "MyIngress.route" "MyIngress.route" args args'
    (some "drop") none none none (.int 7) (.int 7) .insert .delete
    (writeRequest client ⟨.insert, added⟩) (writeRequest client ⟨.delete, entry⟩)
    hinfo rfl rfl (by decide +kernel) (by decide +kernel)).mp rfl
  exact hkeys.2.2 table (List.mem_singleton.mpr rfl) rfl

end TableEntries
end P4Net

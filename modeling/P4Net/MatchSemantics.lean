import P4Net.P4InfoIndex

/-!
# What an encoded match means

`encode_match` turns the named arguments of a caller into the field matches of a
table entry, and leaves wildcards out.  This module states what both sides say
about the values of the fields and proves that they agree.

* `ArgHolds` and `MatchTypeHolds` are the conditions on one field: the one the
  caller wrote and the one on the wire.
* `CanonicalMatch` and `WellFormedMatch` describe the messages a P4Runtime
  server accepts for a table.
* `ArgDefect` lists what can be wrong with one argument.

The results are `encodeMatch_wellFormed`, `encodeMatch_meaning` and
`encodeMatch_error`, collected in `encodeMatch_correct`.
-/

namespace P4Net

open BigEndian ControlCodec P4InfoIndex

/-- Distinct field names and ids, and positive bit widths. -/
structure WellFormedFields (table : Table) : Prop where
  names : (table.matchFields.map MatchField.name).Nodup
  ids : (table.matchFields.map MatchField.id).Nodup
  bitwidths : ∀ mf ∈ table.matchFields, 1 ≤ mf.bitwidth

/-- The shortest byte string of a number of `bitwidth` bits. -/
def CanonicalBytes (bitwidth : Nat) (data : Bytes) : Prop :=
  IsCanonical data ∧ fromBytes data < 2 ^ bitwidth

instance (bitwidth : Nat) (data : Bytes) : Decidable (CanonicalBytes bitwidth data) :=
  inferInstanceAs (Decidable (_ ∧ _))

/-- The `oneof` case and the bytes that the field's declared match type requires. -/
def CanonicalMatch (mf : MatchField) (t : FieldMatchType) : Prop :=
  match mf.matchType, t with
  | .exact, .exact v => CanonicalBytes mf.bitwidth v
  | .optional, .optional v => CanonicalBytes mf.bitwidth v
  | .lpm, .lpm v plen =>
      CanonicalBytes mf.bitwidth v ∧ 1 ≤ plen ∧ plen ≤ mf.bitwidth ∧
        fromBytes v % 2 ^ (mf.bitwidth - plen.toNat) = 0
  | .ternary, .ternary v m =>
      CanonicalBytes mf.bitwidth v ∧ CanonicalBytes mf.bitwidth m ∧
        fromBytes m ≠ 0 ∧ fromBytes v &&& fromBytes m = fromBytes v
  | .range, .range low high =>
      CanonicalBytes mf.bitwidth low ∧ CanonicalBytes mf.bitwidth high ∧
        fromBytes low ≤ fromBytes high ∧
        ¬ (fromBytes low = 0 ∧ fromBytes high = 2 ^ mf.bitwidth - 1)
  | _, _ => False

/-- A match list of a table: declared fields, each at most once, all exact fields present. -/
structure WellFormedMatch (table : Table) (fms : List FieldMatch) : Prop where
  once : (fms.map FieldMatch.fieldId).Nodup
  declared : ∀ fm ∈ fms, ∃ mf ∈ table.matchFields, mf.id = fm.fieldId ∧
    ∃ t, fm.fieldMatchType = some t ∧ CanonicalMatch mf t
  exact : ∀ mf ∈ table.matchFields, mf.matchType = .exact →
    ∃ fm ∈ fms, fm.fieldId = mf.id

/-- The condition a field match puts on a value of `bitwidth` bits. -/
def MatchTypeHolds (bitwidth : Nat) (t : FieldMatchType) (x : Nat) : Prop :=
  match t with
  | .exact v => x = fromBytes v
  | .optional v => x = fromBytes v
  | .lpm v plen =>
      x / 2 ^ (bitwidth - plen.toNat) = fromBytes v / 2 ^ (bitwidth - plen.toNat)
  | .ternary v m => x &&& fromBytes m = fromBytes v
  | .range low high => fromBytes low ≤ x ∧ x ≤ fromBytes high
  | .other => False

/-- The condition a match list puts on the field values; an absent field puts none. -/
def MatchHolds (table : Table) (fms : List FieldMatch) (x : Nat → Nat) : Prop :=
  ∀ mf ∈ table.matchFields, ∀ t, (⟨mf.id, some t⟩ : FieldMatch) ∈ fms →
    MatchTypeHolds mf.bitwidth t (x mf.id)

/-- The condition an argument puts on a value of the field it is given for. -/
def ArgHolds (mf : MatchField) (value : PyValue) (x : Nat) : Prop :=
  match mf.matchType, value with
  | .exact, v => numericValue v = some x
  | .optional, v => numericValue v = some x
  | .lpm, .pair addr (.int plen) =>
      ∃ n, numericValue addr = some n ∧
        (plen = 0 ∨ x / 2 ^ (mf.bitwidth - plen.toNat) = n / 2 ^ (mf.bitwidth - plen.toNat))
  | .ternary, .pair valPart maskPart =>
      ∃ n m, numericValue valPart = some n ∧ numericValue maskPart = some m ∧
        (m = 0 ∨ x &&& m = n)
  | .range, .pair low high =>
      ∃ lo hi, numericValue low = some lo ∧ numericValue high = some hi ∧ lo ≤ x ∧ x ≤ hi
  | _, _ => False

/-- The condition the mapping puts on the field values. -/
def ArgsHold (table : Table) (args : OrderedDict String PyValue) (x : Nat → Nat) : Prop :=
  ∀ mf ∈ table.matchFields, ∀ value, (mf.name, value) ∈ args.entries →
    ArgHolds mf value (x mf.id)

/-- The argument does not fit the field, or has a shape its match type does not take. -/
def ArgMalformed (mf : MatchField) (value : PyValue) : Prop :=
  match mf.matchType with
  | .exact => ¬ ∃ n, FitsWidth value mf.bitwidth n
  | .optional => ¬ ∃ n, FitsWidth value mf.bitwidth n
  | .lpm => ¬ ∃ addr plen n, value = .pair addr (.int (plen : Nat)) ∧ plen ≤ mf.bitwidth ∧
      FitsWidth addr mf.bitwidth n
  | .ternary => ¬ ∃ valPart maskPart n m, value = .pair valPart maskPart ∧
      FitsWidth valPart mf.bitwidth n ∧ FitsWidth maskPart mf.bitwidth m
  | .range => ¬ ∃ low high lo hi, value = .pair low high ∧
      FitsWidth low mf.bitwidth lo ∧ FitsWidth high mf.bitwidth hi
  | .unspecified => True

/-- Bits are set outside a nonzero prefix. -/
def ArgHasHostBits (mf : MatchField) (value : PyValue) : Prop :=
  mf.matchType = .lpm ∧ ∃ addr plen n, value = .pair addr (.int (plen : Nat)) ∧
    numericValue addr = some n ∧ plen ≠ 0 ∧ n % 2 ^ (mf.bitwidth - plen) ≠ 0

/-- Bits are set outside a nonzero mask. -/
def ArgOutsideMask (mf : MatchField) (value : PyValue) : Prop :=
  mf.matchType = .ternary ∧ ∃ valPart maskPart n m, value = .pair valPart maskPart ∧
    numericValue valPart = some n ∧ numericValue maskPart = some m ∧ m ≠ 0 ∧ n &&& m ≠ n

/-- The lower bound of a range exceeds the upper bound. -/
def ArgReversed (mf : MatchField) (value : PyValue) : Prop :=
  mf.matchType = .range ∧ ∃ low high lo hi, value = .pair low high ∧
    numericValue low = some lo ∧ numericValue high = some hi ∧ hi < lo

/-- Everything that can be wrong with one argument. -/
def ArgDefect (mf : MatchField) (value : PyValue) : Prop :=
  ArgMalformed mf value ∨ ArgHasHostBits mf value ∨ ArgOutsideMask mf value ∨
    ArgReversed mf value

theorem canonicalBytes_canonicalize
    {bitwidth : Nat} {data : Bytes}
    (h : fromBytes data < 2 ^ bitwidth) :
    CanonicalBytes bitwidth (canonicalize data) :=
  ⟨isCanonical_canonicalize data, by rwa [fromBytes_canonicalize]⟩

/--
One turn of the loop in `encode_match`: what it produces is canonical for the
field and puts the caller's condition on it; a wildcard puts no condition.
-/
theorem encodeField_correct
    {mf : MatchField} {value : PyValue} {encoded : Option FieldMatchType}
    (hw : 1 ≤ mf.bitwidth) (hs : NoText value)
    (h : encodeField mf value = .ok encoded) :
    (∀ t, encoded = some t → CanonicalMatch mf t) ∧
      (encoded = none → mf.matchType ≠ .exact) ∧
      ∀ x, x < 2 ^ mf.bitwidth →
        ((∀ t, encoded = some t → MatchTypeHolds mf.bitwidth t x) ↔ ArgHolds mf value x) := by
  unfold encodeField at h
  cases hmt : mf.matchType with
  | exact | optional =>
      simp only [hmt, bind, Except.bind] at h
      cases henc : encodeValue value mf.bitwidth with
      | error e => simp [henc] at h
      | ok data =>
          simp only [henc] at h
          obtain rfl := Except.ok.inj h
          obtain ⟨hnum, hlt, -⟩ := encodeValue_fits hw hs henc
          refine ⟨?_, by simp, ?_⟩
          · rintro t ht
            obtain rfl := Option.some.inj ht
            simpa [CanonicalMatch, hmt] using canonicalBytes_canonicalize hlt
          · intro x _
            simp [MatchTypeHolds, ArgHolds, hmt, hnum, eq_comm]
  | lpm =>
      simp only [hmt, bind, Except.bind] at h
      cases henc : parseLpm value mf.bitwidth with
      | error e => simp [henc] at h
      | ok pair =>
          obtain ⟨data, plen⟩ := pair
          obtain ⟨addr, rfl, hle, ⟨hnum, hlt, -⟩, hhost⟩ := parseLpm_fits hw hs henc
          simp only [henc] at h
          split_ifs at h with hp
          · obtain rfl := Except.ok.inj h
            refine ⟨by simp, by simp, ?_⟩
            intro x _
            simp [ArgHolds, hmt, hnum, hp]
          · obtain rfl := Except.ok.inj h
            refine ⟨?_, by simp, ?_⟩
            · rintro t ht
              obtain rfl := Option.some.inj ht
              have hcan := canonicalBytes_canonicalize hlt
              simp only [CanonicalMatch, hmt, Int.toNat_natCast, fromBytes_canonicalize]
              exact ⟨hcan, by omega, by omega, hhost hp⟩
            · intro x _
              simp [MatchTypeHolds, ArgHolds, hmt, hnum, hp]
  | ternary =>
      simp only [hmt, bind, Except.bind] at h
      cases henc : parseTernary value mf.bitwidth with
      | error e => simp [henc] at h
      | ok pair =>
          obtain ⟨dataVal, dataMask⟩ := pair
          obtain ⟨a, b, rfl, ⟨hnumv, hltv, -⟩, ⟨hnumm, hltm, -⟩, hmask⟩ :=
            parseTernary_fits hw hs henc
          simp only [henc, all_eq_zero_iff] at h
          split_ifs at h with hm
          · obtain rfl := Except.ok.inj h
            refine ⟨by simp, by simp, ?_⟩
            intro x _
            simp [ArgHolds, hmt, hnumv, hnumm, hm]
          · obtain rfl := Except.ok.inj h
            refine ⟨?_, by simp, ?_⟩
            · rintro t ht
              obtain rfl := Option.some.inj ht
              simp only [CanonicalMatch, hmt, fromBytes_canonicalize]
              exact ⟨canonicalBytes_canonicalize hltv, canonicalBytes_canonicalize hltm, hm,
                hmask hm⟩
            · intro x _
              simp [MatchTypeHolds, ArgHolds, hmt, hnumv, hnumm, hm]
  | range =>
      simp only [hmt, bind, Except.bind] at h
      cases henc : parseRange value mf.bitwidth with
      | error e => simp [henc] at h
      | ok pair =>
          obtain ⟨dataLow, dataHigh⟩ := pair
          obtain ⟨a, b, rfl, ⟨hnuml, hltl, -⟩, ⟨hnumh, hlth, -⟩, hle⟩ :=
            parseRange_fits hw hs henc
          simp only [henc] at h
          split_ifs at h with hfull
          · obtain rfl := Except.ok.inj h
            refine ⟨by simp, by simp, ?_⟩
            intro x hx
            have hbounds : fromBytes dataLow ≤ x ∧ x ≤ fromBytes dataHigh := by omega
            simp [ArgHolds, hmt, hnuml, hnumh, hbounds]
          · obtain rfl := Except.ok.inj h
            refine ⟨?_, by simp, ?_⟩
            · rintro t ht
              obtain rfl := Option.some.inj ht
              simp only [CanonicalMatch, hmt, fromBytes_canonicalize]
              exact ⟨canonicalBytes_canonicalize hltl, canonicalBytes_canonicalize hlth, hle,
                hfull⟩
            · intro x _
              simp [MatchTypeHolds, ArgHolds, hmt, hnuml, hnumh]
  | unspecified => simp [hmt] at h

/-- An argument that the loop rejects has a defect. -/
theorem encodeField_error
    {mf : MatchField} {value : PyValue} {e : EncodingError}
    (hw : 1 ≤ mf.bitwidth)
    (h : encodeField mf value = .error e) :
    ArgDefect mf value := by
  unfold encodeField at h
  cases hmt : mf.matchType with
  | exact =>
      left
      simp only [ArgMalformed, hmt]
      rintro ⟨n, hfit⟩
      obtain ⟨data, henc, -⟩ := encodeValue_of_fits hw hfit
      simp [hmt, henc, bind, Except.bind] at h
  | optional =>
      left
      simp only [ArgMalformed, hmt]
      rintro ⟨n, hfit⟩
      obtain ⟨data, henc, -⟩ := encodeValue_of_fits hw hfit
      simp [hmt, henc, bind, Except.bind] at h
  | lpm =>
      by_contra hok
      simp only [ArgDefect, not_or] at hok
      simp only [ArgMalformed, hmt, not_not] at hok
      obtain ⟨⟨addr, plen, n, rfl, hle, hfit⟩, hhost, -, -⟩ := hok
      have hfits : LpmFits (.pair addr (.int plen)) mf.bitwidth n plen := by
        refine ⟨addr, rfl, hle, hfit, ?_⟩
        intro hp
        by_contra hbits
        exact hhost ⟨hmt, addr, plen, n, rfl, hfit.1, hp, hbits⟩
      obtain ⟨data, henc, -⟩ := parseLpm_of_fits hw hfits
      simp only [hmt, henc, bind, Except.bind] at h
      split_ifs at h
  | ternary =>
      by_contra hok
      simp only [ArgDefect, not_or] at hok
      simp only [ArgMalformed, hmt, not_not] at hok
      obtain ⟨⟨a, b, n, m, rfl, ha, hb⟩, -, hmask, -⟩ := hok
      have hfits : TernaryFits (.pair a b) mf.bitwidth n m := by
        refine ⟨a, b, rfl, ha, hb, ?_⟩
        intro hm
        by_contra hval
        exact hmask ⟨hmt, a, b, n, m, rfl, ha.1, hb.1, hm, hval⟩
      obtain ⟨dataVal, dataMask, henc, -, -⟩ := parseTernary_of_fits hw hfits
      simp only [hmt, henc, bind, Except.bind] at h
      split_ifs at h
  | range =>
      by_contra hok
      simp only [ArgDefect, not_or] at hok
      simp only [ArgMalformed, hmt, not_not] at hok
      obtain ⟨⟨a, b, lo, hi, rfl, ha, hb⟩, -, -, hrev⟩ := hok
      have hfits : RangeFits (.pair a b) mf.bitwidth lo hi := by
        refine ⟨a, b, rfl, ha, hb, ?_⟩
        by_contra hlt
        exact hrev ⟨hmt, a, b, lo, hi, rfl, ha.1, hb.1, by omega⟩
      obtain ⟨dataLow, dataHigh, henc, -, -⟩ := parseRange_of_fits hw hfits
      simp only [hmt, henc, bind, Except.bind] at h
      split_ifs at h
  | unspecified =>
      left
      simp [ArgMalformed, hmt]

section Loop

variable {info : P4Info} {tableName : String} {table : Table}
variable {args : OrderedDict String PyValue} {out : List FieldMatch}

/-- The three conditions under which `encode_match` returns, with distinct names. -/
theorem encodeMatch_steps
    (htable : (P4InfoIndex.ofP4Info info).tablesByName.get? tableName = some table)
    (hwf : WellFormedFields table)
    (h : encodeMatch (.ofP4Info info) tableName args = .ok out) :
    (∀ key ∈ args.keys, ∃ mf ∈ table.matchFields, mf.name = key) ∧
      (∀ mf ∈ table.matchFields, mf.matchType = .exact → mf.name ∈ args.keys) ∧
      encodeFields (fieldsByName table) tableName args.entries = .ok out := by
  obtain ⟨hkeys, hexact, hloop⟩ := (encodeMatch_eq_ok htable).mp h
  refine ⟨?_, hexact, hloop⟩
  intro key hkey
  obtain ⟨mf, hget⟩ := Option.isSome_iff_exists.mp
    ((OrderedDict.get?_isSome_iff _ _).mpr (hkeys key hkey))
  exact ⟨mf, (get?_fieldsByName hwf.names key mf).mp hget⟩

/-- The loop keeps the order of the keys, so it names each field at most once. -/
theorem encodeFields_fieldIds_nodup
    (hwf : WellFormedFields table)
    {items : List (String × PyValue)} (hitems : (items.map Prod.fst).Nodup)
    (h : encodeFields (fieldsByName table) tableName items = .ok out) :
    (out.map FieldMatch.fieldId).Nodup := by
  induction items generalizing out with
  | nil =>
      obtain rfl := Except.ok.inj h
      simp
  | cons item rest ih =>
      obtain ⟨name, value⟩ := item
      obtain ⟨mf, encoded, result, hget, -, hrest, rfl⟩ := encodeFields_cons_eq_ok h
      simp only [List.map_cons, List.nodup_cons] at hitems
      have htail := ih hitems.2 hrest
      cases encoded with
      | none => simpa using htail
      | some t =>
          simp only [Option.toList_some, List.map_cons, List.map_nil, List.cons_append,
            List.nil_append, List.nodup_cons]
          refine ⟨?_, htail⟩
          intro hid
          -- A later match of the same field would come from an item with the same key.
          obtain ⟨fm, hfm, hfmid⟩ := List.mem_map.mp hid
          obtain ⟨name', value', mf', t', hitem, hget', -, rfl⟩ :=
            encodeFields_origin hrest hfm
          obtain ⟨hmem, rfl⟩ := (get?_fieldsByName hwf.names name mf).mp hget
          obtain ⟨hmem', rfl⟩ := (get?_fieldsByName hwf.names name' mf').mp hget'
          obtain rfl := List.inj_on_of_nodup_map hwf.ids hmem' hmem hfmid
          exact hitems.1 (List.mem_map.mpr ⟨_, hitem, rfl⟩)

/-- The result of `encode_match` is a match list that the table accepts. -/
theorem encodeMatch_wellFormed
    (htable : (P4InfoIndex.ofP4Info info).tablesByName.get? tableName = some table)
    (hwf : WellFormedFields table)
    (hargs : ∀ item ∈ args.entries, NoText item.2)
    (h : encodeMatch (.ofP4Info info) tableName args = .ok out) :
    WellFormedMatch table out := by
  obtain ⟨-, hexact, hloop⟩ := encodeMatch_steps htable hwf h
  refine ⟨encodeFields_fieldIds_nodup hwf args.nodup hloop, ?_, ?_⟩
  · intro fm hfm
    obtain ⟨name, value, mf, t, hitem, hget, henc, rfl⟩ := encodeFields_origin hloop hfm
    obtain ⟨hmem, -⟩ := (get?_fieldsByName hwf.names name mf).mp hget
    have hcorrect := encodeField_correct (hwf.bitwidths mf hmem) (hargs _ hitem) henc
    exact ⟨mf, hmem, rfl, t, rfl, hcorrect.1 t rfl⟩
  · intro mf hmem hmt
    obtain ⟨⟨name, value⟩, hitem, rfl⟩ := List.mem_map.mp (hexact mf hmem hmt)
    obtain ⟨mf', encoded, hget, henc, hout⟩ := encodeFields_mem hloop hitem
    obtain ⟨hmem', hname⟩ := (get?_fieldsByName hwf.names _ mf').mp hget
    obtain rfl := List.inj_on_of_nodup_map hwf.names hmem' hmem hname
    have hcorrect := encodeField_correct (hwf.bitwidths mf' hmem) (hargs _ hitem) henc
    cases encoded with
    | none => exact absurd hmt (hcorrect.2.1 rfl)
    | some t => exact ⟨_, hout t rfl, rfl⟩

/-- The match list admits exactly the values that the mapping admits. -/
theorem encodeMatch_meaning
    (htable : (P4InfoIndex.ofP4Info info).tablesByName.get? tableName = some table)
    (hwf : WellFormedFields table)
    (hargs : ∀ item ∈ args.entries, NoText item.2)
    (h : encodeMatch (.ofP4Info info) tableName args = .ok out)
    {x : Nat → Nat} (hx : ∀ mf ∈ table.matchFields, x mf.id < 2 ^ mf.bitwidth) :
    MatchHolds table out x ↔ ArgsHold table args x := by
  obtain ⟨-, -, hloop⟩ := encodeMatch_steps htable hwf h
  constructor
  · intro hmatch mf hmem value hitem
    obtain ⟨mf', encoded, hget, henc, hout⟩ := encodeFields_mem hloop hitem
    obtain ⟨hmem', hname⟩ := (get?_fieldsByName hwf.names _ mf').mp hget
    obtain rfl := List.inj_on_of_nodup_map hwf.names hmem' hmem hname
    have hcorrect := encodeField_correct (hwf.bitwidths mf' hmem) (hargs _ hitem) henc
    exact (hcorrect.2.2 _ (hx mf' hmem)).mp
      (fun t ht => hmatch mf' hmem t (hout t ht))
  · intro hcaller mf hmem t hfm
    obtain ⟨name, value, mf', t', hitem, hget, henc, heq⟩ := encodeFields_origin hloop hfm
    obtain ⟨hid, ht⟩ := FieldMatch.mk.inj heq
    obtain rfl := Option.some.inj ht
    obtain ⟨hmem', rfl⟩ := (get?_fieldsByName hwf.names name mf').mp hget
    obtain rfl := List.inj_on_of_nodup_map hwf.ids hmem hmem' hid
    have hcorrect := encodeField_correct (hwf.bitwidths mf hmem) (hargs _ hitem) henc
    exact (hcorrect.2.2 _ (hx mf hmem)).mpr (hcaller mf hmem value hitem) t rfl

/-- What a rejected mapping has wrong with it. -/
def MatchDefect (table : Table) (args : OrderedDict String PyValue) : Prop :=
  (∃ key ∈ args.keys, ∀ mf ∈ table.matchFields, mf.name ≠ key) ∨
    (∃ mf ∈ table.matchFields, mf.matchType = .exact ∧ mf.name ∉ args.keys) ∨
    ∃ mf ∈ table.matchFields, ∃ value, (mf.name, value) ∈ args.entries ∧ ArgDefect mf value

theorem encodeMatch_error
    (htable : (P4InfoIndex.ofP4Info info).tablesByName.get? tableName = some table)
    (hwf : WellFormedFields table) {err : ControlError}
    (h : encodeMatch (.ofP4Info info) tableName args = .error err) :
    MatchDefect table args := by
  by_contra hok
  simp only [MatchDefect, not_or, not_exists, not_and, not_forall, ne_eq, not_not] at hok
  obtain ⟨hknown, hexact, hvalues⟩ := hok
  have hlookup : ∀ key ∈ args.keys, ∃ mf ∈ table.matchFields,
      mf.name = key ∧ (fieldsByName table).get? key = some mf := by
    intro key hkey
    obtain ⟨mf, hmem, hname⟩ := hknown key hkey
    exact ⟨mf, hmem, hname, (get?_fieldsByName hwf.names key mf).mpr ⟨hmem, hname⟩⟩
  cases hloop : encodeFields (fieldsByName table) tableName args.entries with
  | error e =>
      obtain ⟨name, value, hitem, hcase⟩ := encodeFields_error hloop
      obtain ⟨mf, hmem, rfl, hget⟩ := hlookup name (List.mem_map.mpr ⟨_, hitem, rfl⟩)
      rcases hcase with hnone | ⟨mf', e', hget', henc⟩
      · rw [hget] at hnone
        cases hnone
      · obtain rfl := Option.some.inj (hget.symm.trans hget')
        exact hvalues mf hmem value hitem (encodeField_error (hwf.bitwidths mf hmem) henc)
  | ok out =>
      have hret : encodeMatch (.ofP4Info info) tableName args = .ok out := by
        refine (encodeMatch_eq_ok htable).mpr ⟨?_, hexact, hloop⟩
        intro key hkey
        obtain ⟨mf, -, -, hget⟩ := hlookup key hkey
        exact (OrderedDict.get?_isSome_iff _ _).mp (by simp [hget])
      rw [hret] at h
      cases h

end Loop

/--
`encode_match` on arguments without strings: a returned list is accepted by the
table and admits the values that the caller wrote, and an exception has a cause
in the mapping.
-/
theorem encodeMatch_correct
    (info : P4Info) (tableName : String) (table : Table)
    (args : OrderedDict String PyValue)
    (htable : (P4InfoIndex.ofP4Info info).tablesByName.get? tableName = some table)
    (hwf : WellFormedFields table)
    (hargs : ∀ item ∈ args.entries, NoText item.2) :
    (∀ out, encodeMatch (.ofP4Info info) tableName args = .ok out →
      WellFormedMatch table out ∧
        ∀ x : Nat → Nat, (∀ mf ∈ table.matchFields, x mf.id < 2 ^ mf.bitwidth) →
          (MatchHolds table out x ↔ ArgsHold table args x)) ∧
    (∀ err, encodeMatch (.ofP4Info info) tableName args = .error err →
      MatchDefect table args) := by
  refine ⟨?_, fun err h => encodeMatch_error htable hwf h⟩
  intro out h
  exact ⟨encodeMatch_wellFormed htable hwf hargs h,
    fun x hx => encodeMatch_meaning htable hwf hargs h hx⟩

/-- A table with a ternary and a range field, matched with a mask and a full range. -/
theorem encodeMatch_correct_acl :
    let table : Table := ⟨7, "acl", [⟨1, "proto", 9, .ternary⟩, ⟨2, "port", 16, .range⟩]⟩
    let args : OrderedDict String PyValue := .ofList
      [("port", .pair (.int 0) (.bytes [255, 255])), ("proto", .pair (.bool true) (.int 257))]
    let out : List FieldMatch := [⟨1, some (.ternary [1] [1, 1])⟩]
    WellFormedMatch table out ∧
      ∀ x : Nat → Nat, (∀ mf ∈ table.matchFields, x mf.id < 2 ^ mf.bitwidth) →
        (MatchHolds table out x ↔ ArgsHold table args x) := by
  intro table args out
  refine (encodeMatch_correct ⟨[table], []⟩ "acl" table args (by decide) ?_ ?_).1 out
    (by decide)
  · exact ⟨by decide, by decide, by decide⟩
  · intro item hitem
    have hcases : item = ("port", .pair (.int 0) (.bytes [255, 255])) ∨
        item = ("proto", .pair (.bool true) (.int 257)) := by
      simpa [args, OrderedDict.ofList, OrderedDict.set, OrderedDict.empty,
        entrySet] using hitem
    rcases hcases with rfl | rfl
    · exact ⟨trivial, trivial⟩
    · exact ⟨trivial, trivial⟩

end P4Net

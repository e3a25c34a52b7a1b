import Mathlib.Data.List.Forall2
import P4Net.FieldValues
import P4Net.OrderedDict

/-!
# Controller metadata of packets

A PacketOut and a PacketIn carry the fields of a controller header, which the client names and
the switch numbers.  `control/p4info_index.py` translates between the two.

* `ofHeaders` : the headers that the index keeps.
* `encodePacketOutMetadata`, `decodePacketInMetadata` : the two directions.
* `encode_ok_iff` : which mappings are encoded; `get?_decode` : what is decoded.
* `roundTrip_iff` : the directions compose to the identity, unless a value is misread.
-/

namespace P4Net
namespace PacketHeaders

open BigEndian ControlCodec Literals Mac TextLiterals

/-! ### The index -/

/-- `p4.config.v1.ControllerPacketMetadata.Metadata`. -/
structure MetadataField where
  id : Nat
  name : String
  bitwidth : Nat
deriving DecidableEq, Repr

/-- `p4.config.v1.ControllerPacketMetadata`, with the name of its preamble. -/
structure ControllerHeader where
  name : String
  metadata : List MetadataField
deriving DecidableEq, Repr

/-- `p4.v1.PacketMetadata`. -/
structure PacketMetadata where
  metadataId : Nat
  value : Bytes
deriving DecidableEq, Repr

/-- The attributes `_packet_in` and `_packet_out` of `P4InfoIndex`. -/
structure HeaderIndex where
  packetIn : Option ControllerHeader
  packetOut : Option ControllerHeader
deriving DecidableEq, Repr

/-- The loop of `P4InfoIndex.__init__` over `controller_packet_metadata`. -/
def ofHeaders (headers : List ControllerHeader) : HeaderIndex :=
  headers.foldl (fun index cpm =>
    if cpm.name = "packet_in" then { index with packetIn := some cpm }
    else if cpm.name = "packet_out" then { index with packetOut := some cpm }
    else index) ⟨none, none⟩

/-- The exceptions of `encode_packet_out_metadata`. -/
inductive MetadataError where
  | noHeader (metadata : List (String × PyValue))
  | noSuchField (key : String)
  | encoding (reason : EncodingError)
deriving DecidableEq, Repr

/-- `metadata.get(m.name, 0)`. -/
def valueOf (metadata : OrderedDict String PyValue) (m : MetadataField) : PyValue :=
  (metadata.get? m.name).getD (.int 0)

/-- The loop of `encode_packet_out_metadata` over the fields of the header. -/
def encodeFields (metadata : OrderedDict String PyValue) :
    List MetadataField → Except MetadataError (List PacketMetadata)
  | [] => .ok []
  | m :: rest =>
      match encodeValueLimited (valueOf metadata m) m.bitwidth with
      | .error e => .error (.encoding e)
      | .ok encoded =>
          match encodeFields metadata rest with
          | .error e => .error e
          | .ok out => .ok (⟨m.id, canonicalize encoded⟩ :: out)

/-- `encode_packet_out_metadata`. -/
def encodePacketOutMetadata (index : HeaderIndex) (metadata : OrderedDict String PyValue) :
    Except MetadataError (List PacketMetadata) :=
  match index.packetOut with
  | none => if metadata.entries = [] then .ok [] else .error (.noHeader metadata.entries)
  | some header =>
      match metadata.keys.find? (fun k => k ∉ header.metadata.map MetadataField.name) with
      | some k => .error (.noSuchField k)
      | none => encodeFields metadata header.metadata

/-- The entry that one `PacketMetadata` adds; an unknown id adds none. -/
def decodedEntry (schemaById : OrderedDict Nat MetadataField) (pm : PacketMetadata) :
    Option (String × Nat) :=
  (schemaById.get? pm.metadataId).map fun m => (m.name, fromBytes pm.value)

/-- `decode_packet_in_metadata`. -/
def decodePacketInMetadata (index : HeaderIndex) (metadata : List PacketMetadata) :
    OrderedDict String Nat :=
  match index.packetIn with
  | none => .empty
  | some header =>
      let schemaById := OrderedDict.ofList (header.metadata.map fun m => (m.id, m))
      metadata.foldl (fun out pm => out.setEntry (decodedEntry schemaById pm)) .empty

/-! ### Encoding -/

/-- The fields of a header that may be missing. -/
def fieldsOf (header : Option ControllerHeader) : List MetadataField :=
  (header.map ControllerHeader.metadata).getD []

/-- The metadata of one field. -/
def EncodedAs (metadata : OrderedDict String PyValue) (m : MetadataField)
    (pm : PacketMetadata) : Prop :=
  ∃ data, encodeValueLimited (valueOf metadata m) m.bitwidth = .ok data ∧
    pm = ⟨m.id, canonicalize data⟩

theorem encodeFields_eq_ok_iff
    (metadata : OrderedDict String PyValue) (fields : List MetadataField)
    (out : List PacketMetadata) :
    encodeFields metadata fields = .ok out ↔
      List.Forall₂ (EncodedAs metadata) fields out := by
  induction fields generalizing out with
  | nil => simp [encodeFields, eq_comm]
  | cons m rest ih =>
      rw [List.forall₂_cons_left_iff]
      unfold encodeFields
      cases hvalue : encodeValueLimited (valueOf metadata m) m.bitwidth with
      | error e => simp [EncodedAs, hvalue]
      | ok data =>
          cases hrest : encodeFields metadata rest with
          | error e =>
              have hnone : ∀ o, ¬ List.Forall₂ (EncodedAs metadata) rest o := by
                intro o ho
                rw [(ih o).mpr ho] at hrest
                cases hrest
              simp [hnone]
          | ok o =>
              constructor
              · intro h
                exact ⟨⟨m.id, canonicalize data⟩, o, ⟨data, hvalue, rfl⟩, (ih o).mp hrest,
                  (Except.ok.inj h).symm⟩
              · rintro ⟨_, o', ⟨_, hdata, rfl⟩, ho', rfl⟩
                rw [(ih o').mpr ho'] at hrest
                rw [hvalue] at hdata
                rw [← Except.ok.inj hdata, ← Except.ok.inj hrest]

/-- The fields are encoded when each value is. -/
theorem exists_encodeFields
    {metadata : OrderedDict String PyValue} {fields : List MetadataField}
    (h : ∀ m ∈ fields, ∃ data, encodeValueLimited (valueOf metadata m) m.bitwidth = .ok data) :
    ∃ out, encodeFields metadata fields = .ok out := by
  induction fields with
  | nil => exact ⟨[], rfl⟩
  | cons m rest ih =>
      obtain ⟨⟨data, hdata⟩, hrest⟩ := List.forall_mem_cons.mp h
      obtain ⟨out, hout⟩ := ih hrest
      exact ⟨_, by rw [encodeFields, hdata, hout]⟩

/-- A mapping is encoded when its keys are declared and its fields are encoded. -/
theorem encode_eq_ok_iff
    (index : HeaderIndex) (metadata : OrderedDict String PyValue) (out : List PacketMetadata) :
    encodePacketOutMetadata index metadata = .ok out ↔
      (∀ k ∈ metadata.keys, k ∈ (fieldsOf index.packetOut).map MetadataField.name) ∧
        encodeFields metadata (fieldsOf index.packetOut) = .ok out := by
  unfold encodePacketOutMetadata
  cases index.packetOut with
  | none =>
      have hentries : metadata.entries = [] ↔ ∀ k ∈ metadata.keys, k ∈ ([] : List String) := by
        simp [OrderedDict.keys, List.eq_nil_iff_forall_not_mem]
      by_cases hempty : metadata.entries = []
      · simp [fieldsOf, encodeFields, hempty, OrderedDict.keys]
      · simp only [hempty, if_false, fieldsOf, Option.map_none, Option.getD_none, List.map_nil]
        rw [← hentries]
        simp [hempty]
  | some header =>
      simp only [fieldsOf, Option.map_some, Option.getD_some]
      cases hfind : metadata.keys.find? (fun k => k ∉ header.metadata.map MetadataField.name) with
      | none =>
          have hall : ∀ k ∈ metadata.keys, k ∈ header.metadata.map MetadataField.name :=
            fun k hk => by simpa using List.find?_eq_none.mp hfind k hk
          simp only
          exact ⟨fun h => ⟨hall, h⟩, fun h => h.2⟩
      | some k =>
          have hmem := List.mem_of_find?_eq_some hfind
          have hnot : k ∉ header.metadata.map MetadataField.name := by
            simpa using List.find?_some hfind
          simp only
          constructor
          · intro h
            cases h
          · rintro ⟨hall, -⟩
            exact absurd (hall k hmem) hnot

/-! ### Decoding -/

/-- The metadata of the fields that are known, in any order, with others mixed in. -/
def Received (fields : List MetadataField) (out received : List PacketMetadata) : Prop :=
  (received.filter fun pm => pm.metadataId ∈ fields.map MetadataField.id).Perm out

/-- The entries of the metadata that are known. -/
theorem filterMap_decodedEntry_perm
    {fields : List MetadataField} {out received : List PacketMetadata}
    (h : Received fields out received) :
    let entry := decodedEntry (.ofList (fields.map fun m => (m.id, m)))
    (received.filterMap entry).Perm (out.filterMap entry) := by
  intro entry
  have hunknown : ∀ pm, pm.metadataId ∉ fields.map MetadataField.id → entry pm = none := by
    intro pm hpm
    have hnone : (OrderedDict.ofList (fields.map fun m => (m.id, m))).get? pm.metadataId =
        none := by
      rw [OrderedDict.get?_eq_none_iff, OrderedDict.mem_keys_ofList, List.map_map]
      exact hpm
    simp [entry, decodedEntry, hnone]
  have hfilter : received.filterMap entry =
      (received.filter fun pm => pm.metadataId ∈ fields.map MetadataField.id).filterMap
        entry := by
    rw [List.filterMap_filter]
    refine List.filterMap_congr fun pm _ => ?_
    by_cases hknown : pm.metadataId ∈ fields.map MetadataField.id
    · rw [if_pos (decide_eq_true hknown)]
    · rw [if_neg (by simpa using hknown), hunknown pm hknown]
  rw [hfilter]
  exact h.filterMap entry

/-- What a field and its metadata are decoded as. -/
def entryOf (p : MetadataField × PacketMetadata) : String × Nat :=
  (p.1.name, fromBytes p.2.value)

/-- The metadata stand under the ids of the fields. -/
def SameIds : List MetadataField → List PacketMetadata → Prop :=
  List.Forall₂ fun m pm => pm.metadataId = m.id

/-- Each encoded field gives one entry. -/
theorem filterMap_decodedEntry
    {fields : List MetadataField} {out : List PacketMetadata}
    (hids : (fields.map MetadataField.id).Nodup) (h : SameIds fields out) :
    out.filterMap (decodedEntry (.ofList (fields.map fun m => (m.id, m)))) =
      (fields.zip out).map entryOf := by
  have hentry : ∀ m ∈ fields, ∀ pm : PacketMetadata, pm.metadataId = m.id →
      decodedEntry (.ofList (fields.map fun m => (m.id, m))) pm = some (entryOf (m, pm)) := by
    intro m hm pm hpm
    rw [decodedEntry, hpm, OrderedDict.get?_ofList_map hids hm]
    rfl
  have hall : ∀ {fs : List MetadataField} {os : List PacketMetadata}, (∀ m ∈ fs, m ∈ fields) →
      SameIds fs os → os.filterMap (decodedEntry (.ofList (fields.map fun m => (m.id, m)))) =
        (fs.zip os).map entryOf := by
    intro fs os hsub hfs
    induction hfs with
    | nil => rfl
    | cons hm _ ih =>
        obtain ⟨hmem, hrest⟩ := List.forall_mem_cons.mp hsub
        rw [List.filterMap_cons_some (hentry _ hmem _ hm), List.zip_cons_cons, List.map_cons,
          ih hrest]
  exact hall (fun _ hm => hm) h

/-- What a known field is decoded as. -/
theorem get?_decode
    {index : HeaderIndex} {out received : List PacketMetadata}
    (hids : ((fieldsOf index.packetIn).map MetadataField.id).Nodup)
    (hnames : ((fieldsOf index.packetIn).map MetadataField.name).Nodup)
    (hout : SameIds (fieldsOf index.packetIn) out)
    (hreceived : Received (fieldsOf index.packetIn) out received) (name : String) (n : Nat) :
    (decodePacketInMetadata index received).get? name = some n ↔
      (name, n) ∈ ((fieldsOf index.packetIn).zip out).map entryOf := by
  unfold decodePacketInMetadata
  cases hin : index.packetIn with
  | none => simp [fieldsOf]
  | some header =>
      rw [hin] at hids hnames hout hreceived
      have hfields : fieldsOf (some header) = header.metadata := rfl
      rw [hfields] at hids hnames hout hreceived ⊢
      have hperm := filterMap_decodedEntry_perm hreceived
      simp only [filterMap_decodedEntry hids hout] at hperm
      have hkeys : ((header.metadata.zip out).map entryOf).map Prod.fst =
          header.metadata.map MetadataField.name := by
        have hfst := List.map_fst_zip hout.length_eq.le
        calc ((header.metadata.zip out).map entryOf).map Prod.fst
            = ((header.metadata.zip out).map Prod.fst).map MetadataField.name := by
              rw [List.map_map, List.map_map]
              rfl
          _ = header.metadata.map MetadataField.name := by rw [hfst]
      have hnodup := (hperm.map Prod.fst).nodup_iff.mpr (hkeys ▸ hnames)
      simp only
      rw [OrderedDict.foldl_setEntry, OrderedDict.get?_ofList_eq_some_iff hnodup,
        hperm.mem_iff]

/-! ### The round trip -/

/-- The number that a field is given; it is zero where none is given. -/
def Given (metadata : OrderedDict String PyValue) (m : MetadataField) (n : Nat) : Prop :=
  match metadata.get? m.name with
  | none => n = 0
  | some value => Denotes value m.bitwidth n

/-- The two directions on one mapping. -/
structure RoundTrip (index : HeaderIndex) (fields : List MetadataField)
    (metadata : OrderedDict String PyValue) : Prop where
  /-- One canonical entry for each field, in the order of declaration. -/
  encoded : ∀ out, encodePacketOutMetadata index metadata = .ok out →
    SameIds fields out ∧ ∀ pm ∈ out, IsCanonical pm.value
  /-- Every field comes back with its number, and nothing else does. -/
  decoded : ∀ out received, encodePacketOutMetadata index metadata = .ok out →
    Received fields out received →
      (∀ m ∈ fields, ∃ n, Given metadata m n ∧
        (decodePacketInMetadata index received).get? m.name = some n) ∧
      ∀ key ∈ (decodePacketInMetadata index received).keys, key ∈ fields.map MetadataField.name
  /-- What is undeclared, malformed or too wide is rejected, and nothing else is. -/
  rejected : (∃ e, encodePacketOutMetadata index metadata = .error e) ↔
    (∃ key ∈ metadata.keys, key ∉ fields.map MetadataField.name) ∨
      ∃ m ∈ fields, ∃ value, metadata.get? m.name = some value ∧ ∀ n, ¬ Denotes value m.bitwidth n

/-- The encoder refuses the value for its dots, or for the number of its digits. -/
def Refused (value : PyValue) (bitwidth : Nat) : Prop :=
  DottedIpv6 value bitwidth ∨ ∃ text, value = .str text ∧ LongDecimal text

/--
Every key is declared, and the encoder misreads a value: all values are well formed and one is an
IPv6 literal with three dots or a decimal with too many digits, or one is an address with a newline
and the others are encoded.
-/
def Misread (fields : List MetadataField) (metadata : OrderedDict String PyValue) : Prop :=
  (∀ key ∈ metadata.keys, key ∈ fields.map MetadataField.name) ∧
    (((∀ m ∈ fields, ∀ value, metadata.get? m.name = some value →
        ∃ n, Denotes value m.bitwidth n) ∧
      ∃ m ∈ fields, ∃ value, metadata.get? m.name = some value ∧ Refused value m.bitwidth) ∨
    ((∀ m ∈ fields, ∀ value, metadata.get? m.name = some value →
        ((∃ n, Denotes value m.bitwidth n) ∧ ¬ Refused value m.bitwidth) ∨
          NewlineMac value m.bitwidth) ∧
      ∃ m ∈ fields, ∃ value, metadata.get? m.name = some value ∧ NewlineMac value m.bitwidth))

/-- Which values of a field are encoded. -/
theorem encodeValueLimited_ok_iff
    {bitwidth : Nat}
    (hw : 1 ≤ bitwidth) (value : PyValue) :
    (∃ data, encodeValueLimited value bitwidth = .ok data) ↔
      ((∃ n, Denotes value bitwidth n) ∧ ¬ Refused value bitwidth) ∨
        NewlineMac value bitwidth := by
  have hline : NewlineMac value bitwidth → ∀ text, value = .str text → ¬ LongDecimal text := by
    rintro ⟨text, rfl, -, hmac⟩ _ ⟨⟩ ⟨-, hcolon, -⟩
    obtain ⟨data, hdata⟩ := (encodeMac_isOk_iff text).mpr (Or.inr hmac)
    have hcolons := (counts_of_matchMac (matchMac_of_read ((read_mac_eq_some_iff _ _).mpr hdata))).2
    exact hcolon (List.count_pos_iff.mp (by omega))
  simp only [encodeValueLimited_eq_ok_iff, exists_and_right, encodeValue_ok_iff hw]
  constructor
  · rintro ⟨⟨hdenotes, hdotted⟩ | hnewline, hlong⟩
    · exact Or.inl ⟨hdenotes, fun h => h.elim hdotted fun ⟨text, htext, h⟩ => hlong text htext h⟩
    · exact Or.inr hnewline
  · rintro (⟨hdenotes, hrefused⟩ | hnewline)
    · exact ⟨Or.inl ⟨hdenotes, fun h => hrefused (Or.inl h)⟩,
        fun text htext h => hrefused (Or.inr ⟨text, htext, h⟩)⟩
    · exact ⟨Or.inr hnewline, hline hnewline⟩

theorem valueOf_some
    {metadata : OrderedDict String PyValue} {m : MetadataField} {value : PyValue}
    (h : metadata.get? m.name = some value) :
    valueOf metadata m = value := by
  rw [valueOf, h]
  rfl

/-- A field that is not given is zero. -/
theorem encodeValue_valueOf_none
    {metadata : OrderedDict String PyValue} {m : MetadataField}
    (hw : 1 ≤ m.bitwidth) (h : metadata.get? m.name = none) :
    ∃ data, encodeValueLimited (valueOf metadata m) m.bitwidth = .ok data ∧
      fromBytes data = 0 := by
  have hvalue : valueOf metadata m = .int 0 := by
    rw [valueOf, h]
    rfl
  rw [hvalue]
  have hzero : FitsWidth (.int 0) m.bitwidth 0 := ⟨rfl, by positivity, trivial⟩
  exact encodeValue_of_fits hw hzero

section OneSchema

variable {index : HeaderIndex} {fields : List MetadataField}

/-- Every field has its metadata. -/
theorem exists_mem_zip
    {metadata : OrderedDict String PyValue} {out : List PacketMetadata} {m : MetadataField}
    (h : List.Forall₂ (EncodedAs metadata) fields out) (hm : m ∈ fields) :
    ∃ pm, (m, pm) ∈ fields.zip out := by
  rw [← List.map_fst_zip h.length_eq.le] at hm
  obtain ⟨p, hp, rfl⟩ := List.mem_map.mp hm
  exact ⟨p.2, hp⟩

/-- Which mappings are encoded. -/
theorem encode_ok_iff
    (hout : fieldsOf index.packetOut = fields) (hw : ∀ m ∈ fields, 1 ≤ m.bitwidth)
    (metadata : OrderedDict String PyValue) :
    (∃ out, encodePacketOutMetadata index metadata = .ok out) ↔
      (∀ key ∈ metadata.keys, key ∈ fields.map MetadataField.name) ∧
        ∀ m ∈ fields, ∀ value, metadata.get? m.name = some value →
          ((∃ n, Denotes value m.bitwidth n) ∧ ¬ Refused value m.bitwidth) ∨
            NewlineMac value m.bitwidth := by
  simp only [encode_eq_ok_iff, hout, exists_and_left]
  refine and_congr_right fun _ => ?_
  constructor
  · rintro ⟨out, h⟩ m hm value hvalue
    have hforall := (encodeFields_eq_ok_iff _ _ _).mp h
    obtain ⟨pm, hpm⟩ := exists_mem_zip hforall hm
    obtain ⟨data, hdata, -⟩ := (List.forall₂_iff_zip.mp hforall).2 hpm
    rw [valueOf_some hvalue] at hdata
    exact (encodeValueLimited_ok_iff (hw m hm) value).mp ⟨data, hdata⟩
  · intro h
    refine exists_encodeFields fun m hm => ?_
    cases hvalue : metadata.get? m.name with
    | none =>
        obtain ⟨data, hdata, -⟩ := encodeValue_valueOf_none (hw m hm) hvalue
        exact ⟨data, hdata⟩
    | some value =>
        rw [valueOf_some hvalue]
        exact (encodeValueLimited_ok_iff (hw m hm) value).mpr (h m hm value hvalue)

theorem encode_error_iff
    (metadata : OrderedDict String PyValue) :
    (∃ e, encodePacketOutMetadata index metadata = .error e) ↔
      ¬ ∃ out, encodePacketOutMetadata index metadata = .ok out := by
  cases encodePacketOutMetadata index metadata <;> simp

/-- A given value that is encoded and is no address with a newline comes back as its number. -/
theorem given_of_encodedAs
    {metadata : OrderedDict String PyValue} {m : MetadataField} {pm : PacketMetadata}
    (hw : 1 ≤ m.bitwidth) (h : EncodedAs metadata m pm)
    (hline : ∀ value, metadata.get? m.name = some value → ¬ NewlineMac value m.bitwidth) :
    Given metadata m (fromBytes pm.value) := by
  obtain ⟨data, hdata, rfl⟩ := h
  rw [fromBytes_canonicalize]
  unfold Given
  cases hvalue : metadata.get? m.name with
  | none =>
      obtain ⟨zero, hzero, hn⟩ := encodeValue_valueOf_none hw hvalue
      rw [hdata] at hzero
      rw [Except.ok.inj hzero]
      exact hn
  | some value =>
      rw [valueOf_some hvalue] at hdata
      have hencoded := ((encodeValueLimited_eq_ok_iff ..).mp hdata).1
      exact (denotes_of_encodeValue hw hencoded).resolve_right (hline value hvalue)

/-- The encoder's half of the round trip: ids, order and canonical values. -/
theorem sameIds_of_encode
    {metadata : OrderedDict String PyValue} {out : List PacketMetadata}
    (hout : fieldsOf index.packetOut = fields)
    (h : encodePacketOutMetadata index metadata = .ok out) :
    List.Forall₂ (EncodedAs metadata) fields out ∧ SameIds fields out ∧
      ∀ pm ∈ out, IsCanonical pm.value := by
  have hforall : List.Forall₂ (EncodedAs metadata) fields out := by
    rw [encode_eq_ok_iff, hout] at h
    exact (encodeFields_eq_ok_iff _ _ _).mp h.2
  refine ⟨hforall, hforall.imp ?_, fun pm hpm => ?_⟩
  · rintro m pm ⟨data, -, rfl⟩
    rfl
  · have hsnd := List.map_snd_zip hforall.length_eq.ge
    rw [← hsnd] at hpm
    obtain ⟨p, hp, rfl⟩ := List.mem_map.mp hpm
    obtain ⟨data, -, heq⟩ := (List.forall₂_iff_zip.mp hforall).2 hp
    rw [heq]
    exact isCanonical_canonicalize data

/-- An encoded mapping without a newline is decoded as it was given. -/
theorem decoded_of_encode
    {metadata : OrderedDict String PyValue} {out received : List PacketMetadata}
    (hin : fieldsOf index.packetIn = fields) (hout : fieldsOf index.packetOut = fields)
    (hids : (fields.map MetadataField.id).Nodup)
    (hnames : (fields.map MetadataField.name).Nodup) (hw : ∀ m ∈ fields, 1 ≤ m.bitwidth)
    (h : encodePacketOutMetadata index metadata = .ok out)
    (hreceived : Received fields out received)
    (hnoline : ∀ m ∈ fields, ∀ value, metadata.get? m.name = some value →
      ¬ NewlineMac value m.bitwidth) :
    (∀ m ∈ fields, ∃ n, Given metadata m n ∧
      (decodePacketInMetadata index received).get? m.name = some n) ∧
    ∀ key ∈ (decodePacketInMetadata index received).keys,
      key ∈ fields.map MetadataField.name := by
  obtain ⟨hforall, hsame, -⟩ := sameIds_of_encode hout h
  have hdecode := get?_decode (hin ▸ hids) (hin ▸ hnames) (hin ▸ hsame) (hin ▸ hreceived)
  rw [hin] at hdecode
  constructor
  · intro m hm
    obtain ⟨pm, hpm⟩ := exists_mem_zip hforall hm
    refine ⟨fromBytes pm.value, ?_, (hdecode _ _).mpr (List.mem_map.mpr ⟨_, hpm, rfl⟩)⟩
    exact given_of_encodedAs (hw m hm) ((List.forall₂_iff_zip.mp hforall).2 hpm) (hnoline m hm)
  · intro key hkey
    obtain ⟨n, hn⟩ := Option.isSome_iff_exists.mp
      (((decodePacketInMetadata index received).get?_isSome_iff key).mpr hkey)
    obtain ⟨⟨m, pm⟩, hp, heq⟩ := List.mem_map.mp ((hdecode key n).mp hn)
    rw [← (Prod.mk.inj heq).1]
    exact List.mem_map_of_mem (List.of_mem_zip hp).1

/-- Without a misread value a mapping is rejected for its keys and values only. -/
theorem rejected_iff
    {metadata : OrderedDict String PyValue}
    (hout : fieldsOf index.packetOut = fields) (hw : ∀ m ∈ fields, 1 ≤ m.bitwidth)
    (hread : ¬ Misread fields metadata) :
    (∃ e, encodePacketOutMetadata index metadata = .error e) ↔
      (∃ key ∈ metadata.keys, key ∉ fields.map MetadataField.name) ∨
        ∃ m ∈ fields, ∃ value, metadata.get? m.name = some value ∧
          ∀ n, ¬ Denotes value m.bitwidth n := by
  rw [encode_error_iff, encode_ok_iff hout hw]
  constructor
  · intro hnot
    by_contra hall
    rw [not_or] at hall
    have hdeclared : ∀ key ∈ metadata.keys, key ∈ fields.map MetadataField.name :=
      fun key hkey => by_contra fun hno => hall.1 ⟨key, hkey, hno⟩
    have hdenotes : ∀ m ∈ fields, ∀ value, metadata.get? m.name = some value →
        ∃ n, Denotes value m.bitwidth n :=
      fun m hm value hvalue => by_contra fun hno =>
        hall.2 ⟨m, hm, value, hvalue, fun n hn => hno ⟨n, hn⟩⟩
    refine hnot ⟨hdeclared, fun m hm value hvalue => Or.inl ⟨hdenotes m hm value hvalue, ?_⟩⟩
    intro hrefused
    exact hread ⟨hdeclared, Or.inl ⟨hdenotes, m, hm, value, hvalue, hrefused⟩⟩
  · rintro (⟨key, hkey, hno⟩ | ⟨m, hm, value, hvalue, hno⟩) ⟨hdeclared, hall⟩
    · exact hno (hdeclared key hkey)
    · rcases hall m hm value hvalue with ⟨⟨n, hn⟩, -⟩ | hline
      · exact hno n hn
      · exact hread ⟨hdeclared, Or.inr ⟨hall, m, hm, value, hvalue, hline⟩⟩

/-- A misread value breaks the rule for rejections. -/
theorem not_misread_of_roundTrip
    {metadata : OrderedDict String PyValue}
    (hout : fieldsOf index.packetOut = fields) (hw : ∀ m ∈ fields, 1 ≤ m.bitwidth)
    (h : RoundTrip index fields metadata) :
    ¬ Misread fields metadata := by
  have hrejected := h.rejected
  rw [encode_error_iff, encode_ok_iff hout hw] at hrejected
  rintro ⟨hdeclared, ⟨hall, m, hm, value, hvalue, hrefused⟩ |
    ⟨hall, m, hm, value, hvalue, hline⟩⟩
  · -- The encoder refuses the literal, which no rule forbids.
    have hnot := hrejected.mp fun hread => by
      rcases hread.2 m hm value hvalue with ⟨-, hno⟩ | hnewline
      · exact hno hrefused
      · obtain ⟨n, hn⟩ := hall m hm value hvalue
        exact not_denotes_of_newlineMac hnewline n hn
    rcases hnot with ⟨key, hkey, hno⟩ | ⟨m', hm', value', hvalue', hno⟩
    · exact hno (hdeclared key hkey)
    · obtain ⟨n, hn⟩ := hall m' hm' value' hvalue'
      exact hno n hn
  · -- The encoder accepts the newline, which the grammar of addresses excludes.
    exact hrejected.mpr
      (Or.inr ⟨m, hm, value, hvalue, fun n => not_denotes_of_newlineMac hline n⟩)
      ⟨hdeclared, hall⟩

end OneSchema

/-- The directions compose to the identity on a mapping iff no value of it is misread. -/
theorem roundTrip_iff
    (headers : List ControllerHeader) (fields : List MetadataField)
    (hin : fieldsOf (ofHeaders headers).packetIn = fields)
    (hout : fieldsOf (ofHeaders headers).packetOut = fields)
    (hids : (fields.map MetadataField.id).Nodup)
    (hnames : (fields.map MetadataField.name).Nodup)
    (hw : ∀ m ∈ fields, 1 ≤ m.bitwidth) (metadata : OrderedDict String PyValue) :
    RoundTrip (ofHeaders headers) fields metadata ↔ ¬ Misread fields metadata := by
  constructor
  · exact not_misread_of_roundTrip hout hw
  · intro hread
    refine ⟨fun out h => (sameIds_of_encode hout h).2, fun out received h hreceived => ?_,
      rejected_iff hout hw hread⟩
    refine decoded_of_encode hin hout hids hnames hw h hreceived ?_
    intro m hm value hvalue hline
    obtain ⟨hdeclared, hall⟩ := (encode_ok_iff hout hw metadata).mp ⟨out, h⟩
    exact hread ⟨hdeclared, Or.inr ⟨hall, m, hm, value, hvalue, hline⟩⟩

/-- The fields of a punt header. -/
def puntFields : List MetadataField := [⟨1, "egress_port", 9⟩, ⟨2, "_pad0", 7⟩]

/-- A port in hexadecimal, and the padding as an integer. -/
def puntMetadata : OrderedDict String PyValue :=
  .ofList [("egress_port", .str "0x1ff".toList), ("_pad0", .int 3)]

theorem roundTrip_punt :
    RoundTrip (ofHeaders [⟨"packet_in", puntFields⟩, ⟨"packet_out", puntFields⟩]) puntFields
      puntMetadata := by
  refine (roundTrip_iff _ _ rfl rfl (by decide) (by decide) (by decide) _).mpr ?_
  have hwidth : ∀ m ∈ puntFields, m.bitwidth ≠ 128 ∧ m.bitwidth ≠ 48 := by decide
  have htext : ∀ m ∈ puntFields, ∀ text, puntMetadata.get? m.name = some (.str text) →
      ¬ LongDecimal text := by
    intro m hm text hget
    rcases List.mem_cons.mp hm with rfl | hm
    · obtain rfl : "0x1ff".toList = text := PyValue.str.inj (Option.some.inj hget)
      decide
    · rw [List.mem_singleton.mp hm] at hget
      cases Option.some.inj hget
  rintro ⟨-, ⟨-, m, hm, value, hget, ⟨_, -, h128, -⟩ | ⟨text, rfl, hlong⟩⟩ |
    ⟨-, m, hm, value, hget, _, -, h48, -⟩⟩
  · exact (hwidth m hm).1 h128
  · exact htext m hm text hget hlong
  · exact (hwidth m hm).2 h48

/-- An IPv4-mapped address, written with its dotted quad, is rejected for a field of 128 bits. -/
theorem mapped_rejected :
    let address : MetadataField := ⟨1, "next_hop", 128⟩
    let index := ofHeaders [⟨"packet_in", [address]⟩, ⟨"packet_out", [address]⟩]
    let text := "::ffff:10.0.0.1".toList
    let metadata : OrderedDict String PyValue := .ofList [("next_hop", .str text)]
    (ipv6Packed text).isSome = true ∧
      encodePacketOutMetadata index metadata =
        .error (.encoding (.literalWidth text 32 128)) ∧
      ¬ RoundTrip index [address] metadata := by
  intro address index text metadata
  have herror : encodePacketOutMetadata index metadata =
      .error (.encoding (.literalWidth text 32 128)) := by
    rfl
  refine ⟨rfl, herror, fun h => ?_⟩
  rcases h.rejected.mp ⟨_, herror⟩ with ⟨key, hkey, hno⟩ | ⟨m, hm, value, hvalue, hno⟩
  · exact hno hkey
  · obtain rfl := List.mem_singleton.mp hm
    obtain rfl : PyValue.str text = value := Option.some.inj hvalue
    exact hno _ (TextDenotes.ipv6 rfl rfl)

end PacketHeaders
end P4Net

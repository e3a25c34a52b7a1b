import P4Net.MatchSemantics
import Mathlib.Data.List.Forall2

/-!
# Listed table entries can be written back

`list_table_entries` decodes the entries of a switch into names and bytes;
`insert_table_entry`, `modify_table_entry` and `delete_table_entry` take names and
bytes.  This module models `_decode_table_entry` and `_write_entry` of
`control/client.py`, with the messages they read and build.

* `encodeMatch_decoded` and `encodeAction_decoded` : the encoders undo the two loops
  of the decoder.
* `writeEntry_decoded` : writing a decoded entry sends the entry itself, and deleting
  it sends its key.
-/

namespace P4Net

open BigEndian ControlCodec P4InfoIndex

/-- `p4.v1.TableAction`: a direct action, another `oneof` case, or none of them. -/
inductive TableAction where
  | action (call : ActionCall)
  | other (id : Nat)
  | unset
deriving DecidableEq, Repr

/--
`p4.v1.TableEntry`.  The fields that neither function touches (counters, meters,
timeouts, metadata) are kept by number in `otherFields`.
-/
structure TableEntry where
  tableId : Nat
  fieldMatches : List FieldMatch := []
  action : Option TableAction := none
  priority : Int := 0
  otherFields : List (Nat × Bytes) := []
deriving DecidableEq, Repr

/-- `Update.Type`. -/
inductive UpdateType where
  | insert
  | modify
  | delete
deriving DecidableEq, Repr

/-- `p4.v1.Update` of a table entry. -/
structure Update where
  type : UpdateType
  tableEntry : TableEntry
deriving DecidableEq, Repr

/-- `p4.v1.WriteRequest`; `role` stays unset when the client has no role name. -/
structure WriteRequest where
  deviceId : Nat
  role : Option String
  electionIdHigh : Nat
  electionIdLow : Nat
  updates : List Update
deriving DecidableEq, Repr

/-- The fields of a client that table operations read. -/
structure ClientView where
  deviceId : Nat
  electionIdHigh : Nat
  electionIdLow : Nat
  roleName : Option String
  isConnected : Bool
  index : Option P4InfoIndex

/-- The dictionary that `_decode_table_entry` returns. -/
structure DecodedEntry where
  table : String
  fieldValues : OrderedDict String PyValue
  action : Option String
  params : OrderedDict String PyValue
  priority : PyValue

namespace TableEntries

/-- The dictionary `{int(mf.id): mf for mf in table.match_fields}`. -/
def fieldsById (table : Table) : OrderedDict Nat MatchField :=
  .ofList (table.matchFields.map (fun mf => (mf.id, mf)))

/-- The bytes of a field match as an argument; unknown cases are skipped. -/
def decodeMatchType : FieldMatchType → Option PyValue
  | .exact v => some (.bytes v)
  | .lpm v plen => some (.pair (.bytes v) (.int plen))
  | .ternary v m => some (.pair (.bytes v) (.bytes m))
  | .range low high => some (.pair (.bytes low) (.bytes high))
  | .optional v => some (.bytes v)
  | .other => none

/-- One turn of the loop over `entry.match`: the item it stores, if any. -/
def decodeFieldMatch (fields : OrderedDict Nat MatchField) (fm : FieldMatch) :
    Option (String × PyValue) :=
  match fields.get? fm.fieldId with
  | none => none
  | some mf => (fm.fieldMatchType.bind decodeMatchType).map (fun value => (mf.name, value))

/-- The dictionary `{int(p.id): p for p in action_msg.params}`. -/
def paramsById (action : ActionInfo) : OrderedDict Nat ActionParam :=
  .ofList (action.params.map (fun p => (p.id, p)))

/-- One turn of the loop over the parameters of the action. -/
def decodeParam (params : OrderedDict Nat ActionParam) (value : ParamValue) :
    Option (String × PyValue) :=
  (params.get? value.paramId).map (fun p => (p.name, .bytes value.value))

/-- The `params` dictionary of a decoded entry. -/
def decodeParams (index : P4InfoIndex) (call : ActionCall) : OrderedDict String PyValue :=
  match index.raw.actions.find? (fun a => a.id = call.actionId) with
  | none => .empty
  | some action => .ofList (call.params.filterMap (decodeParam (paramsById action)))

/-- `_decode_table_entry`. -/
def decodeTableEntry (index : P4InfoIndex) (entry : TableEntry) :
    Except ControlError DecodedEntry := do
  let table ← index.tableName entry.tableId
  -- `table_name` has raised already when the P4Info has no table to default to.
  let fields :=
    match index.raw.tables.find? (fun t => t.id = entry.tableId) <|> index.raw.tables.head? with
    | some t => fieldsById t
    | none => .empty
  let fieldValues := .ofList (entry.fieldMatches.filterMap (decodeFieldMatch fields))
  let priority := if entry.priority = 0 then .none else .int entry.priority
  match entry.action with
  | some (.action call) =>
      let name ← index.actionName call.actionId
      .ok ⟨table, fieldValues, some name, decodeParams index call, priority⟩
  | _ => .ok ⟨table, fieldValues, none, .empty, priority⟩

/-- `_require_connected_with_index`. -/
def requireConnectedWithIndex (client : ClientView) : Except ControlError P4InfoIndex :=
  if client.isConnected then
    match client.index with
    | some index => .ok index
    | none => .error .noPipeline
  else .error .notConnected

theorem requireConnected_ok
    {client : ClientView} {index : P4InfoIndex} (hindex : client.index = some index)
    (hconnected : client.isConnected = true) :
    requireConnectedWithIndex client = .ok index := by
  simp [requireConnectedWithIndex, hconnected, hindex]

/-- The checks of `_write_entry` on `priority`, and the number it stores. -/
def checkPriority (table : String) (required : Bool) (priority : PyValue) :
    Except EncodingError Int :=
  match priority with
  | .none => if required then .error (.priorityRequired table) else .ok 0
  | value =>
      if required then
        match value with
        | .int n => if 1 ≤ n ∧ n ≤ 0x7FFFFFFF then .ok n else .error .priorityInvalid
        | _ => .error .priorityInvalid
      else .error (.priorityForbidden table)

/-- The request of one update with the identity of the client. -/
def writeRequest (client : ClientView) (update : Update) : WriteRequest where
  deviceId := client.deviceId
  role := client.roleName.filter (fun name => name ≠ "")
  electionIdHigh := client.electionIdHigh
  electionIdLow := client.electionIdLow
  updates := [update]

/-- `_write_entry` up to the call of `Write`: the request that is sent. -/
def writeEntry (client : ClientView) (table : String)
    (args : OrderedDict String PyValue) (action : Option String)
    (params : Option (OrderedDict String PyValue)) (priority : PyValue)
    (updateType : UpdateType) : Except ControlError WriteRequest := do
  let index ← requireConnectedWithIndex client
  let tableId ← index.tableId table
  let required ← index.tableRequiresPriority table
  let priorityValue ← liftEncoding (checkPriority table required priority)
  let fieldMatches ← index.encodeMatch table args
  match action with
  | some name =>
      let call ← index.encodeAction name params
      .ok (writeRequest client ⟨updateType,
        { tableId, fieldMatches, action := some (.action call), priority := priorityValue }⟩)
  | none =>
      .ok (writeRequest client ⟨updateType,
        { tableId, fieldMatches, priority := priorityValue }⟩)

/-! ### Well-formed messages -/

/-- Distinct names and ids, and positive bit widths, throughout a P4Info. -/
structure WellFormedInfo (info : P4Info) : Prop where
  tableNames : (info.tables.map Table.name).Nodup
  tableIds : (info.tables.map Table.id).Nodup
  fields : ∀ table ∈ info.tables, WellFormedFields table
  actionNames : (info.actions.map ActionInfo.name).Nodup
  actionIds : (info.actions.map ActionInfo.id).Nodup
  paramNames : ∀ action ∈ info.actions, (action.params.map ActionParam.name).Nodup
  paramIds : ∀ action ∈ info.actions, (action.params.map ActionParam.id).Nodup
  paramBitwidths : ∀ action ∈ info.actions, ∀ p ∈ action.params, 1 ≤ p.bitwidth

/-- A canonical value for a declared parameter. -/
def ParamFits (p : ActionParam) (value : ParamValue) : Prop :=
  value.paramId = p.id ∧ CanonicalBytes p.bitwidth value.value

/-- The priority that the match types of the table ask for. -/
def PriorityFits (table : Table) (priority : Int) : Prop :=
  if table.matchFields.any needsPriority then 1 ≤ priority ∧ priority ≤ 0x7FFFFFFF
  else priority = 0

/-- A table entry as a P4Runtime server returns it. -/
structure WellFormedEntry (info : P4Info) (entry : TableEntry) : Prop where
  table : ∃ table ∈ info.tables, table.id = entry.tableId ∧
    WellFormedMatch table entry.fieldMatches ∧ PriorityFits table entry.priority
  action : ∃ action ∈ info.actions, ∃ call, entry.action = some (.action call) ∧
    call.actionId = action.id ∧ List.Forall₂ ParamFits action.params call.params
  otherFields : entry.otherFields = []

/-! ### Lookups by name and by id -/

/-- With distinct keys the first element with the key of `a` is `a`. -/
theorem find?_of_nodup_map
    {α : Type} {f : α → Nat} {l : List α} {a : α}
    (hnodup : (l.map f).Nodup) (hmem : a ∈ l) :
    l.find? (fun b => f b = f a) = some a := by
  cases hfind : l.find? (fun b => f b = f a) with
  | none =>
      have hall := List.find?_eq_none.mp hfind a hmem
      simp at hall
  | some b =>
      have hkey : f b = f a := by simpa using List.find?_some hfind
      rw [List.inj_on_of_nodup_map hnodup (List.mem_of_find?_eq_some hfind) hmem hkey]

section Lookups

variable {info : P4Info} (hinfo : WellFormedInfo info)
include hinfo

theorem tableName_of_mem
    {table : Table} (hmem : table ∈ info.tables) :
    (P4InfoIndex.ofP4Info info).tableName table.id = .ok table.name := by
  simp only [tableName, P4InfoIndex.ofP4Info, OrderedDict.values_ofList_map hinfo.tableNames]
  rw [find?_of_nodup_map hinfo.tableIds hmem]

theorem tablesByName_of_mem
    {table : Table} (hmem : table ∈ info.tables) :
    (P4InfoIndex.ofP4Info info).tablesByName.get? table.name = some table :=
  OrderedDict.get?_ofList_map hinfo.tableNames hmem

theorem actionName_of_mem
    {action : ActionInfo} (hmem : action ∈ info.actions) :
    (P4InfoIndex.ofP4Info info).actionName action.id = .ok action.name := by
  simp only [actionName, P4InfoIndex.ofP4Info, OrderedDict.values_ofList_map hinfo.actionNames]
  rw [find?_of_nodup_map hinfo.actionIds hmem]

theorem actionsByName_of_mem
    {action : ActionInfo} (hmem : action ∈ info.actions) :
    (P4InfoIndex.ofP4Info info).actionsByName.get? action.name = some action :=
  OrderedDict.get?_ofList_map hinfo.actionNames hmem

end Lookups

/-! ### Field matches -/

/-- A canonical byte string is an argument that encodes to itself. -/
theorem encodeValue_canonical
    {bitwidth : Nat} {data : Bytes}
    (hw : 1 ≤ bitwidth) (h : CanonicalBytes bitwidth data) :
    encodeValue (.bytes data) bitwidth = .ok data :=
  encodeValue_bytes hw (canonical_length_le h.1 hw h.2) h.2

/-- Encoding what was decoded from a canonical match gives the match back. -/
theorem encodeField_decoded
    {mf : MatchField} {t : FieldMatchType}
    (hw : 1 ≤ mf.bitwidth) (h : CanonicalMatch mf t) :
    ∃ value, decodeMatchType t = some value ∧ encodeField mf value = .ok (some t) := by
  unfold CanonicalMatch at h
  cases hmt : mf.matchType <;> cases t <;> simp only [hmt] at h
  case exact.exact v =>
    refine ⟨_, rfl, ?_⟩
    simp [encodeField, hmt, bind, Except.bind, encodeValue_canonical hw h,
      canonicalize_of_isCanonical h.1]
  case optional.optional v =>
    refine ⟨_, rfl, ?_⟩
    simp [encodeField, hmt, bind, Except.bind, encodeValue_canonical hw h,
      canonicalize_of_isCanonical h.1]
  case lpm.lpm v plen =>
    obtain ⟨hv, hpos, hle, hhost⟩ := h
    obtain ⟨n, rfl⟩ := Int.eq_ofNat_of_zero_le (by omega : 0 ≤ plen)
    have hn : n ≠ 0 := by omega
    have hparse : parseLpm (.pair (.bytes v) (.int n)) mf.bitwidth = .ok (v, n) :=
      parseLpm_pair (by omega) (encodeValue_canonical hw hv) (fun _ => hhost)
    refine ⟨_, rfl, ?_⟩
    simp [encodeField, hmt, bind, Except.bind, hparse, hn, canonicalize_of_isCanonical hv.1]
  case ternary.ternary v m =>
    obtain ⟨hv, hm, hmask, hval⟩ := h
    have hparse := parseTernary_pair (encodeValue_canonical hw hv)
      (encodeValue_canonical hw hm) (fun _ => hval)
    refine ⟨_, rfl, ?_⟩
    simp only [encodeField, hmt, bind, Except.bind, hparse, all_eq_zero_iff, hmask, if_false,
      canonicalize_of_isCanonical hv.1, canonicalize_of_isCanonical hm.1]
  case range.range low high =>
    obtain ⟨hlow, hhigh, hle, hfull⟩ := h
    have hparse := parseRange_pair (encodeValue_canonical hw hlow)
      (encodeValue_canonical hw hhigh) hle
    refine ⟨_, rfl, ?_⟩
    simp only [encodeField, hmt, bind, Except.bind, hparse, hfull, if_false,
      canonicalize_of_isCanonical hlow.1, canonicalize_of_isCanonical hhigh.1]

/-- The item decoded from a field match encodes to that field match. -/
def DecodesTo (table : Table) (fm : FieldMatch) (item : String × PyValue) : Prop :=
  ∃ mf ∈ table.matchFields, mf.id = fm.fieldId ∧ mf.name = item.1 ∧
    ∃ t, fm.fieldMatchType = some t ∧ encodeField mf item.2 = .ok (some t)

theorem decodeFieldMatches
    {table : Table} (hwf : WellFormedFields table)
    {fms : List FieldMatch}
    (hdecl : ∀ fm ∈ fms, ∃ mf ∈ table.matchFields, mf.id = fm.fieldId ∧
      ∃ t, fm.fieldMatchType = some t ∧ CanonicalMatch mf t) :
    List.Forall₂ (DecodesTo table) fms
      (fms.filterMap (decodeFieldMatch (fieldsById table))) := by
  induction fms with
  | nil => exact List.Forall₂.nil
  | cons fm rest ih =>
      obtain ⟨mf, hmem, hid, t, ht, hcan⟩ := hdecl fm (by simp)
      obtain ⟨value, hdec, henc⟩ := encodeField_decoded (hwf.bitwidths mf hmem) hcan
      have hget : (fieldsById table).get? fm.fieldId = some mf :=
        hid ▸ OrderedDict.get?_ofList_map hwf.ids hmem
      have hitem : decodeFieldMatch (fieldsById table) fm = some (mf.name, value) := by
        simp [decodeFieldMatch, hget, ht, hdec]
      rw [List.filterMap_cons_some hitem]
      exact List.Forall₂.cons ⟨mf, hmem, hid, rfl, t, ht, henc⟩
        (ih fun fm' hfm' => hdecl fm' (List.mem_cons_of_mem _ hfm'))

theorem exists_of_forall₂_of_mem
    {α β : Type} {R : α → β → Prop} {l : List α} {l' : List β}
    (h : List.Forall₂ R l l') {b : β} (hb : b ∈ l') :
    ∃ a ∈ l, R a b := by
  induction h with
  | nil => simp at hb
  | cons hab _ ih =>
      rcases List.mem_cons.mp hb with rfl | hb
      · exact ⟨_, by simp, hab⟩
      · obtain ⟨a, ha, hR⟩ := ih hb
        exact ⟨a, List.mem_cons_of_mem _ ha, hR⟩

/-- Decoded items have distinct names when the field ids are distinct. -/
theorem DecodesTo.keys_nodup
    {table : Table} (hwf : WellFormedFields table)
    {fms : List FieldMatch} {items : List (String × PyValue)}
    (h : List.Forall₂ (DecodesTo table) fms items)
    (honce : (fms.map FieldMatch.fieldId).Nodup) :
    (items.map Prod.fst).Nodup := by
  induction h with
  | nil => simp
  | @cons fm item fms items hfm hrest ih =>
      rw [List.map_cons, List.nodup_cons] at honce ⊢
      refine ⟨?_, ih honce.2⟩
      intro hkey
      obtain ⟨item', hmem', hname⟩ := List.mem_map.mp hkey
      obtain ⟨fm', hfm', hdec'⟩ := exists_of_forall₂_of_mem hrest hmem'
      obtain ⟨mf, hmf, hid, hmfname, -⟩ := hfm
      obtain ⟨mf', hmf', hid', hmfname', -⟩ := hdec'
      have hsame : mf' = mf := List.inj_on_of_nodup_map hwf.names hmf' hmf
        (by rw [hmfname', hname, hmfname])
      refine honce.1 (List.mem_map.mpr ⟨fm', hfm', ?_⟩)
      rw [← hid', hsame, hid]

theorem encodeFields_decoded
    {table : Table} (hwf : WellFormedFields table) (tableName : String)
    {fms : List FieldMatch} {items : List (String × PyValue)}
    (h : List.Forall₂ (DecodesTo table) fms items) :
    encodeFields (fieldsByName table) tableName items = .ok fms := by
  induction h with
  | nil => rfl
  | @cons fm item fms items hfm hrest ih =>
      obtain ⟨mf, hmem, hid, hname, t, ht, henc⟩ := hfm
      obtain ⟨name, value⟩ := item
      have hget := (get?_fieldsByName hwf.names name mf).mpr ⟨hmem, hname⟩
      have hfm : fm = ⟨mf.id, some t⟩ := by
        cases fm
        simp_all
      simp only at henc
      simp [encodeFields, hget, henc, ih, bind, Except.bind, liftEncoding, hfm]

/-- `encode_match` gives back the match list that its items encode to. -/
theorem encodeMatch_of_decodesTo
    {info : P4Info} (hinfo : WellFormedInfo info)
    {table : Table} (hmem : table ∈ info.tables)
    {fms : List FieldMatch} (h : WellFormedMatch table fms)
    {items : List (String × PyValue)} (hdec : List.Forall₂ (DecodesTo table) fms items) :
    encodeMatch (.ofP4Info info) table.name (.ofList items) = .ok fms := by
  have hwf := hinfo.fields table hmem
  have hentries := OrderedDict.ofList_entries (DecodesTo.keys_nodup hwf hdec h.once)
  refine (encodeMatch_eq_ok (tablesByName_of_mem hinfo hmem)).mpr ⟨?_, ?_, ?_⟩
  · intro key hkey
    rw [OrderedDict.keys, hentries] at hkey
    obtain ⟨item, hitem, rfl⟩ := List.mem_map.mp hkey
    obtain ⟨fm, -, mf, hmf, -, hname, -⟩ := exists_of_forall₂_of_mem hdec hitem
    refine (OrderedDict.get?_isSome_iff _ _).mp ?_
    rw [(get?_fieldsByName hwf.names item.1 mf).mpr ⟨hmf, hname⟩]
    rfl
  · intro mf hmf hexact
    obtain ⟨fm, hfm, hid⟩ := h.exact mf hmf hexact
    obtain ⟨item, hitem, mf', hmf', hid', hname, -⟩ := exists_of_forall₂_of_mem hdec.flip hfm
    obtain rfl := List.inj_on_of_nodup_map hwf.ids hmf' hmf (hid'.trans hid)
    rw [OrderedDict.keys, hentries, hname]
    exact List.mem_map_of_mem hitem
  · rw [hentries]
    exact encodeFields_decoded hwf table.name hdec

/-- `encode_match` undoes the loop over `entry.match`. -/
theorem encodeMatch_decoded
    {info : P4Info} (hinfo : WellFormedInfo info)
    {table : Table} (hmem : table ∈ info.tables)
    {fms : List FieldMatch} (h : WellFormedMatch table fms) :
    encodeMatch (.ofP4Info info) table.name
      (.ofList (fms.filterMap (decodeFieldMatch (fieldsById table)))) = .ok fms :=
  encodeMatch_of_decodesTo hinfo hmem h (decodeFieldMatches (hinfo.fields table hmem) h.declared)

/-! ### Action parameters -/

/-- The decoded item of a parameter value. -/
theorem decodeParams_items
    {declared : List ActionParam} (hids : (declared.map ActionParam.id).Nodup)
    {ps : List ActionParam} {values : List ParamValue}
    (h : List.Forall₂ ParamFits ps values) (hsub : ∀ p ∈ ps, p ∈ declared) :
    values.filterMap (decodeParam (.ofList (declared.map (fun p => (p.id, p))))) =
      (ps.zip values).map (fun pair => (pair.1.name, .bytes pair.2.value)) := by
  induction h with
  | nil => rfl
  | @cons p value ps values hp hrest ih =>
      have hget := OrderedDict.get?_ofList_map hids (hsub p (by simp))
      have hitem : decodeParam (.ofList (declared.map (fun p => (p.id, p)))) value =
          some (p.name, .bytes value.value) := by
        simp [decodeParam, hp.1, hget]
      rw [List.filterMap_cons_some hitem, ih fun q hq => hsub q (List.mem_cons_of_mem _ hq)]
      rfl

/-- The encoding loop returns the values that the arguments of the parameters encode to. -/
theorem encodeParams_of_get?
    {args : OrderedDict String PyValue} (name : String)
    {ps : List ActionParam} {values : List ParamValue}
    (hfits : List.Forall₂ ParamFits ps values)
    (hargs : ∀ pair ∈ ps.zip values, ∃ arg data, args.get? pair.1.name = some arg ∧
      encodeValue arg pair.1.bitwidth = .ok data ∧ canonicalize data = pair.2.value) :
    encodeParams args name ps = .ok values := by
  induction hfits with
  | nil => rfl
  | @cons p value ps values hp hrest ih =>
      obtain ⟨arg, data, hget, hvalue, hcan⟩ := hargs (p, value) (by simp)
      have hloop := ih fun pair hpair => hargs pair (List.mem_cons_of_mem _ hpair)
      have hsame : (⟨p.id, value.value⟩ : ParamValue) = value := by
        rw [← hp.1]
      simp only at hget hvalue hcan
      simp [encodeParams, hget, hvalue, hloop, liftEncoding, bind, Except.bind, hcan, hsame]

/-- The names of the parameters, beside the values of a call. -/
theorem map_name_zip
    {ps : List ActionParam} {values : List ParamValue} (h : List.Forall₂ ParamFits ps values) :
    (ps.zip values).map (fun pair => pair.1.name) = ps.map ActionParam.name := by
  have hzip : (ps.zip values).map Prod.fst = ps := List.map_fst_zip h.length_eq.le
  calc (ps.zip values).map (fun pair => pair.1.name)
      = ((ps.zip values).map Prod.fst).map ActionParam.name := by
        rw [List.map_map]
        rfl
    _ = ps.map ActionParam.name := by rw [hzip]

/-- `encode_action` with an argument for each parameter, in the order of the parameters. -/
theorem encodeAction_of_items
    {info : P4Info} (hinfo : WellFormedInfo info)
    {action : ActionInfo} (hmem : action ∈ info.actions)
    {call : ActionCall} (hid : call.actionId = action.id)
    (hfits : List.Forall₂ ParamFits action.params call.params)
    (arg : ActionParam × ParamValue → PyValue)
    (harg : ∀ pair ∈ action.params.zip call.params, ∃ data,
      encodeValue (arg pair) pair.1.bitwidth = .ok data ∧ canonicalize data = pair.2.value) :
    encodeAction (.ofP4Info info) action.name
      (some (.ofList ((action.params.zip call.params).map
        fun pair => (pair.1.name, arg pair)))) = .ok call := by
  have hfst := map_name_zip hfits
  have hentries := OrderedDict.ofList_entries (l := (action.params.zip call.params).map
      fun pair => (pair.1.name, arg pair)) (by
    rw [List.map_map]
    have hnames := hinfo.paramNames action hmem
    rw [← hfst] at hnames
    exact hnames)
  generalize OrderedDict.ofList ((action.params.zip call.params).map
    fun pair => (pair.1.name, arg pair)) = args at hentries ⊢
  have hkeys : args.keys = action.params.map ActionParam.name := by
    rw [OrderedDict.keys, hentries, List.map_map, ← hfst]
    rfl
  have hloop : encodeParams args action.name action.params = .ok call.params := by
    refine encodeParams_of_get? action.name hfits fun pair hpair => ?_
    obtain ⟨data, hvalue, hcan⟩ := harg pair hpair
    refine ⟨arg pair, data, ?_, hvalue, hcan⟩
    rw [OrderedDict.get?_eq_some_iff, hentries]
    exact List.mem_map.mpr ⟨pair, hpair, rfl⟩
  have hunknown : (action.params.map ActionParam.name).find?
      (fun key => key ∉ action.params.map ActionParam.name) = none := by
    rw [List.find?_eq_none]
    intro key hkey
    simpa using hkey
  have hmissing : action.params.find?
      (fun p => p.name ∉ action.params.map ActionParam.name) = none := by
    rw [List.find?_eq_none]
    intro p hp
    simpa using ⟨p, hp, rfl⟩
  simp only [encodeAction, actionsByName_of_mem hinfo hmem, Option.getD_some, hkeys,
    hunknown, hmissing, hloop, bind, Except.bind, ← hid]

/-- `encode_action` undoes the loop over the parameters of the action. -/
theorem encodeAction_decoded
    {info : P4Info} (hinfo : WellFormedInfo info)
    {action : ActionInfo} (hmem : action ∈ info.actions)
    {call : ActionCall} (hid : call.actionId = action.id)
    (hfits : List.Forall₂ ParamFits action.params call.params) :
    encodeAction (.ofP4Info info) action.name
      (some (decodeParams (.ofP4Info info) call)) = .ok call := by
  have hfind : info.actions.find? (fun a => a.id = call.actionId) = some action := by
    rw [hid]
    exact find?_of_nodup_map hinfo.actionIds hmem
  have hdec : decodeParams (.ofP4Info info) call =
      .ofList ((action.params.zip call.params).map
        fun pair => (pair.1.name, PyValue.bytes pair.2.value)) := by
    simp only [decodeParams, P4InfoIndex.ofP4Info, hfind, paramsById,
      decodeParams_items (hinfo.paramIds action hmem) hfits fun _ hp => hp]
  rw [hdec]
  refine encodeAction_of_items hinfo hmem hid hfits _ fun pair hpair => ?_
  obtain ⟨p, value⟩ := pair
  have hp := List.of_mem_zip hpair
  have hcan : CanonicalBytes p.bitwidth value.value := (List.forall₂_zip hfits hpair).2
  exact ⟨value.value, encodeValue_canonical (hinfo.paramBitwidths action hmem p hp.1) hcan,
    canonicalize_of_isCanonical hcan.1⟩

/-! ### The round trip -/

/-- Priority zero is decoded as `None`, and every priority passes its own check. -/
theorem checkPriority_decoded
    {table : Table} {priority : Int}
    (h : PriorityFits table priority) (name : String) :
    checkPriority name (table.matchFields.any needsPriority)
      (if priority = 0 then .none else .int priority) = .ok priority := by
  unfold PriorityFits at h
  cases hreq : table.matchFields.any needsPriority with
  | true =>
      simp only [hreq, if_true] at h
      have hne : priority ≠ 0 := by omega
      simp [checkPriority, hne, h]
  | false =>
      simp only [hreq, Bool.false_eq_true, if_false] at h
      simp [checkPriority, h]

/-- What the lookups of `_write_entry` return for a table of the P4Info. -/
theorem writeEntry_steps
    {info : P4Info} (hinfo : WellFormedInfo info)
    {table : Table} (hmem : table ∈ info.tables) :
    (P4InfoIndex.ofP4Info info).tableId table.name = .ok table.id ∧
      (P4InfoIndex.ofP4Info info).tableRequiresPriority table.name =
        .ok (table.matchFields.any needsPriority) := by
  simp [tableId, tableRequiresPriority, tablesByName_of_mem hinfo hmem]

/--
Decoding a well-formed entry succeeds.  Writing the decoded names and bytes with
INSERT or MODIFY sends the entry; writing the decoded key with DELETE sends its
table, match and priority.
-/
theorem writeEntry_decoded
    (info : P4Info) (client : ClientView) (entry : TableEntry)
    (hinfo : WellFormedInfo info)
    (hconnected : client.isConnected = true)
    (hindex : client.index = some (.ofP4Info info))
    (hentry : WellFormedEntry info entry) :
    ∃ d, decodeTableEntry (.ofP4Info info) entry = .ok d ∧
      (∀ updateType, updateType ≠ .delete →
        writeEntry client d.table d.fieldValues d.action (some d.params) d.priority updateType =
          .ok (writeRequest client ⟨updateType, entry⟩)) ∧
      writeEntry client d.table d.fieldValues none none d.priority .delete =
        .ok (writeRequest client ⟨.delete,
          { tableId := entry.tableId
            fieldMatches := entry.fieldMatches
            priority := entry.priority }⟩) := by
  obtain ⟨table, htable, htid, hmatch, hprio⟩ := hentry.table
  obtain ⟨action, haction, call, hcall, hcid, hparams⟩ := hentry.action
  have hfind : info.tables.find? (fun t => t.id = entry.tableId) = some table :=
    htid ▸ find?_of_nodup_map hinfo.tableIds htable
  have hname : (P4InfoIndex.ofP4Info info).tableName entry.tableId = .ok table.name :=
    htid ▸ tableName_of_mem hinfo htable
  have hactionName : (P4InfoIndex.ofP4Info info).actionName call.actionId = .ok action.name :=
    hcid ▸ actionName_of_mem hinfo haction
  obtain ⟨hid, hrequired⟩ := writeEntry_steps hinfo htable
  have hclient := requireConnected_ok hindex hconnected
  have hpriority := checkPriority_decoded hprio table.name
  have hfields := encodeMatch_decoded hinfo htable hmatch
  have hactionCall := encodeAction_decoded hinfo haction hcid hparams
  refine ⟨⟨table.name, .ofList (entry.fieldMatches.filterMap
      (decodeFieldMatch (fieldsById table))), some action.name,
      decodeParams (.ofP4Info info) call,
      if entry.priority = 0 then .none else .int entry.priority⟩, ?_, ?_, ?_⟩
  · have hraw : (P4InfoIndex.ofP4Info info).raw.tables = info.tables := rfl
    simp [decodeTableEntry, hname, hraw, hfind, hcall, hactionName, bind, Except.bind]
  · intro updateType _
    have hself : ({ tableId := table.id
                    fieldMatches := entry.fieldMatches
                    action := some (.action call)
                    priority := entry.priority } : TableEntry) = entry := by
      rw [htid, ← hcall, ← hentry.otherFields]
    simp only [writeEntry, hclient, hid, hrequired, hpriority, hfields, hactionCall,
      liftEncoding, bind, Except.bind, hself]
  · simp only [writeEntry, hclient, hid, hrequired, hpriority, hfields, liftEncoding,
      bind, Except.bind, htid]

/-- A route with a prefix and a range, decoded and written back by a primary client. -/
theorem writeEntry_decoded_route :
    let table : Table :=
      ⟨33, "MyIngress.route", [⟨1, "dst", 32, .lpm⟩, ⟨2, "port", 9, .range⟩]⟩
    let info : P4Info := ⟨[table], [⟨16, "MyIngress.forward", [⟨1, "port", 9⟩]⟩]⟩
    let client : ClientView := ⟨0, 0, 1, none, true, some (.ofP4Info info)⟩
    let entry : TableEntry :=
      { tableId := 33
        fieldMatches := [⟨2, some (.range [0] [1, 0])⟩, ⟨1, some (.lpm [10, 0, 0, 0] 8)⟩]
        action := some (.action ⟨16, [⟨1, [3]⟩]⟩)
        priority := 10 }
    ∃ d, decodeTableEntry (.ofP4Info info) entry = .ok d ∧
      (∀ updateType, updateType ≠ .delete →
        writeEntry client d.table d.fieldValues d.action (some d.params) d.priority updateType =
          .ok (writeRequest client ⟨updateType, entry⟩)) ∧
      writeEntry client d.table d.fieldValues none none d.priority .delete =
        .ok (writeRequest client ⟨.delete,
          { tableId := entry.tableId
            fieldMatches := entry.fieldMatches
            priority := entry.priority }⟩) := by
  intro table info client entry
  have hfields : WellFormedFields table := ⟨by decide, by decide, by decide⟩
  have hmatch : WellFormedMatch table entry.fieldMatches := by
    refine ⟨by decide, ?_, by decide⟩
    intro fm hfm
    simp only [entry, List.mem_cons, List.not_mem_nil, or_false] at hfm
    rcases hfm with rfl | rfl
    · exact ⟨⟨2, "port", 9, .range⟩, by decide, rfl, _, rfl, by decide, by decide, by decide,
        by decide⟩
    · exact ⟨⟨1, "dst", 32, .lpm⟩, by decide, rfl, _, rfl, by decide, by decide, by decide,
        by decide⟩
  refine writeEntry_decoded info client entry ?_ rfl rfl ?_
  · refine ⟨by decide, by decide, ?_, by decide, by decide, by decide, by decide, by decide⟩
    intro t ht
    obtain rfl := List.mem_singleton.mp ht
    exact hfields
  · refine ⟨⟨table, by decide, rfl, hmatch, by decide, by decide⟩, ?_, rfl⟩
    exact ⟨_, List.mem_singleton.mpr rfl, _, rfl, rfl,
      List.Forall₂.cons ⟨rfl, by decide⟩ List.Forall₂.nil⟩

end TableEntries
end P4Net

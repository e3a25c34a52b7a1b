import P4Net.ControlCodec
import P4Net.OrderedDict

/-!
# The P4Info index

`control/p4info_index.py`: the parts of a P4Info message that the client reads,
the maps from names to tables and actions, and the encoders `encode_match` and
`encode_action` that build protobuf messages from named arguments.

A protobuf `oneof` is an `Option` of an inductive type, so that an unset field is
`none`.  Dictionaries are `OrderedDict`s because both encoders follow the order
in which the caller set the keys.  A P4Info bit width below one is represented
by zero: every encoder rejects both.
-/

namespace P4Net

open BigEndian ControlCodec

/-- `MatchField.MatchType`. -/
inductive MatchType where
  | unspecified
  | exact
  | lpm
  | ternary
  | range
  | optional
deriving DecidableEq, Repr

/-- `p4.config.v1.MatchField`. -/
structure MatchField where
  id : Nat
  name : String
  bitwidth : Nat
  matchType : MatchType
deriving DecidableEq, Repr

/-- `p4.config.v1.Table`. -/
structure Table where
  id : Nat
  name : String
  matchFields : List MatchField
deriving DecidableEq, Repr

/-- `p4.config.v1.Action.Param`. -/
structure ActionParam where
  id : Nat
  name : String
  bitwidth : Nat
deriving DecidableEq, Repr

/-- `p4.config.v1.Action`. -/
structure ActionInfo where
  id : Nat
  name : String
  params : List ActionParam
deriving DecidableEq, Repr

/-- `p4.config.v1.P4Info`. -/
structure P4Info where
  tables : List Table
  actions : List ActionInfo
deriving DecidableEq, Repr

/-- The `oneof` of `p4.v1.FieldMatch`; `other` is the extension case. -/
inductive FieldMatchType where
  | exact (value : Bytes)
  | ternary (value mask : Bytes)
  | lpm (value : Bytes) (prefixLen : Int)
  | range (low high : Bytes)
  | optional (value : Bytes)
  | other
deriving DecidableEq, Repr

/-- `p4.v1.FieldMatch`. -/
structure FieldMatch where
  fieldId : Nat
  fieldMatchType : Option FieldMatchType
deriving DecidableEq, Repr

/-- `p4.v1.Action.Param`. -/
structure ParamValue where
  paramId : Nat
  value : Bytes
deriving DecidableEq, Repr

/-- `p4.v1.Action`. -/
structure ActionCall where
  actionId : Nat
  params : List ParamValue
deriving DecidableEq, Repr

/-- The exceptions of `control/exceptions.py` that table operations raise. -/
inductive ControlError where
  | encoding (reason : EncodingError)
  | noSuchTable (name : String)
  | noSuchTableId (id : Nat)
  | noSuchAction (name : String)
  | noSuchActionId (id : Nat)
  | noSuchField (field owner : String)
  | notConnected
  | noPipeline
deriving DecidableEq, Repr

/-- Raise an `EncodingError` from an encoder of the index. -/
def liftEncoding {α : Type} : Except EncodingError α → Except ControlError α
  | .ok a => .ok a
  | .error e => .error (.encoding e)

/-- `P4InfoIndex`: the message and its maps by name. -/
structure P4InfoIndex where
  raw : P4Info
  tablesByName : OrderedDict String Table
  actionsByName : OrderedDict String ActionInfo

namespace P4InfoIndex

/-- `P4InfoIndex.__init__`. -/
def ofP4Info (info : P4Info) : P4InfoIndex where
  raw := info
  tablesByName := .ofList (info.tables.map (fun t => (t.name, t)))
  actionsByName := .ofList (info.actions.map (fun a => (a.name, a)))

/-- `table_id`. -/
def tableId (index : P4InfoIndex) (name : String) : Except ControlError Nat :=
  match index.tablesByName.get? name with
  | some t => .ok t.id
  | none => .error (.noSuchTable name)

/-- `table_name`, the inverse of `table_id`. -/
def tableName (index : P4InfoIndex) (id : Nat) : Except ControlError String :=
  match index.tablesByName.values.find? (fun t => t.id = id) with
  | some t => .ok t.name
  | none => .error (.noSuchTableId id)

/-- `action_name`. -/
def actionName (index : P4InfoIndex) (id : Nat) : Except ControlError String :=
  match index.actionsByName.values.find? (fun a => a.id = id) with
  | some a => .ok a.name
  | none => .error (.noSuchActionId id)

/-- The match types that make a priority mandatory. -/
def needsPriority (mf : MatchField) : Bool :=
  mf.matchType = .optional || mf.matchType = .ternary || mf.matchType = .range

/-- `table_requires_priority`. -/
def tableRequiresPriority (index : P4InfoIndex) (name : String) : Except ControlError Bool :=
  match index.tablesByName.get? name with
  | some t => .ok (t.matchFields.any needsPriority)
  | none => .error (.noSuchTable name)

/--
The body of the loop in `encode_match`: the encoded match of one field, or `none`
where the argument is a wildcard and the field is left out.
-/
def encodeField (mf : MatchField) (value : PyValue) :
    Except EncodingError (Option FieldMatchType) :=
  match mf.matchType with
  | .exact => do
      let encoded ← encodeValue value mf.bitwidth
      .ok (some (.exact (canonicalize encoded)))
  | .lpm => do
      let (encoded, plen) ← parseLpm value mf.bitwidth
      if plen = 0 then .ok none
      else .ok (some (.lpm (canonicalize encoded) plen))
  | .ternary => do
      let (v, m) ← parseTernary value mf.bitwidth
      if m.all (fun b => b == 0) then .ok none
      else .ok (some (.ternary (canonicalize v) (canonicalize m)))
  | .range => do
      let (low, high) ← parseRange value mf.bitwidth
      if fromBytes low = 0 ∧ fromBytes high = 2 ^ mf.bitwidth - 1 then .ok none
      else .ok (some (.range (canonicalize low) (canonicalize high)))
  | .optional => do
      let encoded ← encodeValue value mf.bitwidth
      .ok (some (.optional (canonicalize encoded)))
  | .unspecified => .error (.unsupportedMatchType mf.name)

/-- The loop of `encode_match` over the items of the mapping. -/
def encodeFields (fieldsByName : OrderedDict String MatchField) (tableName : String) :
    List (String × PyValue) → Except ControlError (List FieldMatch)
  | [] => .ok []
  | (name, value) :: rest =>
      match fieldsByName.get? name with
      | none => .error (.noSuchField name tableName)
      | some mf => do
          let encoded ← liftEncoding (encodeField mf value)
          let result ← encodeFields fieldsByName tableName rest
          match encoded with
          | none => .ok result
          | some t => .ok (⟨mf.id, some t⟩ :: result)

/-- The dictionary `{mf.name: mf for mf in table.match_fields}`. -/
def fieldsByName (table : Table) : OrderedDict String MatchField :=
  .ofList (table.matchFields.map (fun mf => (mf.name, mf)))

/-- `encode_match`. -/
def encodeMatch (index : P4InfoIndex) (tableName : String)
    (args : OrderedDict String PyValue) : Except ControlError (List FieldMatch) :=
  match index.tablesByName.get? tableName with
  | none => .error (.noSuchTable tableName)
  | some table =>
      match args.keys.find? (fun key => key ∉ (fieldsByName table).keys) with
      | some key => .error (.noSuchField key tableName)
      | none =>
          match table.matchFields.find? (fun mf =>
              mf.matchType = .exact ∧ mf.name ∉ args.keys) with
          | some mf => .error (.encoding (.missingExact mf.name tableName))
          | none => encodeFields (fieldsByName table) tableName args.entries

/-- The loop of `encode_action` over the declared parameters. -/
def encodeParams (args : OrderedDict String PyValue) (actionName : String) :
    List ActionParam → Except ControlError (List ParamValue)
  | [] => .ok []
  | p :: rest =>
      match args.get? p.name with
      | none => .error (.encoding (.missingParam p.name actionName))
      | some value => do
          let encoded ← liftEncoding (encodeValue value p.bitwidth)
          let result ← encodeParams args actionName rest
          .ok (⟨p.id, canonicalize encoded⟩ :: result)

/-- `encode_action`. -/
def encodeAction (index : P4InfoIndex) (name : String)
    (params : Option (OrderedDict String PyValue)) : Except ControlError ActionCall :=
  match index.actionsByName.get? name with
  | none => .error (.noSuchAction name)
  | some action =>
      let args := params.getD .empty
      match args.keys.find? (fun key => key ∉ action.params.map ActionParam.name) with
      | some key => .error (.noSuchField key name)
      | none =>
          match action.params.find? (fun p => p.name ∉ args.keys) with
          | some p => .error (.encoding (.missingParam p.name name))
          | none => do
              let values ← encodeParams args name action.params
              .ok ⟨action.id, values⟩

/-! ### What one entry of the loop contributes -/

@[simp] theorem liftEncoding_eq_ok_iff
    {α : Type} (x : Except EncodingError α) (a : α) :
    liftEncoding x = .ok a ↔ x = .ok a := by
  cases x <;> simp [liftEncoding]

theorem encodeFields_cons_eq_ok
    {fields : OrderedDict String MatchField} {tableName name : String}
    {value : PyValue} {rest : List (String × PyValue)} {out : List FieldMatch}
    (h : encodeFields fields tableName ((name, value) :: rest) = .ok out) :
    ∃ mf encoded result,
      fields.get? name = some mf ∧
      encodeField mf value = .ok encoded ∧
      encodeFields fields tableName rest = .ok result ∧
      out = (encoded.toList.map (fun t => ⟨mf.id, some t⟩)) ++ result := by
  rw [encodeFields] at h
  cases hget : fields.get? name with
  | none => simp [hget] at h
  | some mf =>
      simp only [hget, bind, Except.bind] at h
      cases henc : liftEncoding (encodeField mf value) with
      | error e => simp [henc] at h
      | ok encoded =>
          simp only [henc] at h
          cases hrest : encodeFields fields tableName rest with
          | error e => simp [hrest] at h
          | ok result =>
              simp only [hrest] at h
              refine ⟨mf, encoded, result, rfl, (liftEncoding_eq_ok_iff _ _).mp henc, rfl, ?_⟩
              cases encoded with
              | none => simpa using (Except.ok.inj h).symm
              | some t => simpa using (Except.ok.inj h).symm

/-- Every item of a successful loop was encoded, and contributes its own match. -/
theorem encodeFields_mem
    {fields : OrderedDict String MatchField} {tableName : String}
    {items : List (String × PyValue)} {out : List FieldMatch}
    (h : encodeFields fields tableName items = .ok out)
    {name : String} {value : PyValue} (hmem : (name, value) ∈ items) :
    ∃ mf encoded, fields.get? name = some mf ∧ encodeField mf value = .ok encoded ∧
      ∀ t, encoded = some t → (⟨mf.id, some t⟩ : FieldMatch) ∈ out := by
  induction items generalizing out with
  | nil => simp at hmem
  | cons item rest ih =>
      obtain ⟨mf, encoded, result, hget, henc, hrest, rfl⟩ := encodeFields_cons_eq_ok h
      rcases List.mem_cons.mp hmem with heq | hmem
      · subst heq
        refine ⟨mf, encoded, hget, henc, ?_⟩
        rintro t rfl
        simp
      · obtain ⟨mf', encoded', hget', henc', hout⟩ := ih hrest hmem
        exact ⟨mf', encoded', hget', henc', fun t ht => List.mem_append_right _ (hout t ht)⟩

/-- Every encoded match comes from an item of the mapping. -/
theorem encodeFields_origin
    {fields : OrderedDict String MatchField} {tableName : String}
    {items : List (String × PyValue)} {out : List FieldMatch}
    (h : encodeFields fields tableName items = .ok out)
    {fm : FieldMatch} (hmem : fm ∈ out) :
    ∃ name value mf t, (name, value) ∈ items ∧ fields.get? name = some mf ∧
      encodeField mf value = .ok (some t) ∧ fm = ⟨mf.id, some t⟩ := by
  induction items generalizing out with
  | nil =>
      obtain rfl := Except.ok.inj h
      simp at hmem
  | cons item rest ih =>
      obtain ⟨mf, encoded, result, hget, henc, hrest, rfl⟩ := encodeFields_cons_eq_ok h
      rcases List.mem_append.mp hmem with hhead | htail
      · cases encoded with
        | none => simp at hhead
        | some t =>
            have hfm : fm = ⟨mf.id, some t⟩ := by simpa using hhead
            exact ⟨item.1, item.2, mf, t, by simp, hget, henc, hfm⟩
      · obtain ⟨name, value, mf', t, hitem, hrest'⟩ := ih hrest htail
        exact ⟨name, value, mf', t, List.mem_cons_of_mem _ hitem, hrest'⟩

/-- The loop fails only at an item whose own encoding fails. -/
theorem encodeFields_error
    {fields : OrderedDict String MatchField} {tableName : String}
    {items : List (String × PyValue)} {err : ControlError}
    (h : encodeFields fields tableName items = .error err) :
    ∃ name value, (name, value) ∈ items ∧
      (fields.get? name = none ∨
        ∃ mf e, fields.get? name = some mf ∧ encodeField mf value = .error e) := by
  induction items with
  | nil => cases h
  | cons item rest ih =>
      obtain ⟨name, value⟩ := item
      rw [encodeFields] at h
      cases hget : fields.get? name with
      | none => exact ⟨name, value, by simp, Or.inl hget⟩
      | some mf =>
          cases henc : encodeField mf value with
          | error e => exact ⟨name, value, by simp, Or.inr ⟨mf, e, hget, henc⟩⟩
          | ok encoded =>
              simp only [hget, henc, liftEncoding, bind, Except.bind] at h
              cases hrest : encodeFields fields tableName rest with
              | error e =>
                  obtain ⟨name', value', hitem, hcase⟩ := ih (by simpa [hrest] using h)
                  exact ⟨name', value', List.mem_cons_of_mem _ hitem, hcase⟩
              | ok result =>
                  rw [hrest] at h
                  cases encoded <;> cases h

/-- With distinct field names a lookup by name finds exactly the declared fields. -/
theorem get?_fieldsByName
    {table : Table}
    (hnames : (table.matchFields.map MatchField.name).Nodup)
    (name : String) (mf : MatchField) :
    (fieldsByName table).get? name = some mf ↔
      mf ∈ table.matchFields ∧ mf.name = name := by
  have hkeys : ((table.matchFields.map (fun mf => (mf.name, mf))).map Prod.fst).Nodup := by
    simpa [List.map_map, Function.comp_def] using hnames
  rw [fieldsByName, OrderedDict.get?_ofList_eq_some_iff hkeys]
  constructor
  · intro h
    obtain ⟨mf', hmem, heq⟩ := List.mem_map.mp h
    obtain ⟨rfl, rfl⟩ := Prod.mk.inj heq
    exact ⟨hmem, rfl⟩
  · rintro ⟨hmem, rfl⟩
    exact List.mem_map.mpr ⟨mf, hmem, rfl⟩

/-- The three ways through `encode_match` once the table is known. -/
theorem encodeMatch_eq_ok
    {index : P4InfoIndex} {tableName : String} {table : Table}
    {args : OrderedDict String PyValue} {out : List FieldMatch}
    (htable : index.tablesByName.get? tableName = some table) :
    encodeMatch index tableName args = .ok out ↔
      (∀ key ∈ args.keys, key ∈ (fieldsByName table).keys) ∧
      (∀ mf ∈ table.matchFields, mf.matchType = .exact → mf.name ∈ args.keys) ∧
      encodeFields (fieldsByName table) tableName args.entries = .ok out := by
  simp only [encodeMatch, htable]
  cases hkey : args.keys.find? (fun key => key ∉ (fieldsByName table).keys) with
  | some key =>
      have hmem := List.mem_of_find?_eq_some hkey
      have hbad := List.find?_some hkey
      constructor
      · intro h
        cases h
      · rintro ⟨hall, -, -⟩
        simp [hall key hmem] at hbad
  | none =>
      have hall : ∀ key ∈ args.keys, key ∈ (fieldsByName table).keys := by
        simpa using hkey
      cases hfind : table.matchFields.find? (fun mf =>
          mf.matchType = .exact ∧ mf.name ∉ args.keys) with
      | some mf =>
          have hmem := List.mem_of_find?_eq_some hfind
          have hbad := List.find?_some hfind
          simp only [decide_eq_true_eq] at hbad
          constructor
          · intro h
            cases h
          · rintro ⟨-, hexact, -⟩
            exact absurd (hexact mf hmem hbad.1) hbad.2
      | none =>
          have hexact : ∀ mf ∈ table.matchFields, mf.matchType = .exact →
              mf.name ∈ args.keys := by
            simpa using hfind
          exact ⟨fun h => ⟨hall, hexact, h⟩, fun h => h.2.2⟩

end P4InfoIndex
end P4Net

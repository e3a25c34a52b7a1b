import P4Net.RegisterReads
import P4Net.TableEntryRoundTrip

/-!
# The synchronous and the asynchronous client agree

`control/async_client.py` has its own `_write_entry` and `_decode_table_entry`.  This module
models them beside those of `P4RuntimeClient` in `TableEntries`, and compares the clients.

* `asyncWriteEntry_agrees` : a write raises in both clients, with exceptions of one class, or
  sends one request.
* `asyncDecodeTableEntry_agrees` : an entry is decoded to one dictionary.  The clients differ
  in the table they fall back to, which a known table id never reaches.
* `clients_agree` : the same with the parsers of register reads.
-/

namespace P4Net

/-! ### Exceptions -/

/-- The class of an exception of `P4RuntimeClient` and of the index. -/
def ControlError.cls : ControlError → ExceptionClass
  | .encoding _ => .encodingError
  | .noSuchTable _ | .noSuchTableId _ => .noSuchTableError
  | .noSuchAction _ | .noSuchActionId _ => .noSuchActionError
  | .noSuchField _ _ => .noSuchFieldError
  | .notConnected => .connectionError
  | .noPipeline => .p4RuntimeError

namespace TableEntries

open P4InfoIndex Registers

/-- The exceptions of `AsyncP4RuntimeClient`; those of the index and the codec are shared. -/
inductive AsyncError where
  | control (reason : ControlError)
  | priorityRequired (table : String)
  | notConnected
  | noIndex
  | assertion
deriving DecidableEq, Repr

/-- The class of an exception of `AsyncP4RuntimeClient`. -/
def AsyncError.cls : AsyncError → ExceptionClass
  | .control reason => reason.cls
  | .priorityRequired _ => .encodingError
  | .notConnected => .connectionError
  | .noIndex => .p4RuntimeError
  | .assertion => .assertionError

/-- Raise what the shared index raises. -/
def liftControl {α : Type} : Except ControlError α → Except AsyncError α
  | .ok a => .ok a
  | .error e => .error (.control e)

/-! ### The functions of the asynchronous client -/

/-- The fields of an asynchronous client that table operations read. -/
structure AsyncClientView where
  deviceId : Nat
  electionId : Nat × Nat
  isConnected : Bool
  infoIndex : Option P4InfoIndex

/-- The synchronous client with the same identity, and no role name. -/
def AsyncClientView.sync (client : AsyncClientView) : ClientView where
  deviceId := client.deviceId
  electionIdHigh := client.electionId.1
  electionIdLow := client.electionId.2
  roleName := none
  isConnected := client.isConnected
  index := client.infoIndex

/-- `_require_connected_with_index` of `AsyncP4RuntimeClient`. -/
def asyncRequireConnectedWithIndex (client : AsyncClientView) :
    Except AsyncError P4InfoIndex :=
  if client.isConnected then
    match client.infoIndex with
    | some index => .ok index
    | none => .error .noIndex
  else .error .notConnected

/-- The integers, `bool` excluded, that the priority check lets through. -/
def isPriority : PyValue → Bool
  | .int n => 1 ≤ n ∧ n ≤ 0x7FFFFFFF
  | _ => false

/-- The three checks of `_write_entry` on `priority`. -/
def asyncCheckPriority (table : String) (requiresPriority : Bool) (priority : PyValue) :
    Except AsyncError Unit :=
  if requiresPriority = true ∧ priority = .none then .error (.priorityRequired table)
  else if ¬ requiresPriority = true ∧ priority ≠ .none then
    .error (.control (.encoding (.priorityForbidden table)))
  else if priority ≠ .none ∧ ¬ isPriority priority = true then
    .error (.control (.encoding .priorityInvalid))
  else .ok ()

/-- The assignment `entry.priority = priority` of a priority that was checked. -/
def setPriority (entry : TableEntry) : PyValue → TableEntry
  | .int n => { entry with priority := n }
  | _ => entry

/-- The request of `_write_entry` of `AsyncP4RuntimeClient`. -/
def asyncWriteRequest (client : AsyncClientView) (update : Update) : WriteRequest where
  deviceId := client.deviceId
  role := none
  electionIdHigh := client.electionId.1
  electionIdLow := client.electionId.2
  updates := [update]

/-- `_write_entry` of `AsyncP4RuntimeClient` up to the call of `Write`. -/
def asyncWriteEntry (client : AsyncClientView) (table : String)
    (args : OrderedDict String PyValue) (action : Option String)
    (params : Option (OrderedDict String PyValue)) (priority : PyValue)
    (updateType : UpdateType) : Except AsyncError WriteRequest := do
  let index ← asyncRequireConnectedWithIndex client
  let tableId ← liftControl (index.tableId table)
  let requiresPriority ← liftControl (index.tableRequiresPriority table)
  asyncCheckPriority table requiresPriority priority
  let fieldMatches ← liftControl (index.encodeMatch table args)
  let entry : TableEntry := { tableId, fieldMatches }
  let entry ←
    match action with
    | some name => do
        let call ← liftControl (index.encodeAction name params)
        pure { entry with action := some (.action call) }
    | none => pure entry
  return asyncWriteRequest client ⟨updateType, setPriority entry priority⟩

/-- One turn of the loop of `_decode_table_entry` over `entry.match`. -/
def storeFieldMatch (fields : OrderedDict Nat MatchField)
    (fieldValues : OrderedDict String PyValue) (fm : FieldMatch) :
    OrderedDict String PyValue :=
  match fields.get? fm.fieldId with
  | none => fieldValues
  | some mf =>
      match fm.fieldMatchType with
      | some (.exact v) => fieldValues.set mf.name (.bytes v)
      | some (.lpm v plen) => fieldValues.set mf.name (.pair (.bytes v) (.int plen))
      | some (.ternary v m) => fieldValues.set mf.name (.pair (.bytes v) (.bytes m))
      | some (.range low high) => fieldValues.set mf.name (.pair (.bytes low) (.bytes high))
      | some (.optional v) => fieldValues.set mf.name (.bytes v)
      | some .other | none => fieldValues

/-- One turn of the loop over the parameters of the action. -/
def storeParam (paramsById : OrderedDict Nat ActionParam)
    (params : OrderedDict String PyValue) (value : ParamValue) :
    OrderedDict String PyValue :=
  match paramsById.get? value.paramId with
  | none => params
  | some p => params.set p.name (.bytes value.value)

/-- The action name and the `params` dictionary that `_decode_table_entry` finds. -/
def asyncDecodeAction (index : P4InfoIndex) :
    Option TableAction → Except AsyncError (Option String × OrderedDict String PyValue)
  | some (.action call) => do
      let name ← liftControl (index.actionName call.actionId)
      match index.raw.actions.find? (fun am => am.id = call.actionId) with
      | none => return (some name, .empty)
      | some am => return (some name, call.params.foldl (storeParam (paramsById am)) .empty)
  | _ => .ok (none, .empty)

/-- `_decode_table_entry` of `AsyncP4RuntimeClient`. -/
def asyncDecodeTableEntry (index : P4InfoIndex) (entry : TableEntry) :
    Except AsyncError DecodedEntry := do
  let tableName ← liftControl (index.tableName entry.tableId)
  -- Here a table id without a table is an assertion, not the first table.
  match index.raw.tables.find? (fun t => t.id = entry.tableId) with
  | none => .error .assertion
  | some table => do
      let fieldValues := entry.fieldMatches.foldl (storeFieldMatch (fieldsById table)) .empty
      let (actionName, params) ← asyncDecodeAction index entry.action
      let priority : PyValue := if entry.priority ≠ 0 then .int entry.priority else .none
      return ⟨tableName, fieldValues, actionName, params, priority⟩

/-! ### Writes -/

/-- What the shared index does agrees with itself. -/
theorem liftControl_agrees
    {α : Type} (x : Except ControlError α) :
    Agrees ControlError.cls AsyncError.cls x (liftControl x) := by
  cases x with
  | ok a => exact Agrees.ok a
  | error e => exact Agrees.error rfl

theorem requireConnectedWithIndex_agrees
    (client : AsyncClientView) :
    Agrees ControlError.cls AsyncError.cls
      (requireConnectedWithIndex client.sync) (asyncRequireConnectedWithIndex client) := by
  unfold requireConnectedWithIndex asyncRequireConnectedWithIndex AsyncClientView.sync
  cases client.isConnected with
  | false => exact Agrees.error rfl
  | true =>
      cases client.infoIndex with
      | none => exact Agrees.error rfl
      | some index => exact Agrees.ok index

/-- The number that `_write_entry` stores for a priority. -/
def priorityNumber : PyValue → Int
  | .int n => n
  | _ => 0

/-- The checks of both clients pass together, and the number stored is then the same. -/
theorem checkPriority_agrees
    (table : String) (required : Bool) (priority : PyValue) :
    Agrees ControlError.cls AsyncError.cls
      (liftEncoding (checkPriority table required priority))
      (do
        asyncCheckPriority table required priority
        pure (priorityNumber priority)) := by
  cases priority with
  | none =>
      cases required with
      | true => exact Agrees.error rfl
      | false => exact Agrees.ok 0
  | int n =>
      cases required with
      | true =>
          by_cases hn : 1 ≤ n ∧ n ≤ 0x7FFFFFFF
          · have hsync : checkPriority table true (.int n) = .ok n := by
              simp [checkPriority, hn]
            have hasync : asyncCheckPriority table true (.int n) = .ok () := by
              simp [asyncCheckPriority, isPriority, hn]
            rw [hsync, hasync]
            exact Agrees.ok n
          · have hsync : checkPriority table true (.int n) = .error .priorityInvalid := by
              simp only [checkPriority, if_true, if_neg hn]
            have hasync : asyncCheckPriority table true (.int n) =
                .error (.control (.encoding .priorityInvalid)) := by
              simp only [asyncCheckPriority, isPriority, decide_eq_true_eq, hn]
              rfl
            rw [hsync, hasync]
            exact Agrees.error rfl
      | false => exact Agrees.error rfl
  | bool b => cases required <;> exact Agrees.error rfl
  | bytes data => cases required <;> exact Agrees.error rfl
  | str text => cases required <;> exact Agrees.error rfl
  | pair fst snd => cases required <;> exact Agrees.error rfl
  | other => cases required <;> exact Agrees.error rfl

theorem setPriority_eq
    (entry : TableEntry) (hentry : entry.priority = 0) (priority : PyValue) :
    setPriority entry priority = { entry with priority := priorityNumber priority } := by
  cases priority <;> simp [setPriority, priorityNumber, ← hentry]

/-- The rest of `_write_entry` after the priority check, for the number it stores. -/
theorem asyncWriteEntry_eq
    (client : AsyncClientView) (table : String)
    (args : OrderedDict String PyValue) (action : Option String)
    (params : Option (OrderedDict String PyValue)) (priority : PyValue)
    (updateType : UpdateType) :
    asyncWriteEntry client table args action params priority updateType = (do
      let index ← asyncRequireConnectedWithIndex client
      let tableId ← liftControl (index.tableId table)
      let required ← liftControl (index.tableRequiresPriority table)
      let number ← (do
        asyncCheckPriority table required priority
        pure (priorityNumber priority))
      let fieldMatches ← liftControl (index.encodeMatch table args)
      match action with
      | some name => do
          let call ← liftControl (index.encodeAction name params)
          return asyncWriteRequest client ⟨updateType,
            { tableId, fieldMatches, action := some (.action call), priority := number }⟩
      | none =>
          return asyncWriteRequest client ⟨updateType,
            { tableId, fieldMatches, priority := number }⟩) := by
  cases action with
  | none => simp [asyncWriteEntry, setPriority_eq]
  | some name => simp [asyncWriteEntry, setPriority_eq]

/-- A write raises in both clients alike, or sends one request. -/
theorem asyncWriteEntry_agrees
    (client : AsyncClientView) (table : String)
    (args : OrderedDict String PyValue) (action : Option String)
    (params : Option (OrderedDict String PyValue)) (priority : PyValue)
    (updateType : UpdateType) :
    Agrees ControlError.cls AsyncError.cls
      (writeEntry client.sync table args action params priority updateType)
      (asyncWriteEntry client table args action params priority updateType) := by
  rw [asyncWriteEntry_eq]
  refine (requireConnectedWithIndex_agrees client).bind fun index => ?_
  refine (liftControl_agrees _).bind fun tableId => ?_
  refine (liftControl_agrees _).bind fun required => ?_
  refine (checkPriority_agrees table required priority).bind fun number => ?_
  refine (liftControl_agrees _).bind fun fieldMatches => ?_
  cases action with
  | none => exact Agrees.ok _
  | some name => exact (liftControl_agrees _).bind fun call => Agrees.ok _

/-! ### Decoded entries -/

/-- Every value of a dictionary was set by one of the entries it was built from. -/
theorem mem_of_mem_values_ofList
    {α β : Type} [DecidableEq α] {f : β → α} {l : List β} {b : β}
    (h : b ∈ (OrderedDict.ofList (l.map fun b => (f b, b))).values) :
    b ∈ l := by
  obtain ⟨entry, hentry, rfl⟩ := List.mem_map.mp h
  obtain ⟨b, hb, rfl⟩ := List.mem_map.mp (OrderedDict.mem_of_mem_ofList hentry)
  exact hb

/-- A table id that has a name is the id of a table of the P4Info. -/
theorem find?_isSome_of_tableName
    {info : P4Info} {id : Nat} {name : String}
    (h : (P4InfoIndex.ofP4Info info).tableName id = .ok name) :
    ∃ table, info.tables.find? (fun t => t.id = id) = some table := by
  unfold P4InfoIndex.tableName at h
  cases hfind : (P4InfoIndex.ofP4Info info).tablesByName.values.find? (fun t => t.id = id) with
  | none =>
      rw [hfind] at h
      cases h
  | some t =>
      have hmem : t ∈ info.tables := mem_of_mem_values_ofList (List.mem_of_find?_eq_some hfind)
      have hid := List.find?_some hfind
      exact Option.isSome_iff_exists.mp (List.find?_isSome.mpr ⟨t, hmem, hid⟩)

/-- The loop of the asynchronous client sets the items of the synchronous one. -/
theorem foldl_storeFieldMatch
    (fields : OrderedDict Nat MatchField) (fms : List FieldMatch) :
    fms.foldl (storeFieldMatch fields) .empty =
      .ofList (fms.filterMap (decodeFieldMatch fields)) := by
  rw [← OrderedDict.foldl_setEntry]
  congr 1
  funext d fm
  unfold storeFieldMatch decodeFieldMatch
  cases fields.get? fm.fieldId with
  | none => rfl
  | some mf =>
      cases fm.fieldMatchType with
      | none => rfl
      | some t => cases t <;> rfl

theorem foldl_storeParam
    (paramsById : OrderedDict Nat ActionParam) (values : List ParamValue) :
    values.foldl (storeParam paramsById) .empty =
      .ofList (values.filterMap (decodeParam paramsById)) := by
  rw [← OrderedDict.foldl_setEntry]
  congr 1
  funext d value
  unfold storeParam decodeParam
  cases paramsById.get? value.paramId with
  | none => rfl
  | some p => rfl

/-- Both clients find one action name and one `params` dictionary. -/
theorem asyncDecodeAction_eq
    (index : P4InfoIndex) (call : ActionCall) :
    asyncDecodeAction index (some (.action call)) =
      (liftControl (index.actionName call.actionId)).map
        (fun name => (some name, decodeParams index call)) := by
  unfold asyncDecodeAction decodeParams
  cases hname : index.actionName call.actionId with
  | error e => simp only [hname]; rfl
  | ok name =>
      cases hfind : index.raw.actions.find? (fun am => am.id = call.actionId) with
      | none => simp only [hname, hfind]; rfl
      | some am =>
          simp only [hname, hfind, foldl_storeParam]
          rfl

/-- An entry is decoded to one dictionary, or raises in both clients alike. -/
theorem asyncDecodeTableEntry_agrees
    (info : P4Info) (entry : TableEntry) :
    Agrees ControlError.cls AsyncError.cls
      (decodeTableEntry (.ofP4Info info) entry)
      (asyncDecodeTableEntry (.ofP4Info info) entry) := by
  unfold decodeTableEntry asyncDecodeTableEntry
  cases hname : (P4InfoIndex.ofP4Info info).tableName entry.tableId with
  | error e => exact Agrees.error rfl
  | ok name =>
      -- The table id is known, so neither fallback is reached.
      obtain ⟨table, htable⟩ := find?_isSome_of_tableName hname
      have hraw : (P4InfoIndex.ofP4Info info).raw.tables.find? (fun t => t.id = entry.tableId) =
          some table := htable
      simp only [hraw, foldl_storeFieldMatch]
      have hpriority : (if entry.priority ≠ 0 then PyValue.int entry.priority else .none) =
          if entry.priority = 0 then .none else .int entry.priority := ite_not ..
      rw [hpriority]
      match entry.action with
      | none => exact Agrees.ok _
      | some (.other id) => exact Agrees.ok _
      | some .unset => exact Agrees.ok _
      | some (.action call) =>
          rw [asyncDecodeAction_eq]
          cases haction : (P4InfoIndex.ofP4Info info).actionName call.actionId with
          | error e =>
              simp only [haction, bind, Except.bind]
              exact Agrees.error rfl
          | ok name =>
              simp only [haction, bind, Except.bind]
              exact Agrees.ok _

/--
The two clients are one encoder: for every index, every write either raises exceptions of one
class or sends one request; every table entry of a P4Info is decoded to one dictionary or
raises exceptions of one class; and every output of a register read is read alike.
-/
theorem clients_agree :
    (∀ (client : AsyncClientView) (table : String) (args : OrderedDict String PyValue)
      (action : Option String) (params : Option (OrderedDict String PyValue))
      (priority : PyValue) (updateType : UpdateType),
      Agrees ControlError.cls AsyncError.cls
        (writeEntry client.sync table args action params priority updateType)
        (asyncWriteEntry client table args action params priority updateType)) ∧
    (∀ (info : P4Info) (entry : TableEntry),
      Agrees ControlError.cls AsyncError.cls
        (decodeTableEntry (.ofP4Info info) entry)
        (asyncDecodeTableEntry (.ofP4Info info) entry)) ∧
    ∀ output name : TextLiterals.Text,
      (∀ index : Int,
        Agrees RegisterError.cls AsyncRegisterError.cls
          (parseRegisterReadSingle output name index)
          (asyncParseRegisterReadSingle output name index)) ∧
      ∀ size : Int,
        Agrees RegisterError.cls AsyncRegisterError.cls
          (parseRegisterReadArray output name size)
          (asyncParseRegisterReadArray output name size) :=
  ⟨asyncWriteEntry_agrees, asyncDecodeTableEntry_agrees, fun output name =>
    ⟨registerReadSingle_agrees output name, registerReadArray_agrees output name⟩⟩

end TableEntries
end P4Net

import P4Net.DeviceTables

/-!
# Clearing a table

`list_table_entries` reads and decodes the entries of a table, and `clear_table` encodes the
decoded keys again and deletes them in one Write.

* `listTableEntries_ok`, `listTableEntries_complete` : what is listed is what the store has.
* `deleteUpdate_decoded` : the key of a decoded entry is the key of the entry.
* `clearTable_correct` : clearing a table deletes its entries and no others, or nothing.
-/

namespace P4Net
namespace TableEntries

open P4InfoIndex

/-- A call fails in the client, or with the status of an RPC. -/
inductive CallError where
  | control (reason : ControlError)
  | rpc (status : Nat)
deriving DecidableEq, Repr

/-- Raise what a function without RPCs raises. -/
def liftCall {α : Type} : Except ControlError α → Except CallError α
  | .ok a => .ok a
  | .error e => .error (.control e)

/-- The store after a call, the Writes it sent, and its result. -/
structure CallOutcome (α : Type) where
  store : TableStore
  writes : List WriteRequest
  result : Except CallError α

/-- `list_table_entries`. -/
def listTableEntries (stub : Stub) (client : ClientView) (store : TableStore)
    (table : Option String) : Except CallError (List DecodedEntry) := do
  let index ← liftCall (requireConnectedWithIndex client)
  let tableId ←
    match table with
    | some name => liftCall (index.tableId name)
    | none => pure 0
  let stream := stub.read store ⟨client.deviceId, tableId⟩
  -- Entries are decoded while they arrive, so a failure of the stream comes last.
  let entries ← liftCall (stream.tableEntries.mapM (decodeTableEntry index))
  match stream.error with
  | some status => .error (.rpc status)
  | none => return entries

/-- One turn of the loop of `clear_table`: the DELETE of a decoded entry. -/
def deleteUpdate (index : P4InfoIndex) (table : String) (tableId : Nat)
    (entry : DecodedEntry) : Except ControlError Update := do
  let fieldMatches ← index.encodeMatch table entry.fieldValues
  match entry.priority with
  | .int n => return ⟨.delete, { tableId, fieldMatches, priority := n }⟩
  | _ => return ⟨.delete, { tableId, fieldMatches }⟩

/-- The request of `clear_table`. -/
def batchRequest (client : ClientView) (updates : List Update) : WriteRequest where
  deviceId := client.deviceId
  role := client.roleName.filter (fun name => name ≠ "")
  electionIdHigh := client.electionIdHigh
  electionIdLow := client.electionIdLow
  updates := updates

/-- The updates of `clear_table` for the entries that were listed. -/
def clearUpdates (client : ClientView) (table : String) (entries : List DecodedEntry) :
    Except ControlError (List Update) := do
  let index ← requireConnectedWithIndex client
  let tableId ← index.tableId table
  entries.mapM (deleteUpdate index table tableId)

/-- `clear_table`. -/
def clearTable (stub : Stub) (client : ClientView) (store : TableStore) (table : String) :
    CallOutcome Nat :=
  match listTableEntries stub client store (some table) with
  | .error e => ⟨store, [], .error e⟩
  | .ok [] => ⟨store, [], .ok 0⟩
  | .ok entries =>
      match clearUpdates client table entries with
      | .error e => ⟨store, [], .error (.control e)⟩
      | .ok updates =>
          let req := batchRequest client updates
          match stub.write store req with
          | (store', none) => ⟨store', [req], .ok entries.length⟩
          | (store', some status) => ⟨store', [req], .error (.rpc status)⟩

/-! ### Well-formed stores -/

/-- A key and an action that a table of the P4Info can have. -/
structure WellFormedItem (info : P4Info) (key : EntryKey) (action : TableAction) : Prop where
  table : ∃ table ∈ info.tables, table.id = key.tableId ∧ PriorityFits table key.priority ∧
    ∃ fms : List FieldMatch, (fms : Multiset FieldMatch) = key.fieldMatches ∧
      WellFormedMatch table fms
  action : ∀ call, action = .action call → ∃ a ∈ info.actions, a.id = call.actionId

/-- A store whose entries are all well formed. -/
def WellFormedStore (info : P4Info) (store : TableStore) : Prop :=
  ∀ item ∈ store.entries, WellFormedItem info item.1 item.2

/-- Well-formedness of a match does not depend on the order of its fields. -/
theorem WellFormedMatch.perm
    {table : Table} {fms fms' : List FieldMatch}
    (h : WellFormedMatch table fms) (hperm : fms.Perm fms') :
    WellFormedMatch table fms' where
  once := (hperm.map FieldMatch.fieldId).nodup_iff.mp h.once
  declared := fun fm hfm => h.declared fm (hperm.mem_iff.mpr hfm)
  exact := fun mf hmf hexact =>
    let ⟨fm, hfm, hid⟩ := h.exact mf hmf hexact
    ⟨fm, hperm.mem_iff.mp hfm, hid⟩

/-- An entry whose key and action are well formed. -/
def EntryFits (info : P4Info) (entry : TableEntry) : Prop :=
  ∃ action, entry.action = some action ∧ WellFormedItem info entry.key action

/-! ### One entry -/

/-- The fields of an entry that its key consists of. -/
def keyEntry (entry : TableEntry) : TableEntry where
  tableId := entry.tableId
  fieldMatches := entry.fieldMatches
  priority := entry.priority

@[simp] theorem key_keyEntry
    (entry : TableEntry) :
    (keyEntry entry).key = entry.key := rfl

/-- The dictionary that a well-formed entry is decoded to. -/
theorem decodeTableEntry_of_mem
    {info : P4Info} (hinfo : WellFormedInfo info)
    {table : Table} (htable : table ∈ info.tables) {entry : TableEntry}
    (hid : table.id = entry.tableId)
    (haction : ∀ call, entry.action = some (.action call) →
      ∃ a ∈ info.actions, a.id = call.actionId) :
    ∃ action params, decodeTableEntry (.ofP4Info info) entry =
      .ok ⟨table.name, .ofList (entry.fieldMatches.filterMap (decodeFieldMatch (fieldsById table))),
        action, params, if entry.priority = 0 then .none else .int entry.priority⟩ := by
  have hfind : (P4InfoIndex.ofP4Info info).raw.tables.find? (fun t => t.id = entry.tableId) =
      some table :=
    hid ▸ find?_of_nodup_map hinfo.tableIds htable
  have hname : (P4InfoIndex.ofP4Info info).tableName entry.tableId = .ok table.name :=
    hid ▸ tableName_of_mem hinfo htable
  have hfields : (some table <|> (P4InfoIndex.ofP4Info info).raw.tables.head?) = some table := rfl
  unfold decodeTableEntry
  simp only [hname, hfind, hfields, bind, Except.bind]
  cases hcase : entry.action with
  | none => exact ⟨_, _, rfl⟩
  | some a =>
      cases a with
      | action call =>
          obtain ⟨declared, hmem, hcall⟩ := haction call hcase
          have hactionName : (P4InfoIndex.ofP4Info info).actionName call.actionId =
              .ok declared.name :=
            hcall ▸ actionName_of_mem hinfo hmem
          simp only [hactionName]
          exact ⟨_, _, rfl⟩
      | other id => exact ⟨_, _, rfl⟩
      | unset => exact ⟨_, _, rfl⟩

/-- A well-formed entry is decoded, and its decoded key encodes to its own key. -/
theorem deleteUpdate_decoded
    {info : P4Info} (hinfo : WellFormedInfo info)
    {table : Table} (htable : table ∈ info.tables) {entry : TableEntry}
    (hid : table.id = entry.tableId) (h : EntryFits info entry) :
    ∃ d, decodeTableEntry (.ofP4Info info) entry = .ok d ∧
      deleteUpdate (.ofP4Info info) table.name table.id d = .ok ⟨.delete, keyEntry entry⟩ := by
  obtain ⟨action, haction, ⟨table', htable', hid', hprio, fms, hfms, hmatch⟩, hknown⟩ := h
  obtain rfl := List.inj_on_of_nodup_map hinfo.tableIds htable' htable (hid'.trans hid.symm)
  have hperm : fms.Perm entry.fieldMatches := Multiset.coe_eq_coe.mp hfms
  have hmatches := encodeMatch_decoded hinfo htable (WellFormedMatch.perm hmatch hperm)
  obtain ⟨name, params, hdecode⟩ := decodeTableEntry_of_mem hinfo htable hid
    (fun call hcall => hknown call (Option.some.inj (haction.symm.trans hcall)))
  refine ⟨_, hdecode, ?_⟩
  simp only [deleteUpdate, hmatches, bind, Except.bind, keyEntry, ← hid]
  by_cases hzero : entry.priority = 0
  · rw [if_pos hzero, hzero]
    rfl
  · rw [if_neg hzero]
    rfl

/-! ### The entries of a table -/

/-- Every entry of the table decodes, and the deletes address its keys, in order. -/
theorem deleteUpdates_decoded
    {info : P4Info} (hinfo : WellFormedInfo info)
    {table : Table} (htable : table ∈ info.tables) {entries : List TableEntry}
    (hids : ∀ entry ∈ entries, table.id = entry.tableId)
    (h : ∀ entry ∈ entries, EntryFits info entry) :
    ∃ ds, entries.mapM (decodeTableEntry (.ofP4Info info)) = .ok ds ∧
      ds.length = entries.length ∧
      ds.mapM (deleteUpdate (.ofP4Info info) table.name table.id) =
        .ok (entries.map fun entry => ⟨.delete, keyEntry entry⟩) := by
  induction entries with
  | nil => exact ⟨[], rfl, rfl, rfl⟩
  | cons entry rest ih =>
      obtain ⟨d, hdecode, hdelete⟩ :=
        deleteUpdate_decoded hinfo htable (hids entry (by simp)) (h entry (by simp))
      obtain ⟨ds, hdecodes, hlength, hdeletes⟩ :=
        ih (fun e he => hids e (List.mem_cons_of_mem _ he))
          (fun e he => h e (List.mem_cons_of_mem _ he))
      refine ⟨d :: ds, ?_, by simp [hlength], ?_⟩
      · rw [List.mapM_cons, hdecode, hdecodes]
        rfl
      · rw [List.mapM_cons, hdelete, hdeletes]
        rfl

/-- A table id comes from a table of the P4Info. -/
theorem table_of_tableId
    {info : P4Info} {name : String} {id : Nat}
    (h : (P4InfoIndex.ofP4Info info).tableId name = .ok id) :
    ∃ table ∈ info.tables, table.name = name ∧ table.id = id := by
  unfold tableId at h
  cases hget : (P4InfoIndex.ofP4Info info).tablesByName.get? name with
  | none =>
      rw [hget] at h
      cases h
  | some table =>
      rw [hget] at h
      have hentry := OrderedDict.mem_of_mem_ofList ((OrderedDict.get?_eq_some_iff _ _ _).mp hget)
      obtain ⟨t, hmem, heq⟩ := List.mem_map.mp hentry
      obtain ⟨rfl, rfl⟩ := Prod.mk.inj heq
      exact ⟨t, hmem, rfl, Except.ok.inj h⟩

section Calls

variable {info : P4Info} {client : ClientView} {stub : Stub} {store : TableStore}
  (hinfo : WellFormedInfo info) (hindex : client.index = some (.ofP4Info info))
  (hstore : WellFormedStore info store) (hserves : ServesTables stub store)

section Store

include hstore hserves

/-- The entries that a complete Read streams are well formed and belong to the table. -/
theorem stream_fits
    {req : ReadRequest} (herror : (stub.read store req).error = none) :
    ∀ entry ∈ (stub.read store req).tableEntries,
      req.tableId = entry.tableId ∧ EntryFits info entry := by
  intro entry hentry
  have hmem := (hserves.read req herror).mem_iff.mp
    (List.mem_map_of_mem (f := fun entry => (entry.key, entry.action)) hentry)
  obtain ⟨item, hitem, heq⟩ := List.mem_map.mp hmem
  obtain ⟨hkey, haction⟩ := Prod.mk.inj heq
  obtain ⟨hitem, hid⟩ := List.mem_filter.mp hitem
  have hid : item.1.tableId = req.tableId := of_decide_eq_true hid
  refine ⟨?_, item.2, haction.symm, hkey ▸ hstore item hitem⟩
  rw [← hid, hkey]
  rfl

end Store

include hindex

/-- A listing that succeeds is the decoded stream of a table of the P4Info. -/
theorem listTableEntries_ok
    {name : String} {ds : List DecodedEntry}
    (h : listTableEntries stub client store (some name) = .ok ds) :
    client.isConnected = true ∧ ∃ table ∈ info.tables, table.name = name ∧
      (stub.read store ⟨client.deviceId, table.id⟩).error = none ∧
      (stub.read store ⟨client.deviceId, table.id⟩).tableEntries.mapM
        (decodeTableEntry (.ofP4Info info)) = .ok ds := by
  unfold listTableEntries at h
  cases hconnected : client.isConnected with
  | false =>
      simp [requireConnectedWithIndex, hconnected, liftCall, bind, Except.bind] at h
  | true =>
      rw [requireConnected_ok hindex hconnected] at h
      cases hid : (P4InfoIndex.ofP4Info info).tableId name with
      | error e => simp [hid, liftCall, bind, Except.bind] at h
      | ok id =>
          obtain ⟨table, hmem, hname, rfl⟩ := table_of_tableId hid
          refine ⟨rfl, table, hmem, hname, ?_⟩
          simp only [hid, liftCall, bind, Except.bind] at h
          cases hdecode : (stub.read store ⟨client.deviceId, table.id⟩).tableEntries.mapM
              (decodeTableEntry (.ofP4Info info)) with
          | error e => simp [hdecode] at h
          | ok ds' =>
              cases herror : (stub.read store ⟨client.deviceId, table.id⟩).error with
              | some status => simp [hdecode, herror] at h
              | none =>
                  simp only [hdecode, herror] at h
                  obtain rfl := Except.ok.inj h
                  exact ⟨rfl, rfl⟩

include hinfo hstore hserves

/-- A connected client lists a table of the P4Info whenever the Read ends without an error. -/
theorem listTableEntries_complete
    (hconnected : client.isConnected = true) {table : Table} (htable : table ∈ info.tables)
    (herror : (stub.read store ⟨client.deviceId, table.id⟩).error = none) :
    ∃ ds, listTableEntries stub client store (some table.name) = .ok ds := by
  have hfits := stream_fits hstore hserves herror
  obtain ⟨ds, hdecode, -, -⟩ := deleteUpdates_decoded hinfo htable
    (fun entry hentry => (hfits entry hentry).1) (fun entry hentry => (hfits entry hentry).2)
  refine ⟨ds, ?_⟩
  unfold listTableEntries
  simp only [requireConnected_ok hindex hconnected, (writeEntry_steps hinfo htable).1, liftCall,
    bind, Except.bind, hdecode, herror]
  rfl

/-- What a listing that succeeds says about the store, and the updates made from it. -/
theorem clearUpdates_ok
    {name : String} {ds : List DecodedEntry}
    (h : listTableEntries stub client store (some name) = .ok ds) :
    ∃ table ∈ info.tables, table.name = name ∧ ds.length = (store.ofTable table.id).length ∧
      ∃ updates, clearUpdates client name ds = .ok updates ∧
        (∀ u ∈ updates, u.type = .delete) ∧
        (updates.map fun u => u.tableEntry.key).Perm
          ((store.ofTable table.id).map Prod.fst) := by
  obtain ⟨hconnected, table, htable, rfl, herror, hdecode⟩ := listTableEntries_ok hindex h
  have hfits := stream_fits hstore hserves herror
  obtain ⟨ds', hdecode', hlength, hdeletes⟩ := deleteUpdates_decoded hinfo htable
    (fun entry hentry => (hfits entry hentry).1) (fun entry hentry => (hfits entry hentry).2)
  obtain rfl : ds = ds' := Except.ok.inj (hdecode.symm.trans hdecode')
  have hperm := hserves.read ⟨client.deviceId, table.id⟩ herror
  refine ⟨table, htable, rfl, ?_,
    (stub.read store ⟨client.deviceId, table.id⟩).tableEntries.map
      (fun entry => ⟨.delete, keyEntry entry⟩), ?_, ?_, ?_⟩
  · have hcount := hperm.length_eq
    simp only [List.length_map] at hcount
    rw [hlength, hcount]
  · simp only [clearUpdates, requireConnected_ok hindex hconnected,
      (writeEntry_steps hinfo htable).1, bind, Except.bind]
    exact hdeletes
  · intro u hu
    obtain ⟨entry, -, rfl⟩ := List.mem_map.mp hu
    rfl
  · have hkeys := hperm.map Prod.fst
    simpa only [List.map_map, Function.comp_def, key_keyEntry] using hkeys

/-- A request that deletes the entries of a table, each once. -/
def DeletesTable (store : TableStore) (tableId : Nat) (req : WriteRequest) : Prop :=
  (∀ u ∈ req.updates, u.type = .delete) ∧
    (req.updates.map fun u => u.tableEntry.key).Perm ((store.ofTable tableId).map Prod.fst)

/-- The four ways through `clear_table`. -/
theorem clearTable_cases
    (name : String) :
    (∃ e, listTableEntries stub client store (some name) = .error e ∧
      clearTable stub client store name = ⟨store, [], .error e⟩) ∨
    ∃ table ∈ info.tables, table.name = name ∧
      ((store.ofTable table.id = [] ∧ clearTable stub client store name = ⟨store, [], .ok 0⟩) ∨
        ∃ req, store.ofTable table.id ≠ [] ∧ DeletesTable store table.id req ∧
          (((stub.write store req).2 = none ∧ clearTable stub client store name =
              ⟨(stub.write store req).1, [req], .ok (store.ofTable table.id).length⟩) ∨
            ∃ status, (stub.write store req).2 = some status ∧
              clearTable stub client store name = ⟨store, [req], .error (.rpc status)⟩)) := by
  unfold clearTable
  cases hlist : listTableEntries stub client store (some name) with
  | error e => exact Or.inl ⟨e, rfl, rfl⟩
  | ok ds =>
      right
      obtain ⟨table, htable, hname, hlength, updates, hupdates, htype, hkeys⟩ :=
        clearUpdates_ok hinfo hindex hstore hserves hlist
      refine ⟨table, htable, hname, ?_⟩
      cases ds with
      | nil => exact Or.inl ⟨List.length_eq_zero_iff.mp hlength.symm, rfl⟩
      | cons d rest =>
          refine Or.inr ⟨batchRequest client updates, ?_, ⟨htype, hkeys⟩, ?_⟩
          · intro hempty
            simp [hempty] at hlength
          · cases hwrite : stub.write store (batchRequest client updates) with
            | mk store' status =>
                cases status with
                | none =>
                    simp only [hupdates, hwrite, hlength]
                    exact Or.inl ⟨trivial, trivial⟩
                | some status =>
                    have hfailed := hserves.write_failed (batchRequest client updates) status
                      (by rw [hwrite])
                    obtain rfl : store' = store := by rwa [hwrite] at hfailed
                    simp only [hupdates, hwrite]
                    exact Or.inr ⟨status, rfl, rfl⟩

end Calls

/-- What a call of `clear_table` that returns `n` has done to the store. -/
structure Cleared (store : TableStore) (tableId : Nat) (out : CallOutcome Nat) (n : Nat) :
    Prop where
  count : n = (store.ofTable tableId).length
  emptied : ∀ k : EntryKey, k.tableId = tableId → out.store.get? k = none
  others : ∀ k : EntryKey, k.tableId ≠ tableId → out.store.get? k = store.get? k
  writes : if n = 0 then out.writes = [] else
    ∃ req, out.writes = [req] ∧ DeletesTable store tableId req

/--
On a well-formed store, `clear_table` returns the number of entries of its table after it
deleted them all, in one Write of one DELETE each, and no others; a call that raises has
changed nothing.  Of a connected client that reads a known table only the Write can fail, and
the device could apply it.
-/
theorem clearTable_correct
    (info : P4Info) (client : ClientView) (stub : Stub) (store : TableStore) (name : String)
    (hinfo : WellFormedInfo info) (hindex : client.index = some (.ofP4Info info))
    (hstore : WellFormedStore info store) (hserves : ServesTables stub store) :
    (∀ n, (clearTable stub client store name).result = .ok n →
      ∃ table ∈ info.tables, table.name = name ∧
        Cleared store table.id (clearTable stub client store name) n) ∧
    (∀ e, (clearTable stub client store name).result = .error e →
      (clearTable stub client store name).store = store) ∧
    ∀ table ∈ info.tables, table.name = name → client.isConnected = true →
      (stub.read store ⟨client.deviceId, table.id⟩).error = none →
      (∃ n, (clearTable stub client store name).result = .ok n) ∨
        ∃ req status, (clearTable stub client store name).writes = [req] ∧
          (stub.write store req).2 = some status ∧
          (store.applyUpdates req.updates).isSome := by
  rcases clearTable_cases hinfo hindex hstore hserves name with
    ⟨e, hlist, hout⟩ | ⟨table, htable, hname, hcases⟩
  · -- The listing failed, before anything was written.
    refine ⟨?_, ?_, ?_⟩
    · intro n hn
      rw [hout] at hn
      cases hn
    · intro e _
      rw [hout]
    · rintro table htable rfl hconnected herror
      obtain ⟨ds, hds⟩ :=
        listTableEntries_complete hinfo hindex hstore hserves hconnected htable herror
      rw [hds] at hlist
      cases hlist
  rcases hcases with ⟨hempty, hout⟩ | ⟨req, hne, ⟨htype, hkeys⟩, hcases⟩
  · -- The table is empty, and no Write is sent.
    refine ⟨?_, ?_, ?_⟩
    · intro n hn
      rw [hout] at hn ⊢
      obtain rfl : 0 = n := Except.ok.inj hn
      refine ⟨table, htable, hname, by rw [hempty]; rfl, ?_, fun k _ => rfl, rfl⟩
      intro k hk
      refine (store.get?_eq_none_iff k).mpr fun hmem => ?_
      have hkey := TableStore.mem_ofTable_keys.mpr ⟨hmem, hk⟩
      rw [hempty] at hkey
      cases hkey
    · intro e _
      rw [hout]
    · intro _ _ _ _ _
      exact Or.inl ⟨0, by rw [hout]⟩
  obtain ⟨store', happly, hget⟩ := store.applyUpdates_ofTable htype hkeys
  rcases hcases with ⟨hwrite, hout⟩ | ⟨status, hwrite, hout⟩
  · -- The device applied the Write.
    refine ⟨?_, ?_, ?_⟩
    · intro n hn
      rw [hout] at hn ⊢
      obtain rfl := Except.ok.inj hn
      obtain rfl := Option.some.inj (happly.symm.trans (hserves.write_ok req hwrite))
      refine ⟨table, htable, hname, rfl, ?_, ?_, ?_⟩
      · intro k hk
        exact (hget k).trans (if_pos hk)
      · intro k hk
        exact (hget k).trans (if_neg hk)
      · rw [if_neg fun hzero => hne (List.length_eq_zero_iff.mp hzero)]
        exact ⟨req, rfl, htype, hkeys⟩
    · intro e he
      rw [hout] at he
      cases he
    · intro _ _ _ _ _
      exact Or.inl ⟨_, by rw [hout]⟩
  · -- The device rejected it.
    refine ⟨?_, ?_, ?_⟩
    · intro n hn
      rw [hout] at hn
      cases hn
    · intro e _
      rw [hout]
    · intro _ _ _ _ _
      exact Or.inr ⟨req, status, by rw [hout], hwrite, by rw [happly]; rfl⟩

/-- A device that streams each entry in a response of its own and applies every Write it can. -/
def directStub (entries : List TableEntry) : Stub where
  read := fun _ req =>
    ⟨(entries.filter (fun entry => entry.tableId = req.tableId)).map
      (fun entry => [.tableEntry entry]), none⟩
  write := fun store req =>
    match store.applyUpdates req.updates with
    | some store' => (store', none)
    | none => (store, some 2)

theorem directStub_serves
    {entries : List TableEntry} {store : TableStore}
    (h : (entries.map fun entry => (entry.key, entry.action)).Perm
      (store.entries.map fun item => (item.1, some item.2))) :
    ServesTables (directStub entries) store where
  read := by
    intro req _
    have hstream : ∀ es : List TableEntry,
        (⟨es.map (fun entry => [.tableEntry entry]), none⟩ : ReadStream).tableEntries = es := by
      intro es
      induction es with
      | nil => rfl
      | cons entry rest ih => exact congrArg (entry :: ·) ih
    have hfilter := h.filter (fun item => item.1.tableId = req.tableId)
    rw [List.filter_map, List.filter_map] at hfilter
    simp only [directStub, hstream]
    exact hfilter
  write_ok := by
    intro req hok
    simp only [directStub] at hok ⊢
    cases happly : store.applyUpdates req.updates with
    | none => simp [happly] at hok
    | some store' => rfl
  write_failed := by
    intro req status hfailed
    simp only [directStub] at hfailed ⊢
    cases happly : store.applyUpdates req.updates with
    | none => rfl
    | some store' => simp [happly] at hfailed

/-- Two ternary entries that differ only in priority, cleared beside an entry without a match. -/
theorem clearTable_correct_acl :
    let acl : Table := ⟨7, "acl", [⟨1, "proto", 9, .ternary⟩]⟩
    let route : Table := ⟨8, "route", [⟨1, "dst", 32, .lpm⟩]⟩
    let info : P4Info := ⟨[acl, route], [⟨16, "drop", []⟩]⟩
    let client : ClientView := ⟨0, 0, 1, none, true, some (.ofP4Info info)⟩
    let low : TableEntry :=
      { tableId := 7, fieldMatches := [⟨1, some (.ternary [1] [1, 1])⟩],
        action := some (.action ⟨16, []⟩), priority := 1 }
    let high : TableEntry := { low with priority := 2 }
    let default : TableEntry := { tableId := 8, action := some (.action ⟨16, []⟩) }
    let store : TableStore := .ofList
      [(low.key, .action ⟨16, []⟩), (default.key, .action ⟨16, []⟩),
        (high.key, .action ⟨16, []⟩)]
    let out := clearTable (directStub [low, default, high]) client store "acl"
    out.result = .ok 2 ∧ Cleared store 7 out 2 := by
  intro acl route info client low high default store out
  have hresult : out.result = .ok 2 := by decide
  have hinfo : WellFormedInfo info := by
    refine ⟨by decide, by decide, ?_, by decide, by decide, by decide, by decide, by decide⟩
    intro table htable
    simp only [info, List.mem_cons, List.not_mem_nil, or_false] at htable
    rcases htable with rfl | rfl
    · exact ⟨by decide, by decide, by decide⟩
    · exact ⟨by decide, by decide, by decide⟩
  have haction : ∀ call, TableAction.action ⟨16, []⟩ = .action call →
      ∃ a ∈ info.actions, a.id = call.actionId := by
    rintro call ⟨⟩
    exact ⟨_, List.mem_singleton.mpr rfl, rfl⟩
  have hmatch : WellFormedMatch acl low.fieldMatches := by
    refine ⟨by decide, ?_, by decide⟩
    intro fm hfm
    obtain rfl := List.mem_singleton.mp hfm
    exact ⟨_, List.mem_singleton.mpr rfl, rfl, _, rfl, by decide, by decide, by decide,
      by decide⟩
  have hentries : store.entries = [(low.key, .action ⟨16, []⟩),
      (default.key, .action ⟨16, []⟩), (high.key, .action ⟨16, []⟩)] :=
    OrderedDict.ofList_entries (by decide)
  have hstore : WellFormedStore info store := by
    intro item hitem
    rw [hentries] at hitem
    simp only [List.mem_cons, List.not_mem_nil, or_false] at hitem
    rcases hitem with rfl | rfl | rfl
    · exact ⟨⟨acl, by decide, rfl, ⟨by decide, by decide⟩, _, rfl, hmatch⟩, haction⟩
    · exact ⟨⟨route, by decide, rfl, rfl, [], rfl, by decide, by simp, by decide⟩, haction⟩
    · exact ⟨⟨acl, by decide, rfl, ⟨by decide, by decide⟩, _, rfl, hmatch⟩, haction⟩
  have hserves : ServesTables (directStub [low, default, high]) store := by
    refine directStub_serves ?_
    rw [hentries]
    exact List.Perm.refl _
  obtain ⟨table, htable, hname, hcleared⟩ :=
    (clearTable_correct info client _ store "acl" hinfo rfl hstore hserves).1 2 hresult
  simp only [info, List.mem_cons, List.not_mem_nil, or_false] at htable
  rcases htable with rfl | rfl
  · exact ⟨hresult, hcleared⟩
  · exact absurd hname (by decide)

end TableEntries
end P4Net

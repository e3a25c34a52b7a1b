import P4Net.TableEntryRoundTrip

/-!
# The table store of a switch

What a P4Runtime server does with table entries, as far as the client can tell.  The store is
a finite map from keys (table, canonical match, priority) to actions.  A Read streams the
entries of one table, over any number of responses.  A Write applies all its updates or none.

* `applyUpdates` : the store after the updates of a Write.
* `ServesTables` : what a stub does on a store; nothing else is assumed of it.
* `applyUpdates_deletes` : deleting distinct keys that are present removes these keys and
  leaves the others alone.
-/

namespace P4Net

/-- The key of a table entry.  The order of the field matches carries no meaning. -/
structure EntryKey where
  tableId : Nat
  fieldMatches : Multiset FieldMatch
  priority : Int
deriving DecidableEq

/-- The key that an entry addresses. -/
def TableEntry.key (entry : TableEntry) : EntryKey :=
  ⟨entry.tableId, entry.fieldMatches, entry.priority⟩

/-- The table store of a device. -/
abbrev TableStore := OrderedDict EntryKey TableAction

namespace TableStore

/-- The keys and actions of one table. -/
def ofTable (store : TableStore) (tableId : Nat) : List (EntryKey × TableAction) :=
  store.entries.filter (fun item => item.1.tableId = tableId)

/-- One update: INSERT needs a new key, MODIFY and DELETE one that is present. -/
def applyUpdate (store : TableStore) (update : Update) : Option TableStore :=
  let key := update.tableEntry.key
  match update.type, update.tableEntry.action with
  | .insert, some action => if key ∈ store.keys then none else some (store.set key action)
  | .modify, some action => if key ∈ store.keys then some (store.set key action) else none
  | .delete, _ => if key ∈ store.keys then some (store.erase key) else none
  | _, none => none

/-- All updates of a Write, one after the other; `none` where one of them fails. -/
def applyUpdates (store : TableStore) (updates : List Update) : Option TableStore :=
  updates.foldlM applyUpdate store

end TableStore

/-- An entity of a ReadResponse. -/
inductive Entity where
  | tableEntry (entry : TableEntry)
  | other

/-- `p4.v1.ReadRequest` for the entries of one table. -/
structure ReadRequest where
  deviceId : Nat
  tableId : Nat

/-- The responses of a Read, and the gRPC status it ends with when it fails. -/
structure ReadStream where
  responses : List (List Entity)
  error : Option Nat

/-- The table entries of a stream, in the order of their arrival. -/
def ReadStream.tableEntries (stream : ReadStream) : List TableEntry :=
  stream.responses.flatten.filterMap fun ent =>
    match ent with
    | .tableEntry entry => some entry
    | .other => none

/-- The gRPC stub: what Read streams, and the store and status after a Write. -/
structure Stub where
  read : TableStore → ReadRequest → ReadStream
  write : TableStore → WriteRequest → TableStore × Option Nat

/-- What the device promises about its answers on a store. -/
structure ServesTables (stub : Stub) (store : TableStore) : Prop where
  read : ∀ req, (stub.read store req).error = none →
    ((stub.read store req).tableEntries.map fun entry => (entry.key, entry.action)).Perm
      ((store.ofTable req.tableId).map fun item => (item.1, some item.2))
  write_ok : ∀ req, (stub.write store req).2 = none →
    store.applyUpdates req.updates = some (stub.write store req).1
  write_failed : ∀ req status, (stub.write store req).2 = some status →
    (stub.write store req).1 = store

namespace TableStore

theorem applyUpdate_delete
    {store : TableStore} {update : Update} (htype : update.type = .delete)
    (hmem : update.tableEntry.key ∈ store.keys) :
    store.applyUpdate update = some (store.erase update.tableEntry.key) := by
  unfold applyUpdate
  rw [htype]
  exact if_pos hmem

/-- Deleting distinct keys that are present removes exactly these keys. -/
theorem applyUpdates_deletes
    {updates : List Update} (htype : ∀ u ∈ updates, u.type = .delete)
    (hnodup : (updates.map fun u => u.tableEntry.key).Nodup)
    {store : TableStore} (hmem : ∀ u ∈ updates, u.tableEntry.key ∈ store.keys) :
    ∃ store', store.applyUpdates updates = some store' ∧
      ∀ k, store'.get? k =
        if k ∈ updates.map (fun u => u.tableEntry.key) then none else store.get? k := by
  induction updates generalizing store with
  | nil => exact ⟨store, rfl, fun k => by simp⟩
  | cons u rest ih =>
      rw [List.map_cons, List.nodup_cons] at hnodup
      have hstep := applyUpdate_delete (htype u (by simp)) (hmem u (by simp))
      have hrest : ∀ v ∈ rest, v.tableEntry.key ∈ (store.erase u.tableEntry.key).keys := by
        intro v hv
        refine (OrderedDict.mem_keys_erase ..).mpr ⟨?_, hmem v (List.mem_cons_of_mem _ hv)⟩
        intro hsame
        exact hnodup.1 (hsame ▸ List.mem_map_of_mem (f := fun u => u.tableEntry.key) hv)
      obtain ⟨store', happly, hget⟩ :=
        ih (fun v hv => htype v (List.mem_cons_of_mem _ hv)) hnodup.2 hrest
      refine ⟨store', ?_, fun k => ?_⟩
      · rw [applyUpdates, List.foldlM_cons, hstep]
        exact happly
      · rw [hget k]
        by_cases hk : k = u.tableEntry.key
        · subst hk
          simp
        · rw [OrderedDict.get?_erase_of_ne hk]
          simp [hk]

/-- The keys of a table are the keys with its id. -/
theorem mem_ofTable_keys
    {store : TableStore} {tableId : Nat} {k : EntryKey} :
    k ∈ (store.ofTable tableId).map Prod.fst ↔ k ∈ store.keys ∧ k.tableId = tableId := by
  simp only [ofTable, OrderedDict.keys, List.mem_map, List.mem_filter, decide_eq_true_eq]
  constructor
  · rintro ⟨item, ⟨hmem, hid⟩, rfl⟩
    exact ⟨⟨item, hmem, rfl⟩, hid⟩
  · rintro ⟨⟨item, hmem, rfl⟩, hid⟩
    exact ⟨item, ⟨hmem, hid⟩, rfl⟩

theorem ofTable_keys_nodup
    (store : TableStore) (tableId : Nat) :
    ((store.ofTable tableId).map Prod.fst).Nodup :=
  store.nodup.sublist (List.filter_sublist.map _)

/-- Deleting the keys of a table removes the table. -/
theorem applyUpdates_ofTable
    (store : TableStore) {tableId : Nat} {updates : List Update}
    (htype : ∀ u ∈ updates, u.type = .delete)
    (hkeys : (updates.map fun u => u.tableEntry.key).Perm
      ((store.ofTable tableId).map Prod.fst)) :
    ∃ store', store.applyUpdates updates = some store' ∧
      ∀ k : EntryKey, store'.get? k = if k.tableId = tableId then none else store.get? k := by
  have hmem : ∀ k, k ∈ updates.map (fun u => u.tableEntry.key) ↔
      k ∈ store.keys ∧ k.tableId = tableId :=
    fun k => hkeys.mem_iff.trans mem_ofTable_keys
  obtain ⟨store', happly, hget⟩ := applyUpdates_deletes htype
    (hkeys.nodup_iff.mpr (store.ofTable_keys_nodup tableId))
    (fun u hu => ((hmem _).mp (List.mem_map_of_mem (f := fun u => u.tableEntry.key) hu)).1)
  refine ⟨store', happly, fun k => ?_⟩
  rw [hget k]
  by_cases hid : k.tableId = tableId
  · by_cases hk : k ∈ store.keys
    · rw [if_pos ((hmem k).mpr ⟨hk, hid⟩), if_pos hid]
    · rw [if_neg fun h => hk ((hmem k).mp h).1, if_pos hid]
      exact (store.get?_eq_none_iff k).mpr hk
  · rw [if_neg fun h => hid ((hmem k).mp h).2, if_neg hid]

end TableStore
end P4Net

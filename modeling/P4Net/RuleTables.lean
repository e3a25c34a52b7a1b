import P4Net.MatchDenotations
import P4Net.Transcripts

/-!
# Clients of a switch and its rules

To its callers a switch holds rules: for a table, a set of packets and a priority, at most one
action.  Any number of clients insert, modify, delete, list and clear entries, in any order and
spelling, and any of their calls may fail.

* `insertTableEntry`, `modifyTableEntry`, `deleteTableEntry` : the calls that write one entry.
* `serve` : the store after a call, and its reply.
* `RuleStep` : what a reply says about the rules.
* `transcript_refines` : the replies to any sequence of calls are those of the rules.
-/

namespace P4Net
namespace TableEntries

open ControlCodec P4InfoIndex Transcripts

/-! ### Calls -/

/-- Send the request of a call, unless building it raises. -/
def sendWrite (stub : Stub) (store : TableStore) (request : Except ControlError WriteRequest) :
    CallOutcome Unit :=
  match request with
  | .error e => ⟨store, [], .error (.control e)⟩
  | .ok req =>
      match stub.write store req with
      | (store', none) => ⟨store', [req], .ok ()⟩
      | (store', some status) => ⟨store', [req], .error (.rpc status)⟩

/-- `insert_table_entry`. -/
def insertTableEntry (stub : Stub) (client : ClientView) (store : TableStore) (table : String)
    (args : OrderedDict String PyValue) (action : String)
    (params : Option (OrderedDict String PyValue)) (priority : PyValue) : CallOutcome Unit :=
  sendWrite stub store (writeEntry client table args (some action) params priority .insert)

/-- `modify_table_entry`. -/
def modifyTableEntry (stub : Stub) (client : ClientView) (store : TableStore) (table : String)
    (args : OrderedDict String PyValue) (action : String)
    (params : Option (OrderedDict String PyValue)) (priority : PyValue) : CallOutcome Unit :=
  sendWrite stub store (writeEntry client table args (some action) params priority .modify)

/-- `delete_table_entry`. -/
def deleteTableEntry (stub : Stub) (client : ClientView) (store : TableStore) (table : String)
    (args : OrderedDict String PyValue) (priority : PyValue) : CallOutcome Unit :=
  sendWrite stub store (writeEntry client table args none none priority .delete)

/-- A call of one of the five methods, with its arguments. -/
inductive TableCall where
  | insert (table : String) (args : OrderedDict String PyValue) (action : String)
      (params : Option (OrderedDict String PyValue)) (priority : PyValue)
  | modify (table : String) (args : OrderedDict String PyValue) (action : String)
      (params : Option (OrderedDict String PyValue)) (priority : PyValue)
  | delete (table : String) (args : OrderedDict String PyValue) (priority : PyValue)
  | clear (table : String)
  | list (table : String)

/-- A call, the client that makes it, and how the device answers it. -/
structure ClientCall where
  stub : Stub
  client : ClientView
  call : TableCall

/-- What a call returns or raises. -/
inductive Reply where
  | done
  | cleared (count : Nat)
  | listed (entries : List DecodedEntry)
  | raised (error : CallError)

/-- The reply of a call that returns nothing. -/
def doneReply (out : CallOutcome Unit) : TableStore × Reply :=
  match out.result with
  | .ok () => (out.store, .done)
  | .error e => (out.store, .raised e)

/-- The store after a call, and its reply. -/
def serve (store : TableStore) (request : ClientCall) : TableStore × Reply :=
  let ⟨stub, client, call⟩ := request
  match call with
  | .insert table args action params priority =>
      doneReply (insertTableEntry stub client store table args action params priority)
  | .modify table args action params priority =>
      doneReply (modifyTableEntry stub client store table args action params priority)
  | .delete table args priority =>
      doneReply (deleteTableEntry stub client store table args priority)
  | .clear table =>
      let out := clearTable stub client store table
      match out.result with
      | .ok n => (out.store, .cleared n)
      | .error e => (out.store, .raised e)
  | .list table =>
      match listTableEntries stub client store (some table) with
      | .ok ds => (store, .listed ds)
      | .error e => (store, .raised e)

/-- The device keeps its promises, and the client has the P4Info that the device runs. -/
def Serves (info : P4Info) (store : TableStore) (request : ClientCall) : Prop :=
  ServesTables request.stub store ∧ request.client.index = some (.ofP4Info info)

/-! ### Rules -/

/-- What a rule applies to: the packets of a table, at a priority. -/
structure Rule where
  tableId : Nat
  packets : Set (Nat → Nat)
  priority : Int

/-- The rules of a switch and their actions. -/
abbrev Rules := Rule → Option TableAction

namespace Rules

open Classical in
/-- The rules after one of them has got another action, or none. -/
noncomputable def set (rules : Rules) (rule : Rule) (action : Option TableAction) : Rules :=
  fun r => if r = rule then action else rules r

/-- The rules without those of a table. -/
def clear (rules : Rules) (tableId : Nat) : Rules :=
  fun r => if r.tableId = tableId then none else rules r

/-- The rules of a table, each once. -/
structure Enumerates (rules : Rules) (tableId : Nat) (l : List Rule) : Prop where
  once : l.Nodup
  all : ∀ rule, rule ∈ l ↔ rule.tableId = tableId ∧ (rules rule).isSome = true

end Rules

/-- The rule that the arguments of a call name. -/
structure Names (info : P4Info) (table : String) (args : OrderedDict String PyValue)
    (priority : PyValue) (rule : Rule) : Prop where
  table : ∃ t ∈ info.tables, t.name = table ∧ t.id = rule.tableId ∧
    rule.packets = {x | (∀ mf ∈ t.matchFields, x mf.id < 2 ^ mf.bitwidth) ∧ ArgsAdmit t args x}
  priority : priority = if rule.priority = 0 then .none else .int rule.priority

/-- The decoded action is the one of the rule. -/
def Shows (info : P4Info) (entry : DecodedEntry) (action : TableAction) : Prop :=
  ∀ call, action = .action call →
    entry.params = decodeParams (.ofP4Info info) call ∧
      ∃ a ∈ info.actions, a.id = call.actionId ∧ entry.action = some a.name

/-- What the reply to a call says about the rules before and after it. -/
inductive RuleStep (info : P4Info) : Rules → ClientCall → Reply → Rules → Prop
  | insert {rules : Rules} {stub : Stub} {client : ClientView} {table name : String}
      {args : OrderedDict String PyValue} {params : Option (OrderedDict String PyValue)}
      {priority : PyValue} {rule : Rule} {call : ActionCall}
      (hnames : Names info table args priority rule)
      (haction : encodeAction (.ofP4Info info) name params = .ok call)
      (hnew : rules rule = none) :
      RuleStep info rules ⟨stub, client, .insert table args name params priority⟩ .done
        (rules.set rule (some (.action call)))
  | modify {rules : Rules} {stub : Stub} {client : ClientView} {table name : String}
      {args : OrderedDict String PyValue} {params : Option (OrderedDict String PyValue)}
      {priority : PyValue} {rule : Rule} {call : ActionCall}
      (hnames : Names info table args priority rule)
      (haction : encodeAction (.ofP4Info info) name params = .ok call)
      (hold : (rules rule).isSome = true) :
      RuleStep info rules ⟨stub, client, .modify table args name params priority⟩ .done
        (rules.set rule (some (.action call)))
  | delete {rules : Rules} {stub : Stub} {client : ClientView} {table : String}
      {args : OrderedDict String PyValue} {priority : PyValue} {rule : Rule}
      (hnames : Names info table args priority rule)
      (hold : (rules rule).isSome = true) :
      RuleStep info rules ⟨stub, client, .delete table args priority⟩ .done (rules.set rule none)
  | clear {rules : Rules} {stub : Stub} {client : ClientView} {t : Table} {l : List Rule}
      (htable : t ∈ info.tables) (hall : rules.Enumerates t.id l) :
      RuleStep info rules ⟨stub, client, .clear t.name⟩ (.cleared l.length) (rules.clear t.id)
  | list {rules : Rules} {stub : Stub} {client : ClientView} {t : Table} {l : List Rule}
      {ds : List DecodedEntry}
      (htable : t ∈ info.tables) (hall : rules.Enumerates t.id l)
      (hlisted : List.Forall₂ (fun d rule => d.table = t.name ∧
        Names info d.table d.fieldValues d.priority rule ∧
        ∃ action, rules rule = some action ∧ Shows info d action) ds l) :
      RuleStep info rules ⟨stub, client, .list t.name⟩ (.listed ds) rules
  | raised {rules : Rules} {request : ClientCall} (e : CallError) :
      RuleStep info rules request (.raised e) rules

/-! ### The rules of a store -/

/-- The rule of a key. -/
def EntryKey.rule (info : P4Info) (key : EntryKey) : Rule where
  tableId := key.tableId
  packets :=
    {x | ∀ table ∈ info.tables, table.id = key.tableId → x ∈ packets table key.fieldMatches}
  priority := key.priority

/-- A key that a table of the P4Info can have. -/
def WellFormedKey (info : P4Info) (key : EntryKey) : Prop :=
  ∃ table ∈ info.tables, table.id = key.tableId ∧ PriorityFits table key.priority ∧
    ∃ fms : List FieldMatch, (fms : Multiset FieldMatch) = key.fieldMatches ∧
      WellFormedMatch table fms

open Classical in
/-- The rules that a store holds. -/
noncomputable def rulesOf (info : P4Info) (store : TableStore) : Rules := fun rule =>
  (store.entries.find? (fun item => decide (EntryKey.rule info item.1 = rule))).map Prod.snd

theorem wellFormedStore_iff
    {info : P4Info} {store : TableStore} :
    WellFormedStore info store ↔
      ∀ key action, store.get? key = some action → WellFormedItem info key action := by
  constructor
  · intro h key action hget
    exact h _ ((OrderedDict.get?_eq_some_iff _ _ _).mp hget)
  · intro h item hitem
    exact h _ _ ((OrderedDict.get?_eq_some_iff _ _ _).mpr hitem)

section Store

variable {info : P4Info} (hinfo : WellFormedInfo info)

include hinfo

/-- The rule of a key has the packets of its match list. -/
theorem rule_packets
    {table : Table} (htable : table ∈ info.tables) {key : EntryKey} (hid : table.id = key.tableId) :
    (EntryKey.rule info key).packets = packets table key.fieldMatches := by
  ext x
  constructor
  · exact fun hx => hx table htable hid
  · intro hx table' htable' hid'
    rwa [List.inj_on_of_nodup_map hinfo.tableIds htable' htable (hid'.trans hid.symm)]

/-- Keys with one rule are one key. -/
theorem rule_inj
    {key key' : EntryKey} (h : WellFormedKey info key) (h' : WellFormedKey info key')
    (heq : EntryKey.rule info key = EntryKey.rule info key') :
    key = key' := by
  obtain ⟨table, htable, hid, -, fms, hfms, hmatch⟩ := h
  obtain ⟨table', htable', hid', -, fms', hfms', hmatch'⟩ := h'
  obtain ⟨hsame, hpackets, hpriority⟩ := Rule.mk.inj heq
  obtain rfl := List.inj_on_of_nodup_map hinfo.tableIds htable htable'
    (hid.trans (hsame.trans hid'.symm))
  have hsets := (rule_packets hinfo htable hid).symm.trans
    (hpackets.trans (rule_packets hinfo htable hid'))
  rw [← hfms, ← hfms'] at hsets
  have hperm := (perm_iff_packets (hinfo.fields table htable) hmatch hmatch').mpr hsets
  have hlists : key.fieldMatches = key'.fieldMatches := by
    rw [← hfms, ← hfms', Multiset.coe_eq_coe.mpr hperm]
  cases key
  cases key'
  simp_all [EntryKey.rule]

/-- The rules of a store are those of its keys. -/
theorem rulesOf_eq_some_iff
    {store : TableStore} (hstore : WellFormedStore info store) {rule : Rule}
    {action : TableAction} :
    rulesOf info store rule = some action ↔
      ∃ key, store.get? key = some action ∧ EntryKey.rule info key = rule := by
  classical
  rw [rulesOf, Option.map_eq_some_iff]
  constructor
  · rintro ⟨item, hfind, rfl⟩
    refine ⟨item.1, (OrderedDict.get?_eq_some_iff _ _ _).mpr (List.mem_of_find?_eq_some hfind), ?_⟩
    simpa using List.find?_some hfind
  · rintro ⟨key, hget, rfl⟩
    have hmem := (OrderedDict.get?_eq_some_iff _ _ _).mp hget
    cases hfind : store.entries.find?
        (fun item => decide (EntryKey.rule info item.1 = EntryKey.rule info key)) with
    | none => simpa using List.find?_eq_none.mp hfind _ hmem
    | some item =>
        have hitem := List.mem_of_find?_eq_some hfind
        have hrule : EntryKey.rule info item.1 = EntryKey.rule info key := by
          simpa using List.find?_some hfind
        have hkey := rule_inj hinfo (hstore item hitem).table (hstore _ hmem).table hrule
        refine ⟨item, rfl, ?_⟩
        have hvalue := (OrderedDict.get?_eq_some_iff _ _ _).mpr hitem
        rw [hkey, hget] at hvalue
        exact (Option.some.inj hvalue).symm

/-- The action of a key is the one of its rule. -/
theorem rulesOf_rule
    {store : TableStore} (hstore : WellFormedStore info store) {key : EntryKey}
    (hkey : WellFormedKey info key) :
    rulesOf info store (EntryKey.rule info key) = store.get? key := by
  ext action
  rw [rulesOf_eq_some_iff hinfo hstore]
  constructor
  · rintro ⟨key', hget, hrule⟩
    have hwf := (wellFormedStore_iff.mp hstore key' action hget).table
    rwa [← rule_inj hinfo hwf hkey hrule]
  · exact fun hget => ⟨key, hget, rfl⟩

/-- A store that differs in one key has rules that differ in its rule. -/
theorem rulesOf_change
    {store store' : TableStore} (hstore : WellFormedStore info store)
    (hstore' : WellFormedStore info store') {key : EntryKey} (hkey : WellFormedKey info key)
    (hothers : ∀ k, k ≠ key → store'.get? k = store.get? k) :
    rulesOf info store' =
      (rulesOf info store).set (EntryKey.rule info key) (store'.get? key) := by
  funext rule
  unfold Rules.set
  split_ifs with hrule
  · rw [hrule, rulesOf_rule hinfo hstore' hkey]
  · ext action
    rw [rulesOf_eq_some_iff hinfo hstore', rulesOf_eq_some_iff hinfo hstore]
    refine exists_congr fun k => ?_
    by_cases hk : k = key
    · subst hk
      exact ⟨fun h => absurd h.2.symm hrule, fun h => absurd h.2.symm hrule⟩
    · rw [hothers k hk]

/-- A store without the keys of a table has the rules without those of the table. -/
theorem rulesOf_clear
    {store store' : TableStore} (hstore : WellFormedStore info store) {tableId : Nat}
    (hget : ∀ k : EntryKey, store'.get? k = if k.tableId = tableId then none else store.get? k) :
    WellFormedStore info store' ∧ rulesOf info store' = (rulesOf info store).clear tableId := by
  have hwf : WellFormedStore info store' := by
    refine wellFormedStore_iff.mpr fun key action hkey => ?_
    rw [hget] at hkey
    split_ifs at hkey
    exact wellFormedStore_iff.mp hstore key action hkey
  refine ⟨hwf, ?_⟩
  funext rule
  unfold Rules.clear
  ext action
  rw [rulesOf_eq_some_iff hinfo hwf]
  constructor
  · rintro ⟨key, hkey, rfl⟩
    rw [hget] at hkey
    split_ifs at hkey with hid
    rw [if_neg (show ¬ (EntryKey.rule info key).tableId = tableId from hid)]
    exact (rulesOf_eq_some_iff hinfo hstore).mpr ⟨key, hkey, rfl⟩
  · intro h
    split_ifs at h with hid
    obtain ⟨key, hkey, rfl⟩ := (rulesOf_eq_some_iff hinfo hstore).mp h
    exact ⟨key, by rw [hget, if_neg (show ¬ key.tableId = tableId from hid), hkey], rfl⟩

/-- The rules of a table are enumerated by its keys, in any order. -/
theorem enumerates_of_perm
    {store : TableStore} (hstore : WellFormedStore info store) {tableId : Nat}
    {keys : List EntryKey} (hkeys : keys.Perm ((store.ofTable tableId).map Prod.fst)) :
    (rulesOf info store).Enumerates tableId (keys.map (EntryKey.rule info)) := by
  have hmem : ∀ k, k ∈ keys ↔ k ∈ store.keys ∧ k.tableId = tableId :=
    fun k => hkeys.mem_iff.trans TableStore.mem_ofTable_keys
  have hwf : ∀ k ∈ keys, WellFormedKey info k := by
    intro k hk
    obtain ⟨action, haction⟩ := Option.isSome_iff_exists.mp
      ((OrderedDict.get?_isSome_iff _ _).mpr ((hmem k).mp hk).1)
    exact (wellFormedStore_iff.mp hstore k action haction).table
  constructor
  · refine List.Nodup.map_on (fun k hk k' hk' h => rule_inj hinfo (hwf k hk) (hwf k' hk') h) ?_
    exact hkeys.nodup_iff.mpr (store.ofTable_keys_nodup tableId)
  · intro rule
    rw [List.mem_map, Option.isSome_iff_exists]
    constructor
    · rintro ⟨k, hk, rfl⟩
      obtain ⟨action, haction⟩ := Option.isSome_iff_exists.mp
        ((OrderedDict.get?_isSome_iff _ _).mpr ((hmem k).mp hk).1)
      exact ⟨((hmem k).mp hk).2, action,
        (rulesOf_rule hinfo hstore (hwf k hk)).trans haction⟩
    · rintro ⟨hid, action, haction⟩
      obtain ⟨key, hget, rfl⟩ := (rulesOf_eq_some_iff hinfo hstore).mp haction
      exact ⟨key, (hmem key).mpr ⟨OrderedDict.mem_keys_of_get? hget, hid⟩, rfl⟩

end Store

/-! ### One call -/

/-- A store and the rules that its clients see. -/
def Holds (info : P4Info) (store : TableStore) (rules : Rules) : Prop :=
  WellFormedStore info store ∧ rules = rulesOf info store

/-- The action of an accepted call is one of the P4Info. -/
theorem known_of_encodeAction
    {info : P4Info} {name : String} {params : Option (OrderedDict String PyValue)}
    {call : ActionCall} (h : encodeAction (.ofP4Info info) name params = .ok call) :
    ∃ a ∈ info.actions, a.id = call.actionId := by
  unfold encodeAction at h
  split at h
  · cases h
  · rename_i action hget
    have hentry := OrderedDict.mem_of_mem_ofList ((OrderedDict.get?_eq_some_iff _ _ _).mp hget)
    obtain ⟨a, hmem, heq⟩ := List.mem_map.mp hentry
    obtain ⟨-, rfl⟩ := Prod.mk.inj heq
    simp only at h
    split at h
    · cases h
    · split at h
      · cases h
      · obtain ⟨values, -, h⟩ := (Topo.bind_eq_ok_iff _ _ _).mp h
        exact ⟨a, hmem, by rw [← Except.ok.inj h]⟩

/-- The key that is built from the arguments of a call, and the rule that they name. -/
theorem names_of_checks
    {info : P4Info} (hinfo : WellFormedInfo info) {table : Table} (htable : table ∈ info.tables)
    {args : OrderedDict String PyValue} {priority : PyValue} {n : Int} {fms : List FieldMatch}
    (hpriority : checkPriority table.name (table.matchFields.any needsPriority) priority = .ok n)
    (hfms : encodeMatch (.ofP4Info info) table.name args = .ok fms) :
    WellFormedKey info ⟨table.id, fms, n⟩ ∧
      Names info table.name args priority (EntryKey.rule info ⟨table.id, fms, n⟩) := by
  obtain ⟨hmatch, hpackets⟩ := wellFormedMatch_of_encodeMatch hinfo htable hfms
  obtain ⟨hfits, hvalue⟩ := checkPriority_ok hpriority
  refine ⟨⟨table, htable, rfl, hfits, fms, rfl, hmatch⟩, ⟨table, htable, rfl, rfl, ?_⟩, hvalue⟩
  exact (rule_packets hinfo htable (show table.id = EntryKey.tableId ⟨table.id, fms, n⟩ from rfl)).trans hpackets

section Writes

variable {info : P4Info} {client : ClientView} {stub : Stub} {store : TableStore}

/-- A call that writes one update gets it applied, or raises. -/
theorem doneReply_sendWrite
    (hserves : ServesTables stub store) (request : Except ControlError WriteRequest) :
    (∃ e, doneReply (sendWrite stub store request) = (store, .raised e)) ∨
      ∃ req store', request = .ok req ∧ store.applyUpdates req.updates = some store' ∧
        doneReply (sendWrite stub store request) = (store', .done) := by
  cases request with
  | error e => exact Or.inl ⟨_, rfl⟩
  | ok req =>
      cases hwrite : stub.write store req with
      | mk store' status =>
          simp only [sendWrite, hwrite, doneReply]
          cases status with
          | none =>
              have happly := hserves.write_ok req (by rw [hwrite])
              rw [hwrite] at happly
              exact Or.inr ⟨req, store', rfl, happly, rfl⟩
          | some status =>
              have hfailed := hserves.write_failed req status (by rw [hwrite])
              rw [hwrite] at hfailed
              exact Or.inl ⟨_, by rw [show store' = store from hfailed]⟩

/-- A store with a well-formed entry more is well formed. -/
theorem wellFormedStore_set
    (hstore : WellFormedStore info store) {key : EntryKey} {action : TableAction}
    (h : WellFormedItem info key action) :
    WellFormedStore info (store.set key action) := by
  refine wellFormedStore_iff.mpr fun k a hget => ?_
  by_cases hk : k = key
  · subst hk
    rw [OrderedDict.get?_set_self] at hget
    rwa [← Option.some.inj hget]
  · rw [OrderedDict.get?_set_of_ne hk] at hget
    exact wellFormedStore_iff.mp hstore k a hget

theorem wellFormedStore_erase
    (hstore : WellFormedStore info store) (key : EntryKey) :
    WellFormedStore info (store.erase key) :=
  fun item hitem => hstore item (List.mem_of_mem_filter hitem)

variable (hinfo : WellFormedInfo info) (hindex : client.index = some (.ofP4Info info))
  (hserves : ServesTables stub store)

include hinfo hindex hserves

/-- A call of `_write_entry` that returns has applied the update of the rule that it names. -/
theorem writeEntry_step
    (table : String) (args : OrderedDict String PyValue) (action : Option String)
    (params : Option (OrderedDict String PyValue)) (priority : PyValue) (updateType : UpdateType) :
    let reply := doneReply (sendWrite stub store
      (writeEntry client table args action params priority updateType))
    (∃ e, reply = (store, .raised e)) ∨
      ∃ entry store', reply = (store', .done) ∧ WellFormedKey info entry.key ∧
        Names info table args priority (EntryKey.rule info entry.key) ∧
        (match action with
          | none => entry.action = none
          | some name => ∃ call, encodeAction (.ofP4Info info) name params = .ok call ∧
              entry.action = some (.action call)) ∧
        store.applyUpdate ⟨updateType, entry⟩ = some store' := by
  intro reply
  rcases doneReply_sendWrite hserves
      (writeEntry client table args action params priority updateType) with
    hraised | ⟨req, store', hrequest, happly, hdone⟩
  · exact Or.inl hraised
  obtain ⟨t, htable, n, fms, act, rfl, hpriority, hfms, hact, rfl⟩ :=
    writeEntry_ok hinfo hindex hrequest
  obtain ⟨hkey, hnames⟩ := names_of_checks hinfo htable hpriority hfms
  refine Or.inr ⟨{ tableId := t.id, fieldMatches := fms, action := act, priority := n }, store',
    hdone, hkey, hnames, hact, ?_⟩
  simpa [writeRequest, TableStore.applyUpdates] using happly

/-- INSERT and MODIFY of a rule. -/
theorem writeEntry_set
    (hstore : WellFormedStore info store)
    (table : String) (args : OrderedDict String PyValue) (name : String)
    (params : Option (OrderedDict String PyValue)) (priority : PyValue) {updateType : UpdateType}
    (htype : updateType ≠ .delete) :
    let reply := doneReply (sendWrite stub store
      (writeEntry client table args (some name) params priority updateType))
    (∃ e, reply = (store, .raised e)) ∨
      ∃ rule call, reply.2 = .done ∧ Names info table args priority rule ∧
        encodeAction (.ofP4Info info) name params = .ok call ∧
        ((rulesOf info store rule).isSome = true ↔ updateType = .modify) ∧
        Holds info reply.1 ((rulesOf info store).set rule (some (.action call))) := by
  intro reply
  rcases writeEntry_step hinfo hindex hserves table args (some name) params priority updateType with
    hraised | ⟨entry, store', hdone, hkey, hnames, ⟨call, hcall, haction⟩, happly⟩
  · exact Or.inl hraised
  have hreply : reply = (store', .done) := hdone
  have hpresent : store' = store.set entry.key (.action call) ∧
      (entry.key ∈ store.keys ↔ updateType = .modify) := by
    unfold TableStore.applyUpdate at happly
    rw [haction] at happly
    cases updateType with
    | delete => exact absurd rfl htype
    | insert =>
        simp only at happly
        split_ifs at happly with hmem
        exact ⟨(Option.some.inj happly).symm, by simp [hmem]⟩
    | modify =>
        simp only at happly
        split_ifs at happly with hmem
        exact ⟨(Option.some.inj happly).symm, by simp [hmem]⟩
  obtain ⟨rfl, hpresent⟩ := hpresent
  have hstore' : WellFormedStore info (store.set entry.key (.action call)) := by
    refine wellFormedStore_set hstore ⟨hkey, fun call' heq => ?_⟩
    obtain rfl := TableAction.action.inj heq
    exact known_of_encodeAction hcall
  refine Or.inr ⟨EntryKey.rule info entry.key, call, by rw [hreply], hnames, hcall, ?_, ?_, ?_⟩
  · rw [rulesOf_rule hinfo hstore hkey, OrderedDict.get?_isSome_iff, hpresent]
  · rw [hreply]
    exact hstore'
  · rw [hreply, rulesOf_change hinfo hstore hstore' hkey
      (fun k hk => OrderedDict.get?_set_of_ne hk store _), OrderedDict.get?_set_self]

/-- DELETE of a rule. -/
theorem writeEntry_erase
    (hstore : WellFormedStore info store)
    (table : String) (args : OrderedDict String PyValue) (priority : PyValue) :
    let reply := doneReply (sendWrite stub store
      (writeEntry client table args none none priority .delete))
    (∃ e, reply = (store, .raised e)) ∨
      ∃ rule, reply.2 = .done ∧ Names info table args priority rule ∧
        (rulesOf info store rule).isSome = true ∧
        Holds info reply.1 ((rulesOf info store).set rule none) := by
  intro reply
  rcases writeEntry_step hinfo hindex hserves table args none none priority .delete with
    hraised | ⟨entry, store', hdone, hkey, hnames, -, happly⟩
  · exact Or.inl hraised
  have hreply : reply = (store', .done) := hdone
  obtain ⟨rfl, hmem⟩ : store' = store.erase entry.key ∧ entry.key ∈ store.keys := by
    simp only [TableStore.applyUpdate] at happly
    split_ifs at happly with hmem
    exact ⟨(Option.some.inj happly).symm, hmem⟩
  have hstore' := wellFormedStore_erase hstore entry.key
  refine Or.inr ⟨EntryKey.rule info entry.key, by rw [hreply], hnames, ?_, ?_, ?_⟩
  · rw [rulesOf_rule hinfo hstore hkey, OrderedDict.get?_isSome_iff]
    exact hmem
  · rw [hreply]
    exact hstore'
  · rw [hreply, rulesOf_change hinfo hstore hstore' hkey
      (fun k hk => OrderedDict.get?_erase_of_ne hk store), OrderedDict.get?_erase_self]

end Writes

/-- A call of `clear_table` raises with the store as it was, or empties its table. -/
theorem clearTable_step
    {info : P4Info} {client : ClientView} {stub : Stub} {store : TableStore}
    (hinfo : WellFormedInfo info) (hindex : client.index = some (.ofP4Info info))
    (hstore : WellFormedStore info store) (hserves : ServesTables stub store) (name : String) :
    let out := clearTable stub client store name
    (∃ e, out.result = .error e ∧ out.store = store) ∨
      ∃ table ∈ info.tables, table.name = name ∧
        out.result = .ok (store.ofTable table.id).length ∧
        ∀ k, out.store.get? k = if k.tableId = table.id then none else store.get? k := by
  intro out
  rcases clearTable_cases hinfo hindex hstore hserves name with
    ⟨e, -, hout⟩ | ⟨table, htable, hname, ⟨hempty, hout⟩ | ⟨req, -, hdeletes, hcases⟩⟩
  · exact .inl ⟨e, congrArg CallOutcome.result hout, congrArg CallOutcome.store hout⟩
  · refine .inr ⟨table, htable, hname, ?_, fun k => ?_⟩
    · rw [hempty]
      exact congrArg CallOutcome.result hout
    · rw [show out.store = store from congrArg CallOutcome.store hout]
      split_ifs with hk
      · refine (store.get?_eq_none_iff k).mpr fun hmem => ?_
        have hkey := TableStore.mem_ofTable_keys.mpr ⟨hmem, hk⟩
        rw [hempty] at hkey
        cases hkey
      · rfl
  · rcases hcases with ⟨hwrite, hout⟩ | ⟨status, -, hout⟩
    · obtain ⟨store', happly, hget⟩ := store.applyUpdates_ofTable hdeletes.1 hdeletes.2
      obtain rfl := Option.some.inj (happly.symm.trans (hserves.write_ok req hwrite))
      refine .inr ⟨table, htable, hname, congrArg CallOutcome.result hout, fun k => ?_⟩
      rw [show out.store = _ from congrArg CallOutcome.store hout]
      exact hget k
    · exact .inl ⟨_, congrArg CallOutcome.result hout, congrArg CallOutcome.store hout⟩

/-! ### Listings -/

/-- What a decoded entry tells about the rule of its key. -/
theorem decoded_names
    {info : P4Info} (hinfo : WellFormedInfo info) {table : Table} (htable : table ∈ info.tables)
    {entry : TableEntry} (hid : table.id = entry.tableId) (h : EntryFits info entry)
    {d : DecodedEntry} (hdecode : decodeTableEntry (.ofP4Info info) entry = .ok d) :
    d.table = table.name ∧
      Names info d.table d.fieldValues d.priority (EntryKey.rule info entry.key) ∧
      ∃ action, entry.action = some action ∧ Shows info d action := by
  obtain ⟨action, haction, ⟨table', htable', hid', hprio, fms, hfms, hmatch⟩, hknown⟩ := h
  obtain rfl := List.inj_on_of_nodup_map hinfo.tableIds htable' htable (hid'.trans hid.symm)
  have hperm : fms.Perm entry.fieldMatches := Multiset.coe_eq_coe.mp hfms
  have hencoded := encodeMatch_decoded hinfo htable (WellFormedMatch.perm hmatch hperm)
  obtain ⟨-, hpackets⟩ := wellFormedMatch_of_encodeMatch hinfo htable hencoded
  obtain ⟨name, params, hok⟩ := decodeTableEntry_of_mem hinfo htable hid
    (fun call hcall => hknown call (Option.some.inj (haction.symm.trans hcall)))
  rw [hdecode] at hok
  obtain rfl := Except.ok.inj hok
  refine ⟨rfl, ⟨⟨table', htable, rfl, hid, ?_⟩, rfl⟩, action, haction, ?_⟩
  · exact (rule_packets hinfo htable (show table'.id = entry.key.tableId from hid)).trans hpackets
  · rintro call rfl
    obtain ⟨a, ha, haid⟩ := hknown call rfl
    have hactionName : (P4InfoIndex.ofP4Info info).actionName call.actionId = .ok a.name :=
      haid ▸ actionName_of_mem hinfo ha
    have htableName : (P4InfoIndex.ofP4Info info).tableName entry.tableId = .ok table'.name :=
      hid ▸ tableName_of_mem hinfo htable
    simp only [decodeTableEntry, htableName, haction, hactionName, bind, Except.bind,
      Except.ok.injEq, DecodedEntry.mk.injEq] at hdecode
    exact ⟨hdecode.2.2.2.1.symm, a, ha, haid, hdecode.2.2.1.symm⟩

/-- A listing shows the rules of its table, each once, with arguments that name them. -/
theorem listTableEntries_step
    {info : P4Info} {client : ClientView} {stub : Stub} {store : TableStore}
    (hinfo : WellFormedInfo info) (hindex : client.index = some (.ofP4Info info))
    (hstore : WellFormedStore info store) (hserves : ServesTables stub store) {name : String}
    {ds : List DecodedEntry} (h : listTableEntries stub client store (some name) = .ok ds) :
    ∃ t ∈ info.tables, t.name = name ∧ ∃ l, (rulesOf info store).Enumerates t.id l ∧
      List.Forall₂ (fun d rule => d.table = t.name ∧
        Names info d.table d.fieldValues d.priority rule ∧
        ∃ action, rulesOf info store rule = some action ∧ Shows info d action) ds l := by
  obtain ⟨-, table, htable, rfl, herror, hdecode⟩ := listTableEntries_ok hindex h
  have hfits := stream_fits hstore hserves herror
  have hperm := hserves.read _ herror
  have hkeys := hperm.map Prod.fst
  simp only [List.map_map, Function.comp_def] at hkeys
  have haction : ∀ entry ∈ (stub.read store ⟨client.deviceId, table.id⟩).tableEntries,
      rulesOf info store (EntryKey.rule info entry.key) = entry.action := by
    intro entry hentry
    obtain ⟨item, hitem, heq⟩ := List.mem_map.mp (hperm.mem_iff.mp
      (List.mem_map_of_mem (f := fun entry => (entry.key, entry.action)) hentry))
    obtain ⟨hkey, haction⟩ := Prod.mk.inj heq
    have hmem := List.mem_of_mem_filter hitem
    rw [← hkey, ← haction, rulesOf_rule hinfo hstore (hstore item hmem).table]
    exact (OrderedDict.get?_eq_some_iff _ _ _).mpr hmem
  refine ⟨table, htable, rfl, _, enumerates_of_perm hinfo hstore hkeys, ?_⟩
  rw [List.forall₂_map_right_iff, List.forall₂_map_right_iff]
  have hall := (List.forall₂_and_left (p := fun entry => (table.id = entry.tableId ∧
      EntryFits info entry) ∧ rulesOf info store (EntryKey.rule info entry.key) = entry.action)
      _ _).mpr
    ⟨fun entry hentry => ⟨hfits entry hentry, haction entry hentry⟩,
      (Topo.mapM_eq_ok_iff _ _ _).mp hdecode⟩
  refine List.Forall₂.flip (hall.imp ?_)
  rintro entry d ⟨⟨⟨hid, hfit⟩, hrule⟩, hd⟩
  obtain ⟨htname, hnames, action, hact, hshows⟩ := decoded_names hinfo htable hid hfit hd
  exact ⟨htname, hnames, action, hrule.trans hact, hshows⟩

/-! ### Any sequence of calls -/

section Runs

variable {info : P4Info} (hinfo : WellFormedInfo info)

include hinfo

/-- One call is a step of the rules. -/
theorem serve_step
    (store : TableStore) (rules : Rules) (request : ClientCall)
    (hholds : Holds info store rules) (hserves : Serves info store request) :
    ∃ rules', RuleStep info rules request (serve store request).2 rules' ∧
      Holds info (serve store request).1 rules' := by
  obtain ⟨stub, client, call⟩ := request
  obtain ⟨hstub, hindex⟩ := hserves
  obtain ⟨hstore, rfl⟩ := hholds
  have hraised : ∀ {reply : TableStore × Reply} {e : CallError}, reply = (store, .raised e) →
      ∃ rules', RuleStep info (rulesOf info store) ⟨stub, client, call⟩ reply.2 rules' ∧
        Holds info reply.1 rules' := by
    rintro _ e rfl
    exact ⟨_, .raised e, hstore, rfl⟩
  cases call with
  | insert table args action params priority =>
      rcases writeEntry_set hinfo hindex hstub hstore table args action params priority
          (show UpdateType.insert ≠ .delete by decide) with
        ⟨e, he⟩ | ⟨rule, call, hdone, hnames, hcall, hpresent, hnext⟩
      · exact hraised he
      · have hnew : rulesOf info store rule = none := by simpa using hpresent
        refine ⟨_, ?_, hnext⟩
        rw [show (serve store ⟨stub, client, .insert table args action params priority⟩).2 =
          Reply.done from hdone]
        exact .insert hnames hcall hnew
  | modify table args action params priority =>
      rcases writeEntry_set hinfo hindex hstub hstore table args action params priority
          (show UpdateType.modify ≠ .delete by decide) with
        ⟨e, he⟩ | ⟨rule, call, hdone, hnames, hcall, hpresent, hnext⟩
      · exact hraised he
      · refine ⟨_, ?_, hnext⟩
        rw [show (serve store ⟨stub, client, .modify table args action params priority⟩).2 =
          Reply.done from hdone]
        exact .modify hnames hcall (hpresent.mpr rfl)
  | delete table args priority =>
      rcases writeEntry_erase hinfo hindex hstub hstore table args priority with
        ⟨e, he⟩ | ⟨rule, hdone, hnames, hold, hnext⟩
      · exact hraised he
      · refine ⟨_, ?_, hnext⟩
        rw [show (serve store ⟨stub, client, .delete table args priority⟩).2 =
          Reply.done from hdone]
        exact .delete hnames hold
  | clear name =>
      rcases clearTable_step hinfo hindex hstore hstub name with
        ⟨e, hresult, hsame⟩ | ⟨table, htable, rfl, hresult, hlookup⟩
      · exact hraised (e := e) (by simp only [serve, hresult, hsame])
      · have hall := enumerates_of_perm hinfo hstore (List.Perm.refl
          ((store.ofTable table.id).map Prod.fst))
        obtain ⟨hstore', hrules⟩ := rulesOf_clear hinfo hstore hlookup
        have hlength : (store.ofTable table.id).length =
            (((store.ofTable table.id).map Prod.fst).map (EntryKey.rule info)).length := by
          rw [List.length_map, List.length_map]
        have hreply : serve store ⟨stub, client, .clear table.name⟩ =
            ((clearTable stub client store table.name).store,
              .cleared (((store.ofTable table.id).map Prod.fst).map (EntryKey.rule info)).length) := by
          simp only [serve, hresult, hlength]
        rw [hreply]
        exact ⟨_, .clear htable hall, hstore', hrules.symm⟩
  | list name =>
      cases hresult : listTableEntries stub client store (some name) with
      | error e => exact hraised (e := e) (by simp only [serve, hresult])
      | ok ds =>
          obtain ⟨t, htable, rfl, l, hall, hlisted⟩ :=
            listTableEntries_step hinfo hindex hstore hstub hresult
          have hreply : serve store ⟨stub, client, .list t.name⟩ = (store, .listed ds) := by
            simp only [serve, hresult]
          rw [hreply]
          exact ⟨_, .list htable hall hlisted, hstore, rfl⟩

end Runs

/--
Whatever calls clients make, and whichever of them fail, their replies are those of a map from
rules to actions that starts as the rules of the store and ends as those of the store after
the calls; the store stays well formed.
-/
theorem transcript_refines
    (info : P4Info) (store : TableStore) (calls : List ClientCall)
    (hinfo : WellFormedInfo info) (hstore : WellFormedStore info store)
    (hserves : Admitted serve (Serves info) store calls) :
    Explains (RuleStep info) (rulesOf info store) (transcript serve store calls).1
        (rulesOf info (transcript serve store calls).2) ∧
      WellFormedStore info (transcript serve store calls).2 := by
  obtain ⟨rules, hexplains, hwf, rfl⟩ :=
    Explains.of_simulation (R := Holds info) (serve_step hinfo) calls ⟨hstore, rfl⟩ hserves
  exact ⟨hexplains, hwf⟩

/-- A route that is added as a text, listed, and deleted as a number. -/
theorem transcript_refines_route :
    let table : Table := ⟨33, "MyIngress.route", [⟨1, "dst", 32, .lpm⟩]⟩
    let info : P4Info := ⟨[table], [⟨16, "drop", []⟩]⟩
    let client : ClientView := ⟨0, 0, 1, none, true, some (.ofP4Info info)⟩
    let added : TableEntry :=
      { tableId := 33, fieldMatches := [⟨1, some (.lpm [10, 0, 0, 0] 8)⟩],
        action := some (.action ⟨16, []⟩) }
    let calls : List ClientCall :=
      [⟨directStub [], client, .insert "MyIngress.route"
          (.ofList [("dst", .str "10.0.0.0/8".toList)]) "drop" none .none⟩,
        ⟨directStub [added], client, .list "MyIngress.route"⟩,
        ⟨directStub [added], client, .delete "MyIngress.route"
          (.ofList [("dst", .pair (.int 167772160) (.int 8))]) .none⟩]
    Explains (RuleStep info) (rulesOf info .empty) (transcript serve .empty calls).1
        (rulesOf info (transcript serve .empty calls).2) ∧
      WellFormedStore info (transcript serve .empty calls).2 := by
  intro table info client added calls
  have hinfo : WellFormedInfo info := by
    refine ⟨by decide, by decide, ?_, by decide, by decide, by decide, by decide, by decide⟩
    intro t ht
    obtain rfl := List.mem_singleton.mp ht
    exact ⟨by decide, by decide, by decide⟩
  refine transcript_refines info .empty calls hinfo (by rintro item ⟨⟩) ?_
  refine ⟨⟨directStub_serves (List.Perm.refl _), rfl⟩, ⟨directStub_serves ?_, rfl⟩,
    ⟨directStub_serves ?_, rfl⟩, trivial⟩
  · decide +kernel
  · decide +kernel

end TableEntries
end P4Net

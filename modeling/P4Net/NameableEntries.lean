import P4Net.TableCommandLines

/-!
# Entries that no command line names

`match:` is required and must not be empty, so a command line names at least one field.  Only
a wildcard is left out of the request, and fields with exact and optional matches have no text
for one.

* `nameable_of_dispatch` : whatever is dispatched, the request has a match or its table has a
  field with a wildcard.
* `tableLines_correct` : the lines of nameable entries, and that others have none.
* `no_line_for_optional_wildcard` : an entry that has none.
-/

namespace P4Net
namespace Cli

open TextLiterals BigEndian P4InfoIndex TableEntries

/-- Only three match types leave an argument out. -/
theorem matchType_of_wildcard
    {mf : MatchField} {value : PyValue} (h : encodeField mf value = .ok none) :
    mf.matchType = .lpm ∨ mf.matchType = .ternary ∨ mf.matchType = .range := by
  unfold encodeField at h
  cases hmt : mf.matchType with
  | lpm => exact Or.inl rfl
  | ternary => exact Or.inr (Or.inl rfl)
  | range => exact Or.inr (Or.inr rfl)
  | unspecified =>
      rw [hmt] at h
      cases h
  | exact =>
      simp only [hmt, Topo.bind_eq_ok_iff] at h
      obtain ⟨encoded, _, h⟩ := h
      cases h
  | optional =>
      simp only [hmt, Topo.bind_eq_ok_iff] at h
      obtain ⟨encoded, _, h⟩ := h
      cases h

/-- The table and the match list of a request. -/
theorem lookups_of_writeEntry
    {client : ClientView} {table : String} {args : OrderedDict String PyValue}
    {action : Option String} {params : Option (OrderedDict String PyValue)} {priority : PyValue}
    {updateType : UpdateType} {update : Update}
    (h : writeEntry client table args action params priority updateType =
      .ok (writeRequest client update)) :
    ∃ index, client.index = some index ∧ index.tableId table = .ok update.tableEntry.tableId ∧
      index.encodeMatch table args = .ok update.tableEntry.fieldMatches := by
  simp only [writeEntry, Topo.bind_eq_ok_iff] at h
  obtain ⟨index, hindex, tableId, hid, required, _, n, _, fms, hfms, h⟩ := h
  have hclient : client.index = some index := by
    unfold requireConnectedWithIndex at hindex
    split_ifs at hindex
    cases hget : client.index with
    | none =>
        rw [hget] at hindex
        cases hindex
    | some found =>
        rw [hget] at hindex
        rw [Except.ok.inj hindex]
  have hupdate : ∀ u, writeRequest client u = writeRequest client update → u = update :=
    fun u hu => by simpa [writeRequest] using hu
  cases action with
  | none =>
      have hu := hupdate _ (Except.ok.inj h)
      exact ⟨index, hclient, by rw [hid, ← hu], by rw [hfms, ← hu]⟩
  | some name =>
      simp only [Topo.bind_eq_ok_iff] at h
      obtain ⟨call, _, h⟩ := h
      have hu := hupdate _ (Except.ok.inj h)
      exact ⟨index, hclient, by rw [hid, ← hu], by rw [hfms, ← hu]⟩

/-- With at least one argument, a match list is empty only if an argument is a wildcard. -/
theorem nameable_of_encodeMatch
    {info : P4Info} (hinfo : WellFormedInfo info) {table : Table} (htable : table ∈ info.tables)
    {args : OrderedDict String PyValue} (hargs : args.entries ≠ []) {fms : List FieldMatch}
    (h : encodeMatch (.ofP4Info info) table.name args = .ok fms) :
    Nameable table fms := by
  by_cases hempty : fms = []
  · subst hempty
    have hwf := hinfo.fields table htable
    obtain ⟨_, _, hloop⟩ := (encodeMatch_eq_ok (tablesByName_of_mem hinfo htable)).mp h
    obtain ⟨⟨name, value⟩, rest, hcons⟩ := List.exists_cons_of_ne_nil hargs
    have hitem : (name, value) ∈ args.entries := by simp [hcons]
    obtain ⟨mf, encoded, hget, hencode, hout⟩ := encodeFields_mem hloop hitem
    have hmf := ((get?_fieldsByName hwf.names name mf).mp hget).1
    cases encoded with
    | none => exact Or.inr ⟨mf, hmf, matchType_of_wildcard hencode⟩
    | some t => exact absurd (hout t rfl) (by simp)
  · exact Or.inl hempty

/-- Whatever line is dispatched, the request that a switch sends is for a nameable entry. -/
theorem nameable_of_dispatch
    {network : RunningNetwork} {switch : String} {client : ClientView} {info : P4Info}
    {table : Table} {line : Text} (update : Update)
    (hswitch : network.switches.get? switch = some client)
    (hindex : client.index = some (.ofP4Info info))
    (hinfo : WellFormedInfo info) (htable : table ∈ info.tables)
    (hid : update.tableEntry.tableId = table.id)
    (h : dispatch network line = .ok (.sent switch (writeRequest client update))) :
    Nameable table update.tableEntry.fieldMatches := by
  obtain ⟨client', hclient', name, args, action, params, priority, updateType, hargs, hwrite⟩ :=
    builtFromPairs_of_dispatch h
  obtain rfl := Option.some.inj (hclient'.symm.trans hswitch)
  obtain ⟨index, hindex', htableId, hmatch⟩ := lookups_of_writeEntry hwrite
  obtain rfl := Option.some.inj (hindex'.symm.trans hindex)
  obtain ⟨found, hfound, hfoundId⟩ : ∃ t, (P4InfoIndex.ofP4Info info).tablesByName.get? name =
      some t ∧ t.id = update.tableEntry.tableId := by
    unfold tableId at htableId
    cases hget : (P4InfoIndex.ofP4Info info).tablesByName.get? name with
    | none =>
        rw [hget] at htableId
        cases htableId
    | some t =>
        rw [hget] at htableId
        exact ⟨t, rfl, Except.ok.inj htableId⟩
  have hmem := OrderedDict.mem_of_mem_ofList ((OrderedDict.get?_eq_some_iff _ _ _).mp hfound)
  obtain ⟨t, ht, hpair⟩ := List.mem_map.mp hmem
  obtain ⟨rfl, rfl⟩ := Prod.mk.inj hpair
  obtain rfl := List.inj_on_of_nodup_map hinfo.tableIds ht htable (hfoundId.trans hid)
  exact nameable_of_encodeMatch hinfo htable hargs hmatch

/--
A nameable entry is sent by its line of `table add`, and its key by its line of `table del`.
No line at all sends another entry or its key.
-/
theorem tableLines_correct
    (network : RunningNetwork) (switch : String) (client : ClientView) (info : P4Info)
    (table : Table) (entry : TableEntry)
    (hswitch : network.switches.get? switch = some client)
    (hcommand : switch.toList ∉ topLevelCommands)
    (hconnected : client.isConnected = true)
    (hindex : client.index = some (.ofP4Info info))
    (hinfo : WellFormedInfo info) (hnames : PlainNames info)
    (htable : table ∈ info.tables) (hid : entry.tableId = table.id)
    (hentry : WellFormedEntry info entry) :
    let key : TableEntry :=
      { tableId := entry.tableId
        fieldMatches := entry.fieldMatches
        priority := entry.priority }
    (Nameable table entry.fieldMatches →
      (∃ action ∈ info.actions, ∃ call,
        dispatch network (addLine switch table entry.fieldMatches action call entry.priority) =
          .ok (.sent switch (writeRequest client ⟨.insert, entry⟩))) ∧
      dispatch network (delLine switch table entry.fieldMatches entry.priority) =
        .ok (.sent switch (writeRequest client ⟨.delete, key⟩))) ∧
    (¬ Nameable table entry.fieldMatches → ∀ line,
      dispatch network line ≠ .ok (.sent switch (writeRequest client ⟨.insert, entry⟩)) ∧
      dispatch network line ≠ .ok (.sent switch (writeRequest client ⟨.delete, key⟩))) := by
  intro key
  obtain ⟨table', htable', hid', hmatch, hpriority⟩ := hentry.table
  obtain rfl := List.inj_on_of_nodup_map hinfo.tableIds htable' htable (hid'.trans hid)
  refine ⟨fun hname => ⟨?_, ?_⟩, fun hnot line => ⟨fun h => ?_, fun h => ?_⟩⟩
  · obtain ⟨action, haction, call, hcall, hcid, hfits⟩ := hentry.action
    refine ⟨action, haction, call, ?_⟩
    have hself : ({ tableId := table'.id
                    fieldMatches := entry.fieldMatches
                    action := some (.action call)
                    priority := entry.priority } : TableEntry) = entry := by
      rw [hid', ← hcall, ← hentry.otherFields]
    rw [dispatch_addLine hswitch hcommand hconnected hindex hinfo hnames htable hmatch hpriority
      hname haction hcid hfits, hself]
  · rw [dispatch_delLine hswitch hcommand hconnected hindex hinfo hnames htable hmatch hpriority
      hname, hid']
  · exact hnot (nameable_of_dispatch ⟨.insert, entry⟩ hswitch hindex hinfo htable hid h)
  · exact hnot (nameable_of_dispatch ⟨.delete, key⟩ hswitch hindex hinfo htable hid h)

/-- A route that matches everything, in a table with two fields for which that can be written. -/
theorem tableLines_correct_everything :
    let table : Table :=
      ⟨33, "MyIngress.route", [⟨1, "hdr.ipv4.dstAddr", 32, .lpm⟩, ⟨2, "meta.port", 9, .range⟩]⟩
    let info : P4Info := ⟨[table], [⟨16, "MyIngress.forward", [⟨1, "port", 9⟩]⟩]⟩
    let client : ClientView := ⟨0, 0, 1, none, true, some (.ofP4Info info)⟩
    let network : RunningNetwork := ⟨["h1"], .ofList [("s1", client)], by decide⟩
    let entry : TableEntry :=
      { tableId := 33, action := some (.action ⟨16, [⟨1, [3]⟩]⟩), priority := 10 }
    (∃ action ∈ info.actions, ∃ call,
      dispatch network (addLine "s1" table [] action call 10) =
        .ok (.sent "s1" (writeRequest client ⟨.insert, entry⟩))) ∧
    dispatch network (delLine "s1" table [] 10) =
      .ok (.sent "s1" (writeRequest client ⟨.delete, { tableId := 33, priority := 10 }⟩)) := by
  intro table info client network entry
  have hinfo : WellFormedInfo info := by
    refine ⟨by decide, by decide, ?_, by decide, by decide, by decide, by decide, by decide⟩
    intro t ht
    obtain rfl := List.mem_singleton.mp ht
    exact ⟨by decide, by decide, by decide⟩
  have hmatch : WellFormedMatch table [] := ⟨by decide, by simp, by decide⟩
  have hentry : WellFormedEntry info entry := by
    refine ⟨⟨table, by decide, rfl, hmatch, by decide, by decide⟩, ?_, rfl⟩
    exact ⟨_, List.mem_singleton.mpr rfl, _, rfl, rfl,
      List.Forall₂.cons ⟨rfl, by decide⟩ List.Forall₂.nil⟩
  have hnames : PlainNames info := ⟨by decide, by decide, by decide, by decide⟩
  refine (tableLines_correct network "s1" client info table entry rfl (by decide) rfl rfl hinfo
    hnames (by decide) rfl hentry).1 ?_
  exact Or.inr ⟨⟨1, "hdr.ipv4.dstAddr", 32, .lpm⟩, by decide, Or.inl rfl⟩

/-- The client installs an entry that leaves an optional field out, and no line does. -/
theorem no_line_for_optional_wildcard :
    let table : Table := ⟨33, "MyIngress.acl", [⟨1, "hdr.ipv4.protocol", 8, .optional⟩]⟩
    let info : P4Info := ⟨[table], [⟨16, "MyIngress.drop", []⟩]⟩
    let client : ClientView := ⟨0, 0, 1, none, true, some (.ofP4Info info)⟩
    let network : RunningNetwork := ⟨["h1"], .ofList [("s1", client)], by decide⟩
    let entry : TableEntry :=
      { tableId := 33, action := some (.action ⟨16, []⟩), priority := 10 }
    table.matchFields ≠ [] ∧ PlainNames info ∧ WellFormedInfo info ∧ WellFormedEntry info entry ∧
      writeEntry client "MyIngress.acl" .empty (some "MyIngress.drop") none (.int 10) .insert =
        .ok (writeRequest client ⟨.insert, entry⟩) ∧
      ∀ line,
        dispatch network line ≠ .ok (.sent "s1" (writeRequest client ⟨.insert, entry⟩)) ∧
        dispatch network line ≠ .ok (.sent "s1"
          (writeRequest client ⟨.delete, { tableId := 33, priority := 10 }⟩)) := by
  intro table info client network entry
  have hinfo : WellFormedInfo info := by
    refine ⟨by decide, by decide, ?_, by decide, by decide, by decide, by decide, by decide⟩
    intro t ht
    obtain rfl := List.mem_singleton.mp ht
    exact ⟨by decide, by decide, by decide⟩
  have hmatch : WellFormedMatch table [] := ⟨by decide, by simp, by decide⟩
  have hentry : WellFormedEntry info entry := by
    refine ⟨⟨table, by decide, rfl, hmatch, by decide, by decide⟩, ?_, rfl⟩
    exact ⟨_, List.mem_singleton.mpr rfl, _, rfl, rfl, List.Forall₂.nil⟩
  have hnames : PlainNames info := ⟨by decide, by decide, by decide, by decide⟩
  have hswitch : network.switches.get? "s1" = some client := rfl
  have hnot : ¬ Nameable table [] := by decide
  refine ⟨by decide, hnames, hinfo, hentry, by decide, fun line => ⟨fun h => ?_, fun h => ?_⟩⟩
  · exact hnot (nameable_of_dispatch ⟨.insert, entry⟩ hswitch rfl hinfo (by decide) rfl h)
  · exact hnot (nameable_of_dispatch ⟨.delete, { tableId := 33, priority := 10 }⟩ hswitch rfl hinfo
      (by decide) rfl h)

end Cli
end P4Net

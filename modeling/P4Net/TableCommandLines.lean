import P4Net.CommandDispatch
import P4Net.MatchTexts

/-!
# Table entries on the command line

Which entries of a table `<switch> table add` and `<switch> table del` can write.

* `addLine`, `delLine` : a command line for an entry.
* `Nameable` : the entry has a match, or its table has a field that can be written as a
  wildcard.
* `dispatch_addLine`, `dispatch_delLine` : the lines of a nameable entry send the entry and its
  key.
-/

namespace P4Net
namespace Cli

open TextLiterals BigEndian P4InfoIndex TableEntries

/-! ### Command lines -/

/-- The fields that a line for a match list names, with the numbers of their values. -/
def namedFields (table : Table) (fms : List FieldMatch) : List (MatchField × Nat × Nat) :=
  if fms = [] then
    -- Without a match, the first field that has one is written as a wildcard.
    (table.matchFields.findSome? fun mf => (wildcardNumbers mf).map fun n => (mf, n)).toList
  else
    fms.filterMap fun fm =>
      match (fieldsById table).get? fm.fieldId, fm.fieldMatchType with
      | some mf, some t => some (mf, numbersOf t)
      | _, _ => none

/-- `<field>=<value>`. -/
def fieldPair (field : MatchField × Nat × Nat) : Text × Text :=
  (field.1.name.toList, fieldText field.1.matchType field.2)

/-- `<param>=<value>`. -/
def paramPair (param : ActionParam × ParamValue) : Text × Text :=
  (param.1.name.toList, hexText (fromBytes param.2.value))

/-- `match: ...`. -/
def matchSection (table : Table) (fms : List FieldMatch) : Text × List Text :=
  (matchName, ((namedFields table fms).map fieldPair).map pairToken)

/-- `params: ...`, unless the action has none. -/
def paramsSection (action : ActionInfo) (call : ActionCall) : List (Text × List Text) :=
  if action.params = [] then []
  else [(paramsName, ((action.params.zip call.params).map paramPair).map pairToken)]

/-- `priority: <n>`, unless it is zero. -/
def prioritySection (priority : Int) : List (Text × List Text) :=
  if priority = 0 then [] else [(priorityName, [Nat.toDigits 10 priority.toNat])]

/-- The sections of an insertion. -/
def addSections (table : Table) (fms : List FieldMatch) (action : ActionInfo) (call : ActionCall)
    (priority : Int) : List (Text × List Text) :=
  matchSection table fms :: (actionName, [action.name.toList]) ::
    (paramsSection action call ++ prioritySection priority)

/-- The sections of a deletion. -/
def delSections (table : Table) (fms : List FieldMatch) (priority : Int) :
    List (Text × List Text) :=
  matchSection table fms :: prioritySection priority

/-- `<sw> table add <table> match: ... action: ... [params: ...] [priority: n]`. -/
def addLine (switch : String) (table : Table) (fms : List FieldMatch) (action : ActionInfo)
    (call : ActionCall) (priority : Int) : Text :=
  tableLine switch.toList "add".toList table.name.toList
    (addSections table fms action call priority)

/-- `<sw> table del <table> match: ... [priority: n]`. -/
def delLine (switch : String) (table : Table) (fms : List FieldMatch) (priority : Int) : Text :=
  tableLine switch.toList "del".toList table.name.toList (delSections table fms priority)

/-- No white space, separator or quoting character occurs in the name. -/
def PlainName (name : String) : Prop :=
  ∀ c ∈ name.toList, isSpace c = false ∧ c ∉ [',', '=', ':', '\'', '"', '\\']

instance (name : String) : Decidable (PlainName name) :=
  inferInstanceAs (Decidable (∀ _ ∈ _, _))

/-- The names of a P4Info are plain, and those of fields and parameters are not empty. -/
structure PlainNames (info : P4Info) : Prop where
  tables : ∀ table ∈ info.tables, PlainName table.name
  fields : ∀ table ∈ info.tables, ∀ mf ∈ table.matchFields, PlainName mf.name ∧ mf.name ≠ ""
  actions : ∀ action ∈ info.actions, PlainName action.name
  params : ∀ action ∈ info.actions, ∀ p ∈ action.params, PlainName p.name ∧ p.name ≠ ""

/-- Some field can be named in a line for the match list. -/
def Nameable (table : Table) (fms : List FieldMatch) : Prop :=
  fms ≠ [] ∨ ∃ mf ∈ table.matchFields,
    mf.matchType = .lpm ∨ mf.matchType = .ternary ∨ mf.matchType = .range

instance (table : Table) (fms : List FieldMatch) : Decidable (Nameable table fms) :=
  inferInstanceAs (Decidable (_ ∨ _))

example :
    let table : Table := ⟨1, "t", [⟨1, "dst", 32, .lpm⟩, ⟨2, "port", 9, .range⟩]⟩
    addLine "s1" table [⟨2, some (.range [1] [1, 0])⟩] ⟨7, "fwd", [⟨1, "port", 9⟩]⟩
      ⟨7, [⟨1, [3]⟩]⟩ 10 =
      "s1 table add t match: port=0x1..0x100 action: fwd params: port=0x3 priority: 10".toList := by
  decide

/-! ### The fields of a line -/

/-- The argument of a named field. -/
def fieldItem (field : MatchField × Nat × Nat) : String × PyValue :=
  (field.1.name, fieldValue field.1.matchType field.2)

/-- The fields of a match list decode to it, one by one. -/
theorem forall₂_namedFields
    {table : Table} (hwf : WellFormedFields table)
    {fms : List FieldMatch}
    (hdecl : ∀ fm ∈ fms, ∃ mf ∈ table.matchFields, mf.id = fm.fieldId ∧
      ∃ t, fm.fieldMatchType = some t ∧ CanonicalMatch mf t) :
    ∃ fields, (fms.filterMap fun fm =>
        match (fieldsById table).get? fm.fieldId, fm.fieldMatchType with
        | some mf, some t => some (mf, numbersOf t)
        | _, _ => none) = fields ∧
      List.Forall₂ (DecodesTo table) fms (fields.map fieldItem) ∧
      ∀ field ∈ fields, field.1 ∈ table.matchFields := by
  induction fms with
  | nil => exact ⟨[], rfl, List.Forall₂.nil, by simp⟩
  | cons fm rest ih =>
      obtain ⟨mf, hmem, hid, t, ht, hcan⟩ := hdecl fm (by simp)
      obtain ⟨fields, hfields, hdec, hall⟩ :=
        ih fun fm' hfm' => hdecl fm' (List.mem_cons_of_mem _ hfm')
      have hget : (fieldsById table).get? fm.fieldId = some mf :=
        hid ▸ OrderedDict.get?_ofList_map hwf.ids hmem
      refine ⟨(mf, numbersOf t) :: fields, ?_, List.Forall₂.cons ?_ hdec, ?_⟩
      · rw [List.filterMap_cons, hget, ht, hfields]
      · exact ⟨mf, hmem, hid, rfl, t, ht, encodeField_numbersOf (hwf.bitwidths mf hmem) hcan⟩
      · intro field hfield
        rcases List.mem_cons.mp hfield with rfl | hfield
        · exact hmem
        · exact hall field hfield

/-- What the fields of a line have to satisfy. -/
structure FieldsOk (info : P4Info) (table : Table) (fms : List FieldMatch)
    (fields : List (MatchField × Nat × Nat)) : Prop where
  nonempty : fields ≠ []
  declared : ∀ field ∈ fields, field.1 ∈ table.matchFields
  distinct : ((fields.map fieldItem).map Prod.fst).Nodup
  encoded : encodeMatch (.ofP4Info info) table.name (.ofList (fields.map fieldItem)) = .ok fms

/-- The wildcard of a table encodes to no match. -/
theorem wildcard_fieldsOk
    {info : P4Info} (hinfo : WellFormedInfo info)
    {table : Table} (htable : table ∈ info.tables) (h : WellFormedMatch table [])
    {mf : MatchField} (hmf : mf ∈ table.matchFields)
    {numbers : Nat × Nat} (hnumbers : wildcardNumbers mf = some numbers) :
    FieldsOk info table [] [(mf, numbers)] := by
  have hwf := hinfo.fields table htable
  have hget := (get?_fieldsByName hwf.names mf.name mf).mpr ⟨hmf, rfl⟩
  refine ⟨by simp, by simpa using hmf, by simp, ?_⟩
  refine (encodeMatch_eq_ok (tablesByName_of_mem hinfo htable)).mpr ⟨?_, ?_, ?_⟩
  · intro key hkey
    obtain rfl : key = mf.name := by
      simpa [fieldItem] using (OrderedDict.mem_keys_ofList _ _).mp hkey
    exact OrderedDict.mem_keys_of_get? hget
  · intro mf' hmf' hexact
    obtain ⟨fm, hfm, -⟩ := h.exact mf' hmf' hexact
    cases hfm
  · have hencode := encodeField_wildcard (hwf.bitwidths mf hmf) hnumbers
    rw [OrderedDict.ofList_entries (by simp)]
    simp [encodeFields, fieldItem, hget, hencode, liftEncoding, bind, Except.bind]

/-- The fields of a nameable match list encode to it. -/
theorem namedFields_ok
    {info : P4Info} (hinfo : WellFormedInfo info)
    {table : Table} (htable : table ∈ info.tables)
    {fms : List FieldMatch} (h : WellFormedMatch table fms) (hname : Nameable table fms) :
    FieldsOk info table fms (namedFields table fms) := by
  unfold namedFields
  by_cases hempty : fms = []
  · subst hempty
    rw [if_pos rfl]
    cases hfind : table.matchFields.findSome? fun mf => (wildcardNumbers mf).map fun n => (mf, n) with
    | none =>
        obtain ⟨mf, hmf, hkind⟩ := hname.resolve_left fun hne => hne rfl
        have hnone := List.findSome?_eq_none_iff.mp hfind mf hmf
        rcases hkind with hkind | hkind | hkind <;> simp [wildcardNumbers, hkind] at hnone
    | some field =>
        obtain ⟨mf, hmf, hfield⟩ := List.exists_of_findSome?_eq_some hfind
        obtain ⟨numbers, hnumbers, rfl⟩ := Option.map_eq_some_iff.mp hfield
        exact wildcard_fieldsOk hinfo htable h hmf hnumbers
  · rw [if_neg hempty]
    have hwf := hinfo.fields table htable
    obtain ⟨fields, hfields, hdec, hall⟩ := forall₂_namedFields hwf h.declared
    rw [hfields]
    refine ⟨?_, hall, DecodesTo.keys_nodup hwf hdec h.once,
      encodeMatch_of_decodesTo hinfo htable h hdec⟩
    rintro rfl
    exact hempty (List.forall₂_nil_right_iff.mp hdec)

/-! ### What the dispatcher makes of the fields -/

/-- The kind of a field of the only table with its name. -/
theorem get?_fieldKinds
    {info : P4Info} (hinfo : WellFormedInfo info)
    {table : Table} (htable : table ∈ info.tables) {mf : MatchField} (hmf : mf ∈ table.matchFields) :
    (fieldKinds (.ofP4Info info) table.name).get? mf.name = some mf.matchType := by
  have hfilter : info.tables.filter (fun t => t.name = table.name) = [table] := by
    have hsame : ∀ t ∈ info.tables, (decide (t.name = table.name)) = (decide (t = table)) := by
      intro t ht
      have hiff : t.name = table.name ↔ t = table :=
        ⟨fun heq => List.inj_on_of_nodup_map hinfo.tableNames ht htable heq, fun heq => heq ▸ rfl⟩
      simp [hiff]
    rw [List.filter_congr hsame, List.filter_eq,
      List.count_eq_one_of_mem (List.Nodup.of_map _ hinfo.tableNames) htable]
    rfl
  have hraw : (P4InfoIndex.ofP4Info info).raw.tables = info.tables := rfl
  have hkeys : ((table.matchFields.map fun mf => (mf.name, mf.matchType)).map Prod.fst).Nodup := by
    simpa [List.map_map, Function.comp_def] using (hinfo.fields table htable).names
  rw [fieldKinds, hraw, hfilter, List.flatMap_singleton,
    OrderedDict.get?_ofList_eq_some_iff hkeys]
  exact List.mem_map.mpr ⟨mf, hmf, rfl⟩

theorem toList_injective : Function.Injective String.toList := fun _ _ h =>
  String.toList_inj.mp h

/-- Distinct names are distinct keys of pairs. -/
theorem nodup_map_toList
    {names : List String} (h : names.Nodup) :
    (names.map String.toList).Nodup :=
  h.map toList_injective

theorem FieldsOk.keys
    {info : P4Info} {table : Table} {fms : List FieldMatch}
    {fields : List (MatchField × Nat × Nat)} (h : FieldsOk info table fms fields) :
    ((fields.map fieldPair).map Prod.fst).Nodup := by
  have hmap : (fields.map fieldPair).map Prod.fst =
      ((fields.map fieldItem).map Prod.fst).map String.toList := by
    simp [List.map_map, Function.comp_def, fieldPair, fieldItem]
  rw [hmap]
  exact nodup_map_toList h.distinct

/-- The pairs of the fields are read as their arguments. -/
theorem parseTableMatch_fields
    {info : P4Info} (hinfo : WellFormedInfo info)
    {table : Table} (htable : table ∈ info.tables)
    {fms : List FieldMatch} {fields : List (MatchField × Nat × Nat)}
    (h : FieldsOk info table fms fields) :
    parseTableMatch (.ofP4Info info) table.name.toList (.ofList (fields.map fieldPair)) =
      .ok (.ofList (fields.map fieldItem)) := by
  have hitems : (fields.map fieldPair).mapM
      (typedItem (fieldKinds (.ofP4Info info) table.name) table.name.toList) =
        .ok (fields.map fieldItem) := by
    rw [Topo.mapM_eq_ok_iff, List.forall₂_map_left_iff, List.forall₂_map_right_iff,
      List.forall₂_same]
    intro field hfield
    exact typedItem_fieldText (get?_fieldKinds hinfo htable (h.declared field hfield)) _ _
  rw [parseTableMatch, OrderedDict.ofList_entries h.keys, String.ofList_toList, hitems]
  rfl

/-- A plain name that is not empty and a plain value are a pair. -/
theorem pairOk_of_plain
    {name : String} {value : Text} (hname : PlainName name ∧ name ≠ "")
    (hvalue : ∀ c ∈ value, isSpace c = false ∧ c ≠ ',') :
    PairOk (name.toList, value) where
  nonempty := fun hnil => hname.2 (toList_injective hnil)
  key := fun c hc => by
    obtain ⟨hspace, hnot⟩ := hname.1 c hc
    exact ⟨hspace, fun heq => hnot (by simp [heq]), fun heq => hnot (by simp [heq])⟩
  value := hvalue

/-- The match section is read as the pairs of the fields. -/
theorem parseKvPairs_fields
    {info : P4Info} (hnames : PlainNames info) {table : Table} (htable : table ∈ info.tables)
    {fms : List FieldMatch} {fields : List (MatchField × Nat × Nat)}
    (h : FieldsOk info table fms fields) :
    parseKvPairs ((fields.map fieldPair).map pairToken) = .ok (.ofList (fields.map fieldPair)) := by
  refine parseKvPairs_of_tokens (by simpa using h.nonempty) (fun pair hpair => ?_) h.keys
  obtain ⟨field, hfield, rfl⟩ := List.mem_map.mp hpair
  exact pairOk_of_plain (hnames.fields table htable field.1 (h.declared field hfield))
    fun c hc => plain_of_mem_fieldText hc

/-! ### Parameters -/

/-- The pairs of the parameters of a call, if there are any. -/
def paramPairs (action : ActionInfo) (call : ActionCall) : Option (OrderedDict Text Text) :=
  if action.params = [] then none
  else some (.ofList ((action.params.zip call.params).map paramPair))

theorem zip_ne_nil
    {ps : List ActionParam} {values : List ParamValue} (h : List.Forall₂ ParamFits ps values)
    (hne : ps ≠ []) :
    ps.zip values ≠ [] := by
  intro hnil
  have hlength := congrArg List.length (List.map_fst_zip h.length_eq.le)
  rw [hnil] at hlength
  exact hne (List.length_eq_zero_iff.mp hlength.symm)

section Params

variable {info : P4Info} (hinfo : WellFormedInfo info)
variable {action : ActionInfo} (haction : action ∈ info.actions)
variable {call : ActionCall} (hfits : List.Forall₂ ParamFits action.params call.params)
include hinfo haction hfits

theorem paramKeys_nodup :
    (((action.params.zip call.params).map paramPair).map Prod.fst).Nodup := by
  have hmap : ((action.params.zip call.params).map paramPair).map Prod.fst =
      (action.params.map ActionParam.name).map String.toList := by
    rw [← map_name_zip hfits]
    simp [List.map_map, Function.comp_def, paramPair]
  rw [hmap]
  exact nodup_map_toList (hinfo.paramNames action haction)

/-- The section of the parameters is read as their pairs. -/
theorem parseParams_section
    (hnames : PlainNames info) :
    parseParams (if action.params = [] then none
      else some (((action.params.zip call.params).map paramPair).map pairToken)) =
        .ok (paramPairs action call) := by
  unfold paramPairs
  by_cases hne : action.params = []
  · rw [if_pos hne, if_pos hne]
    rfl
  · have hok : ∀ pair ∈ (action.params.zip call.params).map paramPair, PairOk pair := by
      intro pair hpair
      obtain ⟨param, hparam, rfl⟩ := List.mem_map.mp hpair
      exact pairOk_of_plain (hnames.params action haction _ (List.of_mem_zip hparam).1)
        fun c hc => (plain_of_mem_hexText hc).imp_right fun hnot heq => hnot (by simp [heq])
    have hpairs := parseKvPairs_of_tokens (by simpa using zip_ne_nil hfits hne) hok
      (paramKeys_nodup hinfo haction hfits)
    rw [if_neg hne, if_neg hne, parseParams, hpairs]
    rfl

/-- The pairs of the parameters encode to the call. -/
theorem encodeAction_pairs
    (hid : call.actionId = action.id) :
    encodeAction (.ofP4Info info) action.name ((paramPairs action call).map asArguments) =
      .ok call := by
  have hitems := encodeAction_of_items hinfo haction hid hfits
    (fun pair => .str (hexText (fromBytes pair.2.value))) fun pair hpair => by
      have hcan : CanonicalBytes pair.1.bitwidth pair.2.value :=
        (List.forall₂_zip hfits (a := pair.1) (b := pair.2) hpair).2
      obtain ⟨data, hdata, _, hvalue⟩ := encodeValue_canonicalText
        (hinfo.paramBitwidths action haction _ (List.of_mem_zip (a := pair.1) (b := pair.2) hpair).1)
        hcan
      exact ⟨data, hdata, hvalue⟩
  unfold paramPairs
  by_cases hne : action.params = []
  · rw [hne, List.zip_nil_left] at hitems
    rw [if_pos hne, ← hitems]
    rfl
  · rw [if_neg hne, Option.map_some, asArguments,
      OrderedDict.ofList_entries (paramKeys_nodup hinfo haction hfits), List.map_map, ← hitems]
    simp [Function.comp_def, paramPair]

end Params

/-! ### Sections of a line -/

theorem sectionOk_pairs
    {allowed : List Text} {name : Text} (hallowed : name ∈ allowed)
    (hname : name ∈ [matchName, paramsName]) {pairs : List (Text × Text)} (hne : pairs ≠ []) :
    SectionOk allowed (name, pairs.map pairToken) where
  name := by
    have hplain : ∀ n ∈ [matchName, paramsName], n ≠ [] ∧ '=' ∉ n := by decide
    exact ⟨(hplain name hname).1, (hplain name hname).2, hallowed⟩
  tokens := fun tok htok => by
    obtain ⟨pair, _, rfl⟩ := List.mem_map.mp htok
    exact isMarker_pairToken pair
  nonempty := by simpa using hne

theorem sectionOk_token
    {allowed : List Text} {name : Text} (hallowed : name ∈ allowed)
    (hname : name ∈ [actionName, priorityName]) {tok : Text} (htok : ':' ∉ tok) :
    SectionOk allowed (name, [tok]) where
  name := by
    have hplain : ∀ n ∈ [actionName, priorityName], n ≠ [] ∧ '=' ∉ n := by decide
    exact ⟨(hplain name hname).1, (hplain name hname).2, hallowed⟩
  tokens := fun t ht => by
    obtain rfl := List.mem_singleton.mp ht
    have hlast : t.getLast? ≠ some ':' := fun h => htok (List.mem_of_getLast? h)
    simp [isMarker, hlast]
  nonempty := by simp

theorem colon_not_mem_digits
    (n : Nat) :
    ':' ∉ Nat.toDigits 10 n := fun h =>
  (plain_of_isAlnum (isAlnum_of_mem_toDigits (by decide) (by decide) h)).2.2 (by simp)

/-- The priority of an entry, as the option of a command. -/
def priorityOption (priority : Int) : Option Int := if priority = 0 then none else some priority

/-- The priority section is read as the priority. -/
theorem parsePriority_section
    {priority : Int} (h : 0 ≤ priority) :
    parsePriority (if priority = 0 then none else some [Nat.toDigits 10 priority.toNat]) =
      .ok (priorityOption priority) := by
  unfold priorityOption
  by_cases hzero : priority = 0
  · rw [if_pos hzero, if_pos hzero]
    rfl
  · rw [if_neg hzero, if_neg hzero, parsePriority, parseInt_toDigits, Int.toNat_of_nonneg h]

theorem sectionOk_params
    {allowed : List Text} (hallowed : paramsName ∈ allowed) {action : ActionInfo}
    {call : ActionCall} (hfits : List.Forall₂ ParamFits action.params call.params) :
    ∀ e ∈ paramsSection action call, SectionOk allowed e := by
  intro e he
  unfold paramsSection at he
  by_cases hne : action.params = []
  · rw [if_pos hne] at he
    cases he
  · rw [if_neg hne, List.mem_singleton] at he
    exact he ▸ sectionOk_pairs hallowed (by simp) (by simpa using zip_ne_nil hfits hne)

theorem sectionOk_priority
    {allowed : List Text} (hallowed : priorityName ∈ allowed) (priority : Int) :
    ∀ e ∈ prioritySection priority, SectionOk allowed e := by
  intro e he
  unfold prioritySection at he
  by_cases hzero : priority = 0
  · rw [if_pos hzero] at he
    cases he
  · rw [if_neg hzero, List.mem_singleton] at he
    exact he ▸ sectionOk_token hallowed (by simp) (colon_not_mem_digits _)

theorem names_nodup : [matchName, actionName, paramsName, priorityName].Nodup := by decide

/-- The sections of a deletion, by their names. -/
theorem get?_delSections
    (table : Table) (fms : List FieldMatch) (priority : Int) :
    ((delSections table fms priority).map Prod.fst).Nodup ∧
      entryLookup matchName (delSections table fms priority) =
        some (matchSection table fms).2 ∧
      entryLookup priorityName (delSections table fms priority) =
        if priority = 0 then none else some [Nat.toDigits 10 priority.toNat] := by
  have hnames := names_nodup
  simp only [List.nodup_cons, List.mem_cons, List.not_mem_nil, or_false, not_or] at hnames
  by_cases hzero : priority = 0
  · simp [delSections, matchSection, prioritySection, hzero, entryLookup, hnames]
  · simp [delSections, matchSection, prioritySection, hzero, entryLookup, hnames]

/-- The sections of an insertion, by their names. -/
theorem get?_addSections
    (table : Table) (fms : List FieldMatch) (action : ActionInfo) (call : ActionCall)
    (priority : Int) :
    ((addSections table fms action call priority).map Prod.fst).Nodup ∧
      entryLookup matchName (addSections table fms action call priority) =
        some (matchSection table fms).2 ∧
      entryLookup actionName (addSections table fms action call priority) =
        some [action.name.toList] ∧
      entryLookup paramsName (addSections table fms action call priority) =
        (if action.params = [] then none
          else some (((action.params.zip call.params).map paramPair).map pairToken)) ∧
      entryLookup priorityName (addSections table fms action call priority) =
        if priority = 0 then none else some [Nat.toDigits 10 priority.toNat] := by
  have hnames := names_nodup
  simp only [List.nodup_cons, List.mem_cons, List.not_mem_nil, or_false, not_or] at hnames
  have hback : priorityName ≠ paramsName := by decide
  by_cases hparams : action.params = [] <;> by_cases hzero : priority = 0 <;>
    simp [addSections, matchSection, paramsSection, hparams, prioritySection, hzero, entryLookup,
      hnames, hback]

/-! ### The lines of a nameable entry -/

theorem nonneg_of_priorityFits
    {table : Table} {priority : Int} (h : PriorityFits table priority) :
    0 ≤ priority := by
  unfold PriorityFits at h
  split_ifs at h <;> omega

/-- The arguments that were read are handed to the client. -/
theorem sendEntry_fields
    {info : P4Info} (hinfo : WellFormedInfo info)
    {table : Table} (htable : table ∈ info.tables)
    {fms : List FieldMatch} {fields : List (MatchField × Nat × Nat)}
    (h : FieldsOk info table fms fields)
    {client : ClientView} (hindex : client.index = some (.ofP4Info info))
    (action : Option Text) (params : Option (OrderedDict Text Text)) {priority : Int}
    {updateType : UpdateType} {request : WriteRequest}
    (hwrite : writeEntry client table.name (.ofList (fields.map fieldItem))
      (action.map String.ofList) (params.map asArguments)
      (if priority = 0 then .none else .int priority) updateType = .ok request)
    (switch : String) :
    sendEntry switch client table.name.toList (.ofList (fields.map fieldPair)) action params
      (priorityOption priority) updateType = .ok (.sent switch request) := by
  have hpriority : priorityArg (priorityOption priority) =
      if priority = 0 then .none else .int priority := by
    unfold priorityOption
    by_cases hzero : priority = 0
    · rw [if_pos hzero, if_pos hzero]
      rfl
    · rw [if_neg hzero, if_neg hzero]
      rfl
  simp only [sendEntry, hindex, parseTableMatch_fields hinfo htable h, String.ofList_toList, bind,
    Except.bind, hpriority, hwrite]

section Lines

variable {network : RunningNetwork} {switch : String} {client : ClientView} {info : P4Info}
variable {table : Table} {fms : List FieldMatch} {priority : Int}
variable (hswitch : network.switches.get? switch = some client)
variable (hcommand : switch.toList ∉ topLevelCommands)
variable (hconnected : client.isConnected = true)
variable (hindex : client.index = some (.ofP4Info info))
variable (hinfo : WellFormedInfo info) (hnames : PlainNames info)
variable (htable : table ∈ info.tables)
variable (hmatch : WellFormedMatch table fms) (hpriority : PriorityFits table priority)
variable (hname : Nameable table fms)
include hswitch hcommand hconnected hindex hinfo hnames htable hmatch hpriority hname

/-- The line for the key of a nameable entry sends the key. -/
theorem dispatch_delLine :
    dispatch network (delLine switch table fms priority) =
      .ok (.sent switch (writeRequest client ⟨.delete,
        { tableId := table.id, fieldMatches := fms, priority := priority }⟩)) := by
  have hfields := namedFields_ok hinfo htable hmatch hname
  have hsections : ∀ e ∈ delSections table fms priority,
      SectionOk [matchName, priorityName] e := by
    intro e he
    rcases List.mem_cons.mp he with rfl | he
    · exact sectionOk_pairs (by simp) (by simp) (by simpa using hfields.nonempty)
    · exact sectionOk_priority (by simp) priority e he
  obtain ⟨hnodup, hmatchTokens, hpriorityTokens⟩ := get?_delSections table fms priority
  have hpairs : parseKvPairs (matchSection table fms).2 =
      .ok (.ofList ((namedFields table fms).map fieldPair)) :=
    parseKvPairs_fields hnames htable hfields
  obtain ⟨hid, hrequired⟩ := writeEntry_steps hinfo htable
  have hclient := requireConnected_ok hindex hconnected
  have hwrite : writeEntry client table.name (.ofList ((namedFields table fms).map fieldItem)) none
      none (if priority = 0 then .none else .int priority) .delete =
        .ok (writeRequest client ⟨.delete,
          { tableId := table.id, fieldMatches := fms, priority := priority }⟩) := by
    simp only [writeEntry, hclient, hid, hrequired, checkPriority_decoded hpriority,
      hfields.encoded, liftEncoding, bind, Except.bind]
  have hsend := sendEntry_fields hinfo htable hfields hindex none none hwrite switch
  rw [delLine, dispatch_tableLine hswitch hcommand, cmdSwitchTable_del]
  simp only [tableDel, parseSections_of_tokens hsections hnodup, OrderedDict.get?_ofList hnodup,
    hmatchTokens, hpriorityTokens, hpairs,
    parsePriority_section (nonneg_of_priorityFits hpriority), bind, Except.bind, hsend]

/-- The line for a nameable entry sends the entry. -/
theorem dispatch_addLine
    {action : ActionInfo} (haction : action ∈ info.actions)
    {call : ActionCall} (hcall : call.actionId = action.id)
    (hfits : List.Forall₂ ParamFits action.params call.params) :
    dispatch network (addLine switch table fms action call priority) =
      .ok (.sent switch (writeRequest client ⟨.insert,
        { tableId := table.id
          fieldMatches := fms
          action := some (.action call)
          priority := priority }⟩)) := by
  have hfields := namedFields_ok hinfo htable hmatch hname
  have hcolon : ':' ∉ action.name.toList := fun hmem =>
    (hnames.actions action haction _ hmem).2 (by simp)
  have hsections : ∀ e ∈ addSections table fms action call priority,
      SectionOk [actionName, matchName, paramsName, priorityName] e := by
    intro e he
    rcases List.mem_cons.mp he with rfl | he
    · exact sectionOk_pairs (by simp) (by simp) (by simpa using hfields.nonempty)
    rcases List.mem_cons.mp he with rfl | he
    · exact sectionOk_token (by simp) (by simp) hcolon
    rcases List.mem_append.mp he with he | he
    · exact sectionOk_params (by simp) hfits e he
    · exact sectionOk_priority (by simp) priority e he
  obtain ⟨hnodup, hmatchTokens, hactionTokens, hparamsTokens, hpriorityTokens⟩ :=
    get?_addSections table fms action call priority
  have hpairs : parseKvPairs (matchSection table fms).2 =
      .ok (.ofList ((namedFields table fms).map fieldPair)) :=
    parseKvPairs_fields hnames htable hfields
  have hparams := parseParams_section hinfo haction hfits hnames
  obtain ⟨hid, hrequired⟩ := writeEntry_steps hinfo htable
  have hclient := requireConnected_ok hindex hconnected
  have hwrite : writeEntry client table.name (.ofList ((namedFields table fms).map fieldItem))
      (some action.name) ((paramPairs action call).map asArguments)
      (if priority = 0 then .none else .int priority) .insert =
        .ok (writeRequest client ⟨.insert,
          { tableId := table.id
            fieldMatches := fms
            action := some (.action call)
            priority := priority }⟩) := by
    simp only [writeEntry, hclient, hid, hrequired, checkPriority_decoded hpriority,
      hfields.encoded, encodeAction_pairs hinfo haction hfits hcall, liftEncoding, bind,
      Except.bind]
  rw [← String.ofList_toList (s := action.name), ← Option.map_some] at hwrite
  have hsend := sendEntry_fields hinfo htable hfields hindex (some action.name.toList) _ hwrite
    switch
  rw [addLine, dispatch_tableLine hswitch hcommand, cmdSwitchTable_add]
  simp only [tableAdd, parseSections_of_tokens hsections hnodup, OrderedDict.get?_ofList hnodup,
    hmatchTokens, hactionTokens, hparamsTokens, hpriorityTokens, hpairs, hparams,
    parsePriority_section (nonneg_of_priorityFits hpriority), bind, Except.bind, hsend]

end Lines

end Cli
end P4Net

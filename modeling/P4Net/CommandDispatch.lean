import P4Net.CommandSections

/-!
# Dispatching a command line

`CommandDispatcher.dispatch` and the handlers of `<switch> table add` and
`<switch> table del`.  The other handlers are named by the path to them.

* `RunningNetwork`, `Reply` : what a command works on, and what comes of it.
* `tableAdd`, `tableDel`, `dispatch` : the handlers and the way to them.
* `dispatch_tableLine` : where the words of a table command end up.
* `builtFromPairs_of_dispatch` : a request that was sent was built from at least one pair.
-/

namespace P4Net
namespace Cli

open TextLiterals TableEntries

/--
The nodes of a `Network` that runs.  `Topology` gives every node a name of its own, so no
host has the name of a switch.
-/
structure RunningNetwork where
  hosts : List String
  switches : OrderedDict String ClientView
  disjoint : ∀ name ∈ hosts, name ∉ switches.keys

/-- What a command does: `sent` is the request that the client of a switch writes. -/
inductive Reply where
  | silent
  | handler (path arguments : List Text)
  | failed (reason : ControlError)
  | sent (switch : String) (request : WriteRequest)
deriving DecidableEq, Repr

/-! ### The handlers of tables -/

/-- Texts as arguments of the client. -/
def asArguments (pairs : OrderedDict Text Text) : OrderedDict String PyValue :=
  .ofList (pairs.entries.map fun e => (String.ofList e.1, .str e.2))

/-- `**kwargs`: the priority is passed on when there is one. -/
def priorityArg : Option Int → PyValue
  | none => .none
  | some n => .int n

/-- The `try` block of both handlers. -/
def sendEntry (switch : String) (client : ClientView) (table : Text)
    (pairs : OrderedDict Text Text) (action : Option Text)
    (params : Option (OrderedDict Text Text)) (priority : Option Int)
    (updateType : UpdateType) : Except UsageError Reply :=
  match client.index with
  | none => .ok (.failed .noPipeline)
  | some index => do
      let typedMatch ← parseTableMatch index table pairs
      match writeEntry client (String.ofList table) typedMatch (action.map String.ofList)
          (params.map asArguments) (priorityArg priority) updateType with
      | .ok request => .ok (.sent switch request)
      | .error reason => .ok (.failed reason)

/-- `_table_add`. -/
def tableAdd (switch : String) (client : ClientView) (tokens : List Text) :
    Except UsageError Reply :=
  match tokens with
  | [] => .error (.missingTable "add".toList)
  | table :: rest => do
      let sections ← parseSections rest [actionName, matchName, paramsName, priorityName]
      match sections.get? matchName, sections.get? actionName with
      | none, _ => .error (.sectionRequired "add".toList matchName)
      | some _, none => .error (.sectionRequired "add".toList actionName)
      | some matchTokens, some actionTokens => do
          let pairs ← parseKvPairs matchTokens
          match actionTokens with
          | [action] => do
              let params ← parseParams (sections.get? paramsName)
              let priority ← parsePriority (sections.get? priorityName)
              sendEntry switch client table pairs (some action) params priority .insert
          | _ => .error (.actionNotSingle actionTokens)

/-- `_table_del`. -/
def tableDel (switch : String) (client : ClientView) (tokens : List Text) :
    Except UsageError Reply :=
  match tokens with
  | [] => .error (.missingTable "del".toList)
  | table :: rest => do
      let sections ← parseSections rest [matchName, priorityName]
      match sections.get? matchName with
      | none => .error (.sectionRequired "del".toList matchName)
      | some matchTokens => do
          let pairs ← parseKvPairs matchTokens
          let priority ← parsePriority (sections.get? priorityName)
          sendEntry switch client table pairs none none priority .delete

/-! ### The way to a handler -/

/-- `_cmd_switch_table`. -/
def cmdSwitchTable (switch : String) (client : ClientView) (tokens : List Text) :
    Except UsageError Reply :=
  match tokens with
  | [] => .error (.missingSubVerb switch.toList)
  | sub :: rest =>
      if sub = "add".toList then tableAdd switch client rest
      else if sub = "del".toList then tableDel switch client rest
      else if sub ∈ ["list".toList, "dump".toList, "clear".toList] then
        .ok (.handler [switch.toList, "table".toList, sub] rest)
      else .error (.unknownSubVerb switch.toList sub)

/-- `_dispatch_switch`. -/
def dispatchSwitch (switch : String) (client : ClientView) (tokens : List Text) :
    Except UsageError Reply :=
  match tokens with
  | [] => .error (.missingVerb switch.toList)
  | verb :: rest =>
      if verb = "table".toList then cmdSwitchTable switch client rest
      else if verb ∈ ["log".toList, "counter".toList, "mcast".toList, "packet".toList] then
        .ok (.handler [switch.toList, verb] rest)
      else .error (.unknownVerb switch.toList verb)

/-- The keys of `_top_level_handlers`. -/
def topLevelCommands : List Text :=
  ["help".toList, "exit".toList, "quit".toList, "status".toList, "hosts".toList,
    "switches".toList, "pingall".toList, "pingall6".toList, "topology".toList]

/-- The handlers by the first token. -/
def dispatchTokens (network : RunningNetwork) : List Text → Except UsageError Reply
  | [] => .ok .silent
  | head :: rest =>
      if head ∈ topLevelCommands then .ok (.handler [head] rest)
      else if String.ofList head ∈ network.hosts then .ok (.handler [head] rest)
      else
        match network.switches.get? (String.ofList head) with
        | some client => dispatchSwitch (String.ofList head) client rest
        | none => .error (.unknownCommand head)

/-- `CommandDispatcher.dispatch`. -/
def dispatch (network : RunningNetwork) (line : Text) : Except UsageError Reply :=
  let stripped := strip line
  if stripped = [] ∨ stripped.head? = some '#' then .ok .silent
  else
    match shellSplit stripped with
    | .error reason => .error (.couldNotParse reason)
    | .ok tokens => dispatchTokens network tokens

/-! ### Lines that were written -/

/-- `<switch> table <verb> <table> <sections>`. -/
def tableLine (switch verb table : Text) (sections : List (Text × List Text)) : Text :=
  shellJoin (switch :: "table".toList :: verb :: table :: sections.flatMap sectionTokens)

/-- A line of words is neither stripped nor a comment. -/
theorem plain_of_isEnd
    {c : Char} (h : IsEnd c) :
    isSpace c = false ∧ c ≠ '#' := by
  have hplain : ∀ n < 128, isSafe (Char.ofNat n) = true ∨ Char.ofNat n = '\'' →
      isSpace (Char.ofNat n) = false ∧ Char.ofNat n ≠ '#' := by
    decide
  have hc := hplain c.toNat (lt_of_isEnd h)
  rw [Char.ofNat_toNat] at hc
  exact hc h

/-- A line of words that is not empty is read as the words. -/
theorem dispatch_shellJoin
    (network : RunningNetwork) {words : List Text} (hne : words ≠ []) :
    dispatch network (shellJoin words) = dispatchTokens network words := by
  obtain ⟨⟨c, hc, hhead⟩, ⟨d, hd, hlast⟩⟩ := ends_shellJoin hne
  have hstrip : strip (shellJoin words) = shellJoin words := by
    refine strip_of_ends (fun b hb => ?_) (fun b hb => ?_)
    · rw [Option.some.inj (hb.symm.trans hc)]
      exact (plain_of_isEnd hhead).1
    · rw [Option.some.inj (hb.symm.trans hd)]
      exact (plain_of_isEnd hlast).1
  have hcommand : ¬ (shellJoin words = [] ∨ (shellJoin words).head? = some '#') := by
    rintro (hnil | hhash)
    · rw [hnil] at hc
      cases hc
    · exact (plain_of_isEnd hhead).2 (Option.some.inj (hc.symm.trans hhash))
  simp only [dispatch, hstrip, if_neg hcommand, shellSplit_shellJoin]

/-- A table command for a switch ends up at the handler of its tables. -/
theorem dispatch_tableLine
    {network : RunningNetwork} {switch : String} {client : ClientView}
    (hswitch : network.switches.get? switch = some client)
    (hcommand : switch.toList ∉ topLevelCommands)
    (verb table : Text) (sections : List (Text × List Text)) :
    dispatch network (tableLine switch.toList verb table sections) =
      cmdSwitchTable switch client (verb :: table :: sections.flatMap sectionTokens) := by
  have hhost : switch ∉ network.hosts := fun hmem =>
    network.disjoint switch hmem (OrderedDict.mem_keys_of_get? hswitch)
  rw [tableLine, dispatch_shellJoin _ (by simp), dispatchTokens, if_neg hcommand,
    String.ofList_toList, if_neg hhost, hswitch]
  simp only [dispatchSwitch, if_pos]

theorem cmdSwitchTable_add
    (switch : String) (client : ClientView) (rest : List Text) :
    cmdSwitchTable switch client ("add".toList :: rest) = tableAdd switch client rest := by
  rw [cmdSwitchTable, if_pos rfl]

theorem cmdSwitchTable_del
    (switch : String) (client : ClientView) (rest : List Text) :
    cmdSwitchTable switch client ("del".toList :: rest) = tableDel switch client rest := by
  rw [cmdSwitchTable, if_neg (by decide), if_pos rfl]

/-! ### Requests that were sent -/

/-- The request was built from at least one match argument. -/
def BuiltFromPairs (client : ClientView) (request : WriteRequest) : Prop :=
  ∃ table args action params priority updateType, args.entries ≠ [] ∧
    writeEntry client table args action params priority updateType = .ok request

theorem parseKvPairs_nonempty
    {tokens : List Text} {pairs : OrderedDict Text Text}
    (h : parseKvPairs tokens = .ok pairs) :
    pairs.entries ≠ [] := by
  rw [parseKvPairs, Topo.bind_eq_ok_iff] at h
  obtain ⟨out, _, hout⟩ := h
  by_cases hempty : out.entries = []
  · rw [if_pos hempty] at hout
    cases hout
  · rw [if_neg hempty] at hout
    exact Except.ok.inj hout ▸ hempty

/-- Every value keeps its field. -/
theorem parseTableMatch_nonempty
    {index : P4InfoIndex} {table : Text} {pairs : OrderedDict Text Text}
    {typed : OrderedDict String PyValue} (hne : pairs.entries ≠ [])
    (h : parseTableMatch index table pairs = .ok typed) :
    typed.entries ≠ [] := by
  unfold parseTableMatch at h
  cases hitems : pairs.entries.mapM (typedItem (fieldKinds index (String.ofList table)) table) with
  | error e =>
      rw [hitems] at h
      cases h
  | ok items =>
      rw [hitems] at h
      obtain rfl := Except.ok.inj h
      have hlength := ((Topo.mapM_eq_ok_iff _ _ _).mp hitems).length_eq
      obtain ⟨item, rest, hcons⟩ := List.exists_cons_of_ne_nil
        (List.length_pos_iff.mp (hlength ▸ List.length_pos_iff.mpr hne))
      have hkey : item.1 ∈ (OrderedDict.ofList items).keys :=
        (OrderedDict.mem_keys_ofList items item.1).mpr (by simp [hcons])
      intro hempty
      simp [OrderedDict.keys, hempty] at hkey

theorem builtFromPairs_of_sendEntry
    {switch target : String} {client : ClientView} {table : Text}
    {pairs : OrderedDict Text Text} {action : Option Text}
    {params : Option (OrderedDict Text Text)} {priority : Option Int}
    {updateType : UpdateType} {request : WriteRequest}
    (hne : pairs.entries ≠ [])
    (h : sendEntry switch client table pairs action params priority updateType =
      .ok (.sent target request)) :
    target = switch ∧ BuiltFromPairs client request := by
  unfold sendEntry at h
  cases hindex : client.index with
  | none =>
      rw [hindex] at h
      cases h
  | some index =>
      simp only [hindex, Topo.bind_eq_ok_iff] at h
      obtain ⟨typed, htyped, h⟩ := h
      split at h
      · rename_i sent hwrite
        obtain ⟨rfl, rfl⟩ := Reply.sent.inj (Except.ok.inj h)
        exact ⟨rfl, _, _, _, _, _, _, parseTableMatch_nonempty hne htyped, hwrite⟩
      · cases h

theorem builtFromPairs_of_tableAdd
    {switch target : String} {client : ClientView} {tokens : List Text} {request : WriteRequest}
    (h : tableAdd switch client tokens = .ok (.sent target request)) :
    target = switch ∧ BuiltFromPairs client request := by
  cases tokens with
  | nil => cases h
  | cons table rest =>
      simp only [tableAdd, Topo.bind_eq_ok_iff] at h
      obtain ⟨sections, _, h⟩ := h
      cases hmatch : sections.get? matchName with
      | none =>
          rw [hmatch] at h
          cases h
      | some matchTokens =>
          cases haction : sections.get? actionName with
          | none =>
              rw [hmatch, haction] at h
              cases h
          | some actionTokens =>
              simp only [hmatch, haction, Topo.bind_eq_ok_iff] at h
              obtain ⟨pairs, hpairs, h⟩ := h
              rcases actionTokens with _ | ⟨action, _ | ⟨second, more⟩⟩
              · cases h
              · simp only [Topo.bind_eq_ok_iff] at h
                obtain ⟨params, _, priority, _, hsend⟩ := h
                exact builtFromPairs_of_sendEntry (parseKvPairs_nonempty hpairs) hsend
              · cases h

theorem builtFromPairs_of_tableDel
    {switch target : String} {client : ClientView} {tokens : List Text} {request : WriteRequest}
    (h : tableDel switch client tokens = .ok (.sent target request)) :
    target = switch ∧ BuiltFromPairs client request := by
  cases tokens with
  | nil => cases h
  | cons table rest =>
      simp only [tableDel, Topo.bind_eq_ok_iff] at h
      obtain ⟨sections, _, h⟩ := h
      cases hmatch : sections.get? matchName with
      | none =>
          rw [hmatch] at h
          cases h
      | some matchTokens =>
          simp only [hmatch, Topo.bind_eq_ok_iff] at h
          obtain ⟨pairs, hpairs, priority, _, hsend⟩ := h
          exact builtFromPairs_of_sendEntry (parseKvPairs_nonempty hpairs) hsend

theorem builtFromPairs_of_dispatchSwitch
    {switch target : String} {client : ClientView} {tokens : List Text} {request : WriteRequest}
    (h : dispatchSwitch switch client tokens = .ok (.sent target request)) :
    target = switch ∧ BuiltFromPairs client request := by
  match tokens, h with
  | [], h => cases h
  | verb :: rest, h =>
      by_cases hverb : verb = "table".toList
      · simp only [dispatchSwitch, if_pos hverb] at h
        match rest, h with
        | [], h => cases h
        | sub :: rest, h =>
            unfold cmdSwitchTable at h
            by_cases hadd : sub = "add".toList
            · exact builtFromPairs_of_tableAdd (by simpa only [if_pos hadd] using h)
            by_cases hdel : sub = "del".toList
            · exact builtFromPairs_of_tableDel
                (by simpa only [if_neg hadd, if_pos hdel] using h)
            · simp only [if_neg hadd, if_neg hdel] at h
              split_ifs at h
              cases h
      · simp only [dispatchSwitch, if_neg hverb] at h
        split_ifs at h
        cases h

/-- Whatever line is dispatched, a request that is sent was built from at least one pair. -/
theorem builtFromPairs_of_dispatch
    {network : RunningNetwork} {line : Text} {switch : String} {request : WriteRequest}
    (h : dispatch network line = .ok (.sent switch request)) :
    ∃ client, network.switches.get? switch = some client ∧ BuiltFromPairs client request := by
  unfold dispatch at h
  by_cases hsilent : strip line = [] ∨ (strip line).head? = some '#'
  · simp only [if_pos hsilent] at h
    cases h
  cases hsplit : shellSplit (strip line) with
  | error reason =>
      simp only [if_neg hsilent, hsplit] at h
      cases h
  | ok tokens =>
      simp only [if_neg hsilent, hsplit] at h
      match tokens, h with
      | [], h => cases h
      | head :: rest, h =>
          simp only [dispatchTokens] at h
          by_cases htop : head ∈ topLevelCommands
          · rw [if_pos htop] at h
            cases h
          by_cases hhost : String.ofList head ∈ network.hosts
          · rw [if_neg htop, if_pos hhost] at h
            cases h
          rw [if_neg htop, if_neg hhost] at h
          cases hget : network.switches.get? (String.ofList head) with
          | none =>
              rw [hget] at h
              cases h
          | some client =>
              rw [hget] at h
              obtain ⟨rfl, hbuilt⟩ := builtFromPairs_of_dispatchSwitch h
              exact ⟨client, hget, hbuilt⟩

end Cli
end P4Net

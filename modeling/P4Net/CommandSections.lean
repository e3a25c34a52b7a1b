import P4Net.PythonObjects
import P4Net.ShellWords
import P4Net.TableEntryRoundTrip
import P4Net.TextLines

/-!
# Sections of a table command

`<switch> table add` and `<switch> table del` take their arguments in sections, `match: ...`,
`action: ...` and so on.  This module models the helpers at the end of `cli/dispatcher.py`
that read them.

* `parseSections`, `parseKvPairs`, `parsePriority`, `parseTableMatch` : the helpers.
* `parseSections_of_tokens`, `parseKvPairs_of_tokens` : what sections and pairs are read as,
  when they are written in the simplest way.
-/

namespace P4Net
namespace Cli

open TextLiterals P4InfoIndex

/-- The reasons for which a command raises `CLIUsageError`. -/
inductive UsageError where
  | couldNotParse (reason : LexError)
  | unknownCommand (head : Text)
  | missingVerb (switch : Text)
  | unknownVerb (switch verb : Text)
  | missingSubVerb (switch : Text)
  | unknownSubVerb (switch sub : Text)
  | missingTable (command : Text)
  | sectionRequired (command name : Text)
  | actionNotSingle (tokens : List Text)
  | unknownMarker (token : Text) (allowed : List Text)
  | sectionTwice (name : Text)
  | beforeSections (token : Text) (allowed : List Text)
  | sectionEmpty (name : Text)
  | notKeyValue (item : Text)
  | emptyKey (item : Text)
  | noPairs
  | priorityNotSingle (tokens : List Text)
  | priorityNotInteger (token : Text)
  | badComposite (table name usage value : Text)
deriving DecidableEq, Repr

/-! ### Sections -/

def matchName : Text := "match".toList
def actionName : Text := "action".toList
def paramsName : Text := "params".toList
def priorityName : Text := "priority".toList

/-- A token `<name>:` outside an assignment. -/
def isMarker (tok : Text) : Bool :=
  decide (tok.getLast? = some ':' ∧ 1 < tok.length ∧ '=' ∉ tok)

/-- The loop of `_parse_sections` over the tokens. -/
def sectionsFrom (allowed : List Text) (sections : OrderedDict Text (List Text))
    (current : Option Text) : List Text → Except UsageError (OrderedDict Text (List Text))
  | [] => .ok sections
  | tok :: rest =>
      if isMarker tok then
        let name := tok.dropLast
        if name ∉ allowed then .error (.unknownMarker tok allowed)
        else if name ∈ sections.keys then .error (.sectionTwice name)
        else sectionsFrom allowed (sections.set name []) (some name) rest
      else
        match current with
        | none => .error (.beforeSections tok allowed)
        | some name =>
            let tokens := (sections.get? name).getD []
            sectionsFrom allowed (sections.set name (tokens ++ [tok])) current rest

/-- A section that must not be empty, without tokens. -/
def isHollow (e : Text × List Text) : Bool := decide (e.2 = [] ∧ e.1 ∈ [matchName, paramsName])

/-- `_parse_sections`. -/
def parseSections (tokens allowed : List Text) :
    Except UsageError (OrderedDict Text (List Text)) := do
  let sections ← sectionsFrom allowed .empty none tokens
  match sections.entries.find? isHollow with
  | some e => .error (.sectionEmpty e.1)
  | none => .ok sections

/-! ### Values of the sections -/

/-- The body of the loop of `_parse_kv_pairs`. -/
def addPair (out : OrderedDict Text Text) (piece : Text) :
    Except UsageError (OrderedDict Text Text) :=
  let item := strip piece
  if item = [] then .ok out
  else
    match splitOnce '=' item with
    | none => .error (.notKeyValue item)
    | some (k, v) =>
        if strip k = [] then .error (.emptyKey item) else .ok (out.set (strip k) (strip v))

/-- `_parse_kv_pairs`. -/
def parseKvPairs (tokens : List Text) : Except UsageError (OrderedDict Text Text) := do
  let out ← (splitOn ',' (join ',' tokens)).foldlM addPair .empty
  if out.entries = [] then .error .noPairs else .ok out

/-- The optional section of parameters. -/
def parseParams : Option (List Text) → Except UsageError (Option (OrderedDict Text Text))
  | none => .ok none
  | some tokens => (parseKvPairs tokens).map some

/-- `_parse_priority`. -/
def parsePriority : Option (List Text) → Except UsageError (Option Int)
  | none => .ok none
  | some [tok] =>
      match parseInt 10 tok with
      | some n => .ok (some n)
      | none => .error (.priorityNotInteger tok)
  | some tokens => .error (.priorityNotSingle tokens)

/-- The match types of the fields of the tables with a name, by the names of the fields. -/
def fieldKinds (index : P4InfoIndex) (table : String) : OrderedDict String MatchType :=
  .ofList ((index.raw.tables.filter fun t => t.name = table).flatMap fun t =>
    t.matchFields.map fun mf => (mf.name, mf.matchType))

/-- `formats`: the separator and the usage of the match types with two components. -/
def matchFormat : MatchType → Option (Text × Text)
  | .ternary => some ("&&&".toList, "value&&&mask".toList)
  | .range => some ("..".toList, "low..high".toList)
  | _ => none

/-- The body of the loop of `_parse_table_match`. -/
def typedItem (kinds : OrderedDict String MatchType) (table : Text) (item : Text × Text) :
    Except UsageError (String × PyValue) :=
  match (kinds.get? (String.ofList item.1)).bind matchFormat with
  | none => .ok (String.ofList item.1, .str item.2)
  | some (separator, usage) =>
      match (splitOnText separator item.2).map strip with
      | [first, second] =>
          if first = [] ∨ second = [] then .error (.badComposite table item.1 usage item.2)
          else .ok (String.ofList item.1, .pair (.str first) (.str second))
      | _ => .error (.badComposite table item.1 usage item.2)

/-- `_parse_table_match`. -/
def parseTableMatch (index : P4InfoIndex) (table : Text) (values : OrderedDict Text Text) :
    Except UsageError (OrderedDict String PyValue) :=
  (values.entries.mapM (typedItem (fieldKinds index (String.ofList table)) table)).map .ofList

/-! ### Sections that were written -/

/-- The tokens of a section: its marker and its content. -/
def sectionTokens (e : Text × List Text) : List Text := (e.1 ++ [':']) :: e.2

/-- A section that the command allows, with content that starts no other section. -/
structure SectionOk (allowed : List Text) (e : Text × List Text) : Prop where
  name : e.1 ≠ [] ∧ '=' ∉ e.1 ∧ e.1 ∈ allowed
  tokens : ∀ tok ∈ e.2, isMarker tok = false
  nonempty : e.2 ≠ []

theorem isMarker_name
    {name : Text} (hne : name ≠ []) (heq : '=' ∉ name) :
    isMarker (name ++ [':']) = true := by
  have hlength := List.length_pos_iff.mpr hne
  simp only [isMarker, List.getLast?_concat, List.length_append, List.length_singleton,
    List.mem_append, List.mem_singleton, true_and, decide_eq_true_eq]
  exact ⟨by omega, by simp [heq]⟩

/-- A marker starts an empty section. -/
theorem sectionsFrom_marker
    {allowed : List Text} {name : Text} {d : OrderedDict Text (List Text)}
    (hne : name ≠ []) (heq : '=' ∉ name) (hallowed : name ∈ allowed) (hnew : name ∉ d.keys)
    (current : Option Text) (rest : List Text) :
    sectionsFrom allowed d current ((name ++ [':']) :: rest) =
      sectionsFrom allowed (d.set name []) (some name) rest := by
  have hmarker := isMarker_name hne heq
  cases current with
  | none => simp [sectionsFrom, hmarker, hallowed, hnew]
  | some last => simp [sectionsFrom, hmarker, hallowed, hnew]

/-- The content of a section is appended to it. -/
theorem sectionsFrom_content
    {allowed content : List Text} (h : ∀ tok ∈ content, isMarker tok = false)
    (d : OrderedDict Text (List Text)) (name : Text) (before rest : List Text) :
    sectionsFrom allowed (d.set name before) (some name) (content ++ rest) =
      sectionsFrom allowed (d.set name (before ++ content)) (some name) rest := by
  induction content generalizing before with
  | nil => simp
  | cons tok toks ih =>
      have hmarker := h tok (by simp)
      rw [List.cons_append, sectionsFrom, if_neg (by simp [hmarker])]
      simp only [OrderedDict.get?_set_self, Option.getD_some, OrderedDict.set_set]
      rw [ih (fun t ht => h t (List.mem_cons_of_mem _ ht)), List.append_assoc,
        List.singleton_append]

/-- The loop stores the sections one after the other. -/
theorem sectionsFrom_sections
    {allowed : List Text} {sections : List (Text × List Text)}
    (h : ∀ e ∈ sections, SectionOk allowed e)
    (d : OrderedDict Text (List Text)) (current : Option Text)
    (hnodup : (d.keys ++ sections.map Prod.fst).Nodup) :
    sectionsFrom allowed d current (sections.flatMap sectionTokens) =
      .ok (sections.foldl (fun d e => d.set e.1 e.2) d) := by
  induction sections generalizing d current with
  | nil => rfl
  | cons e rest ih =>
      have he := h e (by simp)
      obtain ⟨hne, heq, hallowed⟩ := he.name
      have hnew : e.1 ∉ d.keys := by
        intro hmem
        rw [List.nodup_append] at hnodup
        exact hnodup.2.2 e.1 hmem e.1 (by simp) rfl
      have hkeys := OrderedDict.keys_set_of_not_mem hnew e.2
      rw [List.flatMap_cons, sectionTokens, List.cons_append,
        sectionsFrom_marker hne heq hallowed hnew, sectionsFrom_content he.tokens,
        List.nil_append, ih (fun e' he' => h e' (List.mem_cons_of_mem _ he')) _ _
          (by simpa [hkeys] using hnodup)]
      rfl

/-- Sections with distinct names are read as they were written. -/
theorem parseSections_of_tokens
    {allowed : List Text} {sections : List (Text × List Text)}
    (h : ∀ e ∈ sections, SectionOk allowed e) (hnodup : (sections.map Prod.fst).Nodup) :
    parseSections (sections.flatMap sectionTokens) allowed = .ok (.ofList sections) := by
  have hloop := sectionsFrom_sections h .empty none
    (by simpa [OrderedDict.keys, OrderedDict.empty] using hnodup)
  have hhollow : (OrderedDict.ofList sections).entries.find? isHollow = none := by
    rw [OrderedDict.ofList_entries hnodup, List.find?_eq_none]
    intro e he
    simp [isHollow, (h e he).nonempty]
  rw [parseSections, hloop]
  change (match (OrderedDict.ofList sections).entries.find? isHollow with
    | some e => Except.error (UsageError.sectionEmpty e.1)
    | none => .ok (OrderedDict.ofList sections)) = _
  rw [hhollow]

/-! ### Pairs that were written -/

/-- `<key>=<value>`. -/
def pairToken (pair : Text × Text) : Text := pair.1 ++ '=' :: pair.2

/-- A pair that survives the separators. -/
structure PairOk (pair : Text × Text) : Prop where
  nonempty : pair.1 ≠ []
  key : ∀ c ∈ pair.1, isSpace c = false ∧ c ≠ ',' ∧ c ≠ '='
  value : ∀ c ∈ pair.2, isSpace c = false ∧ c ≠ ','

theorem isMarker_pairToken
    (pair : Text × Text) :
    isMarker (pairToken pair) = false := by
  simp [isMarker, pairToken]

theorem PairOk.plain
    {pair : Text × Text} (h : PairOk pair) :
    ∀ c ∈ pairToken pair, isSpace c = false ∧ c ≠ ',' := by
  intro c hc
  rcases List.mem_append.mp hc with hkey | htail
  · exact ⟨(h.key c hkey).1, (h.key c hkey).2.1⟩
  · rcases List.mem_cons.mp htail with rfl | hvalue
    · decide
    · exact h.value c hvalue

theorem addPair_of_ok
    {pair : Text × Text} (h : PairOk pair) (d : OrderedDict Text Text) :
    addPair d (pairToken pair) = .ok (d.set pair.1 pair.2) := by
  have hitem := strip_of_noSpace fun c hc => (h.plain c hc).1
  have hkey := strip_of_noSpace fun c hc => (h.key c hc).1
  have hvalue := strip_of_noSpace fun c hc => (h.value c hc).1
  have hsplit : splitOnce '=' (pairToken pair) = some pair :=
    splitOnce_append (fun hmem => (h.key _ hmem).2.2 rfl) pair.2
  have hne : pairToken pair ≠ [] := by simp [pairToken]
  simp only [addPair, hitem, if_neg hne, hsplit, hkey, hvalue, if_neg h.nonempty]

/-- Pairs with distinct keys are read as they were written. -/
theorem parseKvPairs_of_tokens
    {pairs : List (Text × Text)} (hne : pairs ≠ []) (h : ∀ pair ∈ pairs, PairOk pair)
    (hnodup : (pairs.map Prod.fst).Nodup) :
    parseKvPairs (pairs.map pairToken) = .ok (.ofList pairs) := by
  have hpieces : splitOn ',' (join ',' (pairs.map pairToken)) = pairs.map pairToken := by
    refine splitOn_join (by simpa using hne) fun part hpart hmem => ?_
    obtain ⟨pair, hpair, rfl⟩ := List.mem_map.mp hpart
    exact ((h pair hpair).plain _ hmem).2 rfl
  have hloop : ∀ (l : List (Text × Text)) (d : OrderedDict Text Text), (∀ pair ∈ l, PairOk pair) →
      (l.map pairToken).foldlM addPair d = .ok (l.foldl (fun d e => d.set e.1 e.2) d) := by
    intro l
    induction l with
    | nil => exact fun d _ => rfl
    | cons pair rest ih =>
        intro d hl
        rw [List.map_cons, List.foldlM_cons, addPair_of_ok (hl pair (by simp))]
        exact ih _ fun q hq => hl q (List.mem_cons_of_mem _ hq)
  have hentries : (OrderedDict.ofList pairs).entries ≠ [] := by
    rw [OrderedDict.ofList_entries hnodup]
    exact hne
  rw [parseKvPairs, hpieces, hloop pairs .empty h]
  exact if_neg hentries

end Cli
end P4Net

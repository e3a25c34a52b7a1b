import P4Net.ClientAgreement
import P4Net.FormattedValues
import P4Net.Transcripts

/-!
# Register files of a switch

`write_register` and `read_register` of both clients check their arguments, send one command to
`simple_switch_CLI` and parse what it prints.  The command line tool is a parameter: `Answers`
says what it does to the cells and how it shows them.

* `writeRegister`, `readRegister` : the calls; whatever `subprocess` raises that they do not wrap is
  one outcome of a run (`CliRun.raised`).
* `parseRegisterReadSingle_shown`, `parseRegisterReadArray_shown` : what is shown is read.
* `CellStep` : what a reply says about the cells of the registers.
* `registers_refine` : the replies to any sequence of calls are those of a register file.
-/

namespace P4Net
namespace Registers

open TextLiterals Transcripts ControlCodec

/-! ### Calls -/

/-- `RegisterSpec`. -/
structure RegisterSpec where
  id : Nat
  name : Text
  bitwidth : Nat
  size : Int
deriving DecidableEq, Repr

/-- The dictionary `_registers_by_name`. -/
def registersByName (registers : List RegisterSpec) : OrderedDict Text RegisterSpec :=
  .ofList (registers.map fun r => (r.name, r))

/-- Which of the two clients makes a call. -/
inductive ClientKind where
  | sync
  | async
deriving DecidableEq, Repr

/-- The fields of a client that register operations read. -/
structure RegisterClient where
  kind : ClientKind
  isConnected : Bool
  registers : Option (List RegisterSpec)
  thriftAddress : Option (Text × Int)

/--
How a run of `simple_switch_CLI` ends; only the asynchronous client can be cancelled.  `raised` is
any other exception, such as an `OSError` or output that is no UTF-8, which no client wraps.
-/
inductive CliRun where
  | notFound
  | timedOut
  | cancelled
  | raised
  | exited (returncode : Int) (stdout stderr : Text)

/-- What register operations raise. -/
inductive RegisterCallError where
  | notConnected
  | noPipeline
  | noSuchRegister (name : Text)
  | outOfRange (name : Text) (index size : Int)
  | encoding (reason : EncodingError)
  | noThriftAddress
  | cliNotFound
  | cliTimedOut
  | cancelled
  | cliRaised
  | cliFailed (returncode : Int) (combined : Text)
  | cliError (line : Text)
  | badOutput (reason : RegisterError)
  | badOutputAsync (reason : AsyncRegisterError)

/-- `sub in text`. -/
def occursIn (sub text : Text) : Bool := text.tails.any fun rest => sub.isPrefixOf rest

/-- The first line that reports an error. -/
def errorLine (combined : Text) : Option Text :=
  ((splitLines combined).map strip).find? fun line =>
    "Error:".toList.isPrefixOf line || occursIn "Invalid".toList line

/-- The command line of `_run_thrift_cli`. -/
def thriftArgv (host : Text) (port : Int) : List Text :=
  ["simple_switch_CLI".toList, "--thrift-ip".toList, host, "--thrift-port".toList,
    Formatting.intText port]

/-- The end of `_run_thrift_cli`: what a run of the tool returns or raises. -/
def runResult : CliRun → Except RegisterCallError Text
  | .notFound => .error .cliNotFound
  | .timedOut => .error .cliTimedOut
  | .cancelled => .error .cancelled
  | .raised => .error .cliRaised
  | .exited returncode stdout stderr =>
      let combined := stdout ++ stderr
      if returncode ≠ 0 then .error (.cliFailed returncode (strip combined))
      else
        match errorLine combined with
        | some line => .error (.cliError line)
        | none => .ok stdout

section Tool

variable {σ : Type}

/-- A command line tool: the state and the end of a run with these arguments and this input. -/
abbrev Tool (σ : Type) := σ → List Text → Text → σ × CliRun

/-- `_run_thrift_cli`. -/
def runThriftCli (tool : Tool σ) (client : RegisterClient) (s : σ) (command : Text) :
    σ × Except RegisterCallError Text :=
  match client.thriftAddress with
  | none => (s, .error .noThriftAddress)
  | some (host, port) =>
      let run := tool s (thriftArgv host port) (command ++ ['\n'])
      (run.1, runResult run.2)

/-- `_require_connected_with_index` and `register_by_name`. -/
def lookupRegister (client : RegisterClient) (name : Text) :
    Except RegisterCallError RegisterSpec :=
  if client.isConnected then
    match client.registers with
    | none => .error .noPipeline
    | some registers =>
        match (registersByName registers).get? name with
        | none => .error (.noSuchRegister name)
        | some spec => .ok spec
  else .error .notConnected

/-- The text of a command: words separated by blanks. -/
def commandText (words : List Text) : Text := join ' ' words

/-- The checks of `write_register`, and the command that it sends. -/
def writeCommand (client : RegisterClient) (name : Text) (index value : Int) :
    Except RegisterCallError Text := do
  let spec ← lookupRegister client name
  if ¬ (0 ≤ index ∧ index < spec.size) then .error (.outOfRange name index spec.size)
  else
    match encodeValue (.int value) spec.bitwidth with
    | .error e => .error (.encoding e)
    | .ok _ => .ok (commandText
        ["register_write".toList, name, Formatting.intText index, Formatting.intText value])

/-- `write_register`. -/
def writeRegister (tool : Tool σ) (client : RegisterClient) (s : σ) (name : Text)
    (index value : Int) : σ × Except RegisterCallError Unit :=
  match writeCommand client name index value with
  | .error e => (s, .error e)
  | .ok command =>
      let out := runThriftCli tool client s command
      (out.1, out.2.map fun _ => ())

/-- The checks of `read_register`, and the command that it sends. -/
def readCommand (client : RegisterClient) (name : Text) (index : Option Int) :
    Except RegisterCallError (RegisterSpec × Text) := do
  let spec ← lookupRegister client name
  match index with
  | some i =>
      if ¬ (0 ≤ i ∧ i < spec.size) then .error (.outOfRange name i spec.size)
      else .ok (spec, commandText ["register_read".toList, name, Formatting.intText i])
  | none => .ok (spec, commandText ["register_read".toList, name])

/-- The value of one cell or of all cells. -/
inductive RegisterValue where
  | cell (value : Int)
  | cells (values : List Int)
deriving DecidableEq, Repr

/-- The parsers that `read_register` applies to the output. -/
def parseRead (kind : ClientKind) (output name : Text) (size : Int) (index : Option Int) :
    Except RegisterCallError RegisterValue :=
  match kind, index with
  | .sync, some i =>
      ((parseRegisterReadSingle output name i).map .cell).mapError .badOutput
  | .sync, none => ((parseRegisterReadArray output name size).map .cells).mapError .badOutput
  | .async, some i =>
      ((asyncParseRegisterReadSingle output name i).map .cell).mapError .badOutputAsync
  | .async, none =>
      ((asyncParseRegisterReadArray output name size).map .cells).mapError .badOutputAsync

/-- `read_register`. -/
def readRegister (tool : Tool σ) (client : RegisterClient) (s : σ) (name : Text)
    (index : Option Int) : σ × Except RegisterCallError RegisterValue :=
  match readCommand client name index with
  | .error e => (s, .error e)
  | .ok (spec, command) =>
      let out := runThriftCli tool client s command
      (out.1, out.2.bind fun output => parseRead client.kind output name spec.size index)

end Tool

/-! ### What the tool shows -/

/-- What a line answers: the prompt before it is left out. -/
def answer (rawLine : Text) : Text :=
  if runtimeCmd.isPrefixOf (strip rawLine) then
    strip ((strip rawLine).drop runtimeCmd.length)
  else strip rawLine

theorem readSingle_cons
    (output name : Text) (index : Int) (rawLine : Text) (rest : List Text) :
    readSingle output name index (rawLine :: rest) =
      if (name ++ ['[']).isPrefixOf (answer rawLine) then
        match splitOnce '=' (answer rawLine) with
        | none => readSingle output name index rest
        | some (_, tail) =>
            match parseInt 10 (strip tail) with
            | some value => .ok value
            | none => .error (.badValue name index (strip tail))
      else readSingle output name index rest := rfl

theorem readArray_cons
    (output name : Text) (size : Int) (rawLine : Text) (rest : List Text) :
    readArray output name size (rawLine :: rest) =
      if (name ++ ['=']).isPrefixOf (answer rawLine) then
        match cellValues (strip ((answer rawLine).drop (name ++ ['=']).length)) with
        | none =>
            .error (.badValues name (strip ((answer rawLine).drop (name ++ ['=']).length)))
        | some values =>
            if (values.length : Int) ≠ size then .error (.wrongCells name size values.length)
            else .ok values
      else readArray output name size rest := rfl

/-- The first answer that starts with `start` goes on with `rest`. -/
def ShowsLine (output start rest : Text) : Prop :=
  ∃ before line after, splitLines output = before ++ line :: after ∧
    answer line = start ++ rest ∧ ∀ b ∈ before, start.isPrefixOf (answer b) = false

/-- The rest of the line of one cell: `<index>]= <value>`. -/
def cellRest (index value : Nat) : Text :=
  Nat.toDigits 10 index ++ "]=".toList ++ ' ' :: Nat.toDigits 10 value

/-- The rest of the line of all cells: ` v0, v1, …`. -/
def cellsRest (values : List Nat) : Text :=
  join ',' (values.map fun v => ' ' :: Nat.toDigits 10 v)

/-- Letters and digits are no white space. -/
theorem isSpace_of_isAlnum
    {c : Char} (h : isAlnum c = true) :
    isSpace c = false := by
  have hplain : ∀ n < 128, isAlnum (Char.ofNat n) = true → isSpace (Char.ofNat n) = false := by
    decide
  have hc := hplain c.toNat (toNat_lt_of_isAlnum h)
  rw [Char.ofNat_toNat] at hc
  exact hc h

theorem noSpace_toDigits
    {n : Nat} {c : Char} (hc : c ∈ Nat.toDigits 10 n) :
    isSpace c = false :=
  isSpace_of_isAlnum (isAlnum_of_mem_toDigits (by decide) (by decide) hc)

/-- A number after a blank is the number when it is stripped. -/
theorem strip_blank_toDigits
    (n : Nat) :
    strip (' ' :: Nat.toDigits 10 n) = Nat.toDigits 10 n := by
  have hdrop : strip (' ' :: Nat.toDigits 10 n) = strip (Nat.toDigits 10 n) := by
    rw [strip, strip, List.dropWhile_cons_of_pos (by decide)]
  rw [hdrop, strip_of_noSpace fun c hc => noSpace_toDigits hc]

section Parsers

variable {output name : Text}

/-- The parser of one cell reads what is shown. -/
theorem parseRegisterReadSingle_shown
    {index value : Nat} (hname : '=' ∉ name)
    (h : ShowsLine output (name ++ ['[']) (cellRest index value)) (i : Int) :
    parseRegisterReadSingle output name i = .ok value := by
  obtain ⟨before, line, after, hlines, hanswer, hbefore⟩ := h
  rw [parseRegisterReadSingle, hlines]
  clear hlines
  induction before with
  | nil =>
      have hsplit : splitOnce '=' (name ++ ['['] ++ cellRest index value) =
          some (name ++ ['['] ++ Nat.toDigits 10 index ++ [']'],
            ' ' :: Nat.toDigits 10 value) := by
        have hnot : '=' ∉ name ++ ['['] ++ Nat.toDigits 10 index ++ [']'] := by
          simp only [List.mem_append, not_or]
          refine ⟨⟨⟨hname, by decide⟩, fun hc => ?_⟩, by decide⟩
          exact absurd (isAlnum_of_mem_toDigits (by decide) (by decide) hc) (by decide)
        rw [← splitOnce_append hnot]
        congr 1
        simp [cellRest]
      rw [List.nil_append, readSingle_cons, hanswer, if_pos (by simp)]
      simp only [hsplit, strip_blank_toDigits, parseInt_toDigits]
  | cons b rest ih =>
      have hb := hbefore b List.mem_cons_self
      have hskip := ih fun c hc => hbefore c (List.mem_cons_of_mem _ hc)
      rw [List.cons_append, readSingle_cons, if_neg (by simp [hb])]
      exact hskip

/-- The pieces between the commas are read one by one. -/
theorem mapM_parseInt
    {parts : List Text} {values : List Nat}
    (h : List.Forall₂ (fun part v => strip part = Nat.toDigits 10 v) parts values) :
    (parts.filter (fun v => strip v ≠ [])).mapM (fun v => parseInt 10 (strip v)) =
      some (values.map Int.ofNat) := by
  induction h with
  | nil => rfl
  | @cons part v parts values hpart _ ih =>
      have hne : strip part ≠ [] := by
        rw [hpart]
        exact Nat.toDigits_ne_nil
      rw [List.filter_cons_of_pos (by simpa using hne), List.mapM_cons, hpart,
        parseInt_toDigits, ih]
      rfl

/-- Stripping the cells removes the first blank. -/
theorem strip_cellsRest
    (v : Nat) (values : List Nat) :
    strip (cellsRest (v :: values)) =
      join ',' (Nat.toDigits 10 v :: values.map fun v => ' ' :: Nat.toDigits 10 v) := by
  have hdigit : ∀ {n : Nat} {c : Char}, (Nat.toDigits 10 n).getLast? = some c →
      isSpace c = false := fun hc => noSpace_toDigits (List.mem_of_getLast? hc)
  have hblank : cellsRest (v :: values) = ' ' :: join ',' (Nat.toDigits 10 v ::
      values.map fun v => ' ' :: Nat.toDigits 10 v) := by
    rw [cellsRest, List.map_cons, join_cons_eq, join_cons_eq, List.cons_append]
  rw [hblank, strip, List.dropWhile_cons_of_pos (by decide), ← strip]
  refine strip_of_ends ?_ ?_
  · intro c hc
    rw [join_cons_eq, List.head?_append_of_ne_nil _ Nat.toDigits_ne_nil] at hc
    exact noSpace_toDigits (List.mem_of_head? hc)
  · intro c hc
    rcases values.eq_nil_or_concat with rfl | ⟨front, last, rfl⟩
    · rw [List.map_nil, join_singleton] at hc
      exact hdigit hc
    · rw [List.concat_eq_append, List.map_append, ← List.cons_append, List.map_singleton,
        join_concat_eq, List.append_cons,
        List.getLast?_append_of_ne_nil _ Nat.toDigits_ne_nil] at hc
      exact hdigit hc

/-- The numbers between the commas. -/
theorem cellValues_shown
    (values : List Nat) :
    cellValues (strip (cellsRest values)) = some (values.map Int.ofNat) := by
  cases values with
  | nil => rfl
  | cons v values =>
      have hcomma : ∀ n, ',' ∉ Nat.toDigits 10 n := fun n hc =>
        absurd (isAlnum_of_mem_toDigits (by decide) (by decide) hc) (by decide)
      rw [strip_cellsRest, cellValues, splitOn_join (List.cons_ne_nil _ _)]
      · refine mapM_parseInt (.cons (strip_of_noSpace fun c hc => noSpace_toDigits hc) ?_)
        rw [List.forall₂_map_left_iff, List.forall₂_same]
        exact fun n _ => strip_blank_toDigits n
      · intro part hpart
        rcases List.mem_cons.mp hpart with rfl | hpart
        · exact hcomma v
        · obtain ⟨n, -, rfl⟩ := List.mem_map.mp hpart
          simpa using hcomma n

/-- The parser of a whole register reads what is shown. -/
theorem parseRegisterReadArray_shown
    {values : List Nat}
    (h : ShowsLine output (name ++ ['=']) (cellsRest values)) :
    parseRegisterReadArray output name values.length = .ok (values.map Int.ofNat) := by
  obtain ⟨before, line, after, hlines, hanswer, hbefore⟩ := h
  rw [parseRegisterReadArray, hlines]
  clear hlines
  induction before with
  | nil =>
      rw [List.nil_append, readArray_cons, hanswer, if_pos (by simp), List.drop_left]
      simp only [cellValues_shown]
      rw [if_neg (by simp)]
  | cons b rest ih =>
      have hb := hbefore b List.mem_cons_self
      have hskip := ih fun c hc => hbefore c (List.mem_cons_of_mem _ hc)
      rw [List.cons_append, readArray_cons, if_neg (by simp [hb])]
      exact hskip

end Parsers

/-- The parsers of both clients read the cell that is shown. -/
theorem parseRead_cell
    {output name : Text} {index value : Nat} (hname : '=' ∉ name)
    (h : ShowsLine output (name ++ ['[']) (cellRest index value)) (kind : ClientKind)
    (size i : Int) :
    parseRead kind output name size (some i) = .ok (.cell value) := by
  have hsync := parseRegisterReadSingle_shown hname h i
  have hagrees := registerReadSingle_agrees output name i
  rw [hsync] at hagrees
  cases kind with
  | sync => simp only [parseRead, hsync, Except.map, Except.mapError]
  | async =>
      generalize hasync : asyncParseRegisterReadSingle output name i = result at hagrees
      cases hagrees
      simp only [parseRead, hasync, Except.map, Except.mapError]

/-- The parsers of both clients read the cells that are shown. -/
theorem parseRead_cells
    {output name : Text} {values : List Nat}
    (h : ShowsLine output (name ++ ['=']) (cellsRest values)) (kind : ClientKind) :
    parseRead kind output name values.length none = .ok (.cells (values.map Int.ofNat)) := by
  have hsync := parseRegisterReadArray_shown h
  have hagrees := registerReadArray_agrees output name values.length
  rw [hsync] at hagrees
  cases kind with
  | sync => simp only [parseRead, hsync, Except.map, Except.mapError]
  | async =>
      generalize hasync : asyncParseRegisterReadArray output name values.length = result at hagrees
      cases hagrees
      simp only [parseRead, hasync, Except.map, Except.mapError]

/-- A list of cells is returned only if it has the declared size. -/
theorem readArray_length
    {output name : Text} {size : Int} {lines : List Text} {values : List Int}
    (h : readArray output name size lines = .ok values) :
    (values.length : Int) = size := by
  induction lines with
  | nil => cases h
  | cons line rest ih =>
      rw [readArray_cons] at h
      split_ifs at h with hprefix
      · split at h
        · cases h
        · rename_i found hfound
          split_ifs at h with hsize
          rw [← Except.ok.inj h]
          exact not_not.mp hsize
      · exact ih h

theorem parseRead_size
    {kind : ClientKind} {output name : Text} {size : Int} {value : RegisterValue}
    (h : parseRead kind output name size none = .ok value) :
    0 ≤ size := by
  have hagrees := registerReadArray_agrees output name size
  cases hsync : parseRegisterReadArray output name size with
  | ok values =>
      rw [← readArray_length hsync]
      exact Int.natCast_nonneg _
  | error e =>
      cases kind with
      | sync =>
          simp only [parseRead, hsync, Except.map, Except.mapError] at h
          cases h
      | async =>
          rw [hsync] at hagrees
          generalize hasync : asyncParseRegisterReadArray output name size = result at hagrees
          cases hagrees
          simp only [parseRead, hasync, Except.map, Except.mapError] at h
          cases h

/-! ### Register files -/

/-- The cells of the registers of a switch, by name and index. -/
abbrev Cells := Text → Nat → Nat

/-- The cells after one of them was written. -/
def Cells.set (cells : Cells) (name : Text) (index value : Nat) : Cells :=
  fun n i => if n = name ∧ i = index then value else cells n i

/-- The run ended well, and printed this on its standard output. -/
def EndsWell (run : CliRun) (stdout : Text) : Prop :=
  ∃ stderr, run = .exited 0 stdout stderr ∧ errorLine (stdout ++ stderr) = none

/-- What the tool does to the cells of the declared registers, and how it shows them. -/
structure Answers {σ : Type} (registers : List RegisterSpec) (cells : σ → Cells) (tool : Tool σ)
    (s : σ) : Prop where
  /-- A write that ends well is done; one that does not may be done, unless it was not started. -/
  write : ∀ argv, ∀ spec ∈ registers, ∀ index value : Nat,
    let run := tool s argv (commandText ["register_write".toList, spec.name,
      Formatting.intText index, Formatting.intText value] ++ ['\n'])
    (cells run.1 = cells s ∨ cells run.1 = (cells s).set spec.name index value) ∧
      (run.2 = .notFound → cells run.1 = cells s) ∧
      ∀ stdout, EndsWell run.2 stdout → cells run.1 = (cells s).set spec.name index value
  /-- A cell is shown by a line `<name>[<index>]= <value>`. -/
  readCell : ∀ argv, ∀ spec ∈ registers, ∀ index : Nat,
    let run := tool s argv (commandText ["register_read".toList, spec.name,
      Formatting.intText index] ++ ['\n'])
    cells run.1 = cells s ∧ ∀ stdout, EndsWell run.2 stdout →
      ShowsLine stdout (spec.name ++ ['[']) (cellRest index (cells s spec.name index))
  /-- All cells are shown by a line `<name>= v0, v1, …`. -/
  readCells : ∀ argv, ∀ spec ∈ registers,
    let run := tool s argv (commandText ["register_read".toList, spec.name] ++ ['\n'])
    cells run.1 = cells s ∧ ∀ stdout, EndsWell run.2 stdout →
      ShowsLine stdout (spec.name ++ ['='])
        (cellsRest ((List.range spec.size.toNat).map (cells s spec.name)))

/-- A call of one of the two methods, with its arguments. -/
inductive RegisterOp where
  | write (name : Text) (index value : Int)
  | read (name : Text) (index : Option Int)

/-- A call, the client that makes it, and the tool that it runs. -/
structure RegisterCall (σ : Type) where
  tool : Tool σ
  client : RegisterClient
  op : RegisterOp

/-- What a call returns: a read returns a value. -/
abbrev RegisterReply := Except RegisterCallError (Option RegisterValue)

/-- The state after a call, and its reply. -/
def serve {σ : Type} (s : σ) (call : RegisterCall σ) : σ × RegisterReply :=
  match call.op with
  | .write name index value =>
      let out := writeRegister call.tool call.client s name index value
      (out.1, out.2.map fun _ => none)
  | .read name index =>
      let out := readRegister call.tool call.client s name index
      (out.1, out.2.map some)

/-- The tool keeps its promises, and the client has the registers that the device runs. -/
def Serves {σ : Type} (registers : List RegisterSpec) (cells : σ → Cells) (s : σ)
    (call : RegisterCall σ) : Prop :=
  Answers registers cells call.tool s ∧ call.client.registers = some registers

/-- The error is raised only after the tool was started. -/
def RegisterCallError.AfterStart : RegisterCallError → Prop
  | .cliTimedOut | .cancelled | .cliRaised | .cliFailed _ _ | .cliError _ => True
  | _ => False

/-- What the reply to a call says about the cells before and after it. -/
inductive CellStep {σ : Type} (registers : List RegisterSpec) :
    Cells → RegisterCall σ → RegisterReply → Cells → Prop
  | written {cells : Cells} {tool : Tool σ} {client : RegisterClient} {spec : RegisterSpec}
      {index value : Nat}
      (hspec : spec ∈ registers) (hindex : (index : Int) < spec.size)
      (hvalue : value < 2 ^ spec.bitwidth) :
      CellStep registers cells ⟨tool, client, .write spec.name index value⟩ (.ok none)
        (cells.set spec.name index value)
  | readCell {cells : Cells} {tool : Tool σ} {client : RegisterClient} {spec : RegisterSpec}
      {index : Nat}
      (hspec : spec ∈ registers) (hindex : (index : Int) < spec.size) :
      CellStep registers cells ⟨tool, client, .read spec.name (some index)⟩
        (.ok (some (.cell (cells spec.name index)))) cells
  | readCells {cells : Cells} {tool : Tool σ} {client : RegisterClient} {spec : RegisterSpec}
      (hspec : spec ∈ registers) :
      CellStep registers cells ⟨tool, client, .read spec.name none⟩
        (.ok (some (.cells ((List.range spec.size.toNat).map
          fun i => (cells spec.name i : Int))))) cells
  | raised {cells : Cells} {call : RegisterCall σ} (e : RegisterCallError) :
      CellStep registers cells call (.error e) cells
  | perhapsWritten {cells : Cells} {tool : Tool σ} {client : RegisterClient}
      {spec : RegisterSpec} {index value : Nat} {e : RegisterCallError}
      (hspec : spec ∈ registers) (hindex : (index : Int) < spec.size)
      (hvalue : value < 2 ^ spec.bitwidth) (hstarted : e.AfterStart) :
      CellStep registers cells ⟨tool, client, .write spec.name index value⟩ (.error e)
        (cells.set spec.name index value)

section Calls

variable {σ : Type} {registers : List RegisterSpec} {cells : σ → Cells} {tool : Tool σ}
variable {client : RegisterClient} {s : σ}

/-- A register that is found is declared, under its name. -/
theorem lookupRegister_ok
    {name : Text} {spec : RegisterSpec} (hregisters : client.registers = some registers)
    (h : lookupRegister client name = .ok spec) :
    spec ∈ registers ∧ spec.name = name := by
  simp only [lookupRegister, hregisters] at h
  split_ifs at h
  split at h
  · cases h
  · rename_i found hget
    obtain rfl := Except.ok.inj h
    have hentry := OrderedDict.mem_of_mem_ofList ((OrderedDict.get?_eq_some_iff _ _ _).mp hget)
    obtain ⟨r, hmem, heq⟩ := List.mem_map.mp hentry
    obtain ⟨rfl, rfl⟩ := Prod.mk.inj heq
    exact ⟨hmem, rfl⟩

/-- What `write_register` sends is for a cell of a declared register and fits it. -/
theorem writeCommand_ok
    {name command : Text} {index value : Int} (hregisters : client.registers = some registers)
    (h : writeCommand client name index value = .ok command) :
    ∃ spec ∈ registers, ∃ i v : Nat, spec.name = name ∧ index = i ∧ value = v ∧
      (i : Int) < spec.size ∧ v < 2 ^ spec.bitwidth ∧
      command = commandText ["register_write".toList, spec.name, Formatting.intText i,
        Formatting.intText v] := by
  simp only [writeCommand, Topo.bind_eq_ok_iff] at h
  obtain ⟨spec, hlookup, h⟩ := h
  obtain ⟨hspec, rfl⟩ := lookupRegister_ok hregisters hlookup
  split_ifs at h with hrange
  split at h
  · cases h
  · rename_i data henc
    have hw : 1 ≤ spec.bitwidth := by
      by_contra hzero
      rw [encodeValue, if_pos (by omega)] at henc
      cases henc
    rw [encodeValue, if_neg (by omega)] at henc
    obtain ⟨v, rfl, hlt, -⟩ := (encodeInt_eq_ok_iff hw value data).mp henc
    obtain ⟨i, rfl⟩ := Int.eq_ofNat_of_zero_le hrange.1
    exact ⟨spec, hspec, i, v, rfl, rfl, rfl, hrange.2, hlt, (Except.ok.inj h).symm⟩

/-- What `read_register` sends is for a declared register. -/
theorem readCommand_ok
    {name command : Text} {index : Option Int} {spec : RegisterSpec}
    (hregisters : client.registers = some registers)
    (h : readCommand client name index = .ok (spec, command)) :
    spec ∈ registers ∧ spec.name = name ∧
      ((index = none ∧ command = commandText ["register_read".toList, name]) ∨
        ∃ i : Nat, index = some (i : Int) ∧ (i : Int) < spec.size ∧
          command = commandText ["register_read".toList, name, Formatting.intText i]) := by
  simp only [readCommand, Topo.bind_eq_ok_iff] at h
  obtain ⟨found, hlookup, h⟩ := h
  obtain ⟨hspec, rfl⟩ := lookupRegister_ok hregisters hlookup
  cases index with
  | none =>
      obtain ⟨rfl, rfl⟩ := Prod.mk.inj (Except.ok.inj h)
      exact ⟨hspec, rfl, Or.inl ⟨rfl, rfl⟩⟩
  | some z =>
      simp only at h
      split_ifs at h with hrange
      obtain ⟨rfl, rfl⟩ := Prod.mk.inj (Except.ok.inj h)
      obtain ⟨i, rfl⟩ := Int.eq_ofNat_of_zero_le hrange.1
      exact ⟨hspec, rfl, Or.inr ⟨i, rfl, hrange.2, rfl⟩⟩

/-- A run returns its output only if it ended well, and raises only after it was started. -/
theorem runResult_cases
    (run : CliRun) :
    (∃ stdout, runResult run = .ok stdout ∧ EndsWell run stdout) ∨
      ∃ e, runResult run = .error e ∧ (run = .notFound ∨ e.AfterStart) := by
  cases run with
  | notFound => exact Or.inr ⟨_, rfl, Or.inl rfl⟩
  | timedOut => exact Or.inr ⟨_, rfl, Or.inr trivial⟩
  | cancelled => exact Or.inr ⟨_, rfl, Or.inr trivial⟩
  | raised => exact Or.inr ⟨_, rfl, Or.inr trivial⟩
  | exited returncode stdout stderr =>
      by_cases hcode : returncode = 0
      · subst hcode
        simp only [runResult, ne_eq, not_true_eq_false, if_false]
        cases hline : errorLine (stdout ++ stderr) with
        | none => exact Or.inl ⟨stdout, rfl, stderr, rfl, hline⟩
        | some line => exact Or.inr ⟨_, rfl, Or.inr trivial⟩
      · simp only [runResult, ne_eq, hcode, not_false_eq_true, if_true]
        exact Or.inr ⟨_, rfl, Or.inr trivial⟩

end Calls

/-- Without an address nothing is run; otherwise the tool is run once, on the command. -/
theorem runThriftCli_cases
    {σ : Type} (tool : Tool σ) (client : RegisterClient) (s : σ) (command : Text) :
    runThriftCli tool client s command = (s, .error .noThriftAddress) ∨
      ∃ argv, runThriftCli tool client s command =
        ((tool s argv (command ++ ['\n'])).1, runResult (tool s argv (command ++ ['\n'])).2) := by
  unfold runThriftCli
  cases client.thriftAddress with
  | none => exact Or.inl rfl
  | some address => exact Or.inr ⟨thriftArgv address.1 address.2, rfl⟩

section Step

variable {σ : Type} {registers : List RegisterSpec} {cells : σ → Cells} {tool : Tool σ}
variable {client : RegisterClient} {s : σ}
variable (hanswers : Answers registers cells tool s)
  (hregisters : client.registers = some registers)

include hanswers hregisters

/-- A write changes its own cell, or raises; it changes nothing before the tool is started. -/
theorem serve_write
    (name : Text) (index value : Int) :
    let call : RegisterCall σ := ⟨tool, client, .write name index value⟩
    CellStep registers (cells s) call (serve s call).2 (cells (serve s call).1) := by
  intro call
  cases hcommand : writeCommand client name index value with
  | error e =>
      have hserve : serve s call = (s, .error e) := by
        simp only [call, serve, writeRegister, hcommand, Except.map]
      rw [hserve]
      exact .raised e
  | ok command =>
      obtain ⟨spec, hspec, i, v, rfl, rfl, rfl, hi, hv, rfl⟩ :=
        writeCommand_ok hregisters hcommand
      rcases runThriftCli_cases tool client s (commandText ["register_write".toList, spec.name,
        Formatting.intText i, Formatting.intText v]) with hrun | ⟨argv, hrun⟩
      · have hserve : serve s call = (s, .error .noThriftAddress) := by
          simp only [call, serve, writeRegister, hcommand, hrun, Except.map]
        rw [hserve]
        exact .raised _
      obtain ⟨heither, hnotFound, hwell⟩ := hanswers.write argv spec hspec i v
      generalize tool s argv (commandText ["register_write".toList, spec.name,
        Formatting.intText i, Formatting.intText v] ++ ['\n']) = run at hrun heither hnotFound hwell
      rcases runResult_cases run.2 with ⟨stdout, hok, hends⟩ | ⟨e, herror, hstarted⟩
      · have hserve : serve s call = (run.1, .ok none) := by
          simp only [call, serve, writeRegister, hcommand, hrun, hok, Except.map]
        rw [hserve, hwell stdout hends]
        exact .written hspec hi hv
      · have hserve : serve s call = (run.1, .error e) := by
          simp only [call, serve, writeRegister, hcommand, hrun, herror, Except.map]
        rw [hserve]
        rcases hstarted with hnone | hstarted
        · rw [hnotFound hnone]
          exact .raised e
        rcases heither with hsame | hset
        · rw [hsame]
          exact .raised e
        · rw [hset]
          exact .perhapsWritten hspec hi hv hstarted

variable (hnames : ∀ spec ∈ registers, '=' ∉ spec.name)

include hnames

/-- A read returns the cells, or raises; it changes nothing. -/
theorem serve_read
    (name : Text) (index : Option Int) :
    let call : RegisterCall σ := ⟨tool, client, .read name index⟩
    CellStep registers (cells s) call (serve s call).2 (cells (serve s call).1) := by
  intro call
  cases hcommand : readCommand client name index with
  | error e =>
      have hserve : serve s call = (s, .error e) := by
        simp only [call, serve, readRegister, hcommand, Except.map]
      rw [hserve]
      exact .raised e
  | ok sent =>
      obtain ⟨spec, command⟩ := sent
      obtain ⟨hspec, rfl, hcases⟩ := readCommand_ok hregisters hcommand
      rcases runThriftCli_cases tool client s command with hrun | ⟨argv, hrun⟩
      · have hserve : serve s call = (s, .error .noThriftAddress) := by
          simp only [call, serve, readRegister, hcommand, hrun, Except.bind, Except.map]
        rw [hserve]
        exact .raised _
      -- What both kinds of reads share: the cells stay, and what ends well is parsed.
      have hread : cells (tool s argv (command ++ ['\n'])).1 = cells s →
          (∀ stdout value, EndsWell (tool s argv (command ++ ['\n'])).2 stdout →
            parseRead client.kind stdout spec.name spec.size index = .ok value →
            CellStep registers (cells s) call (.ok (some value)) (cells s)) →
          CellStep registers (cells s) call (serve s call).2 (cells (serve s call).1) := by
        intro hsame hparsed
        rcases runResult_cases (tool s argv (command ++ ['\n'])).2 with
          ⟨stdout, hok, hends⟩ | ⟨e, herror, -⟩
        · cases hparse : parseRead client.kind stdout spec.name spec.size index with
          | error e =>
              have hserve : serve s call = ((tool s argv (command ++ ['\n'])).1, .error e) := by
                simp only [call, serve, readRegister, hcommand, hrun, hok, Except.bind, hparse,
                  Except.map]
              rw [hserve, hsame]
              exact .raised e
          | ok value =>
              have hserve : serve s call =
                  ((tool s argv (command ++ ['\n'])).1, .ok (some value)) := by
                simp only [call, serve, readRegister, hcommand, hrun, hok, Except.bind, hparse,
                  Except.map]
              rw [hserve, hsame]
              exact hparsed stdout value hends hparse
        · have hserve : serve s call = ((tool s argv (command ++ ['\n'])).1, .error e) := by
            simp only [call, serve, readRegister, hcommand, hrun, herror, Except.bind, Except.map]
          rw [hserve, hsame]
          exact .raised e
      rcases hcases with ⟨rfl, rfl⟩ | ⟨i, rfl, hi, rfl⟩
      · obtain ⟨hsame, hshown⟩ := hanswers.readCells argv spec hspec
        refine hread hsame fun stdout value hends hparse => ?_
        have hshow := parseRead_cells (hshown stdout hends) client.kind
        rw [List.length_map, List.length_range, Int.toNat_of_nonneg (parseRead_size hparse),
          hparse] at hshow
        rw [Except.ok.inj hshow, List.map_map]
        exact .readCells hspec
      · obtain ⟨hsame, hshown⟩ := hanswers.readCell argv spec hspec i
        refine hread hsame fun stdout value hends hparse => ?_
        rw [parseRead_cell (hnames spec hspec) (hshown stdout hends)] at hparse
        rw [← Except.ok.inj hparse]
        exact .readCell hspec hi

end Step

/-- One call is a step of the cells. -/
theorem serve_step
    {σ : Type} {registers : List RegisterSpec} {cells : σ → Cells}
    (hnames : ∀ spec ∈ registers, '=' ∉ spec.name) (s : σ) (call : RegisterCall σ)
    (hserves : Serves registers cells s call) :
    CellStep registers (cells s) call (serve s call).2 (cells (serve s call).1) := by
  obtain ⟨tool, client, op⟩ := call
  obtain ⟨hanswers, hregisters⟩ := hserves
  cases op with
  | write name index value => exact serve_write hanswers hregisters name index value
  | read name index => exact serve_read hanswers hregisters hnames name index

/-- Every cell of a declared register fits its width. -/
def Fits (registers : List RegisterSpec) (cells : Cells) : Prop :=
  ∀ spec ∈ registers, ∀ index, cells spec.name index < 2 ^ spec.bitwidth

/--
Whatever calls clients of both kinds make, and however the runs of the tool end, their replies
are those of one register file: a read returns what was written last, a call that raises before
the tool is started changes nothing, and a write that raises later may have been done.
-/
theorem registers_refine
    {σ : Type} (registers : List RegisterSpec) (cells : σ → Cells) (s : σ)
    (calls : List (RegisterCall σ))
    (hnames : ∀ spec ∈ registers, '=' ∉ spec.name)
    (honce : (registers.map RegisterSpec.name).Nodup)
    (hfits : Fits registers (cells s))
    (hserves : Admitted serve (Serves registers cells) s calls) :
    Explains (CellStep registers) (cells s) (transcript serve s calls).1
        (cells (transcript serve s calls).2) ∧
      Fits registers (cells (transcript serve s calls).2) := by
  have hexplains := Explains.of_abstraction cells (serve_step hnames) hserves
  refine ⟨hexplains, hexplains.invariant hfits ?_⟩
  have hset : ∀ {c : Cells} {spec : RegisterSpec} {index value : Nat}, spec ∈ registers →
      value < 2 ^ spec.bitwidth → Fits registers c →
        Fits registers (c.set spec.name index value) := by
    intro c spec index value hspec hvalue hc found hfound i
    unfold Cells.set
    split_ifs with hsame
    · rwa [List.inj_on_of_nodup_map honce hfound hspec hsame.1]
    · exact hc found hfound i
  intro c call reply c' _ hc hstep
  cases hstep with
  | written hspec _ hvalue => exact hset hspec hvalue hc
  | readCell => exact hc
  | readCells => exact hc
  | raised => exact hc
  | perhapsWritten hspec _ hvalue _ => exact hset hspec hvalue hc

/-! ### A tool -/

/-- A run that prints one line after the prompt. -/
def printed (line : Text) : CliRun := .exited 0 (runtimeCmd ++ ' ' :: line ++ ['\n']) []

/-- A tool on a register file that reads the words of its input. -/
def cellTool (registers : List RegisterSpec) : Tool Cells := fun cells _ input =>
  match splitOn ' ' input.dropLast with
  | [_, name, index, value] =>
      match parseInt 10 index, parseInt 10 value with
      | some i, some v => (cells.set name i.toNat v.toNat, printed [])
      | _, _ => (cells, printed "Error: bad number".toList)
  | [_, name, index] =>
      match parseInt 10 index with
      | some i => (cells, printed (name ++ ['['] ++ cellRest i.toNat (cells name i.toNat)))
      | none => (cells, printed "Error: bad number".toList)
  | [_, name] =>
      let size := ((registersByName registers).get? name).elim 0 RegisterSpec.size
      (cells, printed (name ++ ['='] ++ cellsRest ((List.range size.toNat).map (cells name))))
  | _ => (cells, printed "Error: bad command".toList)

/-- Neither white space nor an equals sign. -/
def PlainName (name : Text) : Prop := ∀ c ∈ name, isSpace c = false ∧ c ≠ '='

theorem not_isLineBreak_of_noSpace
    {c : Char} (h : isSpace c = false) :
    isLineBreak c = false := by
  by_contra hbreak
  simp [isLineBreak, isSpace, unicodeSpace] at h hbreak
  omega

/-- A line without breaks, ended by one, is one line. -/
theorem splitLines_single
    {text : Text} (hne : text ≠ []) (h : ∀ c ∈ text, isLineBreak c = false) :
    splitLines (text ++ ['\n']) = [text] := by
  have hlines : ∀ current : Text, linesFrom current (text ++ ['\n']) = [current ++ text] := by
    induction text with
    | nil => exact absurd rfl hne
    | cons c rest ih =>
        intro current
        have hc := h c List.mem_cons_self
        have hnot : c ≠ '\r' := by
          rintro rfl
          exact absurd hc (by decide)
        rw [List.cons_append, linesFrom, if_neg (by simp [hc])]
        · cases rest with
          | nil => simp [linesFrom, isLineBreak]
          | cons d rest =>
              rw [ih (List.cons_ne_nil _ _) fun e he => h e (List.mem_cons_of_mem _ he)]
              simp
        · intro _ hreturn
          exact absurd hreturn hnot
  exact hlines []

theorem prompt_oneLine :
    ∀ c ∈ runtimeCmd, isLineBreak c = false := by
  decide +kernel

/-- The answer of a printed line is the line. -/
theorem answer_printed
    {line : Text} (hne : line ≠ [])
    (hhead : ∀ c, line.head? = some c → isSpace c = false)
    (hlast : ∀ c, line.getLast? = some c → isSpace c = false) :
    answer (runtimeCmd ++ ' ' :: line) = line := by
  have hwhole : strip (runtimeCmd ++ ' ' :: line) = runtimeCmd ++ ' ' :: line := by
    refine strip_of_ends ?_ ?_
    · intro c hc
      obtain rfl : 'R' = c := Option.some.inj hc
      decide
    · intro c hc
      rw [List.append_cons, List.getLast?_append_of_ne_nil _ hne] at hc
      exact hlast c hc
  have hrest : strip (' ' :: line) = line := by
    have hdrop : strip (' ' :: line) = strip line := by
      rw [strip, strip, List.dropWhile_cons_of_pos (by decide)]
    rw [hdrop, strip_of_ends hhead hlast]
  rw [answer, hwhole, if_pos (by simp), List.drop_left, hrest]

/-- A printed line of a plain name shows what follows its start. -/
theorem showsLine_printed
    {name : Text} (hname : PlainName name) (hne : name ≠ []) {mark : Char} {rest stdout : Text}
    (hmark : isLineBreak mark = false) (hmarkSpace : isSpace mark = false)
    (hrest : ∀ c ∈ rest, isLineBreak c = false)
    (hlast : ∀ c, rest.getLast? = some c → isSpace c = false)
    (h : EndsWell (printed (name ++ [mark] ++ rest)) stdout) :
    ShowsLine stdout (name ++ [mark]) rest := by
  obtain ⟨stderr, hexited, -⟩ := h
  obtain ⟨-, rfl, rfl⟩ := CliRun.exited.inj hexited
  have hbreak : ∀ c ∈ runtimeCmd ++ ' ' :: (name ++ [mark] ++ rest), isLineBreak c = false := by
    intro c hc
    simp only [List.mem_append, List.mem_cons, List.not_mem_nil, or_false] at hc
    rcases hc with hc | rfl | (hc | rfl) | hc
    · exact prompt_oneLine c hc
    · decide
    · exact not_isLineBreak_of_noSpace (hname c hc).1
    · exact hmark
    · exact hrest c hc
  have hone := splitLines_single (by simp) hbreak
  refine ⟨[], runtimeCmd ++ ' ' :: (name ++ [mark] ++ rest), [], hone,
    answer_printed (by simp) ?_ ?_, fun b hb => absurd hb List.not_mem_nil⟩
  · intro c hc
    rw [List.append_assoc, List.head?_append_of_ne_nil _ hne] at hc
    exact (hname c (List.mem_of_head? hc)).1
  · intro c hc
    by_cases hempty : rest = []
    · rw [hempty, List.append_nil, List.getLast?_concat] at hc
      rwa [← Option.some.inj hc]
    · rw [List.getLast?_append_of_ne_nil _ hempty] at hc
      exact hlast c hc

theorem intText_natCast
    (n : Nat) :
    Formatting.intText n = Nat.toDigits 10 n := by
  rw [Formatting.intText, if_neg (by omega), Int.toNat_natCast]

/-- The words of a command are read back. -/
theorem splitOn_commandText
    {words : List Text} (hne : words ≠ []) (h : ∀ word ∈ words, ' ' ∉ word) :
    splitOn ' ' (commandText words ++ ['\n']).dropLast = words := by
  rw [List.dropLast_concat, commandText, splitOn_join hne h]

theorem blank_not_mem_toDigits
    (n : Nat) :
    ' ' ∉ Nat.toDigits 10 n :=
  fun hc => absurd (noSpace_toDigits hc) (by decide)

section Tool

variable {registers : List RegisterSpec} {name : Text} (hname : ' ' ∉ name) (cells : Cells)
  (argv : List Text)

include hname

theorem cellTool_write
    (index value : Nat) :
    cellTool registers cells argv (commandText ["register_write".toList, name,
      Formatting.intText index, Formatting.intText value] ++ ['\n']) =
      (cells.set name index value, printed []) := by
  unfold cellTool
  rw [splitOn_commandText (List.cons_ne_nil _ _)]
  · simp only [intText_natCast, parseInt_toDigits, Int.toNat_natCast]
  · simp only [List.mem_cons, List.not_mem_nil, or_false, forall_eq_or_imp, forall_eq,
      intText_natCast]
    exact ⟨by decide, hname, blank_not_mem_toDigits _, blank_not_mem_toDigits _⟩

theorem cellTool_readCell
    (index : Nat) :
    cellTool registers cells argv (commandText ["register_read".toList, name,
      Formatting.intText index] ++ ['\n']) =
      (cells, printed (name ++ ['['] ++ cellRest index (cells name index))) := by
  unfold cellTool
  rw [splitOn_commandText (List.cons_ne_nil _ _)]
  · simp only [intText_natCast, parseInt_toDigits, Int.toNat_natCast]
  · simp only [List.mem_cons, List.not_mem_nil, or_false, forall_eq_or_imp, forall_eq,
      intText_natCast]
    exact ⟨by decide, hname, blank_not_mem_toDigits _⟩

theorem cellTool_readCells :
    cellTool registers cells argv (commandText ["register_read".toList, name] ++ ['\n']) =
      (cells, printed (name ++ ['='] ++ cellsRest ((List.range
        (((registersByName registers).get? name).elim 0 RegisterSpec.size).toNat).map
          (cells name)))) := by
  unfold cellTool
  rw [splitOn_commandText (List.cons_ne_nil _ _)]
  simp only [List.mem_cons, List.not_mem_nil, or_false, forall_eq_or_imp, forall_eq]
  exact ⟨by decide, hname⟩

end Tool

/-- What is shown of cells has no line break and ends with a digit. -/
theorem cellRest_plain
    (index value : Nat) :
    (∀ c ∈ cellRest index value, isLineBreak c = false) ∧
      ∀ c, (cellRest index value).getLast? = some c → isSpace c = false := by
  constructor
  · intro c hc
    simp only [cellRest, List.mem_append, List.mem_cons] at hc
    rcases hc with (hc | hc) | rfl | hc
    · exact not_isLineBreak_of_noSpace (noSpace_toDigits hc)
    · exact (show ∀ c ∈ "]=".toList, isLineBreak c = false by decide) c hc
    · decide
    · exact not_isLineBreak_of_noSpace (noSpace_toDigits hc)
  · intro c hc
    rw [cellRest, List.append_cons, List.getLast?_append_of_ne_nil _ Nat.toDigits_ne_nil] at hc
    exact noSpace_toDigits (List.mem_of_getLast? hc)

theorem cellsRest_plain
    (values : List Nat) :
    (∀ c ∈ cellsRest values, isLineBreak c = false) ∧
      ∀ c, (cellsRest values).getLast? = some c → isSpace c = false := by
  constructor
  · intro c hc
    rcases mem_join hc with rfl | ⟨part, hpart, hc⟩
    · decide
    · obtain ⟨n, -, rfl⟩ := List.mem_map.mp hpart
      rcases List.mem_cons.mp hc with rfl | hc
      · decide
      · exact not_isLineBreak_of_noSpace (noSpace_toDigits hc)
  · intro c hc
    rcases values.eq_nil_or_concat with rfl | ⟨front, last, rfl⟩
    · cases hc
    · rw [cellsRest, List.concat_eq_append, List.map_append, List.map_singleton, join_concat_eq,
        List.append_cons, List.getLast?_append_of_ne_nil _ Nat.toDigits_ne_nil] at hc
      exact noSpace_toDigits (List.mem_of_getLast? hc)

/-- The tool keeps the promises for registers with plain names. -/
theorem cellTool_answers
    {registers : List RegisterSpec} (hplain : ∀ spec ∈ registers, PlainName spec.name)
    (hne : ∀ spec ∈ registers, spec.name ≠ [])
    (honce : (registers.map RegisterSpec.name).Nodup) (cells : Cells) :
    Answers registers id (cellTool registers) cells := by
  have hblank : ∀ spec ∈ registers, ' ' ∉ spec.name := by
    intro spec hspec hc
    exact absurd (hplain spec hspec _ hc).1 (by decide)
  refine ⟨?_, ?_, ?_⟩
  · intro argv spec hspec index value run
    have hrun : run = (cells.set spec.name index value, printed []) :=
      cellTool_write (hblank spec hspec) cells argv index value
    rw [hrun]
    refine ⟨Or.inr rfl, ?_, fun _ _ => rfl⟩
    intro hnone
    cases hnone
  · intro argv spec hspec index run
    have hrun : run = (cells, printed (spec.name ++ ['['] ++
        cellRest index (cells spec.name index))) :=
      cellTool_readCell (hblank spec hspec) cells argv index
    obtain ⟨hbreak, hlast⟩ := cellRest_plain index (cells spec.name index)
    rw [hrun]
    exact ⟨rfl, fun stdout hends => showsLine_printed (hplain spec hspec) (hne spec hspec)
      (by decide) (by decide) hbreak hlast hends⟩
  · intro argv spec hspec run
    have hget : (registersByName registers).get? spec.name = some spec :=
      OrderedDict.get?_ofList_map honce hspec
    have hrun : run = (cells, printed (spec.name ++ ['='] ++
        cellsRest ((List.range spec.size.toNat).map (cells spec.name)))) := by
      have hshown : run = _ := cellTool_readCells (hblank spec hspec) cells argv
      rwa [hget] at hshown
    obtain ⟨hbreak, hlast⟩ :=
      cellsRest_plain ((List.range spec.size.toNat).map (cells spec.name))
    rw [hrun]
    exact ⟨rfl, fun stdout hends => showsLine_printed (hplain spec hspec) (hne spec hspec)
      (by decide) (by decide) hbreak hlast hends⟩

/-- One cell is written by one client and read by the other, beside a value that is too wide. -/
theorem registers_refine_switchId :
    let registers : List RegisterSpec := [⟨1, "MyIngress.switch_id".toList, 8, 2⟩]
    let client : ClientKind → RegisterClient :=
      fun kind => ⟨kind, true, some registers, some ("127.0.0.1".toList, 9090)⟩
    let calls : List (RegisterCall Cells) :=
      [⟨cellTool registers, client .sync, .write "MyIngress.switch_id".toList 1 7⟩,
        ⟨cellTool registers, client .sync, .write "MyIngress.switch_id".toList 1 256⟩,
        ⟨cellTool registers, client .async, .read "MyIngress.switch_id".toList none⟩]
    Explains (CellStep registers) (fun _ _ => 0)
        (transcript serve (fun _ _ => 0 : Cells) calls).1
        (transcript serve (fun _ _ => 0 : Cells) calls).2 ∧
      Fits registers (transcript serve (fun _ _ => 0 : Cells) calls).2 := by
  intro registers client calls
  have hanswers : ∀ cells : Cells, Answers registers id (cellTool registers) cells :=
    fun cells => cellTool_answers (by unfold PlainName; decide) (by decide) (by decide) cells
  refine registers_refine registers id (fun _ _ => 0) calls (by decide) (by decide) ?_ ?_
  · exact fun spec hspec index => Nat.two_pow_pos _
  · exact ⟨⟨hanswers _, rfl⟩, ⟨hanswers _, rfl⟩, ⟨hanswers _, rfl⟩, trivial⟩

end Registers
end P4Net

import P4Net.TextLines

/-!
# Reading registers from the output of `simple_switch_CLI`

P4Runtime of BMv2 has no register reads, so both clients run the Thrift command line tool and
parse what it prints.  Each has its own copy of `_parse_register_read_single` and
`_parse_register_read_array`; this module models the four functions.

* `Agrees` : two computations return equal values or raise exceptions of one class.
* `registerReadSingle_agrees`, `registerReadArray_agrees` : the copies agree.
-/

namespace P4Net

/-- The exception classes that table and register operations raise. -/
inductive ExceptionClass where
  | p4RuntimeError
  | connectionError
  | noSuchTableError
  | noSuchActionError
  | noSuchFieldError
  | encodingError
  | assertionError
deriving DecidableEq, Repr

section Agreement

variable {ε ε' α β : Type} {cls : ε → ExceptionClass} {cls' : ε' → ExceptionClass}

/-- Both return one value, or both raise an exception of one class. -/
inductive Agrees (cls : ε → ExceptionClass) (cls' : ε' → ExceptionClass) :
    Except ε α → Except ε' α → Prop
  | ok (a : α) : Agrees cls cls' (.ok a) (.ok a)
  | error {e : ε} {e' : ε'} (h : cls e = cls' e') : Agrees cls cls' (.error e) (.error e')

/-- Computations that agree may be continued by continuations that agree. -/
theorem Agrees.bind
    {x : Except ε α} {y : Except ε' α} (h : Agrees cls cls' x y)
    {f : α → Except ε β} {g : α → Except ε' β} (hcont : ∀ a, Agrees cls cls' (f a) (g a)) :
    Agrees cls cls' (x >>= f) (y >>= g) := by
  cases h with
  | ok a => exact hcont a
  | error hclass => exact Agrees.error hclass

end Agreement

namespace Registers

open TextLiterals

/-- The errors of the parsers of `P4RuntimeClient`, with the data of their messages. -/
inductive RegisterError where
  | badValue (name : Text) (index : Int) (valueText : Text)
  | noValueLineAt (name : Text) (index : Int) (output : Text)
  | badValues (name valueText : Text)
  | wrongCells (name : Text) (size : Int) (got : Nat)
  | noValueLine (name output : Text)
deriving DecidableEq, Repr

/-- The errors of the parsers of `AsyncP4RuntimeClient`, which leave the texts out. -/
inductive AsyncRegisterError where
  | badValue (name : Text) (index : Int)
  | noValueLineAt (name : Text) (index : Int)
  | badValues (name : Text)
  | wrongCells (name : Text) (size : Int) (got : Nat)
  | noValueLine (name : Text)
deriving DecidableEq, Repr

/-- Every one is raised as `P4RuntimeError`. -/
def RegisterError.cls (_ : RegisterError) : ExceptionClass := .p4RuntimeError

/-- Every one is raised as `P4RuntimeError`. -/
def AsyncRegisterError.cls (_ : AsyncRegisterError) : ExceptionClass := .p4RuntimeError

/-- The prompt that `simple_switch_CLI` puts before its answer. -/
def runtimeCmd : Text := "RuntimeCmd:".toList

/-- The loop of `_parse_register_read_single` of `P4RuntimeClient`. -/
def readSingle (output name : Text) (index : Int) : List Text → Except RegisterError Int
  | [] => .error (.noValueLineAt name index output)
  | rawLine :: rest =>
      let line := strip rawLine
      let line :=
        if runtimeCmd.isPrefixOf line then strip (line.drop runtimeCmd.length) else line
      if (name ++ ['[']).isPrefixOf line then
        match splitOnce '=' line with
        | none => readSingle output name index rest
        | some (_, tail) =>
            let valueText := strip tail
            match parseInt 10 valueText with
            | some value => .ok value
            | none => .error (.badValue name index valueText)
      else readSingle output name index rest

/-- `_parse_register_read_single` of `P4RuntimeClient`. -/
def parseRegisterReadSingle (output name : Text) (index : Int) : Except RegisterError Int :=
  readSingle output name index (splitLines output)

/-- The list of the cells in `v0, v1, …`; pieces of white space are skipped. -/
def cellValues (valueText : Text) : Option (List Int) :=
  ((splitOn ',' valueText).filter (fun v => strip v ≠ [])).mapM (fun v => parseInt 10 (strip v))

/-- The loop of `_parse_register_read_array` of `P4RuntimeClient`. -/
def readArray (output name : Text) (size : Int) : List Text → Except RegisterError (List Int)
  | [] => .error (.noValueLine name output)
  | rawLine :: rest =>
      let line := strip rawLine
      let line :=
        if runtimeCmd.isPrefixOf line then strip (line.drop runtimeCmd.length) else line
      if (name ++ ['=']).isPrefixOf line then
        let valueText := strip (line.drop (name ++ ['=']).length)
        match cellValues valueText with
        | none => .error (.badValues name valueText)
        | some values =>
            if (values.length : Int) ≠ size then .error (.wrongCells name size values.length)
            else .ok values
      else readArray output name size rest

/-- `_parse_register_read_array` of `P4RuntimeClient`. -/
def parseRegisterReadArray (output name : Text) (size : Int) :
    Except RegisterError (List Int) :=
  readArray output name size (splitLines output)

/-- The loop of `_parse_register_read_single` of `AsyncP4RuntimeClient`. -/
def asyncReadSingle (name : Text) (index : Int) : List Text → Except AsyncRegisterError Int
  | [] => .error (.noValueLineAt name index)
  | raw :: rest =>
      let line := strip raw
      let line :=
        if runtimeCmd.isPrefixOf line then strip (line.drop runtimeCmd.length) else line
      if (name ++ ['[']).isPrefixOf line then
        match splitOnce '=' line with
        | none => asyncReadSingle name index rest
        | some (_, tail) =>
            match parseInt 10 (strip tail) with
            | some value => .ok value
            | none => .error (.badValue name index)
      else asyncReadSingle name index rest

/-- `_parse_register_read_single` of `AsyncP4RuntimeClient`. -/
def asyncParseRegisterReadSingle (output name : Text) (index : Int) :
    Except AsyncRegisterError Int :=
  asyncReadSingle name index (splitLines output)

/-- The loop of `_parse_register_read_array` of `AsyncP4RuntimeClient`. -/
def asyncReadArray (name : Text) (size : Int) :
    List Text → Except AsyncRegisterError (List Int)
  | [] => .error (.noValueLine name)
  | raw :: rest =>
      let line := strip raw
      let line :=
        if runtimeCmd.isPrefixOf line then strip (line.drop runtimeCmd.length) else line
      if (name ++ ['=']).isPrefixOf line then
        let valueText := strip (line.drop (name ++ ['=']).length)
        match cellValues valueText with
        | none => .error (.badValues name)
        | some values =>
            if (values.length : Int) ≠ size then .error (.wrongCells name size values.length)
            else .ok values
      else asyncReadArray name size rest

/-- `_parse_register_read_array` of `AsyncP4RuntimeClient`. -/
def asyncParseRegisterReadArray (output name : Text) (size : Int) :
    Except AsyncRegisterError (List Int) :=
  asyncReadArray name size (splitLines output)

/-- On every list of lines the two loops stop at the same line. -/
theorem readSingle_agrees
    (output name : Text) (index : Int) (lines : List Text) :
    Agrees RegisterError.cls AsyncRegisterError.cls
      (readSingle output name index lines) (asyncReadSingle name index lines) := by
  induction lines with
  | nil => exact Agrees.error rfl
  | cons raw rest ih =>
      simp only [readSingle, asyncReadSingle]
      generalize (if runtimeCmd.isPrefixOf (strip raw) then
        strip ((strip raw).drop runtimeCmd.length) else strip raw) = line
      by_cases hneedle : (name ++ ['[']).isPrefixOf line
      · rw [if_pos hneedle, if_pos hneedle]
        cases splitOnce '=' line with
        | none => exact ih
        | some around =>
            dsimp only
            cases parseInt 10 (strip around.2) with
            | none => exact Agrees.error rfl
            | some value => exact Agrees.ok value
      · rw [if_neg hneedle, if_neg hneedle]
        exact ih

theorem readArray_agrees
    (output name : Text) (size : Int) (lines : List Text) :
    Agrees RegisterError.cls AsyncRegisterError.cls
      (readArray output name size lines) (asyncReadArray name size lines) := by
  induction lines with
  | nil => exact Agrees.error rfl
  | cons raw rest ih =>
      simp only [readArray, asyncReadArray]
      generalize (if runtimeCmd.isPrefixOf (strip raw) then
        strip ((strip raw).drop runtimeCmd.length) else strip raw) = line
      by_cases hneedle : (name ++ ['=']).isPrefixOf line
      · rw [if_pos hneedle, if_pos hneedle]
        cases cellValues (strip (line.drop (name ++ ['=']).length)) with
        | none => exact Agrees.error rfl
        | some values =>
            dsimp only
            by_cases hsize : (values.length : Int) ≠ size
            · rw [if_pos hsize, if_pos hsize]
              exact Agrees.error rfl
            · rw [if_neg hsize, if_neg hsize]
              exact Agrees.ok values
      · rw [if_neg hneedle, if_neg hneedle]
        exact ih

/-- The two parsers of one cell agree on every output. -/
theorem registerReadSingle_agrees
    (output name : Text) (index : Int) :
    Agrees RegisterError.cls AsyncRegisterError.cls
      (parseRegisterReadSingle output name index)
      (asyncParseRegisterReadSingle output name index) :=
  readSingle_agrees output name index (splitLines output)

/-- The two parsers of a whole register agree on every output. -/
theorem registerReadArray_agrees
    (output name : Text) (size : Int) :
    Agrees RegisterError.cls AsyncRegisterError.cls
      (parseRegisterReadArray output name size)
      (asyncParseRegisterReadArray output name size) :=
  readArray_agrees output name size (splitLines output)

example :
    parseRegisterReadArray "RuntimeCmd: r= 1, 2\nDone".toList "r".toList 2 = .ok [1, 2] := by
  decide

end Registers
end P4Net

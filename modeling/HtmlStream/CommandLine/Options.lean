import HtmlStream.Machine.Basic
import HtmlStream.Printer
import HtmlStream.Text.Digits

/-! # Options of the command line

The arguments of the program: flags, options with a value behind `=` or in the next argument, and at
most one file. Each of them may be given once, and behind `--` everything is a file.

* **`Setting`**: one argument that was understood.
* **`readSettings`**: all arguments, or the first that was not understood.
* **`Options.ofArguments`**: the settings as one record, those not given at their defaults. -/

namespace HtmlStream.CommandLine

/-! ## (1) Settings -/

/-- Options without a value. -/
inductive Flag where
  /-- Use the shared surface. -/
  | shared
  /-- Report errors with state and position. -/
  | exactErrors
  /-- Keep a byte order mark as text. -/
  | keepBom
  /-- Check the stream of calls against the contract. -/
  | check
  /-- Print the counters at the end. -/
  | stats
  deriving DecidableEq, Repr

/-- Options with a value. -/
inductive ValueOption where
  /-- Bytes in a chunk. -/
  | chunkSize
  /-- The form of the output. -/
  | format
  /-- The kind of content. -/
  | initialState
  /-- The name whose end tag ends raw text. -/
  | lastStartTag
  deriving DecidableEq, Repr

/-- What an argument is about. -/
inductive Key where
  /-- A flag. -/
  | flag (f : Flag)
  /-- An option with a value. -/
  | value (o : ValueOption)
  /-- The file. -/
  | file
  deriving DecidableEq, Repr

/-- An argument, or an option and its value. -/
structure Setting where
  /-- What it is about. -/
  key : Key
  /-- Its value, empty for a flag. -/
  value : String := ""
  deriving DecidableEq, Repr

/-- Why the arguments are refused. -/
inductive UsageError where
  /-- No option of that name. -/
  | unknownOption (argument : String)
  /-- An option without the value it needs. -/
  | missingValue (o : ValueOption)
  /-- A flag with a value. -/
  | unexpectedValue (f : Flag)
  /-- A value that the option does not take. -/
  | invalidValue (o : ValueOption) (value : String)
  /-- Something given twice. -/
  | repeated (key : Key)
  /-- A file without a name. -/
  | emptyFile
  deriving DecidableEq, Repr

/-- The flag of a name. -/
def flag? : String → Option Flag
  | "shared" => some .shared
  | "exact-errors" => some .exactErrors
  | "keep-bom" => some .keepBom
  | "check" => some .check
  | "stats" => some .stats
  | _ => none

/-- The option with a value of a name. -/
def valueOption? : String → Option ValueOption
  | "chunk-size" => some .chunkSize
  | "format" => some .format
  | "initial-state" => some .initialState
  | "last-start-tag" => some .lastStartTag
  | _ => none

/-! ## (2) Reading arguments -/

/-- How an argument begins. -/
inductive Shape where
  /-- `--` alone: no option follows. -/
  | endOfOptions
  /-- `--name` or `--name=value`. -/
  | option (name : String) (value : Option String)
  /-- `-` and more, which is no option of this program. -/
  | dashed
  /-- Anything else, `-` alone among them. -/
  | plain
  deriving DecidableEq, Repr

/-- How an argument begins. -/
def Shape.ofArgument (argument : String) : Shape :=
  match argument.toList with
  | ['-', '-'] => .endOfOptions
  | '-' :: '-' :: rest =>
    match rest.dropWhile (· ≠ '=') with
    | [] => .option (String.ofList rest) none
    | _ :: value =>
      .option (String.ofList (rest.takeWhile (· ≠ '='))) (some (String.ofList value))
  | '-' :: _ :: _ => .dashed
  | _ => .plain

/-- Reads the arguments in order; behind `--` all of them are files. -/
def readSettings (filesOnly : Bool) : List String → Except UsageError (List Setting)
  | [] => .ok []
  | argument :: rest => do
    if filesOnly then return ⟨.file, argument⟩ :: (← readSettings true rest)
    match Shape.ofArgument argument with
    | .endOfOptions => readSettings true rest
    | .dashed => throw (.unknownOption argument)
    | .plain => return ⟨.file, argument⟩ :: (← readSettings false rest)
    | .option name value =>
      match flag? name, valueOption? name, value with
      | some f, _, none => return ⟨.flag f, ""⟩ :: (← readSettings false rest)
      | some f, _, some _ => throw (.unexpectedValue f)
      | none, some o, some v => return ⟨.value o, v⟩ :: (← readSettings false rest)
      | none, some o, none =>
        match rest with
        | [] => throw (.missingValue o)
        | v :: rest =>
          match Shape.ofArgument v with
          | .plain => return ⟨.value o, v⟩ :: (← readSettings false rest)
          | .endOfOptions | .option .. | .dashed => throw (.missingValue o)
      | none, none, _ => throw (.unknownOption argument)

/-- The first thing that is given a second time. -/
def firstRepeated? : List Setting → Option Key
  | [] => none
  | s :: rest => if rest.any (·.key = s.key) then some s.key else firstRepeated? rest

/-! ## (3) Options -/

/-- What the program is asked to do. -/
structure Options where
  /-- The file, none for standard input. -/
  file : Option String := none
  /-- Bytes in a chunk. -/
  chunkSize : Nat := 4096
  /-- The shared surface. -/
  shared : Bool := false
  /-- Errors with state and position. -/
  exactErrors : Bool := false
  /-- A byte order mark is kept. -/
  keepBom : Bool := false
  /-- The stream of calls is checked. -/
  check : Bool := false
  /-- The form of the output. -/
  format : Format := .text
  /-- The kind of content. -/
  initialState : InitialState := .data
  /-- The name whose end tag ends raw text. -/
  lastStartTag : Option String := none
  /-- The counters are printed. -/
  stats : Bool := false
  deriving DecidableEq, Repr

/-- The form of output of a name. -/
def format? : String → Option Format
  | "text" => some .text
  | "json" => some .json
  | _ => none

/-- The kind of content of a name. -/
def initialState? : String → Option InitialState
  | "data" => some .data
  | "rcdata" => some .rcdata
  | "rawtext" => some .rawtext
  | "script-data" => some .scriptData
  | "plaintext" => some .plaintext
  | _ => none

namespace Options

/-- Sets a flag. -/
def withFlag (o : Options) : Flag → Options
  | .shared => { o with shared := true }
  | .exactErrors => { o with exactErrors := true }
  | .keepBom => { o with keepBom := true }
  | .check => { o with check := true }
  | .stats => { o with stats := true }

/-- Sets an option with a value, none if it does not take the value. -/
def withValue? (o : Options) (v : String) : ValueOption → Option Options
  | .chunkSize => (Text.readWord? 10 v).map fun n => { o with chunkSize := n }
  | .format => (format? v).map fun f => { o with format := f }
  | .initialState => (initialState? v).map fun s => { o with initialState := s }
  | .lastStartTag => some { o with lastStartTag := some v }

/-- Applies a setting. The file `-` is standard input. -/
def apply (o : Options) (s : Setting) : Except UsageError Options :=
  match s.key with
  | .flag f => .ok (o.withFlag f)
  | .value v =>
    match o.withValue? s.value v with
    | some o => .ok o
    | none => .error (.invalidValue v s.value)
  | .file =>
    if s.value.isEmpty then .error .emptyFile
    else .ok { o with file := if s.value = "-" then none else some s.value }

/-- The options that arguments write. -/
def ofArguments (arguments : List String) : Except UsageError Options := do
  let settings ← readSettings false arguments
  match firstRepeated? settings with
  | some key => throw (.repeated key)
  | none => settings.foldlM apply {}

/-- What the options ask of a session. -/
def config (o : Options) : Config where
  exactErrors := o.exactErrors
  discardBom := !o.keepBom
  initialState := o.initialState
  lastStartTag := o.lastStartTag

end Options

end HtmlStream.CommandLine

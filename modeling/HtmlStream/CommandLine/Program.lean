import HtmlStream.Chunk.Plan
import HtmlStream.CommandLine.Options
import HtmlStream.Contract
import HtmlStream.Session
import HtmlStream.Writer

/-! # The program

The program tokenizes a file or its standard input and prints one line for each call.

* **`Options.chunks`**: how the input is cut into chunks.
* **`Options.execute`**: the whole run, from the input to the output or to the fault that stopped it.
* **`runProgram`**: the same from the arguments on. -/

namespace HtmlStream.CommandLine

/-! ## (1) Input -/

/-- What is found under the name of a file. -/
inductive FileContent where
  /-- Nothing. -/
  | missing
  /-- A directory, which can be opened and not read. -/
  | directory
  /-- A file. -/
  | bytes (bs : Bytes)
  deriving DecidableEq, Repr

/-- Standard input arrives in blocks of this size, unless whole chunks are larger. -/
def blockSize : Nat := 8192

/-- The chunks of an input. A chunk never reaches from one block of standard input into the next. -/
def Options.chunks (o : Options) (bs : Bytes) : List Bytes :=
  if o.file.isNone && o.chunkSize < blockSize then
    (ChunkPlan.pieces blockSize bs).flatMap (ChunkPlan.pieces o.chunkSize)
  else ChunkPlan.pieces o.chunkSize bs

/-! ## (2) Faults -/

/-- What can stop the program once its arguments are understood. -/
inductive Fault where
  /-- Chunks of no bytes were asked for. -/
  | zeroChunkSize
  /-- The file does not exist. -/
  | openFailed (file : String)
  /-- The file is a directory. -/
  | readFailed
  /-- The output was not taken. -/
  | writeFailed (f : OutputFault)
  /-- The stream of calls broke the contract. -/
  | contract (v : Violation)
  /-- A call on the session failed. -/
  | session (f : Failure)
  deriving DecidableEq, Repr

/-- A message and its cause as the program reports them. -/
def report (message : String) (cause : Option String) : String :=
  "Error: " ++ message ++ "\n" ++
    match cause with
    | none => ""
    | some cause => "\nCaused by:\n    " ++ cause ++ "\n"

/-- The report of a fault. -/
def Fault.report : Fault → String
  | .zeroChunkSize => CommandLine.report "--chunk-size must be at least 1" none
  | .openFailed file =>
    CommandLine.report ("failed to open " ++ file) "No such file or directory (os error 2)"
  | .readFailed => CommandLine.report "failed to read input" "Is a directory (os error 21)"
  | .writeFailed f => CommandLine.report "failed to write output" f.message
  | .contract v => CommandLine.report v.message none
  | .session f => CommandLine.report f.message none

/-- The exit code of a fault. A broken contract and a failed call are faults of the program itself. -/
def Fault.exitCode : Fault → Nat
  | .zeroChunkSize | .openFailed _ | .readFailed | .writeFailed _ => 1
  | .contract _ | .session _ => 101

/-! ## (3) Runs -/

/-- The output of a run. -/
structure Output where
  /-- What is printed. -/
  text : String
  /-- The counters at the end. -/
  stats : Stats
  deriving DecidableEq, Repr

/-- The surface asked for. -/
def Options.surface (o : Options) : Surface := if o.shared then .shared else .borrowed

/-- Checks the calls, if that is asked for. -/
def Options.checked (o : Options) (calls : List TextCallback) : Except Fault Unit :=
  if o.check then
    match Contract.check {} calls with
    | .ok _ => .ok ()
    | .error v => .error (.contract v)
  else .ok ()

/-- Tokenizes an input and prints the calls. -/
def Options.print (o : Options) (bs : Bytes) : Except Fault Output :=
  match tokenize o.surface o.config (o.chunks bs) with
  | .error f => .error (.session f)
  | .ok (calls, stats) =>
    match o.checked calls with
    | .error fault => .error fault
    | .ok () =>
      let writer := printAll o.format {} calls
      match writer.finish with
      | .error f => .error (.writeFailed f)
      | .ok () => .ok ⟨writer.output, stats⟩

/-- Runs with the content of the file that is asked for, or of standard input. -/
def Options.execute (o : Options) (content : FileContent) : Except Fault Output :=
  if o.chunkSize = 0 then .error .zeroChunkSize
  else
    match content with
    | .missing => .error (.openFailed (o.file.getD "-"))
    | .directory => .error .readFailed
    | .bytes bs => o.print bs

/-- What a run shows: its exit code, its output and its messages. The messages of refused arguments
are left to whoever shows them. -/
inductive Outcome where
  /-- The arguments were refused. -/
  | refused (e : UsageError)
  /-- The run came to an end. -/
  | finished (exitCode : Nat) (output messages : String)
  deriving DecidableEq, Repr

/-- What a run with these options shows. -/
def Options.outcome (o : Options) (content : FileContent) : Outcome :=
  match o.execute content with
  | .error fault => .finished fault.exitCode "" fault.report
  | .ok output =>
    .finished 0 output.text (if o.stats then output.stats.line ++ "\n" else "")

/-- What the program shows for its arguments, its standard input and the files there are. -/
def runProgram (arguments : List String) (standardInput : Bytes) (files : String → FileContent) :
    Outcome :=
  match Options.ofArguments arguments with
  | .error e => .refused e
  | .ok o =>
    o.outcome
      (match o.file with
        | none => .bytes standardInput
        | some file => files file)

end HtmlStream.CommandLine

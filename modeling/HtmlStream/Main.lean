import HtmlStream.CommandLine.Program

/-! # The executable

Reads what the options ask for, runs the program on it and shows the outcome. -/

namespace HtmlStream.CommandLine

/-- Everything a stream still holds, behind `held`. -/
partial def readToEnd (stream : IO.FS.Stream) (held : ByteArray) : IO ByteArray := do
  let bytes ← stream.read 65536
  if bytes.isEmpty then return held else readToEnd stream (held ++ bytes)

/-- The content of what was opened; a directory can be opened and not read. -/
def readHandle (handle : IO.FS.Handle) : IO FileContent :=
  try return .bytes (← handle.readBinToEnd).data.toList
  catch _ => return .directory

/-- The content under the name of a file. -/
def readContent (file : String) : IO FileContent :=
  try readHandle (← IO.FS.Handle.mk file .read)
  catch _ => return .missing

/-- Reads the input that the options name. -/
def readInput (o : Options) : IO FileContent := do
  match o.file with
  | some file => readContent file
  | none => return .bytes (← readToEnd (← IO.getStdin) .empty).data.toList

/-- Shows an outcome and gives the exit code. -/
def present : Outcome → IO UInt32
  | .refused _ => do
    IO.eprintln "error: the arguments are not understood"
    return 2
  | .finished code output messages => do
    IO.print output
    IO.eprint messages
    return code.toUInt32

/-- Reads, runs and shows. -/
def runWithArguments (arguments : List String) : IO UInt32 := do
  match Options.ofArguments arguments with
  | .error e => present (.refused e)
  | .ok o => present (o.outcome (← readInput o))

end HtmlStream.CommandLine

/-- The program. -/
def main (arguments : List String) : IO UInt32 :=
  HtmlStream.CommandLine.runWithArguments arguments

import HtmlStream.Printer
import HtmlStream.Text.Utf8

/-! # Writing output

A writer prints each call as it comes to a destination that may stop accepting bytes. The first
failure is kept and every later call is ignored; only the end of the writer reports it.

* **`Destination.write`**: as many bytes as there is room for.
* **`Writer.receive`**, **`Writer.finish`**: one call, and the end. -/

namespace HtmlStream

/-- What goes wrong at a destination. -/
inductive OutputFault where
  /-- It was closed. -/
  | closed
  /-- It did not take what it had accepted. -/
  | flushFailed
  deriving DecidableEq, Repr

namespace OutputFault

/-- The kind of a fault. -/
def kind : OutputFault → String
  | .closed => "BrokenPipe"
  | .flushFailed => "Other"

/-- The wording of a fault. -/
def message : OutputFault → String
  | .closed => "closed"
  | .flushFailed => "flush failed"

end OutputFault

/-- Where output goes. -/
structure Destination where
  /-- How many bytes it accepts in all, none if there is no limit. -/
  limit : Option Nat := none
  /-- Whether the final flush fails. -/
  flushFails : Bool := false
  /-- The bytes accepted. -/
  accepted : Array UInt8 := #[]
  deriving DecidableEq, Repr

/-- Writes bytes: those there is room for are accepted, and the others are a failure. -/
def Destination.write (d : Destination) (bs : Bytes) : Option OutputFault × Destination :=
  match d.limit with
  | none => (none, { d with accepted := d.accepted ++ bs })
  | some limit =>
    let room := limit - d.accepted.size
    (if room < bs.length then some .closed else none,
      { d with accepted := d.accepted ++ bs.take room })

/-- A writer. -/
structure Writer where
  /-- The form of the output. -/
  format : Format
  /-- Where it goes. -/
  destination : Destination := {}
  /-- The first failure. -/
  failure : Option OutputFault := none
  deriving DecidableEq, Repr

namespace Writer

/-- Prints a call, unless a failure was met before. -/
def receive (w : Writer) (call : TextCallback) : Writer :=
  if w.failure.isSome then w
  else
    let (failure, destination) := w.destination.write (Utf8.encode (call.line w.format ++ "\n"))
    { w with failure, destination }

/-- Ends the output: the first failure, or else that of the flush. -/
def finish (w : Writer) : Except OutputFault Unit :=
  match w.failure with
  | some fault => .error fault
  | none => if w.destination.flushFails then .error .flushFailed else .ok ()

/-- The output that was accepted, as text. -/
def output (w : Writer) : String := Utf8.lossy w.destination.accepted.toList

end Writer

/-- Prints calls in turn. -/
def printAll (format : Format) (destination : Destination) (calls : List TextCallback) : Writer :=
  calls.foldl Writer.receive { format, destination }

end HtmlStream

import HtmlStream.Callback
import HtmlStream.Text.Quoted

/-! # Snapshot lines

A recording of a stream of calls as lines of text that can be compared: one line for each call, except
that a start tag and its attributes are one line, written once the last attribute announced has
arrived.

* **`Recorder.receive`**: one call.
* **`Recorder.finish`**: the lines of a recording that ended between calls.
* **`recordLines`**: a whole stream. -/

namespace HtmlStream

/-- A start tag whose attributes have not all arrived. -/
structure OpenTag where
  /-- Its name. -/
  name : String
  /-- Whether it is self-closing. -/
  selfClosing : Bool
  /-- Attributes still to come. -/
  remaining : Nat
  /-- Attributes that have arrived, as they are written. -/
  attributes : Array String := #[]
  deriving DecidableEq, Repr

/-- A recording. -/
structure Recorder where
  /-- Its lines. -/
  lines : Array String := #[]
  /-- The start tag it is inside of. -/
  openTag : Option OpenTag := none
  deriving DecidableEq, Repr

/-- The greatest number of attributes a start tag may announce. Room for all of them is set aside at
once, 24 bytes for each, in a block of at most 2 ^ 63 - 8 bytes. -/
def OpenTag.capacity : Nat := 384307168202282325

/-- Why a recording cannot go on or end. -/
inductive RecordingFault where
  /-- A start tag announced more attributes than there can be room for. -/
  | noRoom
  /-- An attribute that belongs to no start tag. -/
  | attributeOutside (name : String)
  /-- The recording ended before the last attribute announced. -/
  | endedInside
  deriving DecidableEq, Repr

/-- The wording of a fault. -/
def RecordingFault.message : RecordingFault → String
  | .noRoom => "capacity overflow"
  | .attributeOutside name => "attribute " ++ Text.quote name ++ " outside a start tag"
  | .endedInside => "recording ended inside a start tag\x27s attribute run"

/-- The line of a start tag. -/
def OpenTag.line (t : OpenTag) : String :=
  "START name=" ++ t.name ++ " attrs=[" ++ " ".intercalate t.attributes.toList ++
    "] self_closing=" ++ Text.truth t.selfClosing

namespace Recorder

/-- Adds a line. -/
def write (r : Recorder) (line : String) : Recorder := { r with lines := r.lines.push line }

/-- Takes the start of a tag. A start tag that is still open is forgotten, unless this one is without
attributes. -/
def receiveStart (r : Recorder) (t : OpenTag) : Except RecordingFault Recorder :=
  if OpenTag.capacity < t.remaining then .error .noRoom
  else if t.remaining = 0 then .ok (r.write t.line)
  else .ok { r with openTag := some t }

/-- Takes an attribute. -/
def receiveAttribute (r : Recorder) (name value : String) : Except RecordingFault Recorder :=
  match r.openTag with
  | none => .error (.attributeOutside name)
  | some t =>
    let t := { t with
      attributes := t.attributes.push (name ++ "=" ++ Text.snapshotQuote value)
      remaining := t.remaining - 1 }
    if t.remaining = 0 then .ok { r with openTag := none, lines := r.lines.push t.line }
    else .ok { r with openTag := some t }

/-- Takes a call. A call that is refused changes nothing. -/
def receive (r : Recorder) : TextCallback → Except RecordingFault Recorder
  | .doctype name publicId systemId quirks =>
    .ok (r.write ("DOCTYPE name=" ++ Text.snapshotQuote name ++ " public_id=" ++
      Text.snapshotQuote publicId ++ " system_id=" ++ Text.snapshotQuote systemId ++
      " force_quirks=" ++ Text.truth quirks))
  | .startTag name selfClosing count =>
    r.receiveStart { name, selfClosing, remaining := count }
  | .tagAttr name value => r.receiveAttribute name value
  | .endTag name => .ok (r.write ("END name=" ++ name))
  | .comment text => .ok (r.write ("COMMENT text=" ++ Text.snapshotQuote text))
  | .chars text => .ok (r.write ("CHAR text=" ++ Text.snapshotQuote text))
  | .nullChar => .ok (r.write "NULL")
  | .eof => .ok (r.write "EOF")
  | .error message => .ok (r.write ("ERROR " ++ message))

/-- The lines of a recording that did not end inside a start tag. -/
def finish (r : Recorder) : Except RecordingFault (List String) :=
  if r.openTag.isSome then .error .endedInside else .ok r.lines.toList

end Recorder

/-- The lines of a whole stream. -/
def recordLines (calls : List TextCallback) : Except RecordingFault (List String) := do
  (← calls.foldlM Recorder.receive {}).finish

end HtmlStream

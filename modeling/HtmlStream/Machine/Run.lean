import HtmlStream.Machine.Ending

/-! # Running the machine

* **`stepChar`**: one character further in the present state.
* **`runAhead`**: the run of plain characters that is taken at once, where the state allows it.
* **`step`**: one step, none if the machine waits for input or has ended.
* **`run`**: steps until there is none.

A run of plain characters is taken at once because it is faster; the pace decides whether it is, and
nothing else depends on the pace. -/

namespace HtmlStream

/-- How plain characters are taken. -/
inductive Pace where
  /-- A run at a time. -/
  | byRun
  /-- One at a time. -/
  | byChar
  deriving DecidableEq, Repr

namespace Machine

/-! ## (1) One step -/

/-- One step in the present state at the unread character `c`. None if the characters that decide
have not all arrived. -/
def stepChar (m : Machine) (c : Char) : Option Machine :=
  match m.state with
  | .data => some (m.stepData c)
  | .plaintext => some (m.stepPlaintext c)
  | .rawData kind => some (m.stepRawData kind c)
  | .rawLessThanSign kind => some (m.stepRawLessThanSign kind c)
  | .rawEndTagOpen kind => some (m.stepRawEndTagOpen kind c)
  | .rawEndTagName kind => some (m.stepRawEndTagName kind c)
  | .scriptDataEscapeStart kind => some (m.stepEscapeStart kind c)
  | .scriptDataEscapeStartDash => some (m.stepEscapeStartDash c)
  | .scriptDataEscapedDash kind => some (m.stepEscapedDash kind c)
  | .scriptDataEscapedDashDash kind => some (m.stepEscapedDashDash kind c)
  | .scriptDataDoubleEscapeEnd => some (m.stepDoubleEscapeEnd c)
  | .tagOpen => some (m.stepTagOpen c)
  | .endTagOpen => some (m.stepEndTagOpen c)
  | .tagName => some (m.stepTagName c)
  | .beforeAttributeName => some (m.stepBeforeAttributeName c)
  | .attributeName => some (m.stepAttributeName c)
  | .afterAttributeName => some (m.stepAfterAttributeName c)
  | .beforeAttributeValue => some (m.stepBeforeAttributeValue c)
  | .attributeValue kind => some (m.stepAttributeValue kind c)
  | .afterAttributeValueQuoted => some (m.stepAfterAttributeValueQuoted c)
  | .selfClosingStartTag => some (m.stepSelfClosingStartTag c)
  | .markupDeclarationOpen => m.stepMarkupDeclarationOpen
  | .commentStart => some (m.stepCommentStart c)
  | .commentStartDash => some (m.stepCommentStartDash c)
  | .comment => some (m.stepCommentText c)
  | .commentEndDash => some (m.stepCommentEndDash c)
  | .commentEnd => some (m.stepCommentEnd c)
  | .commentEndBang => some (m.stepCommentEndBang c)
  | .bogusComment => some (m.stepBogusComment c)
  | .doctype => some (m.stepDoctype c)
  | .beforeDoctypeName => some (m.stepBeforeDoctypeName c)
  | .doctypeName => some (m.stepDoctypeName c)
  | .afterDoctypeName => m.stepAfterDoctypeName c
  | .afterDoctypeKeyword kind => some (m.stepAfterDoctypeKeyword kind c)
  | .beforeDoctypeIdentifier kind => some (m.stepBeforeDoctypeIdentifier kind c)
  | .doctypeIdentifierDoubleQuoted kind => some (m.stepDoctypeIdentifier kind Ascii.doubleQuote c)
  | .doctypeIdentifierSingleQuoted kind => some (m.stepDoctypeIdentifier kind Ascii.singleQuote c)
  | .afterDoctypeIdentifier .publicId => some (m.stepAfterPublicIdentifier c)
  | .afterDoctypeIdentifier .systemId => some (m.stepAfterSystemIdentifier c)
  | .betweenDoctypePublicAndSystemIdentifiers => some (m.stepBetweenIdentifiers c)
  | .bogusDoctype => some (m.stepBogusDoctype c)

/-! ## (2) Runs -/

/-- Whether a character of raw text is more than text. -/
def stopsRaw : RawKind → Char → Bool
  | .rcdata, c => c = '<' || c = '&' || c = '\x00'
  | .scriptDataEscaped _, c => c = '<' || c = '-' || c = '\x00'
  | .rawtext, c | .scriptData, c => c = '<' || c = '\x00'

/-- The characters that end a run in a state, none if the state takes no runs. -/
def runStop? : State → Option (Char → Bool)
  | .data => some fun c => c = '<' || c = '&' || c = '\x00'
  | .plaintext => some fun c => c = '\x00'
  | .rawData kind => some (stopsRaw kind)
  | .comment => some fun c => c = '-' || c = '\x00'
  | _ => none

/-- Adds a run to the comment or to the text held back. -/
def putRun (m : Machine) (s : String) : Machine :=
  if m.state = .comment then m.putCommentText s else m.putText s

/-- The run at the front of the input that is taken at once, empty if the state takes no runs or the
pace is by character. -/
def runAhead (pace : Pace) (m : Machine) : List Char :=
  match pace, runStop? m.state with
  | .byRun, some stop => m.input.run stop
  | _, _ => []

/-! ## (3) Steps and runs of steps -/

/-- One step with the unread character `c`. -/
def stepAt (pace : Pace) (m : Machine) (c : Char) : Option Machine :=
  let run := runAhead pace m
  if run.isEmpty then m.stepChar c
  else some ((m.skip run.length).putRun (String.ofList run))

/-- One step: none if the machine has ended or waits for input. -/
def step (pace : Pace) (m : Machine) : Option Machine :=
  if m.ended then none
  else
    -- a reference under construction goes before the state
    match m.reference, m.input.pending with
    | some r, c :: _ => some (m.stepReference r (some c))
    | some r, [] => if m.input.finished then some (m.stepReference r none) else none
    | none, c :: _ => stepAt pace m c
    | none, [] => if m.input.finished then some m.stepEnd else none

/-- At most `fuel` steps. -/
def runFor (pace : Pace) : Nat → Machine → Machine
  | 0, m => m
  | fuel + 1, m =>
    match step pace m with
    | none => m
    | some next => runFor pace fuel next

/-- An upper bound on the steps to come. At most three steps in a row leave the next character
unread, and at most five follow the last one. -/
def stepBound (m : Machine) : Nat := 8 * (m.input.pending.length + 1)

/-- Runs the machine until it waits for input or has ended. -/
def run (m : Machine) : Machine := runFor .byRun m.stepBound m

/-- Decodes a chunk. -/
def receive (m : Machine) (chunk : Bytes) : Machine := { m with input := m.input.receive chunk }

/-- Marks the end of the input. -/
def close (m : Machine) : Machine := { m with input := m.input.finish }

/-- Takes a chunk. -/
def feed (m : Machine) (chunk : Bytes) : Machine := (m.receive chunk).run

/-- Takes the end of the input. -/
def finish (m : Machine) : Machine := m.close.run

end Machine

end HtmlStream

import HtmlStream.ParseError
import HtmlStream.Text.Ascii

/-! # Script data by the book

The standard describes script data by eighteen states, each with its own rules, one temporary buffer and
one end tag under construction. Here they are, one by one and rule by rule. A rule looks at the next
character, or finds the end of the file. It emits characters, reports errors and switches to a state; it
has either consumed the character or has it reconsumed there. Reading stops at the end of the file and
where an end tag is recognised.

* **`Place`**: the states.
* **`Event`** and **`Outcome`**: what is emitted and reported, and how reading stops.
* **`Reader`** and its actions.
* **`Reader.inData`, …, `Reader.inDoubleEscapeEnd`**: the rules of each state.
* **`Reader.step`**: one step. -/

namespace HtmlStream.Script

/-! ## (1) States, events and outcomes -/

/-- The script data states. -/
inductive Place where
  /-- Script data. -/
  | data
  /-- Script data less-than sign. -/
  | lessThanSign
  /-- Script data end tag open. -/
  | endTagOpen
  /-- Script data end tag name. -/
  | endTagName
  /-- Script data escape start. -/
  | escapeStart
  /-- Script data escape start dash. -/
  | escapeStartDash
  /-- Script data escaped. -/
  | escaped
  /-- Script data escaped dash. -/
  | escapedDash
  /-- Script data escaped dash dash. -/
  | escapedDashDash
  /-- Script data escaped less-than sign. -/
  | escapedLessThanSign
  /-- Script data escaped end tag open. -/
  | escapedEndTagOpen
  /-- Script data escaped end tag name. -/
  | escapedEndTagName
  /-- Script data double escape start. -/
  | doubleEscapeStart
  /-- Script data double escaped. -/
  | doubleEscaped
  /-- Script data double escaped dash. -/
  | doubleEscapedDash
  /-- Script data double escaped dash dash. -/
  | doubleEscapedDashDash
  /-- Script data double escaped less-than sign. -/
  | doubleEscapedLessThanSign
  /-- Script data double escape end. -/
  | doubleEscapeEnd
  deriving DecidableEq, Repr

/-- What a reader does that can be seen. -/
inductive Event where
  /-- It emits a character. -/
  | char (c : Char)
  /-- It reports an error, with so many characters consumed, in a state. -/
  | error (code : ErrorCode) (position : Nat) (place : Place)
  deriving DecidableEq, Repr

/-- Why reading stops. -/
inductive Outcome where
  /-- The file has ended. -/
  | endOfFile
  /-- The name of an appropriate end tag is followed by white space: on to its attributes. -/
  | beforeAttributeName
  /-- The name of an appropriate end tag is followed by a solidus. -/
  | selfClosingStartTag
  /-- An appropriate end tag has been read and is emitted. -/
  | endTag
  deriving DecidableEq, Repr

/-! ## (2) Readers -/

/-- A reader of script data. -/
structure Reader where
  /-- Its state. -/
  place : Place := .data
  /-- The characters to come. -/
  rest : List Char
  /-- Characters consumed. -/
  consumed : Nat := 0
  /-- The temporary buffer. -/
  buffer : String := ""
  /-- The name of the end tag under construction. -/
  name : String := ""
  /-- What it has emitted and reported, oldest first. -/
  events : List Event := []
  /-- Why it has stopped, none while it reads. -/
  outcome : Option Outcome := none
  deriving DecidableEq, Repr

namespace Reader

/-- Consumes the next character. -/
def consume (w : Reader) : Reader := { w with rest := w.rest.tail, consumed := w.consumed + 1 }

/-- Switches to a state. A character that was not consumed is reconsumed there. -/
def switchTo (w : Reader) (next : Place) : Reader := { w with place := next }

/-- Emits a character. -/
def emit (w : Reader) (c : Char) : Reader := { w with events := w.events ++ [.char c] }

/-- Emits the characters of a text. -/
def emitText (w : Reader) (s : String) : Reader :=
  { w with events := w.events ++ s.toList.map .char }

/-- Reports an error. -/
def error (w : Reader) (code : ErrorCode) : Reader :=
  { w with events := w.events ++ [.error code w.consumed w.place] }

/-- Empties the temporary buffer. -/
def clearBuffer (w : Reader) : Reader := { w with buffer := "" }

/-- Appends to the temporary buffer. -/
def putBuffer (w : Reader) (c : Char) : Reader := { w with buffer := w.buffer.push c }

/-- Creates an end tag whose name is empty. -/
def createEndTag (w : Reader) : Reader := { w with name := "" }

/-- Appends to the name of the end tag. -/
def putName (w : Reader) (c : Char) : Reader := { w with name := w.name.push c }

/-- Stops. -/
def stop (w : Reader) (o : Outcome) : Reader := { w with outcome := some o }

/-! ## (3) Script data -/

/-- Script data state. -/
def inData (w : Reader) : Option Char → Reader
  | none => w.stop .endOfFile
  | some c =>
    if c = '<' then w.consume.switchTo .lessThanSign
    else if c = '\x00' then (w.consume.error .unexpectedNullCharacter).emit '\uFFFD'
    else w.consume.emit c

/-- Script data less-than sign state. -/
def inLessThanSign (w : Reader) (next : Option Char) : Reader :=
  if next = some '/' then w.consume.clearBuffer.switchTo .endTagOpen
  else if next = some '!' then (w.consume.switchTo .escapeStart).emitText "<!"
  else (w.emit '<').switchTo .data

/-- Script data end tag open state and its escaped counterpart, which differ only in the state that
reads the name and in the one that text goes on in. -/
def inEndTagOpen (name back : Place) (w : Reader) (next : Option Char) : Reader :=
  if next.any Char.isAlpha then w.createEndTag.switchTo name
  else (w.emitText "</").switchTo back

/-- Script data end tag name state and its escaped counterpart, which differ only in the state that
text goes on in when it turns out to be no end tag. An end tag is appropriate if its name is that of the
last start tag. -/
def inEndTagName (last : Option String) (back : Place) (w : Reader) (next : Option Char) : Reader :=
  if last = some w.name ∧ next.any Ascii.isSpace then w.consume.stop .beforeAttributeName
  else if last = some w.name ∧ next = some '/' then w.consume.stop .selfClosingStartTag
  else if last = some w.name ∧ next = some '>' then w.consume.stop .endTag
  else
    match next with
    | some c =>
      if c.isAlpha then (w.consume.putName c.toLower).putBuffer c
      else ((w.emitText "</").emitText w.buffer).switchTo back
    | none => ((w.emitText "</").emitText w.buffer).switchTo back

/-! ## (4) Script data escaped -/

/-- Script data escape start state. -/
def inEscapeStart (w : Reader) (next : Option Char) : Reader :=
  if next = some '-' then (w.consume.switchTo .escapeStartDash).emit '-'
  else w.switchTo .data

/-- Script data escape start dash state. -/
def inEscapeStartDash (w : Reader) (next : Option Char) : Reader :=
  if next = some '-' then (w.consume.switchTo .escapedDashDash).emit '-'
  else w.switchTo .data

/-- Script data escaped state. -/
def inEscaped (w : Reader) : Option Char → Reader
  | none => (w.error .eofInScriptHtmlCommentLikeText).stop .endOfFile
  | some c =>
    if c = '-' then (w.consume.switchTo .escapedDash).emit '-'
    else if c = '<' then w.consume.switchTo .escapedLessThanSign
    else if c = '\x00' then (w.consume.error .unexpectedNullCharacter).emit '\uFFFD'
    else w.consume.emit c

/-- Script data escaped dash state. -/
def inEscapedDash (w : Reader) : Option Char → Reader
  | none => (w.error .eofInScriptHtmlCommentLikeText).stop .endOfFile
  | some c =>
    if c = '-' then (w.consume.switchTo .escapedDashDash).emit '-'
    else if c = '<' then w.consume.switchTo .escapedLessThanSign
    else if c = '\x00' then
      ((w.consume.error .unexpectedNullCharacter).switchTo .escaped).emit '\uFFFD'
    else (w.consume.switchTo .escaped).emit c

/-- Script data escaped dash dash state. -/
def inEscapedDashDash (w : Reader) : Option Char → Reader
  | none => (w.error .eofInScriptHtmlCommentLikeText).stop .endOfFile
  | some c =>
    if c = '-' then w.consume.emit '-'
    else if c = '<' then w.consume.switchTo .escapedLessThanSign
    else if c = '>' then (w.consume.switchTo .data).emit '>'
    else if c = '\x00' then
      ((w.consume.error .unexpectedNullCharacter).switchTo .escaped).emit '\uFFFD'
    else (w.consume.switchTo .escaped).emit c

/-- Script data escaped less-than sign state. -/
def inEscapedLessThanSign (w : Reader) (next : Option Char) : Reader :=
  if next = some '/' then w.consume.clearBuffer.switchTo .escapedEndTagOpen
  else if next.any Char.isAlpha then (w.clearBuffer.emit '<').switchTo .doubleEscapeStart
  else (w.emit '<').switchTo .escaped

/-! ## (5) Script data double escaped -/

/-- Script data double escape start state. -/
def inDoubleEscapeStart (w : Reader) : Option Char → Reader
  | none => w.switchTo .escaped
  | some c =>
    if Ascii.isSpace c ∨ c = '/' ∨ c = '>' then
      (w.consume.switchTo (if w.buffer = "script" then .doubleEscaped else .escaped)).emit c
    else if c.isAlpha then (w.consume.putBuffer c.toLower).emit c
    else w.switchTo .escaped

/-- Script data double escaped state. -/
def inDoubleEscaped (w : Reader) : Option Char → Reader
  | none => (w.error .eofInScriptHtmlCommentLikeText).stop .endOfFile
  | some c =>
    if c = '-' then (w.consume.switchTo .doubleEscapedDash).emit '-'
    else if c = '<' then (w.consume.switchTo .doubleEscapedLessThanSign).emit '<'
    else if c = '\x00' then (w.consume.error .unexpectedNullCharacter).emit '\uFFFD'
    else w.consume.emit c

/-- Script data double escaped dash state. -/
def inDoubleEscapedDash (w : Reader) : Option Char → Reader
  | none => (w.error .eofInScriptHtmlCommentLikeText).stop .endOfFile
  | some c =>
    if c = '-' then (w.consume.switchTo .doubleEscapedDashDash).emit '-'
    else if c = '<' then (w.consume.switchTo .doubleEscapedLessThanSign).emit '<'
    else if c = '\x00' then
      ((w.consume.error .unexpectedNullCharacter).switchTo .doubleEscaped).emit '\uFFFD'
    else (w.consume.switchTo .doubleEscaped).emit c

/-- Script data double escaped dash dash state. -/
def inDoubleEscapedDashDash (w : Reader) : Option Char → Reader
  | none => (w.error .eofInScriptHtmlCommentLikeText).stop .endOfFile
  | some c =>
    if c = '-' then w.consume.emit '-'
    else if c = '<' then (w.consume.switchTo .doubleEscapedLessThanSign).emit '<'
    else if c = '>' then (w.consume.switchTo .data).emit '>'
    else if c = '\x00' then
      ((w.consume.error .unexpectedNullCharacter).switchTo .doubleEscaped).emit '\uFFFD'
    else (w.consume.switchTo .doubleEscaped).emit c

/-- Script data double escaped less-than sign state. -/
def inDoubleEscapedLessThanSign (w : Reader) (next : Option Char) : Reader :=
  if next = some '/' then (w.consume.clearBuffer.switchTo .doubleEscapeEnd).emit '/'
  else w.switchTo .doubleEscaped

/-- Script data double escape end state. -/
def inDoubleEscapeEnd (w : Reader) : Option Char → Reader
  | none => w.switchTo .doubleEscaped
  | some c =>
    if Ascii.isSpace c ∨ c = '/' ∨ c = '>' then
      (w.consume.switchTo (if w.buffer = "script" then .escaped else .doubleEscaped)).emit c
    else if c.isAlpha then (w.consume.putBuffer c.toLower).emit c
    else w.switchTo .doubleEscaped

/-! ## (6) Steps -/

/-- The rules of the present state. -/
def rule (last : Option String) (w : Reader) (next : Option Char) : Reader :=
  match w.place with
  | .data => w.inData next
  | .lessThanSign => w.inLessThanSign next
  | .endTagOpen => w.inEndTagOpen .endTagName .data next
  | .endTagName => w.inEndTagName last .data next
  | .escapeStart => w.inEscapeStart next
  | .escapeStartDash => w.inEscapeStartDash next
  | .escaped => w.inEscaped next
  | .escapedDash => w.inEscapedDash next
  | .escapedDashDash => w.inEscapedDashDash next
  | .escapedLessThanSign => w.inEscapedLessThanSign next
  | .escapedEndTagOpen => w.inEndTagOpen .escapedEndTagName .escaped next
  | .escapedEndTagName => w.inEndTagName last .escaped next
  | .doubleEscapeStart => w.inDoubleEscapeStart next
  | .doubleEscaped => w.inDoubleEscaped next
  | .doubleEscapedDash => w.inDoubleEscapedDash next
  | .doubleEscapedDashDash => w.inDoubleEscapedDashDash next
  | .doubleEscapedLessThanSign => w.inDoubleEscapedLessThanSign next
  | .doubleEscapeEnd => w.inDoubleEscapeEnd next

/-- **One step** at the next character or at the end of the file, none once the reader has stopped.
`last` is the name of the last start tag. -/
def step (last : Option String) (w : Reader) : Option Reader :=
  match w.outcome with
  | none => some (w.rule last w.rest.head?)
  | some _ => none

end Reader

end HtmlStream.Script

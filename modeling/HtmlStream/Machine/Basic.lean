import HtmlStream.Input
import HtmlStream.Reference.Basic
import HtmlStream.Text.Ascii
import HtmlStream.Token

/-! # The tokenization machine: its state and its elementary actions

A machine holds its input, its place in the markup, the token under construction and the queue of
finished tokens. Runs of text are held back until something that is not text is queued, so that a run
is one token however its characters arrived.

* **`Config`** and **`Machine.start`**: the machine before its first byte.
* **`goto`, `advance`, `putChar`, `emit`, `report`**: the actions all states are made of.
* **`openTag`, `openAttribute`, `emitTag`, `emitComment`, `emitDoctype`**: tokens under
  construction. -/

namespace HtmlStream

/-! ## (1) Configuration -/

/-- Kinds of content the input may be. -/
inductive InitialState where
  /-- A document. -/
  | data
  /-- Content of a text element in which character references are read. -/
  | rcdata
  /-- Content of a text element in which nothing is read. -/
  | rawtext
  /-- Content of a script. -/
  | scriptData
  /-- Plain text. -/
  | plaintext
  deriving DecidableEq, Repr

/-- The state the machine starts in. -/
def InitialState.state : InitialState → State
  | .data => .data
  | .rcdata => .rawData .rcdata
  | .rawtext => .rawData .rawtext
  | .scriptData => .rawData .scriptData
  | .plaintext => .plaintext

/-- What a session is asked for. -/
structure Config where
  /-- Error messages name state and position. -/
  exactErrors : Bool := false
  /-- A byte order mark at the very start is dropped. -/
  discardBom : Bool := true
  /-- The kind of content. -/
  initialState : InitialState := .data
  /-- The name whose end tag ends raw text. -/
  lastStartTag : Option String := none
  deriving DecidableEq, Repr

/-! ## (2) The machine -/

/-- The tokenization machine. -/
structure Machine where
  /-- Its place in the markup. -/
  state : State
  /-- Its input. -/
  input : Input
  /-- The name of the last start tag. -/
  lastStartTag : Option String
  /-- Finished tokens, oldest first. -/
  queue : Array Token := #[]
  /-- The text held back. -/
  text : String := ""
  /-- The character reference under construction. -/
  reference : Option Reference := none
  /-- The tag under construction. -/
  tag : Tag := { kind := .opening }
  /-- The attribute under construction. -/
  currentAttribute : Option Attribute := none
  /-- The comment under construction. -/
  comment : String := ""
  /-- The document type under construction. -/
  doctype : Doctype := {}
  /-- The letters of a possible end tag, or of a possible `script`, in raw text. -/
  letters : String := ""
  /-- The end of the input has been queued. -/
  ended : Bool := false
  /-- Changes to another state. -/
  transitions : Nat := 0
  /-- Tokens queued, errors among them. -/
  tokens : Nat := 0
  /-- Errors queued. -/
  errors : Nat := 0
  deriving DecidableEq, Repr

namespace Machine

/-- The machine before its first byte. -/
def start (config : Config) : Machine where
  state := config.initialState.state
  input := .start config.discardBom
  lastStartTag := config.lastStartTag.map Ascii.lower

/-! ## (3) Moving -/

/-- Moves to a state. Staying is no transition. -/
def goto (m : Machine) (next : State) : Machine :=
  if m.state = next then m else { m with state := next, transitions := m.transitions + 1 }

/-- Reads one character. -/
def advance (m : Machine) : Machine := { m with input := m.input.advance }

/-- Reads `n` characters. -/
def skip (m : Machine) (n : Nat) : Machine := { m with input := m.input.skip n }

/-! ## (4) Text and tokens -/

/-- Adds a character to the text held back. -/
def putChar (m : Machine) (c : Char) : Machine := { m with text := m.text.push c }

/-- Adds to the text held back. -/
def putText (m : Machine) (s : String) : Machine := { m with text := m.text ++ s }

/-- Queues a token. -/
def enqueue (m : Machine) (t : Token) : Machine :=
  { m with queue := m.queue.push t, tokens := m.tokens + 1 }

/-- Queues the text held back, if there is any. -/
def flush (m : Machine) : Machine :=
  if m.text.isEmpty then m else { m with text := "" }.enqueue (.characters m.text)

/-- Queues a token that is not text, after the text held back. -/
def emit (m : Machine) (t : Token) : Machine := m.flush.enqueue t

/-- Queues an error at the present position and in the present state. -/
def report (m : Machine) (code : ErrorCode) : Machine :=
  { m with errors := m.errors + 1 }.emit (.error ⟨code, m.input.consumed⟩ m.state)

/-- Queues the end of the input. -/
def emitEnd (m : Machine) : Machine := { m.emit .endOfInput with ended := true }

/-! ## (5) Tags -/

/-- Begins a tag whose name begins with `c`. -/
def openTag (m : Machine) (kind : TagKind) (c : Char) : Machine :=
  { m with tag := { kind, name := String.singleton c }, currentAttribute := none }

/-- Adds to the name of the tag. -/
def putTagName (m : Machine) (c : Char) : Machine :=
  { m with tag := { m.tag with name := m.tag.name.push c } }

/-- Drops the attribute under construction. -/
def dropAttribute (m : Machine) : Machine := { m with currentAttribute := none }

/-- Adds the attribute under construction to the tag. Of two attributes of one name the first is
kept. -/
def closeAttribute (m : Machine) : Machine :=
  match m.currentAttribute with
  | none => m
  | some a =>
    if m.tag.attributes.any (·.name == a.name) then
      m.dropAttribute.report .duplicateAttribute
    else
      { m.dropAttribute with tag := { m.tag with attributes := m.tag.attributes.push a } }

/-- Begins an attribute whose name begins with `c`. -/
def openAttribute (m : Machine) (c : Char) : Machine :=
  { m.closeAttribute with currentAttribute := some { name := String.singleton c } }

/-- Adds to the name of the attribute. -/
def putAttributeName (m : Machine) (c : Char) : Machine :=
  { m with currentAttribute := m.currentAttribute.map fun a => { a with name := a.name.push c } }

/-- Adds a character to the value of the attribute. -/
def putAttributeValue (m : Machine) (c : Char) : Machine :=
  { m with currentAttribute := m.currentAttribute.map fun a => { a with value := a.value.push c } }

/-- Adds to the value of the attribute. -/
def putAttributeText (m : Machine) (s : String) : Machine :=
  { m with currentAttribute := m.currentAttribute.map fun a => { a with value := a.value ++ s } }

/-- Marks the tag as one that has `/` before its `>`. -/
def markSelfClosing (m : Machine) : Machine :=
  { m with tag := { m.tag with selfClosing := true } }

/-- The errors of a finished tag: an end tag has neither attributes nor a solidus. -/
def reportTag (m : Machine) (t : Tag) : Machine :=
  match t.kind with
  | .opening => { m with lastStartTag := some t.name }
  | .closing =>
    let m := if t.attributes.isEmpty then m else m.report .endTagWithAttributes
    if t.selfClosing then m.report .endTagWithTrailingSolidus else m

/-- Forgets the tag under construction. -/
def resetTag (m : Machine) : Machine := { m with tag := { kind := .opening } }

/-- Queues the tag and goes on with text. -/
def emitTag (m : Machine) : Machine :=
  let m := m.closeAttribute
  ((m.resetTag.reportTag m.tag).emit (.tag m.tag)).goto .data

/-- Adds to the letters of a possible end tag in raw text. -/
def putLetter (m : Machine) (c : Char) : Machine := { m with letters := m.letters.push c }

/-- Forgets the letters. -/
def clearLetters (m : Machine) : Machine := { m with letters := "" }

/-- Whether the tag is the end tag that ends raw text: its name is that of the last start tag. -/
def isAppropriateEndTag (m : Machine) : Bool := m.lastStartTag = some m.tag.name

/-! ## (6) Comments and document types -/

/-- Adds a character to the comment. -/
def putComment (m : Machine) (c : Char) : Machine := { m with comment := m.comment.push c }

/-- Adds to the comment. -/
def putCommentText (m : Machine) (s : String) : Machine := { m with comment := m.comment ++ s }

/-- Begins a comment with a text. -/
def openComment (m : Machine) (s : String) : Machine := { m with comment := s }

/-- Queues the comment and goes on with text. -/
def emitComment (m : Machine) : Machine :=
  ((m.openComment "").emit (.comment m.comment)).goto .data

/-- Adds to the name of the document type. -/
def putDoctypeName (m : Machine) (c : Char) : Machine :=
  { m with doctype := { m.doctype with name := some ((m.doctype.name.getD "").push c) } }

/-- Begins an identifier, which is then present even if it stays empty. -/
def openIdentifier (m : Machine) : IdentifierKind → Machine
  | .publicId => { m with doctype := { m.doctype with publicId := some "" } }
  | .systemId => { m with doctype := { m.doctype with systemId := some "" } }

/-- Adds to an identifier. -/
def putIdentifier (m : Machine) (c : Char) : IdentifierKind → Machine
  | .publicId =>
    { m with doctype := { m.doctype with publicId := some ((m.doctype.publicId.getD "").push c) } }
  | .systemId =>
    { m with doctype := { m.doctype with systemId := some ((m.doctype.systemId.getD "").push c) } }

/-- Forgets the document type under construction. -/
def resetDoctype (m : Machine) : Machine := { m with doctype := {} }

/-- Marks the document type as one that forces quirks mode. -/
def forceQuirks (m : Machine) : Machine :=
  { m with doctype := { m.doctype with forceQuirks := true } }

/-- Queues the document type and goes on with text. -/
def emitDoctype (m : Machine) : Machine :=
  (m.resetDoctype.emit (.doctype m.doctype)).goto .data

/-! ## (7) Counting and handing over -/

/-- Hands over the queue. -/
def drain (m : Machine) : List Token × Machine :=
  (m.queue.toList, { m with queue := #[] })

end Machine

end HtmlStream

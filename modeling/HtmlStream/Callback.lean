import HtmlStream.Token

/-! # Callbacks

What a sink is called with. A start tag announces the number of its attributes and is followed by one
callback for each of them. Names and payloads have types of their own, because the two surfaces hand
over different things: text that is valid during the call, or interned names and buffers that may be
kept.

* **`Callback N B`**: one call, with names in `N` and payloads in `B`.
* **`Callback.map`**: replaces names and payloads.
* **`Token.callbacks`**: the calls a token amounts to on the borrowed surface. -/

namespace HtmlStream

/-! ## (1) Calls -/

/-- The kinds of calls. -/
inductive CallbackKind where
  /-- A document type. -/
  | doctype
  /-- A start tag. -/
  | startTag
  /-- An attribute of the start tag before it. -/
  | tagAttr
  /-- An end tag. -/
  | endTag
  /-- A comment. -/
  | comment
  /-- A run of text. -/
  | chars
  /-- A U+0000 in text. -/
  | nullChar
  /-- The end of the input. -/
  | eof
  /-- A parse error. -/
  | error
  deriving DecidableEq, Repr

/-- The name of a kind in messages and in output. -/
def CallbackKind.text : CallbackKind → String
  | .doctype => "doctype"
  | .startTag => "start_tag"
  | .tagAttr => "tag_attr"
  | .endTag => "end_tag"
  | .comment => "comment"
  | .chars => "chars"
  | .nullChar => "null_char"
  | .eof => "eof"
  | .error => "error"

/-- One call of a sink. -/
inductive Callback (N B : Type) where
  /-- A document type; a missing part is an empty payload. -/
  | doctype (name publicId systemId : B) (forceQuirks : Bool)
  /-- A start tag and the number of attributes that follow. -/
  | startTag (name : N) (selfClosing : Bool) (attributeCount : Nat)
  /-- An attribute. -/
  | tagAttr (name : N) (value : B)
  /-- An end tag. -/
  | endTag (name : N)
  /-- A comment. -/
  | comment (text : B)
  /-- A run of text. -/
  | chars (text : B)
  /-- A U+0000 in text. -/
  | nullChar
  /-- The end of the input. -/
  | eof
  /-- A parse error. -/
  | error (message : B)
  deriving DecidableEq, Repr

/-- A call with texts. -/
abbrev TextCallback := Callback String String

namespace Callback

variable {N B N' B' : Type}

/-- The kind of a call. -/
def kind : Callback N B → CallbackKind
  | .doctype .. => .doctype
  | .startTag .. => .startTag
  | .tagAttr .. => .tagAttr
  | .endTag _ => .endTag
  | .comment _ => .comment
  | .chars _ => .chars
  | .nullChar => .nullChar
  | .eof => .eof
  | .error _ => .error

/-- Replaces names by `f` and payloads by `g`. -/
def map (f : N → N') (g : B → B') : Callback N B → Callback N' B'
  | .doctype name publicId systemId quirks =>
    .doctype (g name) (g publicId) (g systemId) quirks
  | .startTag name selfClosing count => .startTag (f name) selfClosing count
  | .tagAttr name value => .tagAttr (f name) (g value)
  | .endTag name => .endTag (f name)
  | .comment text => .comment (g text)
  | .chars text => .chars (g text)
  | .nullChar => .nullChar
  | .eof => .eof
  | .error message => .error (g message)

/-- The payloads of a call, in order. -/
def payloads : Callback N B → List B
  | .doctype name publicId systemId _ => [name, publicId, systemId]
  | .tagAttr _ value => [value]
  | .comment text | .chars text | .error text => [text]
  | .startTag .. | .endTag _ | .nullChar | .eof => []

/-- The names of a call, in order. -/
def names : Callback N B → List N
  | .startTag name .. | .tagAttr name _ | .endTag name => [name]
  | .doctype .. | .comment _ | .chars _ | .nullChar | .eof | .error _ => []

end Callback

/-! ## (2) Calls of a token -/

/-- The calls of a tag. Those of an end tag have no attributes. -/
def Tag.callbacks (t : Tag) : List TextCallback :=
  match t.kind with
  | .opening =>
    .startTag t.name t.selfClosing t.attributes.size ::
      t.attributes.toList.map fun a => .tagAttr a.name a.value
  | .closing => [.endTag t.name]

/-- The calls of a token on the borrowed surface; `exact` decides the form of error messages. -/
def Token.callbacks (exact : Bool) : Token → List TextCallback
  | .doctype d =>
    [.doctype (d.name.getD "") (d.publicId.getD "") (d.systemId.getD "") d.forceQuirks]
  | .tag t => t.callbacks
  | .comment text => [.comment text]
  | .characters text => [.chars text]
  | .nullCharacter => [.nullChar]
  | .endOfInput => [.eof]
  | .error e state => [.error (e.message exact state)]

end HtmlStream

import HtmlStream.ParseError

/-! # Tokens

What the machine queues while it runs. Names are in ASCII lower case. -/

namespace HtmlStream

/-- An attribute of a tag. -/
structure Attribute where
  /-- Its name. -/
  name : String
  /-- Its value, character references resolved. -/
  value : String := ""
  deriving DecidableEq, Repr

/-- Start tags and end tags. -/
inductive TagKind where
  /-- `<name …>`. -/
  | opening
  /-- `</name …>`. -/
  | closing
  deriving DecidableEq, Repr

/-- A tag. -/
structure Tag where
  /-- Whether it opens or closes. -/
  kind : TagKind
  /-- Its name. -/
  name : String := ""
  /-- Whether `/` stands before its `>`. -/
  selfClosing : Bool := false
  /-- Its attributes in order, the first of each name. -/
  attributes : Array Attribute := #[]
  deriving DecidableEq, Repr

/-- A document type. A missing part differs from an empty one only while it is under construction. -/
structure Doctype where
  /-- Its name. -/
  name : Option String := none
  /-- Its public identifier. -/
  publicId : Option String := none
  /-- Its system identifier. -/
  systemId : Option String := none
  /-- Whether the document is to be shown in quirks mode because of it. -/
  forceQuirks : Bool := false
  deriving DecidableEq, Repr

/-- What the machine queues. -/
inductive Token where
  /-- A document type. -/
  | doctype (d : Doctype)
  /-- A start tag or an end tag. -/
  | tag (t : Tag)
  /-- A comment. -/
  | comment (text : String)
  /-- A run of text, never empty and free of U+0000. -/
  | characters (text : String)
  /-- A U+0000 in text. -/
  | nullCharacter
  /-- The end of the input. -/
  | endOfInput
  /-- A parse error and the state the machine was in. -/
  | error (e : ParseError) (state : State)
  deriving DecidableEq, Repr

end HtmlStream

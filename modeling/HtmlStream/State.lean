/-! # Machine states

The states of the tokenization machine. States that differ only in the kind of text, of escape, of
quote or of identifier they are about are one constructor with that kind as its argument: the raw text
kinds share their less-than, end-tag-open and end-tag-name states, and script data inside `<!--` is a
raw kind of its own. -/

namespace HtmlStream

/-- How deep script data stands inside `<!--`. -/
inductive EscapeKind where
  /-- After `<!--`. -/
  | escaped
  /-- After a `<script` inside escaped text, until its `</script`. -/
  | doubleEscaped
  deriving DecidableEq, Repr

/-- Kinds of text in which markup is not read, an appropriate end tag apart. -/
inductive RawKind where
  /-- Text in which only character references are read. -/
  | rcdata
  /-- Text in which nothing is read. -/
  | rawtext
  /-- Script content outside `<!--`. -/
  | scriptData
  /-- Script content inside `<!--`. -/
  | scriptDataEscaped (kind : EscapeKind)
  deriving DecidableEq, Repr

/-- How an attribute value is delimited. -/
inductive QuoteKind where
  /-- By quotation marks. -/
  | doubleQuoted
  /-- By apostrophes. -/
  | singleQuoted
  /-- By white space or the end of the tag. -/
  | unquoted
  deriving DecidableEq, Repr

/-- The two identifiers of a document type. -/
inductive IdentifierKind where
  /-- The identifier after `PUBLIC`. -/
  | publicId
  /-- The identifier after `SYSTEM`, or after a public one. -/
  | systemId
  deriving DecidableEq, Repr

/-- Where the machine stands in the markup. -/
inductive State where
  /-- Text between tags. -/
  | data
  /-- Text to the end of the input. -/
  | plaintext
  /-- Raw text of a kind. -/
  | rawData (kind : RawKind)
  /-- After `<` in raw text. -/
  | rawLessThanSign (kind : RawKind)
  /-- After `</` in raw text. -/
  | rawEndTagOpen (kind : RawKind)
  /-- After `</` and a letter in raw text. -/
  | rawEndTagName (kind : RawKind)
  /-- After `<!` in script data (`escaped`), or after `<` and before the letters of a possible `script`
  in escaped script data (`doubleEscaped`). -/
  | scriptDataEscapeStart (kind : EscapeKind)
  /-- After `<!-` in script data. -/
  | scriptDataEscapeStartDash
  /-- After `-` in escaped script data. -/
  | scriptDataEscapedDash (kind : EscapeKind)
  /-- After `--` in escaped script data. -/
  | scriptDataEscapedDashDash (kind : EscapeKind)
  /-- After `</` in double escaped script data. -/
  | scriptDataDoubleEscapeEnd
  /-- After `<`. -/
  | tagOpen
  /-- After `</`. -/
  | endTagOpen
  /-- In the name of a tag. -/
  | tagName
  /-- Between attributes. -/
  | beforeAttributeName
  /-- In the name of an attribute. -/
  | attributeName
  /-- After white space behind the name of an attribute. -/
  | afterAttributeName
  /-- After `=`. -/
  | beforeAttributeValue
  /-- In the value of an attribute. -/
  | attributeValue (kind : QuoteKind)
  /-- After the closing quote of a value. -/
  | afterAttributeValueQuoted
  /-- After `/` in a tag. -/
  | selfClosingStartTag
  /-- After `<!`. -/
  | markupDeclarationOpen
  /-- After `<!--`. -/
  | commentStart
  /-- After `<!---`. -/
  | commentStartDash
  /-- In the text of a comment. -/
  | comment
  /-- After `-` in a comment. -/
  | commentEndDash
  /-- After `--` in a comment. -/
  | commentEnd
  /-- After `--!` in a comment. -/
  | commentEndBang
  /-- In markup that is kept as a comment up to its first `>`. -/
  | bogusComment
  /-- After `<!doctype`. -/
  | doctype
  /-- Before the name of a document type. -/
  | beforeDoctypeName
  /-- In the name of a document type. -/
  | doctypeName
  /-- After white space behind the name of a document type. -/
  | afterDoctypeName
  /-- After `PUBLIC` or `SYSTEM`. -/
  | afterDoctypeKeyword (kind : IdentifierKind)
  /-- After white space behind `PUBLIC` or `SYSTEM`. -/
  | beforeDoctypeIdentifier (kind : IdentifierKind)
  /-- In an identifier that a quotation mark opened. -/
  | doctypeIdentifierDoubleQuoted (kind : IdentifierKind)
  /-- In an identifier that an apostrophe opened. -/
  | doctypeIdentifierSingleQuoted (kind : IdentifierKind)
  /-- After the closing quote of an identifier. -/
  | afterDoctypeIdentifier (kind : IdentifierKind)
  /-- After white space behind a public identifier. -/
  | betweenDoctypePublicAndSystemIdentifiers
  /-- In a document type that is skipped up to its `>`. -/
  | bogusDoctype
  deriving DecidableEq, Repr

/-! ## Names in messages

Exact error messages name the state the machine was in. -/

/-- A name and its argument in parentheses. -/
def applied (name argument : String) : String := name ++ "(" ++ argument ++ ")"

/-- The name of an escape kind in messages. -/
def EscapeKind.text : EscapeKind → String
  | .escaped => "Escaped"
  | .doubleEscaped => "DoubleEscaped"

/-- The name of a raw kind in messages. -/
def RawKind.text : RawKind → String
  | .rcdata => "Rcdata"
  | .rawtext => "Rawtext"
  | .scriptData => "ScriptData"
  | .scriptDataEscaped kind => applied "ScriptDataEscaped" kind.text

/-- The name of a quote kind in messages. -/
def QuoteKind.text : QuoteKind → String
  | .doubleQuoted => "DoubleQuoted"
  | .singleQuoted => "SingleQuoted"
  | .unquoted => "Unquoted"

/-- The name of an identifier kind in messages. -/
def IdentifierKind.text : IdentifierKind → String
  | .publicId => "Public"
  | .systemId => "System"

/-- The name of a state in messages. -/
def State.text : State → String
  | .data => "Data"
  | .plaintext => "Plaintext"
  | .rawData kind => applied "RawData" kind.text
  | .rawLessThanSign kind => applied "RawLessThanSign" kind.text
  | .rawEndTagOpen kind => applied "RawEndTagOpen" kind.text
  | .rawEndTagName kind => applied "RawEndTagName" kind.text
  | .scriptDataEscapeStart kind => applied "ScriptDataEscapeStart" kind.text
  | .scriptDataEscapeStartDash => "ScriptDataEscapeStartDash"
  | .scriptDataEscapedDash kind => applied "ScriptDataEscapedDash" kind.text
  | .scriptDataEscapedDashDash kind => applied "ScriptDataEscapedDashDash" kind.text
  | .scriptDataDoubleEscapeEnd => "ScriptDataDoubleEscapeEnd"
  | .tagOpen => "TagOpen"
  | .endTagOpen => "EndTagOpen"
  | .tagName => "TagName"
  | .beforeAttributeName => "BeforeAttributeName"
  | .attributeName => "AttributeName"
  | .afterAttributeName => "AfterAttributeName"
  | .beforeAttributeValue => "BeforeAttributeValue"
  | .attributeValue kind => applied "AttributeValue" kind.text
  | .afterAttributeValueQuoted => "AfterAttributeValueQuoted"
  | .selfClosingStartTag => "SelfClosingStartTag"
  | .markupDeclarationOpen => "MarkupDeclarationOpen"
  | .commentStart => "CommentStart"
  | .commentStartDash => "CommentStartDash"
  | .comment => "Comment"
  | .commentEndDash => "CommentEndDash"
  | .commentEnd => "CommentEnd"
  | .commentEndBang => "CommentEndBang"
  | .bogusComment => "BogusComment"
  | .doctype => "Doctype"
  | .beforeDoctypeName => "BeforeDoctypeName"
  | .doctypeName => "DoctypeName"
  | .afterDoctypeName => "AfterDoctypeName"
  | .afterDoctypeKeyword kind => applied "AfterDoctypeKeyword" kind.text
  | .beforeDoctypeIdentifier kind => applied "BeforeDoctypeIdentifier" kind.text
  | .doctypeIdentifierDoubleQuoted kind => applied "DoctypeIdentifierDoubleQuoted" kind.text
  | .doctypeIdentifierSingleQuoted kind => applied "DoctypeIdentifierSingleQuoted" kind.text
  | .afterDoctypeIdentifier kind => applied "AfterDoctypeIdentifier" kind.text
  | .betweenDoctypePublicAndSystemIdentifiers => "BetweenDoctypePublicAndSystemIdentifiers"
  | .bogusDoctype => "BogusDoctype"

/-- Whether the state is inside an attribute value. -/
def State.isAttributeValue : State → Bool
  | .attributeValue _ => true
  | _ => false

end HtmlStream

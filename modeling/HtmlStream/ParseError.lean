import HtmlStream.State

/-! # Parse errors

Recoverable errors of the tokenization machine. They never stop it: each one is delivered as a
callback that carries a message.

* **`ErrorCode`**: the causes; `ErrorCode.text` is the standard code of each.
* **`ParseError`**: a cause and the number of characters consumed when it was noticed.
* **`ParseError.message`**: the code alone, or the code with state and position. -/

namespace HtmlStream

/-- Causes of parse errors. -/
inductive ErrorCode where
  /-- U+0000 where it is replaced, reported on its own or dropped. -/
  | unexpectedNullCharacter
  /-- `<?`. -/
  | unexpectedQuestionMarkInsteadOfTagName
  /-- `<` or `</` before a character that starts no tag. -/
  | invalidFirstCharacterOfTagName
  /-- `</>`. -/
  | missingEndTagName
  /-- The input ends after `<` or `</`. -/
  | eofBeforeTagName
  /-- The input ends inside a tag. -/
  | eofInTag
  /-- The input ends inside escaped script data. -/
  | eofInScriptHtmlCommentLikeText
  /-- `=` where an attribute name begins. -/
  | unexpectedEqualsSignBeforeAttributeName
  /-- A quote or `<` in an attribute name. -/
  | unexpectedCharacterInAttributeName
  /-- `=` and then `>`. -/
  | missingAttributeValue
  /-- A quote, `<`, `=` or a grave accent in an unquoted value. -/
  | unexpectedCharacterInUnquotedAttributeValue
  /-- A closing quote with no space behind it. -/
  | missingWhitespaceBetweenAttributes
  /-- `/` in a tag with no `>` behind it. -/
  | unexpectedSolidusInTag
  /-- A second attribute of one name. -/
  | duplicateAttribute
  /-- An end tag with attributes. -/
  | endTagWithAttributes
  /-- A self-closing end tag. -/
  | endTagWithTrailingSolidus
  /-- `<!` before neither a comment nor a document type. -/
  | incorrectlyOpenedComment
  /-- `<![CDATA[`. -/
  | cdataInHtmlContent
  /-- `<!-->` or `<!--->`. -/
  | abruptClosingOfEmptyComment
  /-- A comment that `--!>` closes. -/
  | incorrectlyClosedComment
  /-- The input ends inside a comment. -/
  | eofInComment
  /-- The input ends inside a document type. -/
  | eofInDoctype
  /-- `<!doctype` with no space behind it. -/
  | missingWhitespaceBeforeDoctypeName
  /-- A document type without a name. -/
  | missingDoctypeName
  /-- Neither `PUBLIC` nor `SYSTEM` behind the name. -/
  | invalidCharacterSequenceAfterDoctypeName
  /-- `PUBLIC` with no space behind it. -/
  | missingWhitespaceAfterDoctypePublicKeyword
  /-- `SYSTEM` with no space behind it. -/
  | missingWhitespaceAfterDoctypeSystemKeyword
  /-- `PUBLIC` and no identifier. -/
  | missingDoctypePublicIdentifier
  /-- `SYSTEM` and no identifier. -/
  | missingDoctypeSystemIdentifier
  /-- A public identifier that no quote opens. -/
  | missingQuoteBeforeDoctypePublicIdentifier
  /-- A system identifier that no quote opens. -/
  | missingQuoteBeforeDoctypeSystemIdentifier
  /-- `>` inside a public identifier. -/
  | abruptDoctypePublicIdentifier
  /-- `>` inside a system identifier. -/
  | abruptDoctypeSystemIdentifier
  /-- No space between the two identifiers. -/
  | missingWhitespaceBetweenDoctypePublicAndSystemIdentifiers
  /-- Anything but `>` behind the system identifier. -/
  | unexpectedCharacterAfterDoctypeSystemIdentifier
  /-- `&#` with no digit behind it. -/
  | absenceOfDigitsInNumericCharacterReference
  /-- A character reference without its semicolon. -/
  | missingSemicolonAfterCharacterReference
  /-- `&`, letters and a semicolon that name nothing. -/
  | unknownNamedCharacterReference
  /-- A reference to U+0000. -/
  | nullCharacterReference
  /-- A reference beyond U+10FFFF. -/
  | characterReferenceOutsideUnicodeRange
  /-- A reference to a surrogate. -/
  | surrogateCharacterReference
  /-- A reference to a noncharacter. -/
  | noncharacterCharacterReference
  /-- A reference to a control character. -/
  | controlCharacterReference
  deriving DecidableEq, Repr

namespace ErrorCode

/-- The standard code. -/
def text : ErrorCode → String
  | .unexpectedNullCharacter => "unexpected-null-character"
  | .unexpectedQuestionMarkInsteadOfTagName => "unexpected-question-mark-instead-of-tag-name"
  | .invalidFirstCharacterOfTagName => "invalid-first-character-of-tag-name"
  | .missingEndTagName => "missing-end-tag-name"
  | .eofBeforeTagName => "eof-before-tag-name"
  | .eofInTag => "eof-in-tag"
  | .eofInScriptHtmlCommentLikeText => "eof-in-script-html-comment-like-text"
  | .unexpectedEqualsSignBeforeAttributeName => "unexpected-equals-sign-before-attribute-name"
  | .unexpectedCharacterInAttributeName => "unexpected-character-in-attribute-name"
  | .missingAttributeValue => "missing-attribute-value"
  | .unexpectedCharacterInUnquotedAttributeValue =>
    "unexpected-character-in-unquoted-attribute-value"
  | .missingWhitespaceBetweenAttributes => "missing-whitespace-between-attributes"
  | .unexpectedSolidusInTag => "unexpected-solidus-in-tag"
  | .duplicateAttribute => "duplicate-attribute"
  | .endTagWithAttributes => "end-tag-with-attributes"
  | .endTagWithTrailingSolidus => "end-tag-with-trailing-solidus"
  | .incorrectlyOpenedComment => "incorrectly-opened-comment"
  | .cdataInHtmlContent => "cdata-in-html-content"
  | .abruptClosingOfEmptyComment => "abrupt-closing-of-empty-comment"
  | .incorrectlyClosedComment => "incorrectly-closed-comment"
  | .eofInComment => "eof-in-comment"
  | .eofInDoctype => "eof-in-doctype"
  | .missingWhitespaceBeforeDoctypeName => "missing-whitespace-before-doctype-name"
  | .missingDoctypeName => "missing-doctype-name"
  | .invalidCharacterSequenceAfterDoctypeName => "invalid-character-sequence-after-doctype-name"
  | .missingWhitespaceAfterDoctypePublicKeyword =>
    "missing-whitespace-after-doctype-public-keyword"
  | .missingWhitespaceAfterDoctypeSystemKeyword =>
    "missing-whitespace-after-doctype-system-keyword"
  | .missingDoctypePublicIdentifier => "missing-doctype-public-identifier"
  | .missingDoctypeSystemIdentifier => "missing-doctype-system-identifier"
  | .missingQuoteBeforeDoctypePublicIdentifier =>
    "missing-quote-before-doctype-public-identifier"
  | .missingQuoteBeforeDoctypeSystemIdentifier =>
    "missing-quote-before-doctype-system-identifier"
  | .abruptDoctypePublicIdentifier => "abrupt-doctype-public-identifier"
  | .abruptDoctypeSystemIdentifier => "abrupt-doctype-system-identifier"
  | .missingWhitespaceBetweenDoctypePublicAndSystemIdentifiers =>
    "missing-whitespace-between-doctype-public-and-system-identifiers"
  | .unexpectedCharacterAfterDoctypeSystemIdentifier =>
    "unexpected-character-after-doctype-system-identifier"
  | .absenceOfDigitsInNumericCharacterReference =>
    "absence-of-digits-in-numeric-character-reference"
  | .missingSemicolonAfterCharacterReference => "missing-semicolon-after-character-reference"
  | .unknownNamedCharacterReference => "unknown-named-character-reference"
  | .nullCharacterReference => "null-character-reference"
  | .characterReferenceOutsideUnicodeRange => "character-reference-outside-unicode-range"
  | .surrogateCharacterReference => "surrogate-character-reference"
  | .noncharacterCharacterReference => "noncharacter-character-reference"
  | .controlCharacterReference => "control-character-reference"

/-- Every code, in order. -/
def all : List ErrorCode :=
  [.unexpectedNullCharacter, .unexpectedQuestionMarkInsteadOfTagName,
    .invalidFirstCharacterOfTagName, .missingEndTagName, .eofBeforeTagName, .eofInTag,
    .eofInScriptHtmlCommentLikeText, .unexpectedEqualsSignBeforeAttributeName,
    .unexpectedCharacterInAttributeName, .missingAttributeValue,
    .unexpectedCharacterInUnquotedAttributeValue, .missingWhitespaceBetweenAttributes,
    .unexpectedSolidusInTag, .duplicateAttribute, .endTagWithAttributes,
    .endTagWithTrailingSolidus, .incorrectlyOpenedComment, .cdataInHtmlContent,
    .abruptClosingOfEmptyComment, .incorrectlyClosedComment, .eofInComment, .eofInDoctype,
    .missingWhitespaceBeforeDoctypeName, .missingDoctypeName,
    .invalidCharacterSequenceAfterDoctypeName, .missingWhitespaceAfterDoctypePublicKeyword,
    .missingWhitespaceAfterDoctypeSystemKeyword, .missingDoctypePublicIdentifier,
    .missingDoctypeSystemIdentifier, .missingQuoteBeforeDoctypePublicIdentifier,
    .missingQuoteBeforeDoctypeSystemIdentifier, .abruptDoctypePublicIdentifier,
    .abruptDoctypeSystemIdentifier, .missingWhitespaceBetweenDoctypePublicAndSystemIdentifiers,
    .unexpectedCharacterAfterDoctypeSystemIdentifier,
    .absenceOfDigitsInNumericCharacterReference, .missingSemicolonAfterCharacterReference,
    .unknownNamedCharacterReference, .nullCharacterReference,
    .characterReferenceOutsideUnicodeRange, .surrogateCharacterReference,
    .noncharacterCharacterReference, .controlCharacterReference]

/-- The code with each word capitalised and joined to the one before it. -/
def name (code : ErrorCode) : String :=
  go true code.text.toList ""
where
  /-- `atWord` says that the next character begins a word. -/
  go (atWord : Bool) : List Char → String → String
    | [], acc => acc
    | c :: rest, acc =>
      if c = '-' then go true rest acc
      else go false rest (acc.push (if atWord then c.toUpper else c))

/-- The code of a given name. -/
def ofName? (s : String) : Option ErrorCode := all.find? (·.name == s)

/-- The error of a quoted identifier that stands directly behind its keyword. -/
def missingWhitespaceAfterKeyword : IdentifierKind → ErrorCode
  | .publicId => .missingWhitespaceAfterDoctypePublicKeyword
  | .systemId => .missingWhitespaceAfterDoctypeSystemKeyword

/-- The error of a keyword that no identifier follows. -/
def missingIdentifier : IdentifierKind → ErrorCode
  | .publicId => .missingDoctypePublicIdentifier
  | .systemId => .missingDoctypeSystemIdentifier

/-- The error of an identifier that no quote opens. -/
def missingQuote : IdentifierKind → ErrorCode
  | .publicId => .missingQuoteBeforeDoctypePublicIdentifier
  | .systemId => .missingQuoteBeforeDoctypeSystemIdentifier

/-- The error of an identifier that `>` cuts off. -/
def abruptIdentifier : IdentifierKind → ErrorCode
  | .publicId => .abruptDoctypePublicIdentifier
  | .systemId => .abruptDoctypeSystemIdentifier

end ErrorCode

/-- A recoverable error at a position. -/
structure ParseError where
  /-- The cause. -/
  code : ErrorCode
  /-- Characters consumed before the error was noticed, after newline normalisation and removal of a
  byte order mark. -/
  position : Nat
  deriving DecidableEq, Repr

namespace ParseError

/-- The message with state and position. -/
def exactMessage (e : ParseError) (state : State) : String :=
  e.code.text ++ " in state " ++ state.text ++ " at character " ++ toString e.position

/-- The message of an error noticed in `state`: the code, followed by state and position if `exact`
is set. -/
def message (exact : Bool) (e : ParseError) (state : State) : String :=
  if exact then e.exactMessage state else e.code.text

/-- All of an error in one line of the form `ParseError { code: …, position: … }`. -/
def fields (e : ParseError) : String :=
  "ParseError \x7b code: " ++ e.code.name ++ ", position: " ++ toString e.position ++ " \x7d"

end ParseError

end HtmlStream

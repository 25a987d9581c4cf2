import HtmlStream.Machine.Reference

/-! # Tags and attributes

The states from `<` to `>`. -/

namespace HtmlStream.Machine

/-- After `<`. -/
def stepTagOpen (m : Machine) (c : Char) : Machine :=
  if c = '!' then m.advance.goto .markupDeclarationOpen
  else if c = '/' then m.advance.goto .endTagOpen
  else if c = '?' then
    ((m.report .unexpectedQuestionMarkInsteadOfTagName).openComment "").goto .bogusComment
  else if c.isAlpha then (m.advance.openTag .opening c.toLower).goto .tagName
  else ((m.report .invalidFirstCharacterOfTagName).putChar '<').goto .data

/-- After `</`. -/
def stepEndTagOpen (m : Machine) (c : Char) : Machine :=
  if c.isAlpha then (m.advance.openTag .closing c.toLower).goto .tagName
  else if c = '>' then (m.advance.report .missingEndTagName).goto .data
  else ((m.report .invalidFirstCharacterOfTagName).openComment "").goto .bogusComment

/-- In the name of a tag. -/
def stepTagName (m : Machine) (c : Char) : Machine :=
  let m := m.advance
  if Ascii.isSpace c then m.goto .beforeAttributeName
  else if c = '/' then m.goto .selfClosingStartTag
  else if c = '>' then m.emitTag
  else if c = '\x00' then (m.report .unexpectedNullCharacter).putTagName '\uFFFD'
  else m.putTagName c.toLower

/-- Characters that an attribute name should not contain. -/
def isOddInName (c : Char) : Bool :=
  c = Ascii.doubleQuote || c = Ascii.singleQuote || c = '<'

/-- Begins an attribute with a character just read. -/
def beginAttribute (m : Machine) (c : Char) : Machine :=
  (if c = '\x00' then (m.report .unexpectedNullCharacter).openAttribute '\uFFFD'
    else if c = '=' then (m.report .unexpectedEqualsSignBeforeAttributeName).openAttribute c
    else if isOddInName c then (m.report .unexpectedCharacterInAttributeName).openAttribute c
    else m.openAttribute c.toLower).goto .attributeName

/-- Between attributes. -/
def stepBeforeAttributeName (m : Machine) (c : Char) : Machine :=
  let m := m.advance
  if Ascii.isSpace c then m
  else if c = '/' then m.goto .selfClosingStartTag
  else if c = '>' then m.emitTag
  else m.beginAttribute c

/-- In the name of an attribute. -/
def stepAttributeName (m : Machine) (c : Char) : Machine :=
  let m := m.advance
  if Ascii.isSpace c then m.goto .afterAttributeName
  else if c = '/' then m.goto .selfClosingStartTag
  else if c = '=' then m.goto .beforeAttributeValue
  else if c = '>' then m.emitTag
  else if c = '\x00' then (m.report .unexpectedNullCharacter).putAttributeName '\uFFFD'
  else if isOddInName c then
    (m.report .unexpectedCharacterInAttributeName).putAttributeName c
  else m.putAttributeName c.toLower

/-- After white space behind the name of an attribute. -/
def stepAfterAttributeName (m : Machine) (c : Char) : Machine :=
  let m := m.advance
  if Ascii.isSpace c then m
  else if c = '/' then m.goto .selfClosingStartTag
  else if c = '=' then m.goto .beforeAttributeValue
  else if c = '>' then m.emitTag
  else m.beginAttribute c

/-- After `=`. -/
def stepBeforeAttributeValue (m : Machine) (c : Char) : Machine :=
  if Ascii.isSpace c then m.advance
  else if c = Ascii.doubleQuote then m.advance.goto (.attributeValue .doubleQuoted)
  else if c = Ascii.singleQuote then m.advance.goto (.attributeValue .singleQuoted)
  else if c = '>' then (m.advance.report .missingAttributeValue).emitTag
  else m.goto (.attributeValue .unquoted)

/-- Characters that an unquoted value should not contain. -/
def isOddUnquoted (c : Char) : Bool :=
  isOddInName c || c = '=' || c = Ascii.grave

/-- Whether `c` is the quote that closes a value. -/
def closesValue : QuoteKind → Char → Bool
  | .doubleQuoted, c => c = Ascii.doubleQuote
  | .singleQuoted, c => c = Ascii.singleQuote
  | .unquoted, _ => false

/-- In the value of an attribute. -/
def stepAttributeValue (m : Machine) (kind : QuoteKind) (c : Char) : Machine :=
  let m := m.advance
  if closesValue kind c then m.goto .afterAttributeValueQuoted
  else if kind = .unquoted && Ascii.isSpace c then m.goto .beforeAttributeName
  else if kind = .unquoted && c = '>' then m.emitTag
  else if c = '&' then m.beginReference
  else if c = '\x00' then (m.report .unexpectedNullCharacter).putAttributeValue '\uFFFD'
  else if kind = .unquoted && isOddUnquoted c then
    (m.report .unexpectedCharacterInUnquotedAttributeValue).putAttributeValue c
  else m.putAttributeValue c

/-- After the closing quote of a value. -/
def stepAfterAttributeValueQuoted (m : Machine) (c : Char) : Machine :=
  if Ascii.isSpace c then m.advance.goto .beforeAttributeName
  else if c = '/' then m.advance.goto .selfClosingStartTag
  else if c = '>' then m.advance.emitTag
  else (m.report .missingWhitespaceBetweenAttributes).goto .beforeAttributeName

/-- After `/` in a tag. -/
def stepSelfClosingStartTag (m : Machine) (c : Char) : Machine :=
  if c = '>' then
    m.advance.markSelfClosing.emitTag
  else (m.report .unexpectedSolidusInTag).goto .beforeAttributeName

end HtmlStream.Machine

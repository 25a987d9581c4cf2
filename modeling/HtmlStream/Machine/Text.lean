import HtmlStream.Machine.Reference

/-! # Text

The states in which characters are text: between tags, in plain text and in the raw text kinds,
together with the search for the end tag that ends raw text. A possible end tag of raw text that turns
out to be none is put back as text. -/

namespace HtmlStream.Machine

/-- A U+0000 that text keeps as U+FFFD. -/
def replaceNull (m : Machine) : Machine :=
  (m.report .unexpectedNullCharacter).putChar '\uFFFD'

/-- Text between tags. A U+0000 is a token of its own. -/
def stepData (m : Machine) : Char → Machine
  | '&' => m.advance.beginReference
  | '<' => m.advance.goto .tagOpen
  | '\x00' => (m.advance.report .unexpectedNullCharacter).emit .nullCharacter
  | c => m.advance.putChar c

/-- Plain text. -/
def stepPlaintext (m : Machine) : Char → Machine
  | '\x00' => m.advance.replaceNull
  | c => m.advance.putChar c

/-- After the `<` of escaped script data. Double escaped text keeps it as text at once, since only
`</script` can end it. -/
def escapedLessThan (m : Machine) (kind : EscapeKind) : Machine :=
  (match kind with
    | .escaped => m
    | .doubleEscaped => m.putChar '<').goto (.rawLessThanSign (.scriptDataEscaped kind))

/-- Raw text. -/
def stepRawData (m : Machine) (kind : RawKind) (c : Char) : Machine :=
  match kind, c with
  | .rcdata, '&' => m.advance.beginReference
  | .scriptDataEscaped escape, '-' => (m.advance.putChar '-').goto (.scriptDataEscapedDash escape)
  | .scriptDataEscaped escape, '<' => m.advance.escapedLessThan escape
  | _, '<' => m.advance.goto (.rawLessThanSign kind)
  | _, '\x00' => m.advance.replaceNull
  | _, c => m.advance.putChar c

/-- After `<` in raw text. -/
def stepRawLessThanSign (m : Machine) (kind : RawKind) (c : Char) : Machine :=
  match kind, c with
  | .scriptDataEscaped .doubleEscaped, '/' =>
    (m.advance.clearLetters.putChar '/').goto .scriptDataDoubleEscapeEnd
  | .scriptDataEscaped .doubleEscaped, _ => m.goto (.rawData kind)
  | _, '/' => m.advance.clearLetters.goto (.rawEndTagOpen kind)
  | .scriptData, '!' => (m.advance.putText "<!").goto (.scriptDataEscapeStart .escaped)
  | .scriptDataEscaped .escaped, c =>
    if c.isAlpha then
      (m.clearLetters.putChar '<').goto (.scriptDataEscapeStart .doubleEscaped)
    else (m.putChar '<').goto (.rawData kind)
  | _, _ => (m.putChar '<').goto (.rawData kind)

/-- After `</` in raw text. -/
def stepRawEndTagOpen (m : Machine) (kind : RawKind) (c : Char) : Machine :=
  if c.isAlpha then
    ((m.advance.openTag .closing c.toLower).putLetter c).goto (.rawEndTagName kind)
  else (m.putText "</").goto (.rawData kind)

/-- Puts a possible end tag back as text. -/
def putBackEndTag (m : Machine) (kind : RawKind) : Machine :=
  (m.clearLetters.putText ("</" ++ m.letters)).goto (.rawData kind)

/-- After `</` and letters in raw text. -/
def stepRawEndTagName (m : Machine) (kind : RawKind) (c : Char) : Machine :=
  if m.isAppropriateEndTag && Ascii.isSpace c then
    m.advance.clearLetters.goto .beforeAttributeName
  else if m.isAppropriateEndTag && c = '/' then
    m.advance.clearLetters.goto .selfClosingStartTag
  else if m.isAppropriateEndTag && c = '>' then
    m.advance.clearLetters.emitTag
  else if c.isAlpha then
    (m.advance.putTagName c.toLower).putLetter c
  else m.putBackEndTag kind

end HtmlStream.Machine

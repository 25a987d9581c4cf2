import HtmlStream.Machine.Basic

/-! # Markup declarations and document types

The states from `<!` on: which declaration it is, and from `<!doctype` to its `>`. -/

namespace HtmlStream.Machine

/-- After `<!`. None while the characters that decide have not all arrived. -/
def stepMarkupDeclarationOpen (m : Machine) : Option Machine :=
  match m.input.lookahead sameChar "--" with
  | .found => some (((m.skip 2).openComment "").goto .commentStart)
  | .undecided => none
  | .absent =>
    match m.input.lookahead sameLetter "doctype" with
    | .found => some ((m.skip 7).goto .doctype)
    | .undecided => none
    | .absent =>
      match m.input.lookahead sameChar "[CDATA[" with
      | .found =>
        -- there is no foreign content here, so the section is a comment that keeps its opening
        some ((((m.report .cdataInHtmlContent).skip 7).openComment "[CDATA[").goto .bogusComment)
      | .undecided => none
      | .absent => some (((m.report .incorrectlyOpenedComment).openComment "").goto .bogusComment)

/-- Before the name of a document type, at a character just read. -/
def beforeDoctypeName (m : Machine) (c : Char) : Machine :=
  if Ascii.isSpace c then m
  else if c = '>' then (m.report .missingDoctypeName).resetDoctype.forceQuirks.emitDoctype
  else if c = '\x00' then
    ((m.report .unexpectedNullCharacter).resetDoctype.putDoctypeName '\uFFFD').goto .doctypeName
  else (m.resetDoctype.putDoctypeName c.toLower).goto .doctypeName

/-- After `<!doctype`. -/
def stepDoctype (m : Machine) (c : Char) : Machine :=
  let m := m.advance.goto .beforeDoctypeName
  if Ascii.isSpace c then m
  else if c = '>' then m.beforeDoctypeName c
  else (m.report .missingWhitespaceBeforeDoctypeName).beforeDoctypeName c

/-- Before the name of a document type. -/
def stepBeforeDoctypeName (m : Machine) (c : Char) : Machine := m.advance.beforeDoctypeName c

/-- In the name of a document type. -/
def stepDoctypeName (m : Machine) (c : Char) : Machine :=
  let m := m.advance
  if Ascii.isSpace c then m.goto .afterDoctypeName
  else if c = '>' then m.emitDoctype
  else if c = '\x00' then (m.report .unexpectedNullCharacter).putDoctypeName '\uFFFD'
  else m.putDoctypeName c.toLower

/-- Skips the rest of a document type because of an error, which forces quirks mode. -/
def abandonDoctype (m : Machine) (code : ErrorCode) : Machine :=
  (m.report code).forceQuirks.goto .bogusDoctype

/-- Ends a document type too early, which forces quirks mode. -/
def cutDoctype (m : Machine) (code : ErrorCode) : Machine :=
  (m.report code).forceQuirks.emitDoctype

/-- Behind the name of a document type. None while a keyword has not arrived in full. -/
def stepAfterDoctypeName (m : Machine) (c : Char) : Option Machine :=
  if Ascii.isSpace c then some m.advance
  else if c = '>' then some m.advance.emitDoctype
  else
    match m.input.lookahead sameLetter "public" with
    | .found => some ((m.skip 6).goto (.afterDoctypeKeyword .publicId))
    | .undecided => none
    | .absent =>
      match m.input.lookahead sameLetter "system" with
      | .found => some ((m.skip 6).goto (.afterDoctypeKeyword .systemId))
      | .undecided => none
      | .absent => some (m.abandonDoctype .invalidCharacterSequenceAfterDoctypeName)

/-- The two quotes. -/
def isQuote (c : Char) : Bool := c = Ascii.doubleQuote || c = Ascii.singleQuote

/-- Begins an identifier at the quote `c`, just read. -/
def beginIdentifier (m : Machine) (kind : IdentifierKind) (c : Char) : Machine :=
  (m.openIdentifier kind).goto
    (if c = Ascii.doubleQuote then .doctypeIdentifierDoubleQuoted kind
      else .doctypeIdentifierSingleQuoted kind)

/-- After `PUBLIC` or `SYSTEM`. -/
def stepAfterDoctypeKeyword (m : Machine) (kind : IdentifierKind) (c : Char) : Machine :=
  let m := m.advance
  if Ascii.isSpace c then m.goto (.beforeDoctypeIdentifier kind)
  else if isQuote c then
    (m.report (.missingWhitespaceAfterKeyword kind)).beginIdentifier kind c
  else if c = '>' then m.cutDoctype (.missingIdentifier kind)
  else m.abandonDoctype (.missingQuote kind)

/-- After white space behind `PUBLIC` or `SYSTEM`. -/
def stepBeforeDoctypeIdentifier (m : Machine) (kind : IdentifierKind) (c : Char) : Machine :=
  let m := m.advance
  if Ascii.isSpace c then m
  else if isQuote c then m.beginIdentifier kind c
  else if c = '>' then m.cutDoctype (.missingIdentifier kind)
  else m.abandonDoctype (.missingQuote kind)

/-- In an identifier that `quote` closes. -/
def stepDoctypeIdentifier (m : Machine) (kind : IdentifierKind) (quote c : Char) : Machine :=
  let m := m.advance
  if c = quote then m.goto (.afterDoctypeIdentifier kind)
  else if c = '\x00' then (m.report .unexpectedNullCharacter).putIdentifier '\uFFFD' kind
  else if c = '>' then m.cutDoctype (.abruptIdentifier kind)
  else m.putIdentifier c kind

/-- After the public identifier. -/
def stepAfterPublicIdentifier (m : Machine) (c : Char) : Machine :=
  let m := m.advance
  if Ascii.isSpace c then m.goto .betweenDoctypePublicAndSystemIdentifiers
  else if c = '>' then m.emitDoctype
  else if isQuote c then
    (m.report .missingWhitespaceBetweenDoctypePublicAndSystemIdentifiers).beginIdentifier
      .systemId c
  else m.abandonDoctype .missingQuoteBeforeDoctypeSystemIdentifier

/-- After the system identifier. What follows it does not force quirks mode. -/
def stepAfterSystemIdentifier (m : Machine) (c : Char) : Machine :=
  let m := m.advance
  if Ascii.isSpace c then m
  else if c = '>' then m.emitDoctype
  else (m.report .unexpectedCharacterAfterDoctypeSystemIdentifier).goto .bogusDoctype

/-- After white space behind the public identifier. -/
def stepBetweenIdentifiers (m : Machine) (c : Char) : Machine :=
  let m := m.advance
  if Ascii.isSpace c then m
  else if c = '>' then m.emitDoctype
  else if isQuote c then m.beginIdentifier .systemId c
  else m.abandonDoctype .missingQuoteBeforeDoctypeSystemIdentifier

/-- In a document type that is skipped. -/
def stepBogusDoctype (m : Machine) (c : Char) : Machine :=
  let m := m.advance
  if c = '>' then m.emitDoctype
  else if c = '\x00' then m.report .unexpectedNullCharacter
  else m

end HtmlStream.Machine

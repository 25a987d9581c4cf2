/-! # ASCII classes

The classes of ASCII characters that markup is made of. Letters, digits and case are those of
`Char.isAlpha`, `Char.isAlphanum` and `Char.toLower`, which leave every other character alone. -/

namespace HtmlStream.Ascii

/-- White space inside a tag or a declaration: tab, line feed, form feed and space. A carriage return
never reaches the machine. -/
def isSpace (c : Char) : Bool :=
  c = '\t' || c = '\n' || c = '\x0c' || c = ' '

/-- The quotation mark. -/
abbrev doubleQuote : Char := '\x22'

/-- The apostrophe. -/
abbrev singleQuote : Char := '\x27'

/-- The grave accent. -/
abbrev grave : Char := '\x60'

/-- ASCII lower case of a whole text. -/
def lower (s : String) : String := String.ofList (s.toList.map Char.toLower)

end HtmlStream.Ascii

import HtmlStream.Machine.Text

/-! # Script data inside `<!--`

Inside `<!--` a script may hold a nested `<script>`, and then its own end tag does not end it before
the nested one has ended. Everything here stays text: the states only decide which `</script` counts. -/

namespace HtmlStream.Machine

/-- A `-` is kept and moves to `onDash`; anything else is left unread and read in `otherwise`. -/
def escapeDash (m : Machine) (c : Char) (onDash otherwise : State) : Machine :=
  if c = '-' then (m.advance.putChar '-').goto onDash else m.goto otherwise

/-- The letters after `<` or `</`: text goes on as `onScript` if they spell `script` and a name may
end there, and as `otherwise` if not. -/
def escapeBoundary (m : Machine) (c : Char) (onScript otherwise : EscapeKind) : Machine :=
  if Ascii.isSpace c || c = '/' || c = '>' then
    let next := if m.letters = "script" then onScript else otherwise
    (m.advance.putChar c).goto (.rawData (.scriptDataEscaped next))
  else if c.isAlpha then
    (m.advance.putLetter c.toLower).putChar c
  else m.goto (.rawData (.scriptDataEscaped otherwise))

/-- After `<!`, or in the letters of a possible nested `script`. -/
def stepEscapeStart (m : Machine) (kind : EscapeKind) (c : Char) : Machine :=
  match kind with
  | .escaped => m.escapeDash c .scriptDataEscapeStartDash (.rawData .scriptData)
  | .doubleEscaped => m.escapeBoundary c .doubleEscaped .escaped

/-- After `<!-`. -/
def stepEscapeStartDash (m : Machine) (c : Char) : Machine :=
  m.escapeDash c (.scriptDataEscapedDashDash .escaped) (.rawData .scriptData)

/-- A character that is no dash after dashes in escaped text. -/
def afterDashes (m : Machine) (kind : EscapeKind) : Char → Machine
  | '<' => m.escapedLessThan kind
  | '\x00' => m.replaceNull.goto (.rawData (.scriptDataEscaped kind))
  | c => (m.putChar c).goto (.rawData (.scriptDataEscaped kind))

/-- After one dash in escaped text. -/
def stepEscapedDash (m : Machine) (kind : EscapeKind) : Char → Machine
  | '-' => (m.advance.putChar '-').goto (.scriptDataEscapedDashDash kind)
  | c => m.advance.afterDashes kind c

/-- After two dashes or more in escaped text. -/
def stepEscapedDashDash (m : Machine) (kind : EscapeKind) : Char → Machine
  | '-' => m.advance.putChar '-'
  | '>' => (m.advance.putChar '>').goto (.rawData .scriptData)
  | c => m.advance.afterDashes kind c

/-- After `</` in double escaped text. -/
def stepDoubleEscapeEnd (m : Machine) (c : Char) : Machine :=
  m.escapeBoundary c .escaped .doubleEscaped

end HtmlStream.Machine

import HtmlStream.Machine.Basic

/-! # Comments

The states from `<!--` to `-->`, and those of markup that is kept as a comment. Dashes that may yet
close a comment are held in the state and put into the text once they turn out not to. -/

namespace HtmlStream.Machine

/-- The dashes a comment state holds. -/
def heldDashes : State → String
  | .commentStartDash | .commentEndDash => "-"
  | .commentEnd => "--"
  | .commentEndBang => "--!"
  | _ => ""

/-- A character that closes nothing: the dashes held were text. -/
def putBackDashes (m : Machine) (c : Char) : Machine :=
  ((m.putCommentText (heldDashes m.state)).putComment c).goto .comment

/-- A character of a comment that is neither dash nor bracket in a place that counts. -/
def putCommentChar (m : Machine) (c : Char) : Machine :=
  if c = '\x00' then (m.report .unexpectedNullCharacter).putBackDashes '\uFFFD'
  else m.putBackDashes c

/-- In markup that is kept as a comment. -/
def stepBogusComment (m : Machine) (c : Char) : Machine :=
  let m := m.advance
  if c = '>' then m.emitComment
  else if c = '\x00' then (m.report .unexpectedNullCharacter).putComment '\uFFFD'
  else m.putComment c

/-- After `<!--`. -/
def stepCommentStart (m : Machine) (c : Char) : Machine :=
  let m := m.advance
  if c = '-' then m.goto .commentStartDash
  else if c = '>' then (m.report .abruptClosingOfEmptyComment).emitComment
  else m.putCommentChar c

/-- After `<!---`. -/
def stepCommentStartDash (m : Machine) (c : Char) : Machine :=
  let m := m.advance
  if c = '-' then m.goto .commentEnd
  else if c = '>' then (m.report .abruptClosingOfEmptyComment).emitComment
  else m.putCommentChar c

/-- In the text of a comment. -/
def stepCommentText (m : Machine) (c : Char) : Machine :=
  let m := m.advance
  if c = '-' then m.goto .commentEndDash else m.putCommentChar c

/-- After `-` in a comment. -/
def stepCommentEndDash (m : Machine) (c : Char) : Machine :=
  let m := m.advance
  if c = '-' then m.goto .commentEnd else m.putCommentChar c

/-- After `--` in a comment. -/
def stepCommentEnd (m : Machine) (c : Char) : Machine :=
  let m := m.advance
  if c = '>' then m.emitComment
  else if c = '!' then m.goto .commentEndBang
  else if c = '-' then m.putComment '-'
  else m.putCommentChar c

/-- After `--!` in a comment. -/
def stepCommentEndBang (m : Machine) (c : Char) : Machine :=
  let m := m.advance
  if c = '-' then (m.putCommentText "--!").goto .commentEndDash
  else if c = '>' then (m.report .incorrectlyClosedComment).emitComment
  else m.putCommentChar c

end HtmlStream.Machine

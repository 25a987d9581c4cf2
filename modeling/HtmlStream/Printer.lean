import HtmlStream.Callback
import HtmlStream.Text.Quoted

/-! # Output lines

The two forms in which calls are printed, one line for each call.

* **`Callback.textLine`**: words, with payloads quoted.
* **`Callback.jsonLine`**: a JSON object whose first member names the kind of the call. -/

namespace HtmlStream

/-- The two forms of output. -/
inductive Format where
  /-- Words. -/
  | text
  /-- JSON objects. -/
  | json
  deriving DecidableEq, Repr

namespace Callback

/-! ## (1) Words -/

/-- A call in words. -/
def textLine : TextCallback → String
  | .doctype name publicId systemId quirks =>
    "doctype name=" ++ Text.quote name ++ " public_id=" ++ Text.quote publicId ++
      " system_id=" ++ Text.quote systemId ++ " force_quirks=" ++ Text.truth quirks
  | .startTag name selfClosing count =>
    "start_tag " ++ name ++ " self_closing=" ++ Text.truth selfClosing ++ " attrs=" ++ toString count
  | .tagAttr name value => "  attr " ++ name ++ "=" ++ Text.quote value
  | .endTag name => "end_tag " ++ name
  | .comment text => "comment " ++ Text.quote text
  | .chars text => "chars " ++ Text.quote text
  | .nullChar => "null_char"
  | .eof => "eof"
  | .error message => "error " ++ message

/-! ## (2) JSON -/

/-- A member of a JSON object, its value already written. -/
def member (name value : String) : String := Text.jsonQuote name ++ ":" ++ value

/-- The members of a call behind the first. -/
def members : TextCallback → List String
  | .doctype name publicId systemId quirks =>
    [member "name" (Text.jsonQuote name), member "public_id" (Text.jsonQuote publicId),
      member "system_id" (Text.jsonQuote systemId), member "force_quirks" (Text.truth quirks)]
  | .startTag name selfClosing count =>
    [member "name" (Text.jsonQuote name), member "self_closing" (Text.truth selfClosing),
      member "num_attrs" (toString count)]
  | .tagAttr name value =>
    [member "name" (Text.jsonQuote name), member "value" (Text.jsonQuote value)]
  | .endTag name => [member "name" (Text.jsonQuote name)]
  | .comment text | .chars text => [member "text" (Text.jsonQuote text)]
  | .nullChar | .eof => []
  | .error message => [member "message" (Text.jsonQuote message)]

/-- A call as a JSON object. -/
def jsonLine (call : TextCallback) : String :=
  "\x7b" ++ ",".intercalate (member "event" (Text.jsonQuote call.kind.text) :: call.members) ++
    "\x7d"

/-! ## (3) Either form -/

/-- A call in a form, without the end of the line. -/
def line (format : Format) (call : TextCallback) : String :=
  match format with
  | .text => call.textLine
  | .json => call.jsonLine

end Callback

end HtmlStream

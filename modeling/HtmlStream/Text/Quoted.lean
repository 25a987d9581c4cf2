import HtmlStream.Text.Digits
import HtmlStream.Text.Printable

/-! # Written forms of text

Three ways of writing a text on one line so that it can be told where it ends and what it was.

* **`quote`**: between quotation marks, with a backslash before quotation marks and backslashes and in
  front of whatever is not shown as it is.
* **`jsonQuote`**: a JSON string.
* **`escape`**: the form of snapshot lines, without the quotation marks around it.

Each of them writes one character at a time, and each character that is written with a backslash is
written in a form of its own. -/

namespace HtmlStream.Text

/-- Text between quotation marks. -/
def enclose (s : String) : String := "\x22" ++ s ++ "\x22"

/-- A code point in braces after `\u`. -/
def braced (digits : String) : String := "\\u\x7b" ++ digits ++ "\x7d"

/-! ## (1) Quoted text -/

/-- How a character is written between quotation marks. -/
def quoteChar (c : Char) : String :=
  if c = '\x22' then "\\\x22"
  else if c = '\\' then "\\\\"
  else if c = '\x00' then "\\0"
  else if c = '\t' then "\\t"
  else if c = '\r' then "\\r"
  else if c = '\n' then "\\n"
  else if isShown c then String.singleton c
  else braced (hex c.toNat)

/-- Writes each character of a text in turn. -/
def writeAll (write : Char → String) (s : String) : String :=
  s.toList.foldl (fun acc c => acc ++ write c) ""

/-- A text between quotation marks, everything that would not be seen written by its number. -/
def quote (s : String) : String := enclose (writeAll quoteChar s)

/-! ## (2) JSON strings -/

/-- How a character is written in a JSON string. -/
def jsonChar (c : Char) : String :=
  if c = '\x22' then "\\\x22"
  else if c = '\\' then "\\\\"
  else if c = '\x08' then "\\b"
  else if c = '\x0c' then "\\f"
  else if c = '\n' then "\\n"
  else if c = '\r' then "\\r"
  else if c = '\t' then "\\t"
  else if c.toNat < 0x20 then "\\u" ++ padLeft 4 '0' (hex c.toNat)
  else String.singleton c

/-- A text as a JSON string. -/
def jsonQuote (s : String) : String := enclose (writeAll jsonChar s)

/-! ## (3) Snapshot text -/

/-- How a character is written in a snapshot line. -/
def escapeChar (c : Char) : String :=
  if c = '\\' then "\\\\"
  else if c = '\x22' then "\\\x22"
  else if c = '\n' then "\\n"
  else if c = '\r' then "\\r"
  else if c = '\t' then "\\t"
  else if c.toNat < 0x20 || c = '\x7f' then braced (padLeft 2 '0' (hexUpper c.toNat))
  else String.singleton c

/-- A text as it stands in a snapshot line. -/
def escape (s : String) : String := writeAll escapeChar s

/-- A text between quotation marks in a snapshot line. -/
def snapshotQuote (s : String) : String := enclose (escape s)

end HtmlStream.Text

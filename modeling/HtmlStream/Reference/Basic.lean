/-! # Character references under construction

A character reference is read one character at a time, whatever the machine was doing when it met the
`&`. Nothing of it is delivered before it is settled. -/

namespace HtmlStream

namespace Reference

/-- How far a character reference has been read. -/
inductive Phase where
  /-- After `&`. -/
  | opened
  /-- After `&#`. -/
  | numeric
  /-- In the digits of a number. -/
  | digits (hex : Bool)
  /-- In a name. -/
  | named
  deriving DecidableEq, Repr

end Reference

/-- A character reference under construction. -/
structure Reference where
  /-- How far it has been read. -/
  phase : Reference.Phase := .opened
  /-- Whether it stands in an attribute value. -/
  inAttribute : Bool
  /-- What was read after `&`. -/
  raw : String := ""
  /-- The number read so far. -/
  number : Nat := 0
  /-- Whether a digit was read. -/
  sawDigit : Bool := false
  deriving DecidableEq, Repr

end HtmlStream

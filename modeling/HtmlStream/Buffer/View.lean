import HtmlStream.Text.Quoted
import HtmlStream.Text.Utf8

/-! # Views of bytes

Bytes that belong to someone else and are looked at during a call. A view of no bytes stands for a part
that is missing. -/

namespace HtmlStream.Buffer

/-- The bytes before the first zero, all of them if there is none. -/
def beforeNul (bs : Bytes) : Bytes := bs.takeWhile (· ≠ 0)

/-- The bytes of a text that a zero ends, none if no zero ends it. -/
def terminated? (bs : Bytes) : Option Bytes :=
  if bs.contains 0 then some (beforeNul bs) else none

/-- What is said of bytes without a zero that should have one. -/
def notTerminated : String := "no nul"

/-- A quoted text after the name of its type. -/
def described (type : String) (bs : Bytes) : String :=
  type ++ "(" ++ Text.quote (Utf8.lossy bs) ++ ")"

/-- A view as it is shown. -/
def describeView (bs : Bytes) : String := described "BorrowedBuf" bs

/-- A shared buffer as it is shown. -/
def describeShared (bs : Bytes) : String := described "SharedBuf" bs

/-- An interned name as it is shown, after its number. -/
def describeAtom (number : String) (bs : Bytes) : String :=
  "Atom(" ++ number ++ ", " ++ Text.quote (Utf8.lossy bs) ++ ")"

end HtmlStream.Buffer

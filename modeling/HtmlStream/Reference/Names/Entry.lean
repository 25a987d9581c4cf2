/-! # Entries of the named reference table

A named character reference is written as `&`, a name and mostly a semicolon. An older part of the
names is also known without it, so the semicolon counts as a part of the name. -/

namespace HtmlStream.Reference

/-- A name and what it stands for. -/
structure Entry where
  /-- The name, without `&` and with its semicolon if it has one. -/
  name : List Char
  /-- The text it expands to. -/
  expansion : String
  deriving DecidableEq, Repr

/-- Whether the name ends in its semicolon. -/
def Entry.isClosed (e : Entry) : Bool := e.name.getLast? = some ';'

/-- Entries of names known only with the semicolon, which the pairs leave out. -/
def withSemicolon (pairs : List (String × String)) : List Entry :=
  pairs.map fun pair => ⟨pair.1.toList ++ [';'], pair.2⟩

/-- Entries of names known both without and with the semicolon. -/
def withOrWithoutSemicolon (pairs : List (String × String)) : List Entry :=
  pairs.flatMap fun pair => [⟨pair.1.toList, pair.2⟩, ⟨pair.1.toList ++ [';'], pair.2⟩]

end HtmlStream.Reference

import HtmlStream.Text.Utf8

/-! # Interned names

A table that gives each distinct name a number, in the order in which names are first seen. Names are
compared byte by byte. Nothing is ever removed, so a number stays valid.

* **`intern`**: the number of a name, entered if it is new.
* **`get?`**: the number of a name that has been entered.
* **`resolve?`**: the name of a number. -/

namespace HtmlStream

/-- A table of distinct names; the number of a name is its position. -/
structure AtomTable where
  /-- The names, in the order of their numbers. -/
  names : Array Bytes := #[]
  deriving DecidableEq, Repr

namespace AtomTable

/-- The number of names. -/
def size (t : AtomTable) : Nat := t.names.size

/-- Whether there is no name. -/
def isEmpty (t : AtomTable) : Bool := t.size = 0

/-- The number of a name that has been entered. -/
def get? (t : AtomTable) (name : Bytes) : Option Nat := t.names.findIdx? (· == name)

/-- The number of a name, which is entered if it is new. -/
def intern (t : AtomTable) (name : Bytes) : Nat × AtomTable :=
  match t.get? name with
  | some id => (id, t)
  | none => (t.size, ⟨t.names.push name⟩)

/-- The name of a number. -/
def resolve? (t : AtomTable) (id : Nat) : Option Bytes := t.names[id]?

/-- Handles on a stored name while it is lent out: two of the table's own and the one lent. The empty
name has no storage. -/
def handleCount (name : Bytes) : Nat := if name.isEmpty then 0 else 3

/-- The name of a number, lent as a buffer, and the number of handles on its storage. -/
def resolveShared? (t : AtomTable) (id : Nat) : Option (Bytes × Nat) :=
  (t.resolve? id).map fun name => (name, handleCount name)

/-- Whether two numbers lend buffers with the same storage. -/
def sameStorage (t : AtomTable) (a b : Nat) : Bool :=
  a = b && (t.resolve? a).any fun name => !name.isEmpty

end AtomTable

end HtmlStream

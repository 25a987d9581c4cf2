import HtmlStream.Reference.Names.Capitals
import HtmlStream.Reference.Names.SmallAToH
import HtmlStream.Reference.Names.SmallIToP
import HtmlStream.Reference.Names.SmallQToZ

/-! # Named character references

The standard table as a whole and the search for the longest name in it.

* **`startingWith c`**: the entries whose names begin with `c`.
* **`entries`**: all of them.
* **`longestMatch cs`**: the entry with the longest name that `cs` begins with. Names are pairwise
  distinct, so it is unique. -/

namespace HtmlStream.Reference

/-- The entries whose names begin with the letter `c`. -/
def startingWith (c : Char) : List Entry :=
  match c with
  | 'A' => Names.upperA
  | 'B' => Names.upperB
  | 'C' => Names.upperC
  | 'D' => Names.upperD
  | 'E' => Names.upperE
  | 'F' => Names.upperF
  | 'G' => Names.upperG
  | 'H' => Names.upperH
  | 'I' => Names.upperI
  | 'J' => Names.upperJ
  | 'K' => Names.upperK
  | 'L' => Names.upperL
  | 'M' => Names.upperM
  | 'N' => Names.upperN
  | 'O' => Names.upperO
  | 'P' => Names.upperP
  | 'Q' => Names.upperQ
  | 'R' => Names.upperR
  | 'S' => Names.upperS
  | 'T' => Names.upperT
  | 'U' => Names.upperU
  | 'V' => Names.upperV
  | 'W' => Names.upperW
  | 'X' => Names.upperX
  | 'Y' => Names.upperY
  | 'Z' => Names.upperZ
  | 'a' => Names.lowerA
  | 'b' => Names.lowerB
  | 'c' => Names.lowerC
  | 'd' => Names.lowerD
  | 'e' => Names.lowerE
  | 'f' => Names.lowerF
  | 'g' => Names.lowerG
  | 'h' => Names.lowerH
  | 'i' => Names.lowerI
  | 'j' => Names.lowerJ
  | 'k' => Names.lowerK
  | 'l' => Names.lowerL
  | 'm' => Names.lowerM
  | 'n' => Names.lowerN
  | 'o' => Names.lowerO
  | 'p' => Names.lowerP
  | 'q' => Names.lowerQ
  | 'r' => Names.lowerR
  | 's' => Names.lowerS
  | 't' => Names.lowerT
  | 'u' => Names.lowerU
  | 'v' => Names.lowerV
  | 'w' => Names.lowerW
  | 'x' => Names.lowerX
  | 'y' => Names.lowerY
  | 'z' => Names.lowerZ
  | _ => []

/-- The letters that names begin with. -/
def initials : List Char :=
  "ABCDEFGHIJKLMNOPQRSTUVWXYZabcdefghijklmnopqrstuvwxyz".toList

/-- The whole table. -/
def entries : List Entry := initials.flatMap startingWith

/-- The greatest number of characters read as a name, semicolon included. -/
def nameLimit : Nat := 32

/-- The entry with the longer name, the earlier one if they are equally long. -/
def Entry.longer (best : Option Entry) (e : Entry) : Option Entry :=
  match best with
  | none => some e
  | some b => if b.name.length < e.name.length then some e else some b

/-- The entry with the longest name that `cs` begins with. -/
def longestMatch (cs : List Char) : Option Entry :=
  match cs with
  | [] => none
  | c :: _ => ((startingWith c).filter fun e => e.name.isPrefixOf cs).foldl Entry.longer none

end HtmlStream.Reference

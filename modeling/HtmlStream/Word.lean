/-! # Words

Sizes, positions and seeds are words of 64 bits. They are kept as natural numbers, and the places where
the bound shows say so. -/

namespace HtmlStream.Word

/-- The greatest word. -/
def greatest : Nat := 0xFFFFFFFFFFFFFFFF

/-- The sum of two words, if it is a word. -/
def add? (a b : Nat) : Option Nat := if a + b ≤ greatest then some (a + b) else none

end HtmlStream.Word

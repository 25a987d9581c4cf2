/-! # Numeric character references

What a number written as `&#…;` or `&#x…;` stands for.

* **`NumberClass.ofNumber n`**: the class of a number.
* **`numberChar n`**: the character it stands for.
* **`accumulate`**: reading digits, with every number above the last code point counted as one. -/

namespace HtmlStream.Reference

/-- The least number that is no code point. -/
def codePointLimit : Nat := 0x110000

/-- The base of the digits. -/
def base (hex : Bool) : Nat := if hex then 16 else 10

/-- One more digit behind the number read so far. Numbers from `codePointLimit` on are not told
apart. -/
def accumulate (hex : Bool) (number digit : Nat) : Nat :=
  min (number * base hex + digit) codePointLimit

/-- Code points that are reserved for internal use: U+FDD0 to U+FDEF and the last two of each
plane. -/
def isNoncharacter (n : Nat) : Bool :=
  0xFDD0 ≤ n && n ≤ 0xFDEF || n % 0x10000 = 0xFFFE || n % 0x10000 = 0xFFFF

/-- Control characters whose references are errors: all but tab, line feed and form feed. -/
def isControl (n : Nat) : Bool :=
  0x01 ≤ n && n ≤ 0x08 || n = 0x0B || 0x0D ≤ n && n ≤ 0x1F || 0x7F ≤ n && n ≤ 0x9F

/-- What the numbers 128 to 159 mean in the code page Windows-1252, where they mean anything. -/
def windows1252? : Nat → Option Char
  | 0x80 => some '\u20AC'
  | 0x82 => some '\u201A'
  | 0x83 => some '\u0192'
  | 0x84 => some '\u201E'
  | 0x85 => some '\u2026'
  | 0x86 => some '\u2020'
  | 0x87 => some '\u2021'
  | 0x88 => some '\u02C6'
  | 0x89 => some '\u2030'
  | 0x8A => some '\u0160'
  | 0x8B => some '\u2039'
  | 0x8C => some '\u0152'
  | 0x8E => some '\u017D'
  | 0x91 => some '\u2018'
  | 0x92 => some '\u2019'
  | 0x93 => some '\u201C'
  | 0x94 => some '\u201D'
  | 0x95 => some '\u2022'
  | 0x96 => some '\u2013'
  | 0x97 => some '\u2014'
  | 0x98 => some '\u02DC'
  | 0x99 => some '\u2122'
  | 0x9A => some '\u0161'
  | 0x9B => some '\u203A'
  | 0x9C => some '\u0153'
  | 0x9E => some '\u017E'
  | 0x9F => some '\u0178'
  | _ => none

/-- Classes of referenced numbers. -/
inductive NumberClass where
  /-- Zero. -/
  | null
  /-- No code point. -/
  | outsideRange
  /-- A surrogate code point. -/
  | surrogate
  /-- A noncharacter. -/
  | noncharacter
  /-- A control character other than tab, line feed and form feed. -/
  | control
  /-- Any other character. -/
  | ordinary
  deriving DecidableEq, Repr

/-- The class of a number. -/
def NumberClass.ofNumber (n : Nat) : NumberClass :=
  if n = 0 then .null
  else if codePointLimit ≤ n then .outsideRange
  else if 0xD800 ≤ n && n ≤ 0xDFFF then .surrogate
  else if isNoncharacter n then .noncharacter
  else if isControl n then .control
  else .ordinary

/-- The character a number stands for. -/
def numberChar (n : Nat) : Char :=
  match NumberClass.ofNumber n with
  | .null | .outsideRange | .surrogate => '\uFFFD'
  | .control => (windows1252? n).getD (Char.ofNat n)
  | .noncharacter | .ordinary => Char.ofNat n

end HtmlStream.Reference

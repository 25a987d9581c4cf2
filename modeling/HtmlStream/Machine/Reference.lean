import HtmlStream.Machine.Basic
import HtmlStream.Reference.Names
import HtmlStream.Reference.Numeric
import HtmlStream.Text.Digits

/-! # Reading character references

While a reference is under construction it takes precedence over the state of the machine. What it
expands to, or its literal text, goes where the state was writing: to the text held back or to the
value of the attribute. The character that ends a reference without a semicolon is left unread.

* **`beginReference`**: at `&`.
* **`stepReference`**: one character, or the end of the input, further. -/

namespace HtmlStream.Machine

/-- Begins a reference. -/
def beginReference (m : Machine) : Machine :=
  { m with reference := some { inAttribute := m.state.isAttributeValue } }

/-- Goes on with a reference. -/
def keepReference (m : Machine) (r : Reference) : Machine := { m with reference := some r }

/-- Ends a reference with the text it amounts to. -/
def closeReference (m : Machine) (r : Reference) (s : String) : Machine :=
  let m := { m with reference := none }
  if r.inAttribute then m.putAttributeText s else m.putText s

/-- Ends a reference that is kept as it is written. -/
def closeLiteral (m : Machine) (r : Reference) : Machine := m.closeReference r ("&" ++ r.raw)

/-- The error of a number that is referenced. -/
def reportNumber (m : Machine) (n : Nat) : Machine :=
  match Reference.NumberClass.ofNumber n with
  | .null => m.report .nullCharacterReference
  | .outsideRange => m.report .characterReferenceOutsideUnicodeRange
  | .surrogate => m.report .surrogateCharacterReference
  | .noncharacter => m.report .noncharacterCharacterReference
  | .control => m.report .controlCharacterReference
  | .ordinary => m

/-- Ends a numeric reference. -/
def closeNumber (m : Machine) (r : Reference) : Machine :=
  (m.reportNumber r.number).closeReference r (String.singleton (Reference.numberChar r.number))

/-- Whether a name without semicolon in an attribute value is no reference, because of the character
that follows it: addresses in attributes are full of `&name=`. -/
def continuesName : Option Char → Bool
  | none => false
  | some c => c = '=' || c.isAlphanum

/-- Ends a named reference; `next` is the first character unread. -/
def closeName (m : Machine) (r : Reference) (next : Option Char) : Machine :=
  let raw := r.raw.toList
  match Reference.longestMatch raw with
  | some entry =>
    -- letters behind the longest name are text
    let rest := raw.drop entry.name.length
    let expanded := entry.expansion ++ String.ofList rest
    if entry.isClosed then m.closeReference r expanded
    else if r.inAttribute && continuesName (rest.head?.or next) then m.closeLiteral r
    else (m.report .missingSemicolonAfterCharacterReference).closeReference r expanded
  | none =>
    -- what looks like a name is an error only if a semicolon says that it was meant
    if raw.getLast? = some ';' then (m.report .unknownNamedCharacterReference).closeLiteral r
    else m.closeLiteral r

/-- After `&`. -/
def stepOpened (m : Machine) (r : Reference) : Option Char → Machine
  | some '#' => m.advance.keepReference { r with phase := .numeric, raw := r.raw.push '#' }
  | some c =>
    if c.isAlphanum then m.keepReference { r with phase := .named } else m.closeLiteral r
  | none => m.closeLiteral r

/-- After `&#`. -/
def stepNumeric (m : Machine) (r : Reference) (next : Option Char) : Machine :=
  match next with
  | some c =>
    if c = 'x' || c = 'X' then
      m.advance.keepReference { r with phase := .digits true, raw := r.raw.push c }
    else m.keepReference { r with phase := .digits false }
  | none => m.keepReference { r with phase := .digits false }

/-- At the end of the digits. -/
def endDigits (m : Machine) (r : Reference) (next : Option Char) : Machine :=
  if !r.sawDigit then
    (m.report .absenceOfDigitsInNumericCharacterReference).closeLiteral r
  else if next = some ';' then m.advance.closeNumber r
  else (m.report .missingSemicolonAfterCharacterReference).closeNumber r

/-- In the digits. -/
def stepDigits (m : Machine) (r : Reference) (hex : Bool) (next : Option Char) : Machine :=
  match next with
  | some c =>
    match Text.digitValue? (Reference.base hex) c with
    | some digit =>
      m.advance.keepReference
        { r with raw := r.raw.push c, number := Reference.accumulate hex r.number digit,
                 sawDigit := true }
    | none => m.endDigits r next
  | none => m.endDigits r next

/-- In a name. -/
def stepNamed (m : Machine) (r : Reference) (next : Option Char) : Machine :=
  match next with
  | some c =>
    if r.raw.length < Reference.nameLimit && c.isAlphanum then
      m.advance.keepReference { r with raw := r.raw.push c }
    else if r.raw.length < Reference.nameLimit && c = ';' then
      m.advance.closeName { r with raw := r.raw.push ';' } none
    else m.closeName r next
  | none => m.closeName r next

/-- One step of the reference `r`; `next` is the next character, none at the end of the input. -/
def stepReference (m : Machine) (r : Reference) (next : Option Char) : Machine :=
  match r.phase with
  | .opened => m.stepOpened r next
  | .numeric => m.stepNumeric r next
  | .digits hex => m.stepDigits r hex next
  | .named => m.stepNamed r next

end HtmlStream.Machine

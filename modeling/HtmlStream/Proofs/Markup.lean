import HtmlStream.Text.Ascii
import HtmlStream.Token
import Mathlib

/-! # Canonical markup

Tokens have many spellings. The canonical one writes every value between quotation marks, a reference
only for the characters that need one, and nothing that is not needed. The tokens that have a canonical
spelling are the canonical tokens.

* **`Place.escape`**: the characters of text and of values, as they are written.
* **`Token.markup`** and **`markup`**: the spelling of a token and of a list of tokens.
* **`Token.Canonical`** and **`Canonical`**: the tokens and lists of tokens that are spelled so. -/

namespace HtmlStream

/-! ## (1) Spelling -/

/-- The places in which some characters are written as references. -/
inductive Place where
  /-- Text between tags. -/
  | text
  /-- A value between quotation marks. -/
  | value
  deriving DecidableEq, Repr

/-- The character that would end the text of a place. -/
def Place.special : Place → Char
  | .text => '<'
  | .value => Ascii.doubleQuote

/-- The name of the reference that stands for it. -/
def Place.name : Place → String
  | .text => "lt"
  | .value => "quot"

/-- **A character as it is written** in a place. -/
def Place.escape (place : Place) (c : Char) : String :=
  if c = '&' then "&amp;"
  else if c = place.special then "&" ++ place.name ++ ";"
  else String.singleton c

/-- A text as it is written in a place. -/
def Place.write (place : Place) (s : String) : String := String.join (s.toList.map place.escape)

theorem Place.toList_write (place : Place) (s : String) :
    (place.write s).toList = s.toList.flatMap fun c => (place.escape c).toList := by
  rw [write, String.toList_join, List.flatMap_map]

/-- Text between quotation marks. -/
def quote (s : String) : String := "\x22" ++ s ++ "\x22"

/-- The spelling of an attribute, with the space before it. -/
def Attribute.markup (a : Attribute) : String :=
  " " ++ a.name ++ "=" ++ quote (Place.value.write a.value)

/-- What a tag begins with. -/
def TagKind.markup : TagKind → String
  | .opening => "<"
  | .closing => "</"

/-- The spelling of a tag. -/
def Tag.markup (t : Tag) : String :=
  t.kind.markup ++ t.name ++ String.join (t.attributes.toList.map Attribute.markup) ++
    (if t.selfClosing then "/>" else ">")

/-- The spelling of the identifiers of a document type. -/
def Doctype.identifiers (d : Doctype) : String :=
  match d.publicId, d.systemId with
  | none, none => ""
  | some publicId, none => " PUBLIC " ++ quote publicId
  | some publicId, some systemId => " PUBLIC " ++ quote publicId ++ " " ++ quote systemId
  | none, some systemId => " SYSTEM " ++ quote systemId

/-- **The spelling of a token.** The end of the input, errors and a U+0000 have none. -/
def Token.markup : Token → String
  | .doctype d => "<!DOCTYPE " ++ d.name.getD "" ++ d.identifiers ++ ">"
  | .tag t => t.markup
  | .comment text => "<!--" ++ text ++ "-->"
  | .characters text => Place.text.write text
  | .nullCharacter | .endOfInput | .error .. => ""

/-- **The spelling of a list of tokens.** -/
def markup (tokens : List Token) : String := String.join (tokens.map Token.markup)

/-! ## (2) Canonical tokens -/

/-- Characters that reach a token as they are written: a U+0000 is replaced and a CR is a newline. -/
def isTextChar (c : Char) : Bool := c ≠ '\x00' && c ≠ '\r'

/-- Characters of the names of tags. -/
def isNameChar (c : Char) : Bool :=
  isTextChar c && !c.isUpper && !Ascii.isSpace c && c ≠ '/' && c ≠ '>'

/-- Characters of the names of attributes. -/
def isAttributeNameChar (c : Char) : Bool :=
  isNameChar c && c ≠ '=' && c ≠ Ascii.doubleQuote && c ≠ Ascii.singleQuote && c ≠ '<'

/-- Characters of the names of document types. -/
def isDoctypeNameChar (c : Char) : Bool :=
  isTextChar c && !c.isUpper && !Ascii.isSpace c && c ≠ '>'

/-- Characters of the identifiers of document types. -/
def isIdentifierChar (c : Char) : Bool :=
  isTextChar c && c ≠ Ascii.doubleQuote && c ≠ '>'

/-- The name of a canonical tag: it begins with a small letter. -/
def IsTagName (name : String) : Prop :=
  ∃ first rest, name.toList = first :: rest ∧ first.isLower = true ∧ ∀ c ∈ rest, isNameChar c = true

/-- **Canonical attributes.** -/
structure Attribute.Canonical (a : Attribute) : Prop where
  /-- The name is not empty. -/
  nonempty : a.name ≠ ""
  /-- The characters of the name. -/
  name : ∀ c ∈ a.name.toList, isAttributeNameChar c = true
  /-- The characters of the value. -/
  value : ∀ c ∈ a.value.toList, isTextChar c = true

/-- **Canonical tags.** -/
structure Tag.Canonical (t : Tag) : Prop where
  /-- The name. -/
  name : IsTagName t.name
  /-- The attributes. -/
  attributes : ∀ a ∈ t.attributes.toList, a.Canonical
  /-- No two attributes have one name. -/
  distinct : (t.attributes.toList.map (·.name)).Nodup
  /-- An end tag has neither attributes nor a solidus. -/
  closing : t.kind = .closing → t.attributes = #[] ∧ t.selfClosing = false

/-- Text that ends a comment if the comment goes on with it: it begins with `>` or `->`, or ends in
`-->` or `--!>`. -/
def ClosesComment (text : List Char) : Prop :=
  text = ['>'] ∨ text = ['-', '>'] ∨ ['-', '-', '>'] <:+ text ∨ ['-', '-', '!', '>'] <:+ text

/-- **Canonical comments** do not end before their end. -/
structure CanonicalComment (text : List Char) : Prop where
  /-- The characters. -/
  chars : ∀ c ∈ text, isTextChar c = true
  /-- It does not begin with `>`. -/
  bracket : ¬['>'] <+: text
  /-- It does not begin with `->`. -/
  arrow : ¬['-', '>'] <+: text
  /-- It does not contain `-->`. -/
  closing : ¬['-', '-', '>'] <:+: text
  /-- It does not contain `--!>`. -/
  bang : ¬['-', '-', '!', '>'] <:+: text

/-- **Canonical document types.** -/
structure Doctype.Canonical (d : Doctype) : Prop where
  /-- There is a name. -/
  nonempty : d.name.getD "" ≠ ""
  /-- The characters of the name. -/
  name : ∀ c ∈ (d.name.getD "").toList, isDoctypeNameChar c = true
  /-- The characters of the public identifier. -/
  publicId : ∀ id ∈ d.publicId, ∀ c ∈ id.toList, isIdentifierChar c = true
  /-- The characters of the system identifier. -/
  systemId : ∀ id ∈ d.systemId, ∀ c ∈ id.toList, isIdentifierChar c = true
  /-- Nothing forces quirks mode. -/
  quirks : d.forceQuirks = false

/-- **Canonical tokens.** -/
def Token.Canonical : Token → Prop
  | .doctype d => d.Canonical
  | .tag t => t.Canonical
  | .comment text => CanonicalComment text.toList
  | .characters text => text ≠ "" ∧ ∀ c ∈ text.toList, isTextChar c = true
  | .nullCharacter | .endOfInput | .error .. => False

/-- Two tokens that are not both text. -/
def Token.Apart : Token → Token → Prop
  | .characters _, .characters _ => False
  | _, _ => True

/-- **Canonical lists of tokens**: text stands in one piece. -/
structure Canonical (tokens : List Token) : Prop where
  /-- The tokens. -/
  each : ∀ t ∈ tokens, t.Canonical
  /-- No two of them are neighbouring text. -/
  apart : tokens.IsChain Token.Apart

theorem Canonical.tail {t : Token} {rest : List Token} (h : Canonical (t :: rest)) :
    Canonical rest :=
  ⟨fun t' ht' => h.each t' (List.mem_cons_of_mem t ht'), h.apart.of_cons⟩

theorem Canonical.head {t : Token} {rest : List Token} (h : Canonical (t :: rest)) :
    t.Canonical := h.each t List.mem_cons_self

/-! ## (3) Characters of the spelling -/

section

variable {c : Char}

theorem isNameChar_iff : isNameChar c = true ↔
    isTextChar c = true ∧ c.isUpper = false ∧ Ascii.isSpace c = false ∧ c ≠ '/' ∧ c ≠ '>' := by
  simp [isNameChar, and_assoc]

theorem isAttributeNameChar_iff : isAttributeNameChar c = true ↔
    isNameChar c = true ∧ c ≠ '=' ∧ c ≠ Ascii.doubleQuote ∧ c ≠ Ascii.singleQuote ∧ c ≠ '<' := by
  simp [isAttributeNameChar, and_assoc]

theorem isDoctypeNameChar_iff : isDoctypeNameChar c = true ↔
    isTextChar c = true ∧ c.isUpper = false ∧ Ascii.isSpace c = false ∧ c ≠ '>' := by
  simp [isDoctypeNameChar, and_assoc]

theorem isIdentifierChar_iff : isIdentifierChar c = true ↔
    isTextChar c = true ∧ c ≠ Ascii.doubleQuote ∧ c ≠ '>' := by
  simp [isIdentifierChar, and_assoc]

theorem isTextChar_iff : isTextChar c = true ↔ c ≠ '\x00' ∧ c ≠ '\r' := by
  simp [isTextChar]

/-- Only capitals have another lower case. -/
theorem toLower_of_not_isUpper (h : c.isUpper = false) : c.toLower = c :=
  Char.toLower_eq_of_not_isUpper (by rw [h]; exact Bool.false_ne_true)

theorem isUpper_of_isLower (h : c.isLower = true) : c.isUpper = false :=
  Bool.not_eq_true _ ▸ Char.not_isUpper_of_isLower h

theorem isAlpha_of_isLower (h : c.isLower = true) : c.isAlpha = true := by
  rw [← Char.isLower_toLower_eq_isAlpha, toLower_of_not_isUpper (isUpper_of_isLower h), h]

/-- A small letter is none of the other characters. -/
theorem ne_of_isLower (h : c.isLower = true) {d : Char} (hd : d.isLower = false) : c ≠ d := by
  intro hcd
  rw [hcd, hd] at h
  cases h

end

/-! ## (4) No carriage return

Newlines of canonical markup are read as they are written. -/

theorem return_notMem_escape {place : Place} {c : Char} (h : isTextChar c = true) :
    '\r' ∉ (place.escape c).toList := by
  have hc := (isTextChar_iff.mp h).2.symm
  unfold Place.escape
  -- the two references are fixed texts; anything else is the character itself
  split
  · decide
  · split
    · cases place <;> decide
    · simpa using hc

/-- Text has no CR. -/
theorem return_notMem {s : String} (h : ∀ c ∈ s.toList, isTextChar c = true) : '\r' ∉ s.toList :=
  fun hr => (isTextChar_iff.mp (h _ hr)).2 rfl

/-- Texts without CR have none one behind the other. -/
theorem return_notMem_join {α : Type} {f : α → String} {l : List α}
    (h : ∀ a ∈ l, '\r' ∉ (f a).toList) : '\r' ∉ (String.join (l.map f)).toList := by
  simpa [String.toList_join] using h

theorem return_notMem_append {s t : String} (hs : '\r' ∉ s.toList) (ht : '\r' ∉ t.toList) :
    '\r' ∉ (s ++ t).toList := by
  rw [String.toList_append, List.mem_append, not_or]
  exact ⟨hs, ht⟩

theorem return_notMem_quote {s : String} (h : '\r' ∉ s.toList) : '\r' ∉ (quote s).toList :=
  return_notMem_append (return_notMem_append (by decide) h) (by decide)

theorem return_notMem_write {place : Place} {s : String} (h : ∀ c ∈ s.toList, isTextChar c = true) :
    '\r' ∉ (place.write s).toList :=
  return_notMem_join fun c hc => return_notMem_escape (h c hc)

theorem Attribute.Canonical.return_notMem {a : Attribute} (h : a.Canonical) :
    '\r' ∉ a.markup.toList := by
  have hname := HtmlStream.return_notMem fun c hc =>
    (isNameChar_iff.mp (isAttributeNameChar_iff.mp (h.name c hc)).1).1
  have hvalue : '\r' ∉ (quote (Place.value.write a.value)).toList :=
    return_notMem_quote (return_notMem_write h.value)
  exact return_notMem_append
    (return_notMem_append (return_notMem_append (by decide) hname) (by decide)) hvalue

theorem Tag.Canonical.return_notMem {t : Tag} (h : t.Canonical) : '\r' ∉ t.markup.toList := by
  obtain ⟨first, rest, hletters, hfirst, hrest⟩ := h.name
  have hname : '\r' ∉ t.name.toList := by
    rw [hletters, List.mem_cons, not_or]
    exact ⟨(ne_of_isLower hfirst rfl).symm,
      fun hr => (isTextChar_iff.mp (isNameChar_iff.mp (hrest _ hr)).1).2 rfl⟩
  have hattributes : '\r' ∉ (String.join (t.attributes.toList.map Attribute.markup)).toList :=
    return_notMem_join fun a ha => (h.attributes a ha).return_notMem
  have hkind : '\r' ∉ t.kind.markup.toList := by cases t.kind <;> decide
  have hend : '\r' ∉ (if t.selfClosing then "/>" else ">").toList := by
    cases t.selfClosing <;> decide
  exact return_notMem_append (return_notMem_append (return_notMem_append hkind hname) hattributes)
    hend

theorem Doctype.Canonical.return_notMem {d : Doctype} (h : d.Canonical) :
    '\r' ∉ (Token.doctype d).markup.toList := by
  have hname := HtmlStream.return_notMem fun c hc => (isDoctypeNameChar_iff.mp (h.name c hc)).1
  have hid : ∀ {id : String}, (∀ c ∈ id.toList, isIdentifierChar c = true) →
      '\r' ∉ (quote id).toList := fun hid =>
    return_notMem_quote (HtmlStream.return_notMem fun c hc => (isIdentifierChar_iff.mp (hid c hc)).1)
  -- neither, the public one, both, or the system one alone
  have hids : '\r' ∉ d.identifiers.toList := by
    unfold Doctype.identifiers
    split
    · decide
    · rename_i publicId hpublic hsystem
      exact return_notMem_append (by decide) (hid (h.publicId publicId hpublic))
    · rename_i publicId systemId hpublic hsystem
      exact return_notMem_append
        (return_notMem_append (return_notMem_append (by decide) (hid (h.publicId publicId hpublic)))
          (by decide)) (hid (h.systemId systemId hsystem))
    · rename_i systemId hpublic hsystem
      exact return_notMem_append (by decide) (hid (h.systemId systemId hsystem))
  exact return_notMem_append
    (return_notMem_append (return_notMem_append (by decide) hname) hids) (by decide)

/-- **The spelling of canonical tokens has no carriage return.** -/
theorem Canonical.return_notMem {tokens : List Token} (h : Canonical tokens) :
    '\r' ∉ (HtmlStream.markup tokens).toList := by
  refine return_notMem_join ?_
  intro t ht
  have hcanonical := h.each t ht
  cases t with
  | doctype d => exact Doctype.Canonical.return_notMem hcanonical
  | tag t => exact Tag.Canonical.return_notMem hcanonical
  | comment text =>
    have htext := HtmlStream.return_notMem (CanonicalComment.chars hcanonical)
    exact return_notMem_append (return_notMem_append (by decide) htext) (by decide)
  | characters text => exact return_notMem_write hcanonical.2
  | _ => exact hcanonical.elim

end HtmlStream

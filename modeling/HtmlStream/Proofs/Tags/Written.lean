import HtmlStream.Proofs.RawText.Conservation
import HtmlStream.Proofs.RawText.Search
import HtmlStream.Proofs.References.Named

/-! # What is written in a tag

Behind its name a tag has attributes with white space and `/` around them, up to its `>`. What they are is
said here of the text alone, a piece at a time, without a machine.

* **`Reference.inValue?`** and **`Reference.decode`**: the references in the value of an attribute.
* **`Attribute.read`**: the attribute that a text begins with. **`TagBody.scan`**: all of them, and whether
  `/` stands in front of the `>`.
* **`Attribute.firsts`**: the attributes of which none before has the name. **`Attribute.add`**: one more
  attribute behind those, which is how they are collected. -/

namespace HtmlStream

/-! ## (1) References in values -/

namespace Reference

/-- The number behind `&#`: the character it stands for, and how many characters there are of it, `#` among
them. None if there are no digits. -/
def numeric? (s : List Char) : Option (List Char × Nat) :=
  let mark := s.head?.filter fun c => c = 'x' || c = 'X'
  let base := base mark.isSome
  let isDigit c := (Text.digitValue? base c).isSome
  let tail := s.drop mark.toList.length
  let digits := tail.takeWhile isDigit
  let closing := (tail.dropWhile isDigit).head?.filter (· = ';')
  if digits.isEmpty then none
  else
    (Text.readDigits? base 0 digits).map fun n =>
      ([numberChar n], 1 + mark.toList.length + digits.length + closing.toList.length)

/-- The name behind `&` in an attribute value: what it stands for, and how many characters it has. -/
def named? (s : List Char) : Option (List Char × Nat) :=
  ((longestMatch s).filter fun e => Expands true s e).map fun e =>
    (e.expansion.toList, e.name.length)

/-- The reference behind `&` in an attribute value: what it stands for, and how many characters there are of
it. -/
def inValue? (s : List Char) : Option (List Char × Nat) :=
  if s.head? = some '#' then numeric? s.tail else named? s

/-- The value written in a text of which `skip` characters have been read already. -/
def decodeFrom : Nat → List Char → List Char
  | _, [] => []
  | skip + 1, _ :: s => decodeFrom skip s
  | 0, c :: s =>
    if c = '&' then
      match inValue? s with
      | some (text, size) => text ++ decodeFrom size s
      | none => '&' :: decodeFrom 0 s
    else mend c :: decodeFrom 0 s

/-- **The value written in a text**: references stand for what they stand for, and U+0000 for U+FFFD. -/
def decode (s : List Char) : List Char := decodeFrom 0 s

theorem decodeFrom_eq (skip : Nat) (s : List Char) : decodeFrom skip s = decode (s.drop skip) := by
  induction s generalizing skip with
  | nil => simp [decodeFrom, decode]
  | cons c s ih =>
    cases skip with
    | zero => rfl
    | succ skip => exact ih skip

@[simp] theorem decode_nil : decode [] = [] := rfl

theorem decode_cons {c : Char} (hc : c ≠ '&') (s : List Char) : decode (c :: s) = mend c :: decode s := by
  rw [decode, decodeFrom, if_neg hc]
  rfl

/-- A reference. -/
theorem decode_reference {s text : List Char} {size : Nat} (h : inValue? s = some (text, size)) :
    decode ('&' :: s) = text ++ decode (s.drop size) := by
  rw [decode, decodeFrom, if_pos rfl]
  simp only [h, decodeFrom_eq]

/-- An ampersand that is none. -/
theorem decode_ampersand {s : List Char} (h : inValue? s = none) :
    decode ('&' :: s) = '&' :: decode s := by
  rw [decode, decodeFrom, if_pos rfl]
  simp only [h, decodeFrom_eq, List.drop_zero]

/-- Other characters stand for themselves. -/
theorem decode_append {plain : List Char} (h : ∀ c ∈ plain, c ≠ '&' ∧ c ≠ '\x00') (s : List Char) :
    decode (plain ++ s) = plain ++ decode s := by
  induction plain with
  | nil => rfl
  | cons c plain ih =>
    rw [List.forall_mem_cons] at h
    rw [List.cons_append, decode_cons h.1.1, mend_of_ne h.1.2, ih h.2, List.cons_append]

end Reference

/-! ## (2) Attributes and tags -/

/-- Whether a character ends the name of an attribute that has begun. -/
def endsAttributeName (c : Char) : Bool := endsTagName c || c = '='

/-- The kind of value that a character begins. -/
def QuoteKind.ofChar (c : Char) : QuoteKind :=
  if c = Ascii.doubleQuote then .doubleQuoted
  else if c = Ascii.singleQuote then .singleQuoted
  else .unquoted

/-- Whether a character ends a value. -/
def endsValue (kind : QuoteKind) (c : Char) : Bool :=
  Machine.closesValue kind c || (kind = .unquoted && (Ascii.isSpace c || c = '>'))

namespace Attribute

/-- An attribute as it is written: the name in lower case, the references of the value decoded. -/
def ofText (name value : List Char) : Attribute where
  name := String.ofList (name.map fun c => (mend c).toLower)
  value := String.ofList (Reference.decode value)

/-- The value that a text begins with, as it is written, and the text behind it. -/
def readValue : List Char → List Char × List Char
  | [] => ([], [])
  | c :: s =>
    let kind := QuoteKind.ofChar c
    if kind = .unquoted then
      ((c :: s).takeWhile (!endsValue kind ·), (c :: s).dropWhile (!endsValue kind ·))
    else (s.takeWhile (!endsValue kind ·), (s.dropWhile (!endsValue kind ·)).tail)

theorem readValue_unquoted {c : Char} (hc : QuoteKind.ofChar c = .unquoted) (s : List Char) :
    readValue (c :: s) = ((c :: s).takeWhile (!endsValue .unquoted ·),
      (c :: s).dropWhile (!endsValue .unquoted ·)) := by
  simp only [readValue, hc, if_true]

theorem readValue_quoted {c : Char} (hc : QuoteKind.ofChar c ≠ .unquoted) (s : List Char) :
    readValue (c :: s) = (s.takeWhile (!endsValue (QuoteKind.ofChar c) ·),
      (s.dropWhile (!endsValue (QuoteKind.ofChar c) ·)).tail) := by
  simp only [readValue, if_neg hc]

/-- **The attribute that begins with `c`**, and the text behind it. -/
def read (c : Char) (s : List Char) : Attribute × List Char :=
  let name := c :: s.takeWhile (!endsAttributeName ·)
  let behind := s.dropWhile (!endsAttributeName ·)
  match behind.dropWhile Ascii.isSpace with
  | '=' :: t =>
    let (value, rest) := readValue (t.dropWhile Ascii.isSpace)
    (ofText name value, rest)
  | _ => (ofText name [], behind)

theorem length_readValue_le (s : List Char) : (readValue s).2.length ≤ s.length := by
  cases s with
  | nil => exact Nat.le_refl _
  | cons c s =>
    simp only [readValue]
    split
    · exact List.length_dropWhile_le _ _
    · have hdrop := List.length_dropWhile_le (!endsValue (QuoteKind.ofChar c) ·) s
      simp only [List.length_tail, List.length_cons]
      omega

/-- What is behind an attribute is shorter. -/
theorem length_read_le (c : Char) (s : List Char) : (read c s).2.length ≤ s.length := by
  have hname := List.length_dropWhile_le (!endsAttributeName ·) s
  simp only [read]
  split
  · rename_i t ht
    have hspace := List.length_dropWhile_le Ascii.isSpace (s.dropWhile (!endsAttributeName ·))
    rw [ht, List.length_cons] at hspace
    have hspace' := List.length_dropWhile_le Ascii.isSpace t
    have hvalue := length_readValue_le (t.dropWhile Ascii.isSpace)
    show (readValue (t.dropWhile Ascii.isSpace)).2.length ≤ s.length
    omega
  · exact hname

end Attribute

/-- What is written in a tag behind its name. -/
structure TagBody where
  /-- The attributes, in order. -/
  attributes : List Attribute
  /-- Whether `/` stands in front of the `>`. -/
  selfClosing : Bool
  deriving DecidableEq

/-- **What is written in a tag**, read off the text behind its name. None if the text ends first. -/
def TagBody.scan : List Char → Option TagBody
  | [] => none
  | c :: s =>
    if c = '>' then some ⟨[], false⟩
    else if c = '/' && s.head? = some '>' then some ⟨[], true⟩
    else if Ascii.isSpace c || c = '/' then scan s
    else
      (scan (Attribute.read c s).2).map fun body =>
        { body with attributes := (Attribute.read c s).1 :: body.attributes }
termination_by s => s.length
decreasing_by
  · simp
  · exact Nat.lt_succ_of_le (Attribute.length_read_le c s)

namespace TagBody

@[simp] theorem scan_nil : scan [] = none := by rw [scan]

/-- The end of a tag. -/
theorem scan_bracket (s : List Char) : scan ('>' :: s) = some ⟨[], false⟩ := by rw [scan, if_pos rfl]

/-- The end of a tag that is self-closing. -/
theorem scan_solidus_bracket (s : List Char) : scan ('/' :: '>' :: s) = some ⟨[], true⟩ := by
  rw [scan]
  rfl

/-- `/` before anything else is skipped. -/
theorem scan_solidus {s : List Char} (hs : s.head? ≠ some '>') : scan ('/' :: s) = scan s := by
  rw [scan, if_neg (by decide), if_neg (by simpa using hs), if_pos (by simp)]

/-- White space is skipped. -/
theorem scan_space {c : Char} (hc : Ascii.isSpace c = true) (s : List Char) : scan (c :: s) = scan s := by
  have hplain : c ≠ '>' ∧ c ≠ '/' := by
    constructor <;> rintro rfl <;> exact absurd hc (by decide)
  rw [scan, if_neg hplain.1, if_neg (by simp [hplain.2]), if_pos (by rw [hc]; rfl)]

/-- What else a tag goes on with is an attribute. -/
theorem scan_attribute {c : Char} (hc : endsTagName c = false) (s : List Char) :
    scan (c :: s) = (scan (Attribute.read c s).2).map fun body =>
      { body with attributes := (Attribute.read c s).1 :: body.attributes } := by
  obtain ⟨⟨hspace, hsolidus⟩, hbracket⟩ : (Ascii.isSpace c = false ∧ c ≠ '/') ∧ c ≠ '>' := by
    simpa [endsTagName] using hc
  rw [scan, if_neg hbracket, if_neg (by simp [hsolidus]), if_neg (by simp [hspace, hsolidus])]

end TagBody

example : TagBody.scan "A=1 b='&amp;x' a = c/>".toList
    = some ⟨[⟨"a", "1"⟩, ⟨"b", "&x"⟩, ⟨"a", "c/"⟩], false⟩ := by decide +kernel

/-! ## (3) The first of each name -/

namespace Attribute

/-- **The attributes of which none before has the name.** -/
def firsts : List Attribute → List Attribute
  | [] => []
  | a :: as => a :: (firsts as).filter (·.name ≠ a.name)

theorem length_firsts_le (as : List Attribute) : (firsts as).length ≤ as.length := by
  induction as with
  | nil => exact Nat.le_refl _
  | cons a as ih =>
    rw [firsts, List.length_cons, List.length_cons]
    exact Nat.succ_le_succ ((List.length_filter_le _ _).trans ih)

theorem firsts_eq_nil_iff {as : List Attribute} : firsts as = [] ↔ as = [] := by
  cases as <;> simp [firsts]

/-- **One more attribute** is one of them unless its name is that of one of them. -/
theorem firsts_concat (as : List Attribute) (a : Attribute) :
    firsts (as ++ [a])
      = if (firsts as).any (·.name == a.name) then firsts as else firsts as ++ [a] := by
  induction as with
  | nil => rfl
  | cons b as ih =>
    rw [List.cons_append, firsts, ih, firsts]
    by_cases hname : b.name = a.name
    · -- the attribute is dropped at once
      have hany : (b :: (firsts as).filter (·.name ≠ b.name)).any (·.name == a.name) = true := by
        simp [hname]
      rw [if_pos hany]
      split
      · rfl
      · simp [hname]
    · have hany : (b :: (firsts as).filter (·.name ≠ b.name)).any (·.name == a.name)
          = (firsts as).any (·.name == a.name) := by
        rw [List.any_cons, beq_eq_false_iff_ne.mpr hname, Bool.false_or, List.any_filter]
        congr 1
        funext c
        by_cases hc : c.name = a.name
        · simp [hc, Ne.symm hname]
        · simp [hc]
      rw [hany]
      split
      · rfl
      · simp [Ne.symm hname]

end Attribute

end HtmlStream

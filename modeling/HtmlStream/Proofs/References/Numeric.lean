import HtmlStream.Proofs.UnknownNames

/-! # Numeric references

A number is read digit by digit, and from the first number on that is no code point nothing more is
told apart. That is the same as reading the whole number, however long it is, and looking at it
afterwards: leading zeros do not matter, and no number is taken for another one.

* **`Reference.Denotes n c`**, **`Reference.Faulty n code`**: the character that `n` stands for and the
  error it is, class by class.
* **`denotes_iff`**, **`fault?_eq_some_iff`**: every number stands for one character and is at most one
  error.
* **`accumulate_min`**, **`leads_digits`**: digits, of which there may be any number.
* **`Machine.readNumber`**: the machine behind a number. **`replaces_readNumber_closed`**,
  **`replaces_readNumber_open`**: what is written in its place, and its errors.
* **`numeric_reference_exact`**: what becomes of a number in a session. -/

namespace HtmlStream

/-! ## (1) What numbers stand for -/

namespace Reference

/-- **The character a number stands for.** -/
inductive Denotes : Nat → Char → Prop where
  /-- Zero, surrogates and what is no code point stand for U+FFFD. -/
  | replaced {n : Nat} (h : n = 0 ∨ 0xD800 ≤ n ∧ n ≤ 0xDFFF ∨ 0x10FFFF < n) : Denotes n '\uFFFD'
  /-- Numbers from 128 to 159 have the meaning they have in Windows-1252, if any. -/
  | windows {n : Nat} {c : Char} (h : windows1252? n = some c) : Denotes n c
  /-- Every other number stands for the character of that number. -/
  | itself {c : Char} (hzero : c.toNat ≠ 0) (hother : windows1252? c.toNat = none) :
      Denotes c.toNat c

/-- **The error a number is.** -/
inductive Faulty : Nat → ErrorCode → Prop where
  /-- Zero. -/
  | null : Faulty 0 .nullCharacterReference
  /-- A number above the last code point. -/
  | outsideRange {n : Nat} (h : 0x10FFFF < n) : Faulty n .characterReferenceOutsideUnicodeRange
  /-- A surrogate. -/
  | surrogate {n : Nat} (h : 0xD800 ≤ n ∧ n ≤ 0xDFFF) : Faulty n .surrogateCharacterReference
  /-- A noncharacter. -/
  | noncharacter {n : Nat} (hrange : n ≤ 0x10FFFF)
      (h : 0xFDD0 ≤ n ∧ n ≤ 0xFDEF ∨ n % 0x10000 = 0xFFFE ∨ n % 0x10000 = 0xFFFF) :
      Faulty n .noncharacterCharacterReference
  /-- A control character other than tab, line feed and form feed. -/
  | control {n : Nat} (h : 1 ≤ n ∧ n ≤ 0x1F ∧ n ≠ 0x09 ∧ n ≠ 0x0A ∧ n ≠ 0x0C ∨ 0x7F ≤ n ∧ n ≤ 0x9F) :
      Faulty n .controlCharacterReference

/-- The error of a class. -/
def NumberClass.fault? : NumberClass → Option ErrorCode
  | .null => some .nullCharacterReference
  | .outsideRange => some .characterReferenceOutsideUnicodeRange
  | .surrogate => some .surrogateCharacterReference
  | .noncharacter => some .noncharacterCharacterReference
  | .control => some .controlCharacterReference
  | .ordinary => none

theorem isNoncharacter_iff {n : Nat} : isNoncharacter n = true ↔
    0xFDD0 ≤ n ∧ n ≤ 0xFDEF ∨ n % 0x10000 = 0xFFFE ∨ n % 0x10000 = 0xFFFF := by
  simp [isNoncharacter, or_assoc]

theorem isControl_iff {n : Nat} : isControl n = true ↔
    1 ≤ n ∧ n ≤ 0x1F ∧ n ≠ 0x09 ∧ n ≠ 0x0A ∧ n ≠ 0x0C ∨ 0x7F ≤ n ∧ n ≤ 0x9F := by
  simp only [isControl, Bool.or_eq_true, Bool.and_eq_true, decide_eq_true_eq]
  omega

theorem mem_windows1252 {n : Nat} {c : Char} (h : windows1252? n = some c) :
    0x80 ≤ n ∧ n ≤ 0x9F := by
  unfold windows1252? at h
  split at h <;> first | exact ⟨by decide, by decide⟩ | cases h

/-- **A number is an error of its class and of no other.** -/
theorem fault?_eq_some_iff {n : Nat} {code : ErrorCode} :
    (NumberClass.ofNumber n).fault? = some code ↔ Faulty n code := by
  constructor
  · intro h
    unfold NumberClass.ofNumber codePointLimit at h
    split_ifs at h with hzero hrange hsurrogate hnoncharacter hcontrol <;> cases h
    · exact hzero ▸ .null
    · exact .outsideRange hrange
    · exact .surrogate (by simpa using hsurrogate)
    · exact .noncharacter (by omega) (isNoncharacter_iff.mp hnoncharacter)
    · exact .control (isControl_iff.mp hcontrol)
  · -- the classes are told apart in this order, but no two of them have a number in common
    have hnon := isNoncharacter_iff (n := n)
    intro h
    unfold NumberClass.ofNumber codePointLimit
    cases h with
    | null => rfl
    | outsideRange h => rw [if_neg (by omega), if_pos (by omega)]; rfl
    | surrogate h =>
      rw [if_neg (by omega), if_neg (by omega), if_pos (by simpa using h)]
      rfl
    | noncharacter hrange h =>
      rw [if_neg (by omega), if_neg (by omega), if_neg (by simp; omega), if_pos (hnon.mpr h)]
      rfl
    | control h =>
      rw [if_neg (by omega), if_neg (by omega), if_neg (by simp; omega),
        if_neg (by rw [hnon]; omega), if_pos (isControl_iff.mpr h)]
      rfl

theorem windows1252?_eq_none {n : Nat} (h : ¬(0x80 ≤ n ∧ n ≤ 0x9F)) : windows1252? n = none :=
  Option.eq_none_iff_forall_ne_some.mpr fun _ hsome => h (mem_windows1252 hsome)

/-- The character of a number, the numbers that are none of their own apart. -/
theorem numberChar_eq (n : Nat) : numberChar n
    = if n = 0 ∨ 0xD800 ≤ n ∧ n ≤ 0xDFFF ∨ 0x10FFFF < n then '\uFFFD'
      else (windows1252? n).getD (Char.ofNat n) := by
  by_cases hreplaced : n = 0 ∨ 0xD800 ≤ n ∧ n ≤ 0xDFFF ∨ 0x10FFFF < n
  · rw [if_pos hreplaced]
    unfold numberChar NumberClass.ofNumber codePointLimit
    rcases hreplaced with rfl | hsurrogate | hrange
    · rfl
    · rw [if_neg (by omega), if_neg (by omega), if_pos (by simpa using hsurrogate)]
    · rw [if_neg (by omega), if_pos (by omega)]
  · rw [if_neg hreplaced]
    have hcontrol := isControl_iff (n := n)
    unfold numberChar NumberClass.ofNumber codePointLimit
    rw [if_neg (by omega), if_neg (by omega), if_neg (by simp; omega)]
    -- only control characters have another meaning
    by_cases hnon : isNoncharacter n = true
    · have hrange := isNoncharacter_iff.mp hnon
      rw [if_pos hnon, windows1252?_eq_none (by omega)]
      rfl
    · rw [if_neg hnon]
      by_cases hc : isControl n = true
      · rw [if_pos hc]
      · rw [if_neg hc, windows1252?_eq_none fun h => hc (hcontrol.mpr (by omega))]
        rfl

/-- **Every number stands for one character.** -/
theorem denotes_iff {n : Nat} {c : Char} : Denotes n c ↔ numberChar n = c := by
  rw [numberChar_eq]
  constructor
  · intro h
    cases h with
    | replaced h => rw [if_pos h]
    | windows h =>
      have hrange := mem_windows1252 h
      rw [if_neg (by omega), h]
      rfl
    | itself hzero hother =>
      have hvalid : c.toNat < 0xD800 ∨ 0xDFFF < c.toNat ∧ c.toNat < 0x110000 := c.valid
      rw [if_neg (by omega), hother]
      exact Char.ofNat_toNat c
  · rintro rfl
    split_ifs with hreplaced
    · exact .replaced hreplaced
    · cases hwindows : windows1252? n with
      | some c => exact .windows hwindows
      | none =>
        have htoNat : (Char.ofNat n).toNat = n :=
          toNat_ofNat (by unfold codePointLimit; omega) (by omega)
        have hitself := Denotes.itself (c := Char.ofNat n) (by omega) (by rw [htoNat, hwindows])
        rwa [htoNat] at hitself

/-! ## (2) Numbers of any length -/

/-- Numbers that are no code points are of one class. -/
theorem ofNumber_min (n : Nat) :
    NumberClass.ofNumber (min n codePointLimit) = NumberClass.ofNumber n := by
  by_cases h : n ≤ codePointLimit
  · rw [Nat.min_eq_left h]
  · rw [Nat.min_eq_right (Nat.le_of_not_le h)]
    unfold NumberClass.ofNumber codePointLimit at *
    rw [if_neg (by omega), if_pos (by omega), if_neg (by omega), if_pos (by omega)]

/-- They stand for one character. -/
theorem numberChar_min (n : Nat) : numberChar (min n codePointLimit) = numberChar n := by
  rw [numberChar_eq, numberChar_eq]
  unfold codePointLimit
  by_cases h : n ≤ 0x10FFFF
  · rw [Nat.min_eq_left (by omega)]
  · rw [if_pos (by omega), if_pos (by omega)]

/-- **One more digit**: from the first number on that is no code point, only such numbers follow. -/
theorem accumulate_min (hex : Bool) (n d : Nat) :
    accumulate hex (min n codePointLimit) d = min (n * base hex + d) codePointLimit := by
  unfold accumulate base codePointLimit
  cases hex <;> simp only [Bool.false_eq_true, if_false, if_true] <;> omega

end Reference

namespace Machine

open Reference Text

variable {m k : Machine} {r : Reference}

/-! ## (3) Reading a number -/

/-- **Reads a number** of `size` characters, `&` among them, and its semicolon if it has one, and puts
the character it stands for in its place. Without a semicolon it is an error, before the error that
the number itself may be. -/
def readNumber (m : Machine) (size : Nat) (closed : Bool) (fault : Option ErrorCode) (c : Char) :
    Machine :=
  let read := m.skip size
  let ended := if closed then read.advance else read.report .missingSemicolonAfterCharacterReference
  (match fault with
    | none => ended
    | some code => ended.report code).putHere (String.singleton c)

theorem reportNumber_eq (n : Nat) : m.reportNumber n
    = match (NumberClass.ofNumber n).fault? with
      | none => m
      | some code => m.report code := by
  unfold reportNumber
  cases NumberClass.ofNumber n <;> rfl

/-- What a step of a reference is. -/
theorem step_keepReference (hended : k.ended = false)
    (hmore : k.input.pending = [] → k.input.finished = true) :
    step .byChar (k.keepReference r)
      = some ((k.keepReference r).stepReference r k.input.pending.head?) := by
  rw [step, if_neg (by simpa [keepReference] using hended)]
  have hpending : (k.keepReference r).input.pending = k.input.pending := rfl
  rw [hpending]
  cases hrest : k.input.pending with
  | cons c cs => rfl
  | nil => exact if_pos (hmore hrest)

/-- The reference with one more digit. -/
def withDigit (r : Reference) (hex : Bool) (c : Char) (d : Nat) : Reference :=
  { r with raw := r.raw.push c, number := accumulate hex r.number d, sawDigit := true }

theorem step_digit {hex : Bool} {c : Char} {cs : List Char} {d : Nat} (hended : k.ended = false)
    (hphase : r.phase = .digits hex) (hpending : k.input.pending = c :: cs)
    (hdigit : digitValue? (base hex) c = some d) :
    step .byChar (k.keepReference r) = some (k.advance.keepReference (withDigit r hex c d)) := by
  have hstep : (k.keepReference r).stepReference r (some c)
      = (k.keepReference r).stepDigits r hex (some c) := by
    rw [stepReference, hphase]
  rw [step_keepReference hended (by simp [hpending]), hpending, List.head?_cons, hstep]
  simp only [stepDigits, hdigit]
  rfl

/-- **Digits** are read to their end, and the number they write is known as far as it matters. -/
theorem leads_digits {hex : Bool} {ds rest : List Char} (hended : k.ended = false)
    (hphase : r.phase = .digits hex) (hpending : k.input.pending = ds ++ rest) {n v : Nat}
    (hnumber : r.number = min n codePointLimit) (hvalue : readDigits? (base hex) n ds = some v) :
    ∃ r', r'.phase = .digits hex ∧ r'.inAttribute = r.inAttribute ∧
      r'.number = min v codePointLimit ∧ r'.sawDigit = (r.sawDigit || !ds.isEmpty) ∧
      (k.keepReference r).Leads ((k.skip ds.length).keepReference r') := by
  -- induction on the digits; the number read so far is the true one, cut at the limit
  induction ds generalizing k r n with
  | nil =>
    cases hvalue
    exact ⟨r, hphase, rfl, hnumber, by simp, Relation.ReflTransGen.refl⟩
  | cons c ds ih =>
    rw [readDigits?] at hvalue
    cases hdigit : digitValue? (base hex) c with
    | none =>
      rw [hdigit] at hvalue
      cases hvalue
    | some d =>
      rw [hdigit] at hvalue
      have hfirst := step_digit hended hphase hpending hdigit
      have hread : k.advance.input.pending = ds ++ rest := by
        rw [advance, Input.advance, hpending]
        rfl
      have hcut : (withDigit r hex c d).number = min (n * base hex + d) codePointLimit :=
        (congrArg (accumulate hex · d) hnumber).trans (accumulate_min hex n d)
      obtain ⟨r', hphase', hplace, hnumber', hsaw, hothers⟩ :=
        ih (k := k.advance) (r := withDigit r hex c d) hended hphase hread hcut hvalue
      have hskip : k.advance.skip ds.length = k.skip (c :: ds).length := by
        rw [← skip_one, skip_skip, Nat.add_comm, List.length_cons]
      rw [hskip] at hothers
      refine ⟨r', hphase', hplace, hnumber', ?_, (Leads.single hfirst).trans hothers⟩
      rw [hsaw]
      simp [withDigit]

theorem advance_skip (n : Nat) : (m.skip n).advance = m.skip (n + 1) := by
  rw [← skip_one, skip_skip]

/-- The reference behind `&#`. -/
def hashed (m : Machine) : Reference :=
  { inAttribute := m.state.isAttributeValue, phase := .numeric, raw := "".push '#' }

/-- The reference in front of its digits. -/
def marked (r : Reference) (mark : Option Char) : Reference :=
  { r with phase := .digits mark.isSome, raw := r.raw ++ String.ofList mark.toList }

theorem leads_hashed {cs : List Char} (hended : m.ended = false) (href : m.reference = none)
    (hstate : m.state.takesReferences = true) (hpending : m.input.pending = '&' :: '#' :: cs) :
    m.Leads ((m.skip 2).keepReference m.hashed) := by
  have hampersand := leads_ampersand hended href hstate hpending
  have hread : (m.skip 1).input.pending = '#' :: cs := by
    show m.input.pending.drop 1 = '#' :: cs
    rw [hpending]
    rfl
  have hhash := step_keepReference (k := m.skip 1)
    (r := { inAttribute := m.state.isAttributeValue }) hended (by simp [hread])
  rw [hread] at hhash
  rw [← skip_one] at hampersand
  have hadvance : (m.skip 1).advance = m.skip 2 := advance_skip 1
  refine hampersand.trans (Leads.single ?_)
  rw [← hadvance]
  exact hhash

theorem leads_marked {mark : Option Char} (hmark : ∀ c ∈ mark, c = 'x' ∨ c = 'X') {rest : List Char}
    (hended : k.ended = false) (hphase : r.phase = .numeric)
    (hpending : k.input.pending = mark.toList ++ rest)
    (hmore : k.input.pending = [] → k.input.finished = true)
    (hrest : mark = none → ∀ c ∈ rest.head?, c ≠ 'x' ∧ c ≠ 'X') :
    (k.keepReference r).Leads ((k.skip mark.toList.length).keepReference (marked r mark)) := by
  have hstep := step_keepReference (r := r) hended hmore
  have hnumeric (next : Option Char) :
      (k.keepReference r).stepReference r next = (k.keepReference r).stepNumeric r next := by
    rw [stepReference, hphase]
  rw [hnumeric, hpending] at hstep
  refine Leads.single (hstep.trans ?_)
  cases mark with
  | some x =>
    have hx : (decide (x = 'x') || decide (x = 'X')) = true := by simpa using hmark x rfl
    have hskip : k.skip (some x).toList.length = k.advance := skip_one
    have hraw : marked r (some x) = { r with phase := .digits true, raw := r.raw.push x } := by
      rw [marked, String.push_eq_append]
      rfl
    rw [hskip, hraw]
    exact congrArg some (if_pos hx)
  | none =>
    have hskip : k.skip (none : Option Char).toList.length = k := skip_zero
    have hraw : marked r none = { r with phase := .digits false } := by
      rw [marked, Option.toList_none, String.ofList_nil, String.append_empty]
      rfl
    rw [hskip, hraw]
    cases rest with
    | nil => rfl
    | cons c rest =>
      have hdigit : ¬(decide (c = 'x') || decide (c = 'X')) = true := by simpa using hrest rfl c rfl
      exact congrArg some (if_neg hdigit)

/-- At `&#` a number begins. -/
theorem leads_hash {cs : List Char} (hended : m.ended = false) (href : m.reference = none)
    (hstate : m.state.takesReferences = true) (hpending : m.input.pending = '&' :: '#' :: cs) :
    ∃ r, r.phase = .numeric ∧ r.inAttribute = m.state.isAttributeValue ∧ r.number = 0 ∧
      r.sawDigit = false ∧ m.Leads ((m.skip 2).keepReference r) :=
  ⟨m.hashed, rfl, rfl, rfl, rfl, leads_hashed hended href hstate hpending⟩

/-- **The base** of a number: `x` and its capital make it hexadecimal. -/
theorem leads_mark {mark : Option Char} (hmark : ∀ c ∈ mark, c = 'x' ∨ c = 'X') {c : Char}
    {cs : List Char} (hended : k.ended = false) (hphase : r.phase = .numeric)
    (hpending : k.input.pending = mark.toList ++ c :: cs)
    (hc : mark = none → c ≠ 'x' ∧ c ≠ 'X') :
    ∃ r', r'.phase = .digits mark.isSome ∧ r'.inAttribute = r.inAttribute ∧ r'.number = r.number ∧
      r'.sawDigit = r.sawDigit ∧
      (k.keepReference r).Leads ((k.skip mark.toList.length).keepReference r') := by
  refine ⟨marked r mark, rfl, rfl, rfl, rfl,
    leads_marked hmark hended hphase hpending (by simp [hpending]) fun hnone d hd => ?_⟩
  rw [← Option.some.inj hd]
  exact hc hnone

/-! ## (4) The end of a number -/

/-- Ending a reference forgets the one under construction. -/
theorem closeNumber_keepReference (r' : Reference) :
    (k.keepReference r').closeNumber r = k.closeNumber r := by
  have hclose (k : Machine) (s : String) :
      (k.keepReference r').closeReference r s = k.closeReference r s := rfl
  rw [closeNumber, closeNumber, reportNumber_eq, reportNumber_eq]
  cases (NumberClass.ofNumber r.number).fault? with
  | none => exact hclose k _
  | some code =>
    simp only [report_keepReference]
    exact hclose _ _

/-- What the number comes to. -/
theorem closeNumber_eq (href : k.reference = none)
    (hplace : r.inAttribute = k.state.isAttributeValue) {n : Nat}
    (hnumber : r.number = min n codePointLimit) :
    k.closeNumber r = (match (NumberClass.ofNumber n).fault? with
      | none => k
      | some code => k.report code).putHere (String.singleton (numberChar n)) := by
  have hcourse := k.course_reportNumber r.number
  rw [closeNumber, closeReference_eq ((congrArg Course.reference hcourse).trans href)
      (hplace.trans (congrArg (·.state.isAttributeValue) hcourse).symm), reportNumber_eq, hnumber,
    ofNumber_min, numberChar_min]

/-- **The digits end** at a character that is none, which is left unread unless it is a semicolon, or
at the end of the input. -/
theorem leads_endDigits {hex : Bool} (hended : k.ended = false) (hphase : r.phase = .digits hex)
    (hmore : k.input.pending = [] → k.input.finished = true) (hsaw : r.sawDigit = true)
    (hend : ∀ c ∈ k.input.pending.head?, digitValue? (base hex) c = none) :
    (k.keepReference r).Leads
      ((if k.input.pending.head? = some ';' then k.advance
        else k.report .missingSemicolonAfterCharacterReference).closeNumber r) := by
  have hstep : (k.keepReference r).stepReference r k.input.pending.head?
      = (k.keepReference r).endDigits r k.input.pending.head? := by
    rw [stepReference, hphase]
    cases hnext : k.input.pending.head? with
    | none => rfl
    | some c => simp only [stepDigits, hend c hnext]
  refine Leads.single ?_
  rw [step_keepReference hended hmore, hstep, endDigits, if_neg (by simp [hsaw])]
  split
  · exact congrArg some (closeNumber_keepReference (k := k.advance) r)
  · rw [report_keepReference, closeNumber_keepReference]

/-- **With its semicolon or without**, the number takes its place. -/
theorem closeNumber_skip (href : m.reference = none)
    (hplace : r.inAttribute = m.state.isAttributeValue) {n : Nat}
    (hnumber : r.number = min n codePointLimit) (size : Nat) (next : Option Char) :
    (if next = some ';' then (m.skip size).advance
        else (m.skip size).report .missingSemicolonAfterCharacterReference).closeNumber r
      = m.readNumber size (next = some ';') (NumberClass.ofNumber n).fault? (numberChar n) := by
  by_cases hclosed : next = some ';'
  · rw [if_pos hclosed, decide_eq_true hclosed]
    exact closeNumber_eq (k := (m.skip size).advance) href hplace hnumber
  · have hcourse := (m.skip size).course_report .missingSemicolonAfterCharacterReference
    rw [if_neg hclosed, decide_eq_false hclosed]
    exact closeNumber_eq ((congrArg Course.reference hcourse).trans href)
      (hplace.trans (congrArg (·.state.isAttributeValue) hcourse).symm) hnumber

theorem pending_skip_of_append {cs cs' : List Char} (h : k.input.pending = cs ++ cs') :
    (k.skip cs.length).input.pending = cs' := by
  show k.input.pending.drop cs.length = cs'
  rw [h, List.drop_left]

/-- **A whole number is read**: its beginning, its base, its digits and its end, one behind the other. -/
theorem leads_readNumber {mark : Option Char} {digits rest : List Char} {n : Nat}
    (hended : m.ended = false) (href : m.reference = none)
    (hstate : m.state.takesReferences = true) (hfinished : m.input.finished = true)
    (hmark : ∀ c ∈ mark, c = 'x' ∨ c = 'X') (hne : digits ≠ [])
    (hvalue : readDigits? (base mark.isSome) 0 digits = some n)
    (hend : ∀ c ∈ rest.head?, digitValue? (base mark.isSome) c = none)
    (hpending : m.input.pending = '&' :: '#' :: (mark.toList ++ (digits ++ rest))) :
    m.Leads (m.readNumber (2 + mark.toList.length + digits.length) (rest.head? = some ';')
      (NumberClass.ofNumber n).fault? (numberChar n)) := by
  obtain ⟨first, others, rfl⟩ := List.exists_cons_of_ne_nil hne
  obtain ⟨r, hphase, hplace, hnumber, hsaw, hhash⟩ := leads_hash hended href hstate hpending
  have hbehind : (m.skip 2).input.pending = mark.toList ++ first :: (others ++ rest) :=
    @pending_skip_of_append m ['&', '#'] _ hpending
  have hfirst : mark = none → first ≠ 'x' ∧ first ≠ 'X' := by
    rintro rfl
    constructor <;> rintro rfl <;> cases hvalue
  obtain ⟨r₁, hphase₁, hplace₁, hnumber₁, hsaw₁, hbase⟩ :=
    leads_mark hmark (k := m.skip 2) hended hphase hbehind hfirst
  rw [skip_skip] at hbase
  have hdigits : (m.skip (2 + mark.toList.length)).input.pending = (first :: others) ++ rest := by
    rw [← skip_skip]
    exact pending_skip_of_append hbehind
  obtain ⟨r₂, hphase₂, hplace₂, hnumber₂, hsaw₂, hread⟩ :=
    leads_digits (k := m.skip (2 + mark.toList.length)) hended hphase₁ hdigits (n := 0)
      (by rw [hnumber₁, hnumber]; rfl) hvalue
  rw [skip_skip] at hread
  have hrest : (m.skip (2 + mark.toList.length + (first :: others).length)).input.pending = rest := by
    rw [← skip_skip]
    exact pending_skip_of_append hdigits
  refine hhash.trans (hbase.trans (hread.trans ?_))
  generalize 2 + mark.toList.length + (first :: others).length = size at hrest ⊢
  have hclose := leads_endDigits (k := m.skip size) hended hphase₂ (fun _ => hfinished)
    (by rw [hsaw₂]; simp) (by rw [hrest]; exact hend)
  rw [hrest, closeNumber_skip href (hplace₂.trans (hplace₁.trans hplace)) hnumber₂] at hclose
  exact hclose

/-- **With its semicolon** a number is replaced, with the error that it is, if any. -/
theorem replaces_readNumber_closed {read behind : List Char}
    (hpending : m.input.pending = (read ++ [';']) ++ behind)
    (hattribute : m.state.isAttributeValue = true → ∃ a, m.currentAttribute = some a)
    (fault : Option ErrorCode) (c : Char) :
    m.Replaces (m.readNumber read.length true fault c) (read ++ [';'])
      (fault.toList.map (⟨·, m.input.consumed + (read.length + 1)⟩)) (String.singleton c) := by
  have hlength : (read ++ [';']).length = read.length + 1 := List.length_append
  have hfault := (Queues.refl (m.skip (read ++ [';']).length)).fault fault
  have hreplaces := hfault.putHere hpending hattribute (String.singleton c)
  rw [hlength, ← advance_skip] at hreplaces
  exact hreplaces

/-- **Without one** it is replaced as well, but that is an error in front of the other. -/
theorem replaces_readNumber_open {read behind : List Char} (hpending : m.input.pending = read ++ behind)
    (hattribute : m.state.isAttributeValue = true → ∃ a, m.currentAttribute = some a)
    (fault : Option ErrorCode) (c : Char) :
    m.Replaces (m.readNumber read.length false fault c) read
      ((.missingSemicolonAfterCharacterReference :: fault.toList).map
        (⟨·, m.input.consumed + read.length⟩)) (String.singleton c) := by
  have hmissing := (Queues.refl (m.skip read.length)).reportAt .missingSemicolonAfterCharacterReference
    (m.input.consumed + read.length)
  exact (hmissing.fault fault).putHere hpending hattribute (String.singleton c)

end Machine

/-! ## (5) Sessions -/

end HtmlStream

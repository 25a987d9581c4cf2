import HtmlStream.Proofs.Machine.Halting

/-! # What steps read

A step reads one character, a keyword that a lookahead has found, or nothing. Which of them it is is
decided by the state and the characters in front, or by the reference under construction, and the step
does nothing else to the input.

* **`Reading`** and **`Input.read`**: what can be read at a time.
* **`Machine.reading`**, **`Reference.reading`**: what a state and a reference read.
* **`input_stepChar_eq`**, **`input_stepReference_eq`**: their steps read that.
* **`input_step_eq`**: so does a step, and what it leaves to be read stands at the end of what there
  was. -/

namespace HtmlStream

/-! ## (1) Readings -/

/-- What a step reads. -/
inductive Reading where
  /-- Nothing. -/
  | nothing
  /-- The character in front. -/
  | char (c : Char)
  /-- A keyword of `n` characters that a lookahead has found. -/
  | keyword (n : Nat)
  deriving DecidableEq, Repr

/-- Reads. -/
def Input.read (i : Input) : Reading → Input
  | .nothing => i
  | .char _ => i.advance
  | .keyword n => i.skip n

/-- The character `c` is read under a condition. -/
def Reading.charIf (p : Bool) (c : Char) : Reading := if p then .char c else .nothing

@[simp] theorem Reading.charIf_eq_char {p : Bool} {c d : Char} :
    charIf p c = .char d ↔ p = true ∧ c = d := by
  cases p <;> simp [charIf]

@[simp] theorem Input.read_nothing (i : Input) : i.read .nothing = i := rfl

@[simp] theorem Input.read_char (i : Input) (c : Char) : i.read (.char c) = i.advance := rfl

@[simp] theorem Input.read_charIf (i : Input) (p : Bool) (c : Char) :
    i.read (.charIf p c) = if p then i.advance else i := by
  cases p <;> rfl

/-- A keyword of the syntax. -/
structure Keyword where
  /-- Its text. -/
  text : String
  /-- It is written in small letters, and capital ones are as good. -/
  anyCase : Bool
  deriving DecidableEq, Repr

/-- How the characters of a keyword are compared. -/
def Keyword.same (keyword : Keyword) : Char → Char → Bool :=
  match keyword.anyCase with
  | true => sameLetter
  | false => sameChar

/-- Keywords are looked for one after another, until one is found or undecided. -/
def Input.findKeyword (i : Input) : List Keyword → Reading
  | [] => .nothing
  | keyword :: rest =>
    match i.lookahead keyword.same keyword.text with
    | .found => .keyword keyword.text.toList.length
    | .undecided => .nothing
    | .absent => i.findKeyword rest

/-- A keyword that is found is the reading. -/
theorem Input.findKeyword_found {i : Input} {keyword : Keyword} {rest : List Keyword}
    (h : i.lookahead keyword.same keyword.text = .found) :
    i.findKeyword (keyword :: rest) = .keyword keyword.text.toList.length := by
  rw [findKeyword, h]

/-- One that is absent is passed over. -/
theorem Input.findKeyword_absent {i : Input} {keyword : Keyword} {rest : List Keyword}
    (h : i.lookahead keyword.same keyword.text = .absent) :
    i.findKeyword (keyword :: rest) = i.findKeyword rest := by
  rw [findKeyword, h]

@[simp] theorem Input.findKeyword_ne_char (i : Input) (keywords : List Keyword) (c : Char) :
    i.findKeyword keywords ≠ .char c := by
  induction keywords with
  | nil => simp [findKeyword]
  | cons first rest ih =>
    rw [findKeyword]
    split
    · simp
    · simp
    · exact ih

/-- What is left behind a reading stands at the end of what there was. -/
theorem Input.pending_read_suffix (i : Input) (reading : Reading) :
    (i.read reading).pending <:+ i.pending := by
  cases reading with
  | nothing => exact List.suffix_rfl
  | char c => exact List.tail_suffix i.pending
  | keyword n => exact List.drop_suffix n i.pending

/-! ## (2) What states read -/

namespace Machine

/-- Whether `<` in raw text goes on with `c`. -/
def lessThanSignReads (kind : RawKind) (c : Char) : Bool := c = '/' || kind = .scriptData && c = '!'

/-- What ends the letters of a possible `script`. -/
def endsLetters (c : Char) : Bool := Ascii.isSpace c || c = '/' || c = '>'

/-- The keywords of a markup declaration. -/
def declarationKeywords : List Keyword := [⟨"--", false⟩, ⟨"doctype", true⟩, ⟨"[CDATA[", false⟩]

/-- The keywords behind the name of a document type. -/
def doctypeKeywords : List Keyword := [⟨"public", true⟩, ⟨"system", true⟩]

/-- **What a state reads** at the character `c`. -/
def reading (m : Machine) (c : Char) : Reading :=
  match m.state with
  | .rawLessThanSign kind => .charIf (lessThanSignReads kind c) c
  | .rawEndTagOpen _ => .charIf c.isAlpha c
  | .rawEndTagName _ => .charIf (m.isAppropriateEndTag && endsLetters c || c.isAlpha) c
  | .scriptDataEscapeStart .escaped | .scriptDataEscapeStartDash => .charIf (c = '-') '-'
  | .scriptDataEscapeStart .doubleEscaped | .scriptDataDoubleEscapeEnd =>
    .charIf (endsLetters c || c.isAlpha) c
  | .tagOpen => .charIf (c = '!' || c = '/' || c.isAlpha) c
  | .endTagOpen => .charIf (c.isAlpha || c = '>') c
  | .beforeAttributeValue => .charIf (Ascii.isSpace c || isQuote c || c = '>') c
  | .afterAttributeValueQuoted => .charIf (Ascii.isSpace c || c = '/' || c = '>') c
  | .selfClosingStartTag => .charIf (c = '>') '>'
  | .markupDeclarationOpen => m.input.findKeyword declarationKeywords
  | .afterDoctypeName =>
    if Ascii.isSpace c || c = '>' then .char c else m.input.findKeyword doctypeKeywords
  | _ => .char c

section

variable (m : Machine) (c : Char)

theorem input_stepRawLessThanSign (kind : RawKind) :
    (m.stepRawLessThanSign kind c).course.input
      = m.course.input.read (.charIf (lessThanSignReads kind c) c) := by
  unfold stepRawLessThanSign
  split <;> simp_all [lessThanSignReads]

theorem input_stepRawEndTagOpen (kind : RawKind) :
    (m.stepRawEndTagOpen kind c).course.input = m.course.input.read (.charIf c.isAlpha c) := by
  simp [stepRawEndTagOpen]

theorem input_stepRawEndTagName (kind : RawKind) :
    (m.stepRawEndTagName kind c).course.input
      = m.course.input.read (.charIf (m.isAppropriateEndTag && endsLetters c || c.isAlpha) c) := by
  unfold stepRawEndTagName
  repeat' split
  all_goals simp_all [putBackEndTag, endsLetters]

theorem input_escapeDash (onDash otherwise : State) :
    (m.escapeDash c onDash otherwise).course.input
      = m.course.input.read (.charIf (c = '-') '-') := by
  simp [escapeDash]

theorem input_escapeBoundary (onScript otherwise : EscapeKind) :
    (m.escapeBoundary c onScript otherwise).course.input
      = m.course.input.read (.charIf (endsLetters c || c.isAlpha) c) := by
  unfold escapeBoundary
  repeat' split
  all_goals simp_all [endsLetters]

theorem input_stepTagOpen :
    (m.stepTagOpen c).course.input
      = m.course.input.read (.charIf (c = '!' || c = '/' || c.isAlpha) c) := by
  have hquestion : '?'.isAlpha = false := rfl
  unfold stepTagOpen
  repeat' split
  all_goals simp_all

theorem input_stepEndTagOpen :
    (m.stepEndTagOpen c).course.input
      = m.course.input.read (.charIf (c.isAlpha || c = '>') c) := by
  unfold stepEndTagOpen
  repeat' split
  all_goals simp_all

theorem input_stepBeforeAttributeValue :
    (m.stepBeforeAttributeValue c).course.input
      = m.course.input.read (.charIf (Ascii.isSpace c || isQuote c || c = '>') c) := by
  unfold stepBeforeAttributeValue
  repeat' split
  all_goals simp_all [isQuote]

theorem input_stepAfterAttributeValueQuoted :
    (m.stepAfterAttributeValueQuoted c).course.input
      = m.course.input.read (.charIf (Ascii.isSpace c || c = '/' || c = '>') c) := by
  unfold stepAfterAttributeValueQuoted
  repeat' split
  all_goals simp_all

theorem input_stepSelfClosingStartTag :
    (m.stepSelfClosingStartTag c).course.input = m.course.input.read (.charIf (c = '>') '>') := by
  simp [stepSelfClosingStartTag]

variable {k : Machine}

/-- A keyword that is found is read. -/
theorem input_stepMarkupDeclarationOpen (h : m.stepMarkupDeclarationOpen = some k) :
    k.course.input = m.course.input.read (m.input.findKeyword declarationKeywords) := by
  unfold stepMarkupDeclarationOpen at h
  split at h
  · rename_i hdashes
    have hreading : m.input.findKeyword declarationKeywords = .keyword 2 :=
      Input.findKeyword_found hdashes
    cases h
    rw [hreading, course_goto, course_openComment, course_skip]
    rfl
  · cases h
  · rename_i hdashes
    have hbehind : m.input.findKeyword declarationKeywords
        = m.input.findKeyword [⟨"doctype", true⟩, ⟨"[CDATA[", false⟩] :=
      Input.findKeyword_absent hdashes
    rw [hbehind]
    split at h
    · rename_i hdoctype
      have hreading : m.input.findKeyword [⟨"doctype", true⟩, ⟨"[CDATA[", false⟩] = .keyword 7 :=
        Input.findKeyword_found hdoctype
      cases h
      rw [hreading, course_goto, course_skip]
      rfl
    · cases h
    · rename_i hdoctype
      have hbehind : m.input.findKeyword [⟨"doctype", true⟩, ⟨"[CDATA[", false⟩]
          = m.input.findKeyword [⟨"[CDATA[", false⟩] := Input.findKeyword_absent hdoctype
      rw [hbehind]
      split at h
      · rename_i hsection
        have hreading : m.input.findKeyword [⟨"[CDATA[", false⟩] = .keyword 7 :=
          Input.findKeyword_found hsection
        cases h
        rw [hreading, course_goto, course_openComment, course_skip, course_report]
        rfl
      · cases h
      · rename_i hsection
        have hreading : m.input.findKeyword [⟨"[CDATA[", false⟩] = .nothing :=
          Input.findKeyword_absent hsection
        cases h
        rw [hreading, course_goto, course_openComment, course_report]
        rfl

theorem input_stepAfterDoctypeName (h : m.stepAfterDoctypeName c = some k) :
    k.course.input = m.course.input.read
      (if Ascii.isSpace c || c = '>' then .char c else m.input.findKeyword doctypeKeywords) := by
  unfold stepAfterDoctypeName at h
  split at h
  · rename_i hspace
    cases h
    rw [hspace]
    rfl
  · rename_i hspace
    split at h
    · rename_i hgt
      cases h
      rw [if_pos (by simp [hgt]), course_emitDoctype]
      rfl
    · rename_i hgt
      rw [if_neg (by simp [hspace, hgt])]
      split at h
      · rename_i hpublic
        have hreading : m.input.findKeyword doctypeKeywords = .keyword 6 :=
          Input.findKeyword_found hpublic
        cases h
        rw [hreading, course_goto, course_skip]
        rfl
      · cases h
      · rename_i hpublic
        have hbehind : m.input.findKeyword doctypeKeywords
            = m.input.findKeyword [⟨"system", true⟩] := Input.findKeyword_absent hpublic
        rw [hbehind]
        split at h
        · rename_i hsystem
          have hreading : m.input.findKeyword [⟨"system", true⟩] = .keyword 6 :=
            Input.findKeyword_found hsystem
          cases h
          rw [hreading, course_goto, course_skip]
          rfl
        · cases h
        · rename_i hsystem
          have hreading : m.input.findKeyword [⟨"system", true⟩] = .nothing :=
            Input.findKeyword_absent hsystem
          cases h
          rw [hreading, abandonDoctype, course_goto, course_forceQuirks, course_report]
          rfl

/-- **A step at a character** reads what its state reads there, and leaves the input alone
otherwise. -/
theorem input_stepChar_eq (h : m.stepChar c = some k) : k.input = m.input.read (m.reading c) := by
  show k.course.input = m.course.input.read (m.reading c)
  by_cases hreads : reads m.state = true
  · have hreading : m.reading c = .char c := by
      unfold reading
      cases hstate : m.state <;> simp_all [reads]
    rw [hreading]
    exact input_stepChar hreads h
  · -- thirteen states may leave the character
    unfold stepChar at h
    unfold reading
    cases hstate : m.state with
    | rawLessThanSign kind =>
      cases hstate ▸ h
      exact m.input_stepRawLessThanSign c kind
    | rawEndTagOpen kind =>
      cases hstate ▸ h
      exact m.input_stepRawEndTagOpen c kind
    | rawEndTagName kind =>
      cases hstate ▸ h
      exact m.input_stepRawEndTagName c kind
    | scriptDataEscapeStart kind =>
      cases hstate ▸ h
      cases kind with
      | escaped => exact m.input_escapeDash c _ _
      | doubleEscaped => exact m.input_escapeBoundary c _ _
    | scriptDataEscapeStartDash =>
      cases hstate ▸ h
      exact m.input_escapeDash c _ _
    | scriptDataDoubleEscapeEnd =>
      cases hstate ▸ h
      exact m.input_escapeBoundary c _ _
    | tagOpen =>
      cases hstate ▸ h
      exact m.input_stepTagOpen c
    | endTagOpen =>
      cases hstate ▸ h
      exact m.input_stepEndTagOpen c
    | beforeAttributeValue =>
      cases hstate ▸ h
      exact m.input_stepBeforeAttributeValue c
    | afterAttributeValueQuoted =>
      cases hstate ▸ h
      exact m.input_stepAfterAttributeValueQuoted c
    | selfClosingStartTag =>
      cases hstate ▸ h
      exact m.input_stepSelfClosingStartTag c
    | markupDeclarationOpen =>
      exact m.input_stepMarkupDeclarationOpen (by simpa only [hstate] using h)
    | afterDoctypeName =>
      exact m.input_stepAfterDoctypeName c (by simpa only [hstate] using h)
    | _ => exact absurd (by rw [hstate]; rfl) hreads

end

/-- **The character that a state reads** is the one in front. -/
theorem eq_of_reading {m : Machine} {c d : Char} (h : m.reading c = .char d) : d = c := by
  have hcharIf {p : Bool} (h : Reading.charIf p c = .char d) : d = c :=
    (Reading.charIf_eq_char.mp h).2.symm
  have hliteral {e : Char} (h : Reading.charIf (c = e) e = .char d) : d = c := by
    obtain ⟨hc, hd⟩ := Reading.charIf_eq_char.mp h
    rw [← hd, of_decide_eq_true hc]
  unfold reading at h
  split at h
  case h_4 | h_5 | h_12 => exact hliteral h
  case h_13 => exact absurd h (m.input.findKeyword_ne_char _ d)
  case h_14 =>
    split at h
    · cases h
      rfl
    · exact absurd h (m.input.findKeyword_ne_char _ d)
  case h_15 =>
    cases h
    rfl
  all_goals exact hcharIf h

end Machine

/-! ## (3) What references read -/

/-- **What a reference reads** if `next` is the next character, none at the end of the input. -/
def Reference.reading (r : Reference) : Option Char → Reading
  | none => .nothing
  | some c =>
    match r.phase with
    | .opened => .charIf (c = '#') '#'
    | .numeric => .charIf (c = 'x' || c = 'X') c
    | .digits hex =>
      if (Text.digitValue? (base hex) c).isSome then .char c else .charIf (r.sawDigit && c = ';') ';'
    | .named =>
      if r.raw.length < nameLimit && c.isAlphanum then .char c
      else .charIf (r.raw.length < nameLimit && c = ';') ';'

/-- **A reference reads** the character in front, and that is no U+0000, or nothing. -/
theorem Reference.reading_some (r : Reference) (c : Char) :
    r.reading (some c) = .nothing ∨ r.reading (some c) = .char c ∧ c ≠ '\x00' := by
  have hcharIf {p : Bool} (hp : p = true → c ≠ '\x00') :
      Reading.charIf p c = .nothing ∨ Reading.charIf p c = .char c ∧ c ≠ '\x00' := by
    cases p with
    | false => exact .inl rfl
    | true => exact .inr ⟨rfl, hp rfl⟩
  have hliteral {p : Bool} {d : Char} (hd : d ≠ '\x00') (hp : p = true → c = d) :
      Reading.charIf p d = .nothing ∨ Reading.charIf p d = .char c ∧ c ≠ '\x00' := by
    cases p with
    | false => exact .inl rfl
    | true => exact .inr ⟨by rw [hp rfl]; rfl, hp rfl ▸ hd⟩
  unfold reading
  cases r.phase with
  | opened => exact hliteral (by decide) of_decide_eq_true
  | numeric =>
    refine hcharIf ?_
    rintro hx rfl
    cases hx
  | digits hex =>
    simp only
    split
    · rename_i hdigit
      refine .inr ⟨rfl, ?_⟩
      rintro rfl
      cases hdigit
    · exact hliteral (by decide) fun hp => of_decide_eq_true (Bool.and_eq_true _ _ ▸ hp).2
  | named =>
    simp only
    split
    · rename_i hname
      refine .inr ⟨rfl, ?_⟩
      rintro rfl
      simp at hname
    · exact hliteral (by decide) fun hp => of_decide_eq_true (Bool.and_eq_true _ _ ▸ hp).2

/-- A reference leaves each U+0000 to be read. -/
theorem Reference.count_pending_read (r : Reference) {i : Input} {c : Char} {rest : List Char}
    (hpending : i.pending = c :: rest) :
    (i.read (r.reading (some c))).pending.count '\x00' = i.pending.count '\x00' := by
  rcases r.reading_some c with hnothing | ⟨hchar, hnull⟩
  · rw [hnothing, Input.read_nothing]
  · rw [hchar, Input.read_char, Input.advance, hpending, List.tail_cons, List.count_cons_of_ne hnull]

namespace Machine

theorem input_stepReference_eq (m : Machine) (r : Reference) (next : Option Char) :
    (m.stepReference r next).input = m.input.read (r.reading next) := by
  show (m.stepReference r next).course.input = m.course.input.read (r.reading next)
  unfold stepReference Reference.reading
  cases next with
  | none =>
    cases r.phase with
    | opened => simp [stepOpened]
    | numeric => simp [stepNumeric]
    | digits hex => simp [stepDigits, endDigits]
    | named => simp [stepNamed]
  | some c =>
    cases r.phase with
    | opened =>
      simp only [stepOpened]
      repeat' split
      all_goals simp_all
    | numeric =>
      simp only [stepNumeric]
      split <;> simp_all
    | digits hex =>
      simp only [stepDigits, endDigits]
      repeat' split
      all_goals simp_all
    | named =>
      simp only [stepNamed]
      repeat' split
      all_goals simp_all

/-! ## (4) Steps -/

variable {m k : Machine}

/-- What the next step reads, if there is one. -/
def nextReading (m : Machine) : Reading :=
  match m.reference, m.input.pending with
  | some r, pending => r.reading pending.head?
  | none, c :: _ => m.reading c
  | none, [] => .nothing

/-- **A step** reads that and leaves the input alone otherwise. -/
theorem input_step_eq (h : step .byChar m = some k) : k.input = m.input.read m.nextReading := by
  unfold step at h
  unfold nextReading
  split at h
  · cases h
  · split at h
    · rename_i r c rest href hpending
      cases h
      rw [href, hpending]
      exact m.input_stepReference_eq r (some c)
    · rename_i r href hpending
      split at h
      · cases h
        rw [href, hpending]
        exact m.input_stepReference_eq r none
      · cases h
    · rename_i c rest href hpending
      rw [stepAt_byChar] at h
      rw [href, hpending]
      exact m.input_stepChar_eq c h
    · rename_i href hpending
      split at h
      · cases h
        rw [href, hpending]
        exact m.input_stepEnd
      · cases h

/-- What is still to be read behind a step stands at the end of what was. -/
theorem pending_suffix_of_step (h : step .byChar m = some k) :
    k.input.pending <:+ m.input.pending := by
  rw [input_step_eq h]
  exact m.input.pending_read_suffix m.nextReading

end Machine

end HtmlStream

import HtmlStream.Machine.Run

/-! # What steps are made of

A step does one elementary action after another. What each of them keeps is kept by every step, so that
an invariant is a matter of the actions and not of the states.

* **`Acts`**: one machine comes of another by elementary actions.
* **`acts_stepTagName`**, …: each state makes elementary actions.
* **`acts_step`**: so does a step. -/

namespace HtmlStream.Machine

/-- **Elementary actions** make one machine of another. -/
inductive Acts (m : Machine) : Machine → Prop
  /-- None. -/
  | refl : Acts m m
  /-- Moving to a state. -/
  | goto {k : Machine} (h : Acts m k) (next : State) : Acts m (k.goto next)
  /-- Reading a character. -/
  | advance {k : Machine} (h : Acts m k) : Acts m k.advance
  /-- Reading characters. -/
  | skip {k : Machine} (h : Acts m k) (n : Nat) : Acts m (k.skip n)
  /-- A character of text. -/
  | putChar {k : Machine} (h : Acts m k) (c : Char) : Acts m (k.putChar c)
  /-- Text. -/
  | putText {k : Machine} (h : Acts m k) (s : String) : Acts m (k.putText s)
  /-- An error. -/
  | report {k : Machine} (h : Acts m k) (code : ErrorCode) : Acts m (k.report code)
  /-- A U+0000 in text. -/
  | emitNull {k : Machine} (h : Acts m k) : Acts m (k.emit .nullCharacter)
  /-- The end of the input. -/
  | emitEnd {k : Machine} (h : Acts m k) : Acts m k.emitEnd
  /-- The beginning of a tag. -/
  | openTag {k : Machine} (h : Acts m k) (kind : TagKind) (c : Char) : Acts m (k.openTag kind c)
  /-- A character of its name. -/
  | putTagName {k : Machine} (h : Acts m k) (c : Char) : Acts m (k.putTagName c)
  /-- The beginning of an attribute, which is always a character just read. -/
  | beginAttribute {k : Machine} (h : Acts m k) (c : Char) : Acts m (k.advance.beginAttribute c)
  /-- A character of its name. -/
  | putAttributeName {k : Machine} (h : Acts m k) (c : Char) : Acts m (k.putAttributeName c)
  /-- A character of its value. -/
  | putAttributeValue {k : Machine} (h : Acts m k) (c : Char) : Acts m (k.putAttributeValue c)
  /-- The end of an attribute whose tag will not end. -/
  | dropAttribute {k : Machine} (h : Acts m k) : Acts m k.dropAttribute
  /-- A solidus behind a tag. -/
  | markSelfClosing {k : Machine} (h : Acts m k) : Acts m k.markSelfClosing
  /-- The end of a tag. -/
  | emitTag {k : Machine} (h : Acts m k) : Acts m k.emitTag
  /-- A letter of a possible end tag. -/
  | putLetter {k : Machine} (h : Acts m k) (c : Char) : Acts m (k.putLetter c)
  /-- No letters. -/
  | clearLetters {k : Machine} (h : Acts m k) : Acts m k.clearLetters
  /-- A character of a comment. -/
  | putComment {k : Machine} (h : Acts m k) (c : Char) : Acts m (k.putComment c)
  /-- Text of a comment. -/
  | putCommentText {k : Machine} (h : Acts m k) (s : String) : Acts m (k.putCommentText s)
  /-- The beginning of a comment. -/
  | openComment {k : Machine} (h : Acts m k) (s : String) : Acts m (k.openComment s)
  /-- The end of a comment. -/
  | emitComment {k : Machine} (h : Acts m k) : Acts m k.emitComment
  /-- A character of the name of a document type. -/
  | putDoctypeName {k : Machine} (h : Acts m k) (c : Char) : Acts m (k.putDoctypeName c)
  /-- The beginning of an identifier. -/
  | openIdentifier {k : Machine} (h : Acts m k) (kind : IdentifierKind) :
    Acts m (k.openIdentifier kind)
  /-- A character of an identifier. -/
  | putIdentifier {k : Machine} (h : Acts m k) (c : Char) (kind : IdentifierKind) :
    Acts m (k.putIdentifier c kind)
  /-- No document type. -/
  | resetDoctype {k : Machine} (h : Acts m k) : Acts m k.resetDoctype
  /-- A document type of quirks mode. -/
  | forceQuirks {k : Machine} (h : Acts m k) : Acts m k.forceQuirks
  /-- The end of a document type. -/
  | emitDoctype {k : Machine} (h : Acts m k) : Acts m k.emitDoctype
  /-- The beginning of a reference. -/
  | beginReference {k : Machine} (h : Acts m k) : Acts m k.beginReference
  /-- A reference that goes on. -/
  | keepReference {k : Machine} (h : Acts m k) (r : Reference) : Acts m (k.keepReference r)
  /-- The end of a reference. -/
  | closeReference {k : Machine} (h : Acts m k) (r : Reference) (s : String) :
    Acts m (k.closeReference r s)

attribute [grind ←] Acts.refl Acts.goto Acts.advance Acts.skip Acts.putChar Acts.putText Acts.report
  Acts.emitNull Acts.emitEnd Acts.openTag Acts.putTagName Acts.beginAttribute Acts.putAttributeName
  Acts.putAttributeValue Acts.dropAttribute Acts.markSelfClosing Acts.emitTag Acts.putLetter
  Acts.clearLetters Acts.putComment Acts.putCommentText Acts.openComment Acts.emitComment
  Acts.putDoctypeName Acts.openIdentifier Acts.putIdentifier Acts.resetDoctype Acts.forceQuirks
  Acts.emitDoctype Acts.beginReference Acts.keepReference Acts.closeReference

/-! ## (1) What states do -/

section

variable (m : Machine) (c : Char)

theorem acts_stepData : m.Acts (m.stepData c) := by
  unfold stepData
  split <;> grind

theorem acts_stepPlaintext : m.Acts (m.stepPlaintext c) := by
  unfold stepPlaintext
  split <;> grind [replaceNull]

theorem acts_stepRawData (kind : RawKind) : m.Acts (m.stepRawData kind c) := by
  unfold stepRawData escapedLessThan
  repeat' split
  all_goals grind [replaceNull]

theorem acts_stepRawLessThanSign (kind : RawKind) : m.Acts (m.stepRawLessThanSign kind c) := by
  unfold stepRawLessThanSign
  split <;> grind

theorem acts_afterDashes {k : Machine} (h : m.Acts k) (kind : EscapeKind) :
    m.Acts (k.afterDashes kind c) := by
  unfold afterDashes escapedLessThan
  repeat' split
  all_goals grind [replaceNull]

theorem acts_stepEscapedDash (kind : EscapeKind) : m.Acts (m.stepEscapedDash kind c) := by
  unfold stepEscapedDash
  split <;> grind [acts_afterDashes]

theorem acts_stepEscapedDashDash (kind : EscapeKind) : m.Acts (m.stepEscapedDashDash kind c) := by
  unfold stepEscapedDashDash
  split <;> grind [acts_afterDashes]

theorem acts_escapeBoundary (onScript otherwise : EscapeKind) :
    m.Acts (m.escapeBoundary c onScript otherwise) := by
  grind [escapeBoundary]

theorem acts_stepEscapeStart (kind : EscapeKind) : m.Acts (m.stepEscapeStart kind c) := by
  unfold stepEscapeStart escapeDash
  split <;> grind [acts_escapeBoundary]

end

section

variable {m k : Machine} (h : m.Acts k) (c : Char)
include h

@[grind ←] theorem acts_putCommentChar : m.Acts (k.putCommentChar c) := by
  grind [putCommentChar, putBackDashes]

@[grind ←] theorem acts_abandonDoctype (code : ErrorCode) : m.Acts (k.abandonDoctype code) := by
  grind [abandonDoctype]

@[grind ←] theorem acts_cutDoctype (code : ErrorCode) : m.Acts (k.cutDoctype code) := by
  grind [cutDoctype]

@[grind ←] theorem acts_beforeDoctypeName : m.Acts (k.beforeDoctypeName c) := by
  grind [beforeDoctypeName]

@[grind ←] theorem acts_beginIdentifier (kind : IdentifierKind) :
    m.Acts (k.beginIdentifier kind c) := by
  grind [beginIdentifier]

@[grind ←] theorem acts_reportNumber (n : Nat) : m.Acts (k.reportNumber n) := by
  unfold reportNumber
  split <;> grind

@[grind ←] theorem acts_closeLiteral (r : Reference) : m.Acts (k.closeLiteral r) := by
  grind [closeLiteral]

@[grind ←] theorem acts_closeNumber (r : Reference) : m.Acts (k.closeNumber r) := by
  grind [closeNumber]

@[grind ←] theorem acts_closeName (r : Reference) (next : Option Char) :
    m.Acts (k.closeName r next) := by
  grind [closeName]

@[grind ←] theorem acts_putRun (s : String) : m.Acts (k.putRun s) := by
  grind [putRun]

end

section

variable {m k : Machine} (c : Char)

theorem acts_stepMarkupDeclarationOpen (hk : m.stepMarkupDeclarationOpen = some k) : m.Acts k := by
  unfold stepMarkupDeclarationOpen at hk
  repeat' split at hk
  all_goals cases hk
  all_goals grind

theorem acts_stepAfterDoctypeName (hk : m.stepAfterDoctypeName c = some k) : m.Acts k := by
  unfold stepAfterDoctypeName at hk
  repeat' split at hk
  all_goals cases hk
  all_goals grind

/-- **A step at a character** is made of elementary actions. -/
theorem acts_stepChar (hk : m.stepChar c = some k) : m.Acts k := by
  unfold stepChar at hk
  cases hstate : m.state with
  | data =>
    simp only [hstate, Option.some.injEq] at hk
    exact hk ▸ m.acts_stepData c
  | plaintext =>
    simp only [hstate, Option.some.injEq] at hk
    exact hk ▸ m.acts_stepPlaintext c
  | markupDeclarationOpen =>
    simp only [hstate] at hk
    exact acts_stepMarkupDeclarationOpen hk
  | afterDoctypeName =>
    simp only [hstate] at hk
    exact acts_stepAfterDoctypeName c hk
  | afterDoctypeIdentifier kind =>
    cases kind <;> simp only [hstate, Option.some.injEq] at hk <;>
      grind [stepAfterPublicIdentifier, stepAfterSystemIdentifier]
  | _ =>
    simp only [hstate, Option.some.injEq] at hk
    grind [acts_stepRawData, acts_stepRawLessThanSign, stepRawEndTagOpen, stepRawEndTagName,
      putBackEndTag, acts_stepEscapeStart, stepEscapeStartDash, escapeDash, acts_stepEscapedDash,
      acts_stepEscapedDashDash, stepDoubleEscapeEnd, acts_escapeBoundary, stepTagOpen, stepEndTagOpen,
      stepTagName, stepBeforeAttributeName, stepAttributeName, stepAfterAttributeName,
      stepBeforeAttributeValue, stepAttributeValue, stepAfterAttributeValueQuoted,
      stepSelfClosingStartTag, stepCommentStart, stepCommentStartDash, stepCommentText,
      stepCommentEndDash, stepCommentEnd, stepCommentEndBang, stepBogusComment, stepDoctype,
      stepBeforeDoctypeName, stepDoctypeName, stepAfterDoctypeKeyword, stepBeforeDoctypeIdentifier,
      stepDoctypeIdentifier, stepBetweenIdentifiers, stepBogusDoctype]

/-- **A step of a reference** is, too. -/
theorem acts_stepReference (m : Machine) (r : Reference) (next : Option Char) :
    m.Acts (m.stepReference r next) := by
  unfold stepReference
  cases r.phase with
  | opened =>
    simp only [stepOpened]
    split <;> grind
  | numeric => cases next <;> grind [stepNumeric]
  | digits hex => cases next <;> grind [stepDigits, endDigits]
  | named => cases next <;> grind [stepNamed]

/-- **So is a step at the end of the input.** -/
theorem acts_stepEnd (m : Machine) : m.Acts m.stepEnd := by
  unfold stepEnd
  split <;> grind [endDoctype, putBackEndTag]

/-! ## (2) Steps and runs -/

/-- **Every step** is made of elementary actions. -/
theorem acts_step {pace : Pace} (h : step pace m = some k) : m.Acts k := by
  unfold step at h
  split at h
  · cases h
  · split at h
    · cases h
      exact m.acts_stepReference _ _
    · split at h
      · cases h
        exact m.acts_stepReference _ _
      · cases h
    · unfold stepAt at h
      simp only at h
      split at h
      · exact acts_stepChar _ h
      · cases h
        exact acts_putRun (.skip .refl _) _
    · split at h
      · cases h
        exact m.acts_stepEnd
      · cases h

end

end HtmlStream.Machine

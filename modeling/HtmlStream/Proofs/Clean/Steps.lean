import HtmlStream.Proofs.Clean.Actions
import HtmlStream.Proofs.Machine.Reading

/-! # Steps keep machines clean

A machine that is clean stays clean, step by step, as long as no carriage return is still to be read;
and the decoder leaves none. The tokens for a U+0000 that it queues are as many as it reads between
tags.

* **`State.inTag`** and **`Steady`**: clean machines, with a name for the tag in the states that need
  one.
* **`steady_stepTagName`**, …: each state keeps a machine clean.
* **`steady_step`**: so does a step. **`steady_run`**: so does a run. -/

namespace HtmlStream

/-! ## (1) Steady machines -/

/-- The states between the step that opens a tag and the one that queues it. -/
def State.inTag : State → Bool
  | .rawEndTagName _ | .tagName | .beforeAttributeName | .attributeName | .afterAttributeName
  | .beforeAttributeValue | .attributeValue _ | .afterAttributeValueQuoted
  | .selfClosingStartTag => true
  | _ => false

namespace Machine

/-- **A steady machine**: it is clean, and its tag has a name if the state needs one. -/
def Steady (n : Nat) (m : Machine) : Prop := m.Clean n m.course.state.inTag

variable {n : Nat} {named : Bool} {m : Machine} {c : Char}

/-- What is clean does not depend on the state. -/
theorem Steady.clean (h : m.Steady n) : m.Clean n false := h.anonymous

theorem Steady.withName (h : m.Steady n) (htag : m.course.state.inTag = true) : m.Clean n true := by
  rw [Steady, htag] at h
  exact h

namespace Clean

/-- With a name the state does not matter. -/
theorem steady (h : m.Clean n true) : m.Steady n := h.of_named

/-- Outside tags the name does not matter. -/
theorem stay (h : m.Clean n named) (htag : m.course.state.inTag = false) : m.Steady n := by
  rw [Steady, htag]
  exact h.anonymous

/-- Neither does it on the way out of a tag. -/
theorem leave (h : m.Clean n named) {next : State} (htag : next.inTag = false) :
    (m.goto next).Steady n :=
  (h.goto next).stay (by rw [course_goto, htag])

/-- A tag that is queued needs its name no more. -/
theorem steady_emitTag (h : m.Clean n true) : m.emitTag.Steady n :=
  h.emitTag.stay (by rw [course_emitTag]; rfl)

/-- Neither do comments need one. -/
theorem steady_emitComment (h : m.Clean n named) : m.emitComment.Steady n :=
  h.emitComment.stay (by rw [course_emitComment]; rfl)

/-- Nor do document types. -/
theorem steady_emitDoctype (h : m.Clean n named) : m.emitDoctype.Steady n :=
  h.emitDoctype.stay (by rw [course_emitDoctype]; rfl)

end Clean

section Text

variable (h : m.Clean n named)
include h

/-! ## (2) Text -/

theorem clean_replaceNull : m.replaceNull.Clean n named :=
  (h.report .unexpectedNullCharacter).putChar (by decide)

/-- **Between tags** a U+0000 is a token of its own. -/
theorem steady_stepData (htag : m.course.state.inTag = false) :
    (m.stepData c).Steady (n + nullCount c) := by
  unfold stepData
  split
  · exact h.advance.beginReference.stay htag
  · exact h.advance.leave rfl
  · exact h.advance.emitNull.stay (by simpa using htag)
  · rename_i hnull
    rw [nullCount_of_ne hnull, Nat.add_zero]
    exact (h.advance.putChar hnull).stay htag

theorem steady_stepPlaintext (htag : m.course.state.inTag = false) :
    (m.stepPlaintext c).Steady n := by
  unfold stepPlaintext
  split
  · exact (clean_replaceNull h.advance).stay (by simpa using htag)
  · rename_i hnull
    exact (h.advance.putChar hnull).stay htag

theorem steady_escapedLessThan (kind : EscapeKind) : (m.escapedLessThan kind).Steady n := by
  cases kind with
  | escaped => exact h.leave rfl
  | doubleEscaped => exact (h.putChar (by decide)).leave rfl

theorem steady_stepRawData (htag : m.course.state.inTag = false) (kind : RawKind) :
    (m.stepRawData kind c).Steady n := by
  unfold stepRawData
  split
  · exact h.advance.beginReference.stay htag
  · exact (h.advance.putChar (by decide)).leave rfl
  · exact steady_escapedLessThan h.advance _
  · exact h.advance.leave rfl
  · exact (clean_replaceNull h.advance).stay (by simpa using htag)
  · have hnull : c ≠ '\x00' := by assumption
    exact (h.advance.putChar hnull).stay htag

theorem steady_stepRawLessThanSign (kind : RawKind) : (m.stepRawLessThanSign kind c).Steady n := by
  unfold stepRawLessThanSign
  split
  · exact (h.advance.clearLetters.putChar (by decide)).leave rfl
  · exact h.leave rfl
  · exact h.advance.clearLetters.leave rfl
  · exact (h.advance.putText (by decide)).leave rfl
  · split
    · exact (h.clearLetters.putChar (by decide)).leave rfl
    · exact (h.putChar (by decide)).leave rfl
  · exact (h.putChar (by decide)).leave rfl

theorem steady_stepRawEndTagOpen (kind : RawKind) : (m.stepRawEndTagOpen kind c).Steady n := by
  unfold stepRawEndTagOpen
  split
  · rename_i halpha
    exact (((h.advance.openTag _ halpha).putLetter (ne_null_of_isAlpha halpha)).goto _).steady
  · exact (h.putText (by decide)).leave rfl

theorem steady_putBackEndTag (kind : RawKind) : (m.putBackEndTag kind).Steady n :=
  (h.clearLetters.putText (NullFree.append (by decide) h.letters)).leave rfl

theorem steady_escapeDash {onDash otherwise : State} (hdash : onDash.inTag = false)
    (hother : otherwise.inTag = false) : (m.escapeDash c onDash otherwise).Steady n := by
  unfold escapeDash
  split
  · exact (h.advance.putChar (by decide)).leave hdash
  · exact h.leave hother

theorem steady_escapeBoundary (htag : m.course.state.inTag = false)
    (onScript otherwise : EscapeKind) : (m.escapeBoundary c onScript otherwise).Steady n := by
  unfold escapeBoundary
  split
  · rename_i hboundary
    have hnull : c ≠ '\x00' := by
      rintro rfl
      cases hboundary
    exact (h.advance.putChar hnull).leave rfl
  · split
    · rename_i halpha
      have hnull := ne_null_of_isAlpha halpha
      exact ((h.advance.putLetter (toLower_ne hnull rfl)).putChar hnull).stay htag
    · exact h.leave rfl

theorem steady_afterDashes (kind : EscapeKind) : (m.afterDashes kind c).Steady n := by
  unfold afterDashes
  split
  · exact steady_escapedLessThan h kind
  · exact (clean_replaceNull h).leave rfl
  · rename_i hnull
    exact (h.putChar hnull).leave rfl

theorem steady_stepEscapedDash (kind : EscapeKind) : (m.stepEscapedDash kind c).Steady n := by
  unfold stepEscapedDash
  split
  · exact (h.advance.putChar (by decide)).leave rfl
  · exact steady_afterDashes h.advance kind

theorem steady_stepEscapedDashDash (htag : m.course.state.inTag = false) (kind : EscapeKind) :
    (m.stepEscapedDashDash kind c).Steady n := by
  unfold stepEscapedDashDash
  split
  · exact (h.advance.putChar (by decide)).stay htag
  · exact (h.advance.putChar (by decide)).leave rfl
  · exact steady_afterDashes h.advance kind

/-! ## (3) Tags -/

theorem steady_stepTagOpen : (m.stepTagOpen c).Steady n := by
  unfold stepTagOpen
  split
  · exact h.advance.leave rfl
  · split
    · exact h.advance.leave rfl
    · split
      · exact ((h.report _).openComment nullFree_empty).leave rfl
      · split
        · rename_i halpha
          exact ((h.advance.openTag _ halpha).goto _).steady
        · exact ((h.report _).putChar (by decide)).leave rfl

theorem steady_stepEndTagOpen : (m.stepEndTagOpen c).Steady n := by
  unfold stepEndTagOpen
  split
  · rename_i halpha
    exact ((h.advance.openTag _ halpha).goto _).steady
  · split
    · exact (h.advance.report _).leave rfl
    · exact ((h.report _).openComment nullFree_empty).leave rfl

end Text

section Tag

variable (h : m.Clean n true) (hreturn : c ≠ '\r')
include h

theorem steady_stepRawEndTagName (kind : RawKind) : (m.stepRawEndTagName kind c).Steady n := by
  unfold stepRawEndTagName
  split
  · exact (h.advance.clearLetters.goto _).steady
  · split
    · exact (h.advance.clearLetters.goto _).steady
    · split
      · exact h.advance.clearLetters.steady_emitTag
      · split
        · rename_i halpha
          have hlower : c.toLower.isLower = true := by
            rw [Char.isLower_toLower_eq_isAlpha, halpha]
          exact ((h.advance.putTagName (isNameChar_of_isLower hlower)).putLetter
            (ne_null_of_isAlpha halpha)).steady
        · exact steady_putBackEndTag h kind

theorem steady_stepBeforeAttributeValue : (m.stepBeforeAttributeValue c).Steady n := by
  unfold stepBeforeAttributeValue
  split
  · exact h.advance.steady
  · split
    · exact (h.advance.goto _).steady
    · split
      · exact (h.advance.goto _).steady
      · split
        · exact (h.advance.report _).steady_emitTag
        · exact (h.goto _).steady

theorem steady_stepAttributeValue (kind : QuoteKind) : (m.stepAttributeValue kind c).Steady n := by
  simp only [stepAttributeValue]
  split
  · exact (h.advance.goto _).steady
  · split
    · exact (h.advance.goto _).steady
    · split
      · exact h.advance.steady_emitTag
      · split
        · exact h.advance.beginReference.steady
        · split
          · exact ((h.advance.report _).putAttributeValue (by decide)).steady
          · rename_i hnull
            split
            · exact ((h.advance.report _).putAttributeValue hnull).steady
            · exact (h.advance.putAttributeValue hnull).steady

theorem steady_stepAfterAttributeValueQuoted :
    (m.stepAfterAttributeValueQuoted c).Steady n := by
  unfold stepAfterAttributeValueQuoted
  split
  · exact (h.advance.goto _).steady
  · split
    · exact (h.advance.goto _).steady
    · split
      · exact h.advance.steady_emitTag
      · exact ((h.report _).goto _).steady

theorem steady_stepSelfClosingStartTag : (m.stepSelfClosingStartTag c).Steady n := by
  unfold stepSelfClosingStartTag
  split
  · exact h.advance.markSelfClosing.steady_emitTag
  · exact ((h.report _).goto _).steady

include hreturn

/-- **The name of a tag** takes what does not end it, in lower case. -/
theorem steady_stepTagName : (m.stepTagName c).Steady n := by
  simp only [stepTagName]
  split
  · exact (h.advance.goto _).steady
  · rename_i hspace
    split
    · exact (h.advance.goto _).steady
    · rename_i hslash
      split
      · exact h.advance.steady_emitTag
      · rename_i hgt
        split
        · exact ((h.advance.report _).putTagName rfl).steady
        · rename_i hnull
          have hname := isNameChar_toLower (Bool.not_eq_true _ ▸ hspace) hslash hgt hnull hreturn
          exact (h.advance.putTagName hname).steady

/-- **An attribute begins** with any character that does not end the tag, in lower case. -/
theorem steady_beginAttribute (hspace : Ascii.isSpace c = false) (hslash : c ≠ '/') (hgt : c ≠ '>') :
    (m.beginAttribute c).Steady n := by
  refine Clean.steady (Clean.goto ?_ _)
  split
  · exact (h.report _).openAttribute rfl
  · rename_i hnull
    split
    · rename_i heq
      subst heq
      exact (h.report _).openAttribute rfl
    · split
      · rename_i hodd
        exact (h.report _).openAttribute (isNameChar_of_isOddInName hodd)
      · exact h.openAttribute (isNameChar_toLower hspace hslash hgt hnull hreturn)

theorem steady_stepBeforeAttributeName : (m.stepBeforeAttributeName c).Steady n := by
  simp only [stepBeforeAttributeName]
  split
  · exact h.advance.steady
  · rename_i hspace
    split
    · exact (h.advance.goto _).steady
    · rename_i hslash
      split
      · exact h.advance.steady_emitTag
      · rename_i hgt
        exact steady_beginAttribute h.advance hreturn (Bool.not_eq_true _ ▸ hspace) hslash hgt

theorem steady_stepAfterAttributeName : (m.stepAfterAttributeName c).Steady n := by
  simp only [stepAfterAttributeName]
  split
  · exact h.advance.steady
  · rename_i hspace
    split
    · exact (h.advance.goto _).steady
    · rename_i hslash
      split
      · exact (h.advance.goto _).steady
      · split
        · exact h.advance.steady_emitTag
        · rename_i hgt
          exact steady_beginAttribute h.advance hreturn (Bool.not_eq_true _ ▸ hspace) hslash hgt

/-- **The name of an attribute** takes what does not end it, in lower case; `=` does. -/
theorem steady_stepAttributeName : (m.stepAttributeName c).Steady n := by
  simp only [stepAttributeName]
  split
  · exact (h.advance.goto _).steady
  · rename_i hspace
    split
    · exact (h.advance.goto _).steady
    · rename_i hslash
      split
      · exact (h.advance.goto _).steady
      · rename_i heq
        split
        · exact h.advance.steady_emitTag
        · rename_i hgt
          split
          · exact ((h.advance.report _).putAttributeName rfl (by decide)).steady
          · rename_i hnull
            split
            · rename_i hodd
              have hname := isNameChar_of_isOddInName hodd
              exact ((h.advance.report _).putAttributeName hname heq).steady
            · have hname :=
                isNameChar_toLower (Bool.not_eq_true _ ▸ hspace) hslash hgt hnull hreturn
              exact (h.advance.putAttributeName hname (toLower_ne heq rfl)).steady

end Tag

section Declaration

variable (h : m.Clean n named)
include h

/-! ## (4) Comments -/

theorem steady_putBackDashes (hnull : c ≠ '\x00') : (m.putBackDashes c).Steady n := by
  have hdashes : NullFree (heldDashes m.state) := by
    unfold heldDashes
    split <;> decide
  exact ((h.putCommentText hdashes).putComment hnull).leave rfl

theorem steady_putCommentChar : (m.putCommentChar c).Steady n := by
  unfold putCommentChar
  split
  · exact steady_putBackDashes (h.report _) (by decide)
  · rename_i hnull
    exact steady_putBackDashes h hnull

theorem steady_stepBogusComment (htag : m.course.state.inTag = false) :
    (m.stepBogusComment c).Steady n := by
  simp only [stepBogusComment]
  split
  · exact h.advance.steady_emitComment
  · split
    · exact ((h.advance.report _).putComment (by decide)).stay (by simpa using htag)
    · rename_i hnull
      exact (h.advance.putComment hnull).stay htag

theorem steady_stepCommentStart : (m.stepCommentStart c).Steady n := by
  simp only [stepCommentStart]
  split
  · exact h.advance.leave rfl
  · split
    · exact (h.advance.report _).steady_emitComment
    · exact steady_putCommentChar h.advance

theorem steady_stepCommentStartDash : (m.stepCommentStartDash c).Steady n := by
  simp only [stepCommentStartDash]
  split
  · exact h.advance.leave rfl
  · split
    · exact (h.advance.report _).steady_emitComment
    · exact steady_putCommentChar h.advance

theorem steady_stepCommentText : (m.stepCommentText c).Steady n := by
  simp only [stepCommentText]
  split
  · exact h.advance.leave rfl
  · exact steady_putCommentChar h.advance

theorem steady_stepCommentEndDash : (m.stepCommentEndDash c).Steady n := by
  simp only [stepCommentEndDash]
  split
  · exact h.advance.leave rfl
  · exact steady_putCommentChar h.advance

theorem steady_stepCommentEnd (htag : m.course.state.inTag = false) :
    (m.stepCommentEnd c).Steady n := by
  simp only [stepCommentEnd]
  split
  · exact h.advance.steady_emitComment
  · split
    · exact h.advance.leave rfl
    · split
      · exact (h.advance.putComment (by decide)).stay htag
      · exact steady_putCommentChar h.advance

theorem steady_stepCommentEndBang : (m.stepCommentEndBang c).Steady n := by
  simp only [stepCommentEndBang]
  split
  · exact (h.advance.putCommentText (by decide)).leave rfl
  · split
    · exact (h.advance.report _).steady_emitComment
    · exact steady_putCommentChar h.advance

/-! ## (5) Document types -/

theorem steady_stepMarkupDeclarationOpen {k : Machine} (hstep : m.stepMarkupDeclarationOpen = some k) :
    k.Steady n := by
  unfold stepMarkupDeclarationOpen at hstep
  split at hstep
  · cases hstep
    exact ((h.skip 2).openComment nullFree_empty).leave rfl
  · cases hstep
  · split at hstep
    · cases hstep
      exact (h.skip 7).leave rfl
    · cases hstep
    · split at hstep
      · cases hstep
        exact (((h.report _).skip 7).openComment (by decide)).leave rfl
      · cases hstep
      · cases hstep
        exact ((h.report _).openComment nullFree_empty).leave rfl

theorem steady_stepAfterDoctypeName (htag : m.course.state.inTag = false) {k : Machine}
    (hstep : m.stepAfterDoctypeName c = some k) : k.Steady n := by
  unfold stepAfterDoctypeName at hstep
  split at hstep
  · cases hstep
    exact h.advance.stay htag
  · split at hstep
    · cases hstep
      exact h.advance.steady_emitDoctype
    · split at hstep
      · cases hstep
        exact (h.skip 6).leave rfl
      · cases hstep
      · split at hstep
        · cases hstep
          exact (h.skip 6).leave rfl
        · cases hstep
        · cases hstep
          exact (h.report _).forceQuirks.leave rfl

theorem steady_abandonDoctype (code : ErrorCode) : (m.abandonDoctype code).Steady n :=
  (h.report code).forceQuirks.leave rfl

theorem steady_cutDoctype (code : ErrorCode) : (m.cutDoctype code).Steady n :=
  (h.report code).forceQuirks.steady_emitDoctype

theorem steady_beginIdentifier (kind : IdentifierKind) : (m.beginIdentifier kind c).Steady n := by
  unfold beginIdentifier
  split
  · exact (h.openIdentifier kind).leave rfl
  · exact (h.openIdentifier kind).leave rfl

theorem steady_stepAfterDoctypeKeyword (kind : IdentifierKind) :
    (m.stepAfterDoctypeKeyword kind c).Steady n := by
  simp only [stepAfterDoctypeKeyword]
  split
  · exact h.advance.leave rfl
  · split
    · exact steady_beginIdentifier (h.advance.report _) kind
    · split
      · exact steady_cutDoctype h.advance _
      · exact steady_abandonDoctype h.advance _

theorem steady_stepBeforeDoctypeIdentifier (htag : m.course.state.inTag = false)
    (kind : IdentifierKind) : (m.stepBeforeDoctypeIdentifier kind c).Steady n := by
  simp only [stepBeforeDoctypeIdentifier]
  split
  · exact h.advance.stay htag
  · split
    · exact steady_beginIdentifier h.advance kind
    · split
      · exact steady_cutDoctype h.advance _
      · exact steady_abandonDoctype h.advance _

theorem steady_stepDoctypeIdentifier (htag : m.course.state.inTag = false) (kind : IdentifierKind)
    (quote : Char) : (m.stepDoctypeIdentifier kind quote c).Steady n := by
  simp only [stepDoctypeIdentifier]
  split
  · exact h.advance.leave rfl
  · split
    · exact ((h.advance.report _).putIdentifier (by decide) kind).stay (by simpa using htag)
    · rename_i hnull
      split
      · exact steady_cutDoctype h.advance _
      · exact (h.advance.putIdentifier hnull kind).stay (by simpa using htag)

theorem steady_stepAfterPublicIdentifier : (m.stepAfterPublicIdentifier c).Steady n := by
  simp only [stepAfterPublicIdentifier]
  split
  · exact h.advance.leave rfl
  · split
    · exact h.advance.steady_emitDoctype
    · split
      · exact steady_beginIdentifier (h.advance.report _) .systemId
      · exact steady_abandonDoctype h.advance _

theorem steady_stepAfterSystemIdentifier (htag : m.course.state.inTag = false) :
    (m.stepAfterSystemIdentifier c).Steady n := by
  simp only [stepAfterSystemIdentifier]
  split
  · exact h.advance.stay htag
  · split
    · exact h.advance.steady_emitDoctype
    · exact (h.advance.report _).leave rfl

theorem steady_stepBetweenIdentifiers (htag : m.course.state.inTag = false) :
    (m.stepBetweenIdentifiers c).Steady n := by
  simp only [stepBetweenIdentifiers]
  split
  · exact h.advance.stay htag
  · split
    · exact h.advance.steady_emitDoctype
    · split
      · exact steady_beginIdentifier h.advance .systemId
      · exact steady_abandonDoctype h.advance _

theorem steady_stepBogusDoctype (htag : m.course.state.inTag = false) :
    (m.stepBogusDoctype c).Steady n := by
  simp only [stepBogusDoctype]
  split
  · exact h.advance.steady_emitDoctype
  · split
    · exact (h.advance.report _).stay (by simpa using htag)
    · exact h.advance.stay htag

variable (hreturn : c ≠ '\r')
include hreturn

/-- **The name of a document type begins** with any character that does not end it, in lower case. -/
theorem steady_beforeDoctypeName (htag : m.course.state.inTag = false) :
    (m.beforeDoctypeName c).Steady n := by
  unfold beforeDoctypeName
  split
  · exact h.stay htag
  · rename_i hspace
    split
    · exact (h.report _).resetDoctype.forceQuirks.steady_emitDoctype
    · rename_i hgt
      split
      · exact ((h.report _).resetDoctype.putDoctypeName rfl).leave rfl
      · rename_i hnull
        have hname := isDoctypeNameChar_toLower (Bool.not_eq_true _ ▸ hspace) hgt hnull hreturn
        exact (h.resetDoctype.putDoctypeName hname).leave rfl

theorem steady_stepDoctype : (m.stepDoctype c).Steady n := by
  have hname := h.advance.goto .beforeDoctypeName
  have hstate : (m.advance.goto .beforeDoctypeName).course.state.inTag = false := by
    rw [course_goto]
    rfl
  simp only [stepDoctype]
  split
  · exact hname.stay hstate
  · split
    · exact steady_beforeDoctypeName hname hreturn hstate
    · exact steady_beforeDoctypeName (hname.report _) hreturn (by rw [course_report, hstate])

/-- **The name of a document type** takes what does not end it, in lower case. -/
theorem steady_stepDoctypeName (htag : m.course.state.inTag = false) :
    (m.stepDoctypeName c).Steady n := by
  simp only [stepDoctypeName]
  split
  · exact h.advance.leave rfl
  · rename_i hspace
    split
    · exact h.advance.steady_emitDoctype
    · rename_i hgt
      split
      · exact ((h.advance.report _).putDoctypeName rfl).stay (by simpa using htag)
      · rename_i hnull
        have hname := isDoctypeNameChar_toLower (Bool.not_eq_true _ ▸ hspace) hgt hnull hreturn
        exact (h.advance.putDoctypeName hname).stay htag

end Declaration

/-! ## (6) A character -/

/-- **A step at a character** keeps a machine steady, apart from the tokens for a U+0000 between
tags. -/
theorem steady_stepChar_of_ne_data (h : m.Steady n) (hreturn : c ≠ '\r') (hdata : m.state ≠ .data)
    {k : Machine} (hstep : m.stepChar c = some k) : k.Steady n := by
  unfold stepChar at hstep
  cases hstate : m.state with
  | data => exact absurd hstate hdata
  | plaintext =>
    cases hstate ▸ hstep
    exact steady_stepPlaintext h.clean (congrArg State.inTag hstate)
  | rawData kind =>
    cases hstate ▸ hstep
    exact steady_stepRawData h.clean (congrArg State.inTag hstate) kind
  | rawLessThanSign kind =>
    cases hstate ▸ hstep
    exact steady_stepRawLessThanSign h.clean kind
  | rawEndTagOpen kind =>
    cases hstate ▸ hstep
    exact steady_stepRawEndTagOpen h.clean kind
  | rawEndTagName kind =>
    cases hstate ▸ hstep
    exact steady_stepRawEndTagName (h.withName (congrArg State.inTag hstate)) kind
  | scriptDataEscapeStart kind =>
    cases hstate ▸ hstep
    cases kind with
    | escaped => exact steady_escapeDash h.clean rfl rfl
    | doubleEscaped => exact steady_escapeBoundary h.clean (congrArg State.inTag hstate) _ _
  | scriptDataEscapeStartDash =>
    cases hstate ▸ hstep
    exact steady_escapeDash h.clean rfl rfl
  | scriptDataEscapedDash kind =>
    cases hstate ▸ hstep
    exact steady_stepEscapedDash h.clean kind
  | scriptDataEscapedDashDash kind =>
    cases hstate ▸ hstep
    exact steady_stepEscapedDashDash h.clean (congrArg State.inTag hstate) kind
  | scriptDataDoubleEscapeEnd =>
    cases hstate ▸ hstep
    exact steady_escapeBoundary h.clean (congrArg State.inTag hstate) _ _
  | tagOpen =>
    cases hstate ▸ hstep
    exact steady_stepTagOpen h.clean
  | endTagOpen =>
    cases hstate ▸ hstep
    exact steady_stepEndTagOpen h.clean
  | tagName =>
    cases hstate ▸ hstep
    exact steady_stepTagName (h.withName (congrArg State.inTag hstate)) hreturn
  | beforeAttributeName =>
    cases hstate ▸ hstep
    exact steady_stepBeforeAttributeName (h.withName (congrArg State.inTag hstate)) hreturn
  | attributeName =>
    cases hstate ▸ hstep
    exact steady_stepAttributeName (h.withName (congrArg State.inTag hstate)) hreturn
  | afterAttributeName =>
    cases hstate ▸ hstep
    exact steady_stepAfterAttributeName (h.withName (congrArg State.inTag hstate)) hreturn
  | beforeAttributeValue =>
    cases hstate ▸ hstep
    exact steady_stepBeforeAttributeValue (h.withName (congrArg State.inTag hstate))
  | attributeValue kind =>
    cases hstate ▸ hstep
    exact steady_stepAttributeValue (h.withName (congrArg State.inTag hstate)) kind
  | afterAttributeValueQuoted =>
    cases hstate ▸ hstep
    exact steady_stepAfterAttributeValueQuoted (h.withName (congrArg State.inTag hstate))
  | selfClosingStartTag =>
    cases hstate ▸ hstep
    exact steady_stepSelfClosingStartTag (h.withName (congrArg State.inTag hstate))
  | markupDeclarationOpen =>
    exact steady_stepMarkupDeclarationOpen h.clean (by simpa only [hstate] using hstep)
  | commentStart =>
    cases hstate ▸ hstep
    exact steady_stepCommentStart h.clean
  | commentStartDash =>
    cases hstate ▸ hstep
    exact steady_stepCommentStartDash h.clean
  | comment =>
    cases hstate ▸ hstep
    exact steady_stepCommentText h.clean
  | commentEndDash =>
    cases hstate ▸ hstep
    exact steady_stepCommentEndDash h.clean
  | commentEnd =>
    cases hstate ▸ hstep
    exact steady_stepCommentEnd h.clean (congrArg State.inTag hstate)
  | commentEndBang =>
    cases hstate ▸ hstep
    exact steady_stepCommentEndBang h.clean
  | bogusComment =>
    cases hstate ▸ hstep
    exact steady_stepBogusComment h.clean (congrArg State.inTag hstate)
  | doctype =>
    cases hstate ▸ hstep
    exact steady_stepDoctype h.clean hreturn
  | beforeDoctypeName =>
    cases hstate ▸ hstep
    exact steady_beforeDoctypeName h.clean.advance hreturn (congrArg State.inTag hstate)
  | doctypeName =>
    cases hstate ▸ hstep
    exact steady_stepDoctypeName h.clean hreturn (congrArg State.inTag hstate)
  | afterDoctypeName =>
    exact steady_stepAfterDoctypeName h.clean (congrArg State.inTag hstate)
      (by simpa only [hstate] using hstep)
  | afterDoctypeKeyword kind =>
    cases hstate ▸ hstep
    exact steady_stepAfterDoctypeKeyword h.clean kind
  | beforeDoctypeIdentifier kind =>
    cases hstate ▸ hstep
    exact steady_stepBeforeDoctypeIdentifier h.clean (congrArg State.inTag hstate) kind
  | doctypeIdentifierDoubleQuoted kind =>
    cases hstate ▸ hstep
    exact steady_stepDoctypeIdentifier h.clean (congrArg State.inTag hstate) kind _
  | doctypeIdentifierSingleQuoted kind =>
    cases hstate ▸ hstep
    exact steady_stepDoctypeIdentifier h.clean (congrArg State.inTag hstate) kind _
  | afterDoctypeIdentifier kind =>
    cases kind with
    | publicId =>
      cases hstate ▸ hstep
      exact steady_stepAfterPublicIdentifier h.clean
    | systemId =>
      cases hstate ▸ hstep
      exact steady_stepAfterSystemIdentifier h.clean (congrArg State.inTag hstate)
  | betweenDoctypePublicAndSystemIdentifiers =>
    cases hstate ▸ hstep
    exact steady_stepBetweenIdentifiers h.clean (congrArg State.inTag hstate)
  | bogusDoctype =>
    cases hstate ▸ hstep
    exact steady_stepBogusDoctype h.clean (congrArg State.inTag hstate)

/-! ## (7) References and the end of the input -/

section

variable {r : Reference}

theorem clean_closeLiteral (h : m.Clean n named) (hraw : NullFree r.raw) :
    (m.closeLiteral r).Clean n named :=
  h.closeReference r (NullFree.append (by decide) hraw)

theorem clean_closeNumber (h : m.Clean n named) : (m.closeNumber r).Clean n named :=
  (h.reportNumber r.number).closeReference r (nullFree_singleton (Reference.numberChar_ne_null _))

/-- What a name stands for is followed by the letters behind it. -/
theorem clean_closeName (h : m.Clean n named) (hraw : NullFree r.raw) (next : Option Char) :
    (m.closeName r next).Clean n named := by
  simp only [closeName]
  split
  · rename_i entry hentry
    have hrest : NullFree (String.ofList (r.raw.toList.drop entry.name.length)) :=
      hraw.ofList (List.drop_subset _ _)
    have hexpanded := (Reference.nullFree_expansion hentry).append hrest
    split
    · exact h.closeReference r hexpanded
    · split
      · exact clean_closeLiteral h hraw
      · exact (h.report _).closeReference r hexpanded
  · split
    · exact clean_closeLiteral (h.report _) hraw
    · exact clean_closeLiteral h hraw

theorem clean_endDigits (h : m.Clean n named) (hraw : NullFree r.raw) (next : Option Char) :
    (m.endDigits r next).Clean n named := by
  unfold endDigits
  split
  · exact clean_closeLiteral (h.report _) hraw
  · split
    · exact clean_closeNumber h.advance
    · exact clean_closeNumber (h.report _)

theorem clean_stepReference (h : m.Clean n named) (hraw : NullFree r.raw) (next : Option Char) :
    (m.stepReference r next).Clean n named := by
  unfold stepReference
  cases r.phase with
  | opened =>
    simp only [stepOpened]
    split
    · exact h.advance.keepReference (hraw.push (by decide))
    · split
      · exact h.keepReference hraw
      · exact clean_closeLiteral h hraw
    · exact clean_closeLiteral h hraw
  | numeric =>
    simp only [stepNumeric]
    split
    · split
      · rename_i hx
        have hnull (c : Char) (hc : (c = 'x' || c = 'X') = true) : c ≠ '\x00' := by
          rintro rfl
          cases hc
        exact h.advance.keepReference (hraw.push (hnull _ hx))
      · exact h.keepReference hraw
    · exact h.keepReference hraw
  | digits hex =>
    simp only [stepDigits]
    split
    · split
      · rename_i c _ digit hdigit
        have hnull : c ≠ '\x00' := by
          rintro rfl
          rw [digitValue?_null] at hdigit
          cases hdigit
        exact h.advance.keepReference (hraw.push hnull)
      · exact clean_endDigits h hraw _
    · exact clean_endDigits h hraw _
  | named =>
    simp only [stepNamed]
    split
    · rename_i c
      split
      · rename_i hname
        rw [Bool.and_eq_true] at hname
        exact h.advance.keepReference (hraw.push (ne_null_of_isAlphanum hname.2))
      · split
        · exact clean_closeName h.advance (hraw.push (by decide)) none
        · exact clean_closeName h hraw _
    · exact clean_closeName h hraw _

theorem steady_stepReference (h : m.Steady n) (href : m.reference = some r) (next : Option Char) :
    (m.stepReference r next).Steady n := by
  rw [Steady, (course_stepReference m r next).1]
  exact clean_stepReference h (h.reference r href) next

end

theorem steady_emitEnd (h : m.Clean n named) (htag : m.course.state.inTag = false) :
    m.emitEnd.Steady n :=
  h.emitEnd.stay (by rw [course_emitEnd]; exact htag)

/-- **The end of the input** keeps a machine steady: a tag that it cuts off is not queued. -/
theorem steady_stepEnd (h : m.Steady n) : m.stepEnd.Steady n := by
  have hclean := h.clean
  have hreport (code : ErrorCode) := hclean.report code
  have hreported (code : ErrorCode) := congrArg Course.state (m.course_report code)
  unfold stepEnd
  cases hstate : m.state with
  | data | plaintext => exact steady_emitEnd hclean (congrArg State.inTag hstate)
  | rawData kind =>
    cases kind with
    | scriptDataEscaped kind =>
      exact steady_emitEnd (hreport _)
        (congrArg State.inTag ((hreported .eofInScriptHtmlCommentLikeText).trans hstate))
    | _ => exact steady_emitEnd hclean (congrArg State.inTag hstate)
  | scriptDataEscapedDash kind | scriptDataEscapedDashDash kind =>
    exact steady_emitEnd (hreport _)
      (congrArg State.inTag ((hreported .eofInScriptHtmlCommentLikeText).trans hstate))
  | rawLessThanSign kind =>
    cases kind with
    | scriptDataEscaped kind =>
      cases kind with
      | escaped => exact (hclean.putChar (by decide)).leave rfl
      | doubleEscaped => exact hclean.leave rfl
    | _ => exact (hclean.putChar (by decide)).leave rfl
  | rawEndTagOpen kind => exact (hclean.putText (by decide)).leave rfl
  | rawEndTagName kind => exact steady_putBackEndTag hclean kind
  | scriptDataEscapeStart kind => cases kind <;> exact hclean.leave rfl
  | scriptDataEscapeStartDash | scriptDataDoubleEscapeEnd => exact hclean.leave rfl
  | tagOpen => exact ((hreport _).putChar (by decide)).leave rfl
  | endTagOpen => exact ((hreport _).putText (by decide)).leave rfl
  | tagName | beforeAttributeName | attributeName | afterAttributeName | beforeAttributeValue
  | attributeValue _ | afterAttributeValueQuoted | selfClosingStartTag =>
    exact (hreport _).dropAttribute.leave rfl
  | markupDeclarationOpen => exact ((hreport _).openComment nullFree_empty).leave rfl
  | bogusComment => exact hclean.steady_emitComment
  | commentStart | commentStartDash | comment | commentEndDash | commentEnd | commentEndBang =>
    exact (hreport _).steady_emitComment
  | doctype | beforeDoctypeName => exact (hreport _).resetDoctype.forceQuirks.steady_emitDoctype
  | bogusDoctype => exact hclean.steady_emitDoctype
  | _ => exact (hreport _).forceQuirks.steady_emitDoctype

/-! ## (8) Steps and runs of steps -/

/-- **How many U+0000 a step reads between tags.** -/
def nullsInData (m : Machine) : Nat :=
  match step .byChar m with
  | none => 0
  | some k =>
    if m.state = .data then m.input.pending.count '\x00' - k.input.pending.count '\x00' else 0

/-- The text between tags reads the character in front. -/
theorem nullsInData_of_data {k : Machine} {rest : List Char} (hstate : m.state = .data)
    (hpending : m.input.pending = c :: rest) (hstep : step .byChar m = some k)
    (hk : k.input = m.input.advance) : m.nullsInData = nullCount c := by
  unfold nullsInData
  rw [hstep]
  simp only [hstate, if_true, hk, Input.advance, hpending, List.tail_cons, List.count_cons, nullCount]
  split <;> simp_all

/-- A step that reads no U+0000. -/
theorem nullsInData_of_count {k : Machine} (hstep : step .byChar m = some k)
    (hcount : k.input.pending.count '\x00' = m.input.pending.count '\x00') : m.nullsInData = 0 := by
  unfold nullsInData
  rw [hstep]
  simp only [hcount, Nat.sub_self, ite_self]

theorem nullsInData_of_ne_data (hstate : m.state ≠ .data) : m.nullsInData = 0 := by
  unfold nullsInData
  split
  · rfl
  · rw [if_neg hstate]

/-- **A step keeps a machine steady**, and queues a token for each U+0000 that it reads between
tags. -/
theorem steady_step (h : m.Steady n) (hreturn : '\r' ∉ m.input.pending) {k : Machine}
    (hstep : step .byChar m = some k) : k.Steady (n + m.nullsInData) := by
  have hnulls := fun hcount => nullsInData_of_count hstep hcount
  have hk := hstep
  unfold step at hk
  split at hk
  · cases hk
  · split at hk
    · rename_i r c rest href hpending
      cases hk
      rw [hnulls (by rw [input_stepReference_eq, r.count_pending_read hpending])]
      exact steady_stepReference h href (some c)
    · rename_i r href hpending
      split at hk
      · cases hk
        rw [hnulls (by rw [input_stepReference_eq]; rfl)]
        exact steady_stepReference h href none
      · cases hk
    · rename_i c rest href hpending
      rw [stepAt_byChar] at hk
      by_cases hdata : m.state = .data
      · rw [stepChar, hdata] at hk
        cases hk
        rw [nullsInData_of_data hdata hpending hstep (m.input_stepData c)]
        exact steady_stepData h.clean (congrArg State.inTag hdata)
      · have hc : c ≠ '\r' := by
          rintro rfl
          exact hreturn (hpending ▸ List.mem_cons_self)
        rw [nullsInData_of_ne_data hdata]
        exact steady_stepChar_of_ne_data h hc hdata hk
    · split at hk
      · cases hk
        rw [hnulls (by rw [input_stepEnd])]
        exact steady_stepEnd h
      · cases hk

/-- **How many U+0000 a run reads between tags.** -/
def nullsBetweenTags (m : Machine) : Nat := ((m.passes m.stepBound).map nullsInData).sum

theorem steady_runFor (h : m.Steady n) (hreturn : '\r' ∉ m.input.pending) (fuel : Nat) :
    (runFor .byChar fuel m).Steady (n + ((m.passes fuel).map nullsInData).sum) := by
  -- induction on the fuel; what a step leaves to be read has no CR either
  induction fuel generalizing m n with
  | zero => exact h
  | succ fuel ih =>
    rw [runFor, passes]
    cases hstep : step .byChar m with
    | none => exact h
    | some k =>
      have hrest : '\r' ∉ k.input.pending := fun hr =>
        hreturn ((pending_suffix_of_step hstep).subset hr)
      have hrun := ih (steady_step h hreturn hstep) hrest
      rw [Nat.add_assoc] at hrun
      exact hrun

/-- **A run keeps a machine steady**, and queues a token for each U+0000 that it reads between tags. -/
theorem steady_run (h : m.Steady n) (hreturn : '\r' ∉ m.input.pending) :
    m.run.Steady (n + m.nullsBetweenTags) := by
  rw [run_eq_byChar]
  exact steady_runFor h hreturn m.stepBound

end Machine

end HtmlStream

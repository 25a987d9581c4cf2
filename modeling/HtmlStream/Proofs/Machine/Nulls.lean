import HtmlStream.Proofs.Machine.Halting
import Mathlib.Data.List.Count

/-! # What becomes of a U+0000

A U+0000 that is read is reported, once and in the step that reads it. So the reports queued and the
U+0000 still to be read stay the same number in all, whatever a step does. There is one exception. The
states of a document type behind its keyword and its identifiers read a character that they do not
expect before they give the document type up, and the state that skips its rest does not see that
character again: there a U+0000 goes unreported.

* **`nulls`**: the reports queued and the U+0000 still to be read.
* **`nulls_report`, `nulls_stepTagName`, …**: what actions and states do to that number.
* **`State.overlooksNull`** and **`overlooks`**: the exception.
* **`nulls_step`**: a step keeps the number or overlooks one.
* **`count_pending_eq`**: behind the last byte, the U+0000 read are those reported and those
  overlooked. -/

namespace HtmlStream

/-! ## (1) Counting -/

/-- Whether a token is the report of a U+0000. -/
def Token.isNullReport : Token → Bool
  | .error e _ => e.code = .unexpectedNullCharacter
  | _ => false

theorem countP_textTokens (s : String) : (textTokens s).countP Token.isNullReport = 0 := by
  unfold textTokens
  split <;> rfl

/-- `1` for a U+0000 and `0` for any other character. -/
def nullCount (c : Char) : Nat := if c = '\x00' then 1 else 0

@[simp] theorem nullCount_null : nullCount '\x00' = 1 := rfl

@[simp] theorem nullCount_of_ne {c : Char} (h : c ≠ '\x00') : nullCount c = 0 := if_neg h

/-- A keyword that no U+0000 compares equal to covers none in the input. -/
theorem Lookahead.count_null_of_found {same : Char → Char → Bool} {finished : Bool}
    {keyword pending : List Char} (hsame : ∀ k ∈ keyword, same k '\x00' = false)
    (h : compare same finished keyword pending = .found) :
    (pending.take keyword.length).count '\x00' = 0 := by
  induction keyword generalizing pending with
  | nil => rfl
  | cons k keyword ih =>
    cases pending with
    | nil => rfl
    | cons c pending =>
      rw [List.forall_mem_cons] at hsame
      rw [compare] at h
      split at h
      · rename_i hc
        have hne : c ≠ '\x00' := by
          rintro rfl
          rw [hsame.1] at hc
          cases hc
        rw [List.length_cons, List.take_succ_cons, List.count_cons_of_ne hne]
        exact ih hsame.2 h
      · cases h

namespace Machine

/-- **The reports queued and the U+0000 still to be read.** -/
def nulls (m : Machine) : Nat :=
  m.queue.toList.countP Token.isNullReport + m.input.pending.count '\x00'

variable (m : Machine)

/-! ## (2) Actions -/

@[simp] theorem nulls_ite (p : Prop) [Decidable p] (m m' : Machine) :
    (if p then m else m').nulls = if p then m.nulls else m'.nulls :=
  apply_ite nulls p m m'

@[simp] theorem nulls_goto (next : State) : (m.goto next).nulls = m.nulls := by
  unfold goto
  split <;> rfl

/-- Reading takes a U+0000 out of those still to be read. -/
theorem nulls_advance {c : Char} {rest : List Char} (h : m.input.pending = c :: rest) :
    m.nulls = m.advance.nulls + nullCount c := by
  simp only [nulls, advance, Input.advance, h, List.tail_cons, List.count_cons, beq_iff_eq,
    nullCount]
  omega

/-- A keyword that has been found is read without a U+0000. -/
theorem nulls_skip {same : Char → Char → Bool} {keyword : String} {n : Nat}
    (hn : keyword.toList.length = n) (hsame : ∀ k ∈ keyword.toList, same k '\x00' = false)
    (h : m.input.lookahead same keyword = .found) : (m.skip n).nulls = m.nulls := by
  have hread := Lookahead.count_null_of_found hsame h
  have hsplit := congrArg (List.count '\x00') (List.take_append_drop n m.input.pending)
  rw [hn] at hread
  rw [List.count_append, hread, Nat.zero_add] at hsplit
  simp only [nulls, skip, Input.skip, hsplit]

@[simp] theorem nulls_putChar (c : Char) : (m.putChar c).nulls = m.nulls := rfl

@[simp] theorem nulls_putText (s : String) : (m.putText s).nulls = m.nulls := rfl

/-- **A token that is queued counts if it is a report**; the text in front of it never does. -/
@[simp] theorem nulls_emit (t : Token) :
    (m.emit t).nulls = m.nulls + if t.isNullReport then 1 else 0 := by
  have hinput : (m.emit t).input = m.input := congrArg Course.input (m.course_emit t)
  rw [nulls, hinput, toList_queue_emit, List.countP_append, List.countP_append, heldBack,
    countP_textTokens, Nat.zero_add, List.countP_singleton, nulls]
  omega

@[simp] theorem nulls_report (code : ErrorCode) :
    (m.report code).nulls = m.nulls + if code = .unexpectedNullCharacter then 1 else 0 := by
  rw [report, nulls_emit]
  simp only [Token.isNullReport, decide_eq_true_eq]
  rfl

@[simp] theorem nulls_emitEnd : m.emitEnd.nulls = m.nulls := m.nulls_emit .endOfInput

@[simp] theorem nulls_openTag (kind : TagKind) (c : Char) : (m.openTag kind c).nulls = m.nulls := rfl

@[simp] theorem nulls_putTagName (c : Char) : (m.putTagName c).nulls = m.nulls := rfl

@[simp] theorem nulls_dropAttribute : m.dropAttribute.nulls = m.nulls := rfl

@[simp] theorem nulls_closeAttribute : m.closeAttribute.nulls = m.nulls := by
  unfold closeAttribute
  split
  · rfl
  · split
    · simp
    · rfl

@[simp] theorem nulls_openAttribute (c : Char) : (m.openAttribute c).nulls = m.nulls :=
  m.nulls_closeAttribute

@[simp] theorem nulls_putAttributeName (c : Char) : (m.putAttributeName c).nulls = m.nulls := rfl

@[simp] theorem nulls_putAttributeValue (c : Char) : (m.putAttributeValue c).nulls = m.nulls := rfl

@[simp] theorem nulls_markSelfClosing : m.markSelfClosing.nulls = m.nulls := rfl

@[simp] theorem nulls_reportTag (t : Tag) : (m.reportTag t).nulls = m.nulls := by
  unfold reportTag
  cases t.kind with
  | opening => rfl
  | closing => cases t.attributes.isEmpty <;> cases t.selfClosing <;> simp

@[simp] theorem nulls_resetTag : m.resetTag.nulls = m.nulls := rfl

@[simp] theorem nulls_emitTag : m.emitTag.nulls = m.nulls := by
  simp [emitTag, Token.isNullReport]

@[simp] theorem nulls_putLetter (c : Char) : (m.putLetter c).nulls = m.nulls := rfl

@[simp] theorem nulls_clearLetters : m.clearLetters.nulls = m.nulls := rfl

@[simp] theorem nulls_putComment (c : Char) : (m.putComment c).nulls = m.nulls := rfl

@[simp] theorem nulls_putCommentText (s : String) : (m.putCommentText s).nulls = m.nulls := rfl

@[simp] theorem nulls_openComment (s : String) : (m.openComment s).nulls = m.nulls := rfl

@[simp] theorem nulls_emitComment : m.emitComment.nulls = m.nulls := by
  simp [emitComment, Token.isNullReport]

@[simp] theorem nulls_putDoctypeName (c : Char) : (m.putDoctypeName c).nulls = m.nulls := rfl

@[simp] theorem nulls_openIdentifier (kind : IdentifierKind) :
    (m.openIdentifier kind).nulls = m.nulls := by
  cases kind <;> rfl

@[simp] theorem nulls_putIdentifier (c : Char) (kind : IdentifierKind) :
    (m.putIdentifier c kind).nulls = m.nulls := by
  cases kind <;> rfl

@[simp] theorem nulls_resetDoctype : m.resetDoctype.nulls = m.nulls := rfl

@[simp] theorem nulls_forceQuirks : m.forceQuirks.nulls = m.nulls := rfl

@[simp] theorem nulls_emitDoctype : m.emitDoctype.nulls = m.nulls := by
  simp [emitDoctype, Token.isNullReport]

@[simp] theorem nulls_beginReference : m.beginReference.nulls = m.nulls := rfl

@[simp] theorem nulls_keepReference (r : Reference) : (m.keepReference r).nulls = m.nulls := rfl

@[simp] theorem nulls_closeReference (r : Reference) (s : String) :
    (m.closeReference r s).nulls = m.nulls := by
  unfold closeReference
  cases r.inAttribute <;> rfl

@[simp] theorem nulls_reportNumber (n : Nat) : (m.reportNumber n).nulls = m.nulls := by
  unfold reportNumber
  split <;> simp

@[simp] theorem nulls_replaceNull : m.replaceNull.nulls = m.nulls + 1 := by simp [replaceNull]

/-! ## (3) States that report what they read

Each of them reads a character, and reports it if it is a U+0000, or leaves it unread. -/

@[simp] theorem isSpace_null : Ascii.isSpace '\x00' = false := rfl

@[simp] theorem isOddInName_null : isOddInName '\x00' = false := rfl

@[simp] theorem isQuote_null : isQuote '\x00' = false := rfl

@[simp] theorem closesValue_null (kind : QuoteKind) : closesValue kind '\x00' = false := by
  cases kind <;> rfl

@[simp] theorem null_ne_doubleQuote : '\x00' ≠ Ascii.doubleQuote := by decide

@[simp] theorem null_ne_singleQuote : '\x00' ≠ Ascii.singleQuote := by decide

@[simp] theorem nulls_putCommentChar (c : Char) :
    (m.putCommentChar c).nulls = m.nulls + nullCount c := by
  by_cases hc : c = '\x00' <;> simp [putCommentChar, putBackDashes, hc]

@[simp] theorem nulls_beginAttribute (c : Char) :
    (m.beginAttribute c).nulls = m.nulls + nullCount c := by
  by_cases hc : c = '\x00' <;> simp [beginAttribute, hc]

@[simp] theorem nulls_beforeDoctypeName (c : Char) :
    (m.beforeDoctypeName c).nulls = m.nulls + nullCount c := by
  by_cases hc : c = '\x00' <;> simp [beforeDoctypeName, hc]

@[simp] theorem nulls_escapedLessThan (kind : EscapeKind) :
    (m.escapedLessThan kind).nulls = m.nulls := by
  cases kind <;> simp [escapedLessThan]

@[simp] theorem nulls_afterDashes (kind : EscapeKind) (c : Char) :
    (m.afterDashes kind c).nulls = m.nulls + nullCount c := by
  unfold afterDashes
  split
  · simp
  · simp
  · rename_i hnull
    simp [nullCount_of_ne hnull]

@[simp] theorem nulls_beginIdentifier (kind : IdentifierKind) (c : Char) :
    (m.beginIdentifier kind c).nulls = m.nulls := by
  simp [beginIdentifier]

@[simp] theorem nulls_abandonDoctype (code : ErrorCode) :
    (m.abandonDoctype code).nulls
      = m.nulls + if code = .unexpectedNullCharacter then 1 else 0 := by
  simp [abandonDoctype]

@[simp] theorem nulls_cutDoctype (code : ErrorCode) :
    (m.cutDoctype code).nulls = m.nulls + if code = .unexpectedNullCharacter then 1 else 0 := by
  simp [cutDoctype]

section

variable {m} {c : Char} (hread : m.nulls = m.advance.nulls + nullCount c)
include hread

theorem nulls_stepData : (m.stepData c).nulls = m.nulls := by
  unfold stepData
  split
  · simp [hread]
  · simp [hread]
  · simp [hread, Token.isNullReport]
  · rename_i hnull
    simp [hread, nullCount_of_ne hnull]

theorem nulls_stepPlaintext : (m.stepPlaintext c).nulls = m.nulls := by
  unfold stepPlaintext
  split
  · simp [hread]
  · rename_i hnull
    simp [hread, nullCount_of_ne hnull]

theorem nulls_stepRawData (kind : RawKind) : (m.stepRawData kind c).nulls = m.nulls := by
  by_cases hc : c = '\x00'
  · subst hc
    unfold stepRawData
    split <;> simp_all
  · unfold stepRawData
    split <;> simp_all

theorem nulls_stepRawLessThanSign (kind : RawKind) :
    (m.stepRawLessThanSign kind c).nulls = m.nulls := by
  by_cases hc : c = '\x00'
  · subst hc
    unfold stepRawLessThanSign
    split <;> simp_all
  · unfold stepRawLessThanSign
    split <;> simp_all

theorem nulls_stepRawEndTagOpen (kind : RawKind) :
    (m.stepRawEndTagOpen kind c).nulls = m.nulls := by
  by_cases hc : c = '\x00' <;> simp [stepRawEndTagOpen, hread, hc]

theorem nulls_stepRawEndTagName (kind : RawKind) :
    (m.stepRawEndTagName kind c).nulls = m.nulls := by
  by_cases hc : c = '\x00' <;> simp [stepRawEndTagName, putBackEndTag, hread, hc]

theorem nulls_escapeDash (onDash otherwise : State) :
    (m.escapeDash c onDash otherwise).nulls = m.nulls := by
  by_cases hc : c = '\x00' <;> simp [escapeDash, hread, hc]

theorem nulls_escapeBoundary (onScript otherwise : EscapeKind) :
    (m.escapeBoundary c onScript otherwise).nulls = m.nulls := by
  by_cases hc : c = '\x00' <;> simp [escapeBoundary, hread, hc]

theorem nulls_stepEscapeStart (kind : EscapeKind) : (m.stepEscapeStart kind c).nulls = m.nulls := by
  cases kind with
  | escaped => exact nulls_escapeDash hread _ _
  | doubleEscaped => exact nulls_escapeBoundary hread _ _

theorem nulls_stepEscapedDash (kind : EscapeKind) : (m.stepEscapedDash kind c).nulls = m.nulls := by
  unfold stepEscapedDash
  split <;> simp [hread]

theorem nulls_stepEscapedDashDash (kind : EscapeKind) :
    (m.stepEscapedDashDash kind c).nulls = m.nulls := by
  unfold stepEscapedDashDash
  split <;> simp [hread]

theorem nulls_stepTagOpen : (m.stepTagOpen c).nulls = m.nulls := by
  by_cases hc : c = '\x00' <;> simp [stepTagOpen, hread, hc]

theorem nulls_stepEndTagOpen : (m.stepEndTagOpen c).nulls = m.nulls := by
  by_cases hc : c = '\x00' <;> simp [stepEndTagOpen, hread, hc]

theorem nulls_stepTagName : (m.stepTagName c).nulls = m.nulls := by
  by_cases hc : c = '\x00' <;> simp [stepTagName, hread, hc]

theorem nulls_stepBeforeAttributeName : (m.stepBeforeAttributeName c).nulls = m.nulls := by
  by_cases hc : c = '\x00' <;> simp [stepBeforeAttributeName, hread, hc]

theorem nulls_stepAttributeName : (m.stepAttributeName c).nulls = m.nulls := by
  by_cases hc : c = '\x00' <;> simp [stepAttributeName, hread, hc]

theorem nulls_stepAfterAttributeName : (m.stepAfterAttributeName c).nulls = m.nulls := by
  by_cases hc : c = '\x00' <;> simp [stepAfterAttributeName, hread, hc]

theorem nulls_stepBeforeAttributeValue : (m.stepBeforeAttributeValue c).nulls = m.nulls := by
  by_cases hc : c = '\x00' <;> simp [stepBeforeAttributeValue, hread, hc]

theorem nulls_stepAttributeValue (kind : QuoteKind) :
    (m.stepAttributeValue kind c).nulls = m.nulls := by
  by_cases hc : c = '\x00' <;> simp [stepAttributeValue, hread, hc]

theorem nulls_stepAfterAttributeValueQuoted :
    (m.stepAfterAttributeValueQuoted c).nulls = m.nulls := by
  by_cases hc : c = '\x00' <;> simp [stepAfterAttributeValueQuoted, hread, hc]

theorem nulls_stepSelfClosingStartTag : (m.stepSelfClosingStartTag c).nulls = m.nulls := by
  by_cases hc : c = '\x00' <;> simp [stepSelfClosingStartTag, hread, hc]

theorem nulls_stepBogusComment : (m.stepBogusComment c).nulls = m.nulls := by
  by_cases hc : c = '\x00' <;> simp [stepBogusComment, hread, hc]

theorem nulls_stepCommentStart : (m.stepCommentStart c).nulls = m.nulls := by
  by_cases hc : c = '\x00' <;> simp [stepCommentStart, hread, hc]

theorem nulls_stepCommentStartDash : (m.stepCommentStartDash c).nulls = m.nulls := by
  by_cases hc : c = '\x00' <;> simp [stepCommentStartDash, hread, hc]

theorem nulls_stepCommentText : (m.stepCommentText c).nulls = m.nulls := by
  by_cases hc : c = '\x00' <;> simp [stepCommentText, hread, hc]

theorem nulls_stepCommentEndDash : (m.stepCommentEndDash c).nulls = m.nulls := by
  by_cases hc : c = '\x00' <;> simp [stepCommentEndDash, hread, hc]

theorem nulls_stepCommentEnd : (m.stepCommentEnd c).nulls = m.nulls := by
  by_cases hc : c = '\x00' <;> simp [stepCommentEnd, hread, hc]

theorem nulls_stepCommentEndBang : (m.stepCommentEndBang c).nulls = m.nulls := by
  by_cases hc : c = '\x00' <;> simp [stepCommentEndBang, hread, hc]

theorem nulls_stepDoctype : (m.stepDoctype c).nulls = m.nulls := by
  by_cases hc : c = '\x00' <;> simp [stepDoctype, hread, hc]

theorem nulls_stepBeforeDoctypeName : (m.stepBeforeDoctypeName c).nulls = m.nulls := by
  simp [stepBeforeDoctypeName, hread]

theorem nulls_stepDoctypeName : (m.stepDoctypeName c).nulls = m.nulls := by
  by_cases hc : c = '\x00' <;> simp [stepDoctypeName, hread, hc]

theorem nulls_stepDoctypeIdentifier (kind : IdentifierKind) {quote : Char}
    (hquote : '\x00' ≠ quote) : (m.stepDoctypeIdentifier kind quote c).nulls = m.nulls := by
  by_cases hc : c = '\x00' <;> cases kind <;>
    simp [stepDoctypeIdentifier, ErrorCode.abruptIdentifier, hread, hc, hquote]

theorem nulls_stepBogusDoctype : (m.stepBogusDoctype c).nulls = m.nulls := by
  by_cases hc : c = '\x00' <;> simp [stepBogusDoctype, hread, hc]

end

/-! ## (4) Lookaheads, references and the end of the input -/

section

variable {m} {k : Machine}

theorem nulls_stepMarkupDeclarationOpen (h : m.stepMarkupDeclarationOpen = some k) :
    k.nulls = m.nulls := by
  unfold stepMarkupDeclarationOpen at h
  split at h
  · rename_i hfound
    cases h
    simp [nulls_skip m (n := 2) rfl (by simp [sameChar]) hfound]
  · cases h
  · split at h
    · rename_i hfound
      cases h
      simp [nulls_skip m (n := 7) rfl (by simp [sameLetter]) hfound]
    · cases h
    · split at h
      · rename_i hfound
        cases h
        have hreport : (m.report .cdataInHtmlContent).input.lookahead sameChar "[CDATA[" = .found := by
          rw [input_report]
          exact hfound
        simp [nulls_skip _ (n := 7) rfl (by simp [sameChar]) hreport]
      · cases h
      · cases h
        simp

variable {c : Char} (hread : m.nulls = m.advance.nulls + nullCount c)
include hread

theorem nulls_stepAfterDoctypeName (h : m.stepAfterDoctypeName c = some k) :
    k.nulls = m.nulls := by
  unfold stepAfterDoctypeName at h
  split at h
  · rename_i hspace
    cases h
    have hne : c ≠ '\x00' := by
      rintro rfl
      cases hspace
    simp [hread, hne]
  · split at h
    · rename_i hc
      cases h
      simp [hread, hc]
    · split at h
      · rename_i hfound
        cases h
        simp [nulls_skip m (n := 6) rfl (by simp [sameLetter]) hfound]
      · cases h
      · split at h
        · rename_i hfound
          cases h
          simp [nulls_skip m (n := 6) rfl (by simp [sameLetter]) hfound]
        · cases h
        · cases h
          simp


/-! ### References

A reference is made of characters other than U+0000. -/

omit hread

@[simp] theorem nulls_closeLiteral (r : Reference) : (m.closeLiteral r).nulls = m.nulls := by
  simp [closeLiteral]

@[simp] theorem nulls_closeNumber (r : Reference) : (m.closeNumber r).nulls = m.nulls := by
  simp [closeNumber]

@[simp] theorem nulls_closeName (r : Reference) (next : Option Char) :
    (m.closeName r next).nulls = m.nulls := by
  simp only [closeName]
  repeat' split
  all_goals simp

theorem digitValue?_null (base : Nat) : Text.digitValue? base '\x00' = none := rfl

include hread

theorem nulls_stepReference (r : Reference) : (m.stepReference r (some c)).nulls = m.nulls := by
  -- a character that the reference reads is not a U+0000
  have hadvance (hne : c ≠ '\x00') : m.advance.nulls = m.nulls := by
    rw [hread, nullCount_of_ne hne, Nat.add_zero]
  unfold stepReference
  cases r.phase with
  | opened =>
    simp only [stepOpened]
    split
    · rename_i hc
      cases hc
      exact hadvance (by decide)
    · split <;> simp
    · simp
  | numeric =>
    simp only [stepNumeric]
    split
    · rename_i hx
      have hne : c ≠ '\x00' := by
        rintro rfl
        revert hx
        decide
      exact hadvance hne
    · rfl
  | digits hex =>
    simp only [stepDigits, endDigits]
    split
    · rename_i hdigit
      have hne : c ≠ '\x00' := by
        rintro rfl
        rw [digitValue?_null] at hdigit
        cases hdigit
      exact hadvance hne
    · split
      · simp
      · split
        · rename_i hsemicolon
          cases hsemicolon
          simpa using hadvance (by decide)
        · simp
  | named =>
    simp only [stepNamed]
    split
    · rename_i hname
      have hne : c ≠ '\x00' := by
        rintro rfl
        simp at hname
      exact hadvance hne
    · split
      · rename_i hsemicolon
        have hne : c ≠ '\x00' := by
          rintro rfl
          simp at hsemicolon
        simpa using hadvance hne
      · simp

omit hread

theorem nulls_stepReference_none (r : Reference) :
    (m.stepReference r none).nulls = m.nulls := by
  unfold stepReference
  cases r.phase with
  | opened => simp [stepOpened]
  | numeric => simp [stepNumeric]
  | digits hex => simp only [stepDigits, endDigits]; split <;> simp
  | named => simp [stepNamed]

@[simp] theorem nulls_stepEnd : m.stepEnd.nulls = m.nulls := by
  unfold stepEnd
  split <;> simp [putBackEndTag, endDoctype]

end

/-! ## (5) The states that overlook -/

end Machine

/-- **The states that overlook a U+0000**: behind a keyword or an identifier of a document type, where
the character read is not looked at again once the document type is given up. -/
def State.overlooksNull : State → Bool
  | .afterDoctypeKeyword _ | .beforeDoctypeIdentifier _ | .afterDoctypeIdentifier _
  | .betweenDoctypePublicAndSystemIdentifiers => true
  | _ => false

namespace Machine

/-- Whether the machine is about to overlook a U+0000: it stands in front of one, in one of those
states. -/
def overlooks (m : Machine) : Bool :=
  !m.ended && m.reference.isNone && m.state.overlooksNull && m.input.pending.head? == some '\x00'

section

variable {m k : Machine} {c : Char} (hread : m.nulls = m.advance.nulls + nullCount c)
include hread

theorem nulls_stepAfterDoctypeKeyword (kind : IdentifierKind) :
    (m.stepAfterDoctypeKeyword kind c).nulls + nullCount c = m.nulls := by
  cases kind <;>
    simp [stepAfterDoctypeKeyword, ErrorCode.missingWhitespaceAfterKeyword,
      ErrorCode.missingIdentifier, ErrorCode.missingQuote, hread]

theorem nulls_stepBeforeDoctypeIdentifier (kind : IdentifierKind) :
    (m.stepBeforeDoctypeIdentifier kind c).nulls + nullCount c = m.nulls := by
  cases kind <;>
    simp [stepBeforeDoctypeIdentifier, ErrorCode.missingIdentifier, ErrorCode.missingQuote, hread]

theorem nulls_stepAfterPublicIdentifier :
    (m.stepAfterPublicIdentifier c).nulls + nullCount c = m.nulls := by
  simp [stepAfterPublicIdentifier, hread]

theorem nulls_stepAfterSystemIdentifier :
    (m.stepAfterSystemIdentifier c).nulls + nullCount c = m.nulls := by
  simp [stepAfterSystemIdentifier, hread]

theorem nulls_stepBetweenIdentifiers :
    (m.stepBetweenIdentifiers c).nulls + nullCount c = m.nulls := by
  simp [stepBetweenIdentifiers, hread]

/-- **A step at a character** keeps the number, unless its state overlooks the character. -/
theorem nulls_stepChar (h : m.stepChar c = some k) :
    k.nulls + (if m.state.overlooksNull then nullCount c else 0) = m.nulls := by
  unfold stepChar at h
  cases hstate : m.state with
  | markupDeclarationOpen =>
    simp only [hstate] at h
    exact nulls_stepMarkupDeclarationOpen h
  | afterDoctypeName =>
    simp only [hstate] at h
    exact nulls_stepAfterDoctypeName hread h
  | afterDoctypeKeyword kind =>
    simp only [hstate, Option.some.injEq] at h
    exact h ▸ nulls_stepAfterDoctypeKeyword hread kind
  | beforeDoctypeIdentifier kind =>
    simp only [hstate, Option.some.injEq] at h
    exact h ▸ nulls_stepBeforeDoctypeIdentifier hread kind
  | afterDoctypeIdentifier kind =>
    cases kind with
    | publicId =>
      simp only [hstate, Option.some.injEq] at h
      exact h ▸ nulls_stepAfterPublicIdentifier hread
    | systemId =>
      simp only [hstate, Option.some.injEq] at h
      exact h ▸ nulls_stepAfterSystemIdentifier hread
  | betweenDoctypePublicAndSystemIdentifiers =>
    simp only [hstate, Option.some.injEq] at h
    exact h ▸ nulls_stepBetweenIdentifiers hread
  | doctypeIdentifierDoubleQuoted kind =>
    simp only [hstate, Option.some.injEq] at h
    exact h ▸ nulls_stepDoctypeIdentifier hread kind null_ne_doubleQuote
  | doctypeIdentifierSingleQuoted kind =>
    simp only [hstate, Option.some.injEq] at h
    exact h ▸ nulls_stepDoctypeIdentifier hread kind null_ne_singleQuote
  | _ =>
    -- the others report what they read
    simp only [hstate, Option.some.injEq] at h
    simp [State.overlooksNull, stepEscapeStartDash, stepDoubleEscapeEnd, ← h, nulls_stepData hread,
      nulls_stepPlaintext hread, nulls_stepRawData hread, nulls_stepRawLessThanSign hread,
      nulls_stepRawEndTagOpen hread, nulls_stepRawEndTagName hread, nulls_stepEscapeStart hread,
      nulls_escapeDash hread, nulls_escapeBoundary hread, nulls_stepEscapedDash hread,
      nulls_stepEscapedDashDash hread, nulls_stepTagOpen hread, nulls_stepEndTagOpen hread,
      nulls_stepTagName hread, nulls_stepBeforeAttributeName hread, nulls_stepAttributeName hread,
      nulls_stepAfterAttributeName hread, nulls_stepBeforeAttributeValue hread,
      nulls_stepAttributeValue hread, nulls_stepAfterAttributeValueQuoted hread,
      nulls_stepSelfClosingStartTag hread, nulls_stepCommentStart hread,
      nulls_stepCommentStartDash hread, nulls_stepCommentText hread,
      nulls_stepCommentEndDash hread, nulls_stepCommentEnd hread, nulls_stepCommentEndBang hread,
      nulls_stepBogusComment hread, nulls_stepDoctype hread, nulls_stepBeforeDoctypeName hread,
      nulls_stepDoctypeName hread, nulls_stepBogusDoctype hread]

omit hread

/-- **A step keeps the number** of the reports queued and the U+0000 still to be read, unless it
overlooks one. -/
theorem nulls_step (h : step .byChar m = some k) :
    k.nulls + (if m.overlooks then 1 else 0) = m.nulls := by
  unfold step at h
  by_cases hended : m.ended = true
  · rw [if_pos hended] at h
    cases h
  · rw [if_neg hended] at h
    rw [Bool.not_eq_true] at hended
    split at h
    · rename_i r c rest href hpending
      cases h
      have hoverlooks : m.overlooks = false := by simp [overlooks, href]
      rw [hoverlooks]
      exact nulls_stepReference (m.nulls_advance hpending) r
    · rename_i r href hpending
      have hoverlooks : m.overlooks = false := by simp [overlooks, href]
      rw [hoverlooks]
      split at h
      · cases h
        exact nulls_stepReference_none r
      · cases h
    · rename_i c rest href hpending
      rw [stepAt_byChar] at h
      have hkept := nulls_stepChar (m.nulls_advance hpending) h
      -- the state decides, and then the character
      have hoverlooks : (if m.overlooks then 1 else 0)
          = if m.state.overlooksNull then nullCount c else 0 := by
        by_cases hc : c = '\x00' <;> simp [overlooks, hended, href, hpending, hc]
      rw [hoverlooks]
      exact hkept
    · rename_i href hpending
      have hoverlooks : m.overlooks = false := by simp [overlooks, hpending]
      rw [hoverlooks]
      split at h
      · cases h
        exact m.nulls_stepEnd
      · cases h

end

/-! ## (6) Runs -/

/-- The machines that a run of at most `fuel` steps, one character each, makes its steps from. -/
def passes : Nat → Machine → List Machine
  | 0, _ => []
  | fuel + 1, m =>
    match step .byChar m with
    | none => []
    | some next => m :: passes fuel next

/-- **How many U+0000 a run overlooks.** -/
def overlooked (m : Machine) : Nat := (m.passes m.stepBound).countP overlooks

/-- What a run has neither reported nor left unread, it has overlooked. -/
theorem nulls_runFor (fuel : Nat) (m : Machine) :
    (runFor .byChar fuel m).nulls + (m.passes fuel).countP overlooks = m.nulls := by
  -- induction on the fuel; each step keeps the number or takes one from it
  induction fuel generalizing m with
  | zero => rfl
  | succ fuel ih =>
    rw [runFor, passes]
    cases hstep : step .byChar m with
    | none => rfl
    | some next =>
      have hfirst := nulls_step hstep
      have hrest := ih next
      simp only [List.countP_cons]
      omega

/-- The pace does not show at the end of a run. -/
theorem run_eq_byChar (m : Machine) : m.run = runFor .byChar m.stepBound m :=
  (eq_run_of_leads (leads_runFor .byChar m.stepBound m)
    (step_runFor .byChar (Nat.le_of_lt m.rank_lt_stepBound))).symm

theorem nulls_run (m : Machine) : m.run.nulls + m.overlooked = m.nulls := by
  rw [run_eq_byChar]
  exact nulls_runFor m.stepBound m

/-- **Behind the last byte**, each U+0000 that was still to be read has been reported or
overlooked. -/
theorem count_pending_eq {m : Machine} (hended : m.ended = false) (hfinished : m.input.finished = true)
    (hqueue : m.queue = #[]) :
    m.run.queue.toList.countP Token.isNullReport + m.overlooked = m.input.pending.count '\x00' := by
  have hpending : m.run.input.pending = [] :=
    pending_of_leads hended m.leads_run (ended_run hfinished)
  have hrun := m.nulls_run
  simpa [nulls, hpending, hqueue] using hrun

end Machine

end HtmlStream

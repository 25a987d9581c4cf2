import HtmlStream.Proofs.Lookahead
import HtmlStream.Proofs.Machine.Course

/-! # What a machine cannot see

A machine reads the front of its input and appends to its queue. It sees neither the tokens already
queued nor the characters behind those it reads nor how its decoder stands, so that a step it can make
is the same step in any surroundings.

* **`Surroundings`** and **`Machine.within`**: a machine put behind queued tokens and in front of more
  input.
* **`within_goto`, `within_report`, …**: each action is the same in any surroundings.
* **`within_stepData`, `within_stepTagOpen`, …**: so is each state.
* **`step_within`**: so is a step, if the machine is not at the end of its input or stays there. -/

namespace HtmlStream

/-- What may surround a machine. -/
structure Surroundings where
  /-- Tokens queued before. -/
  before : Array Token
  /-- Characters behind those that have arrived. -/
  behind : List Char
  /-- How the decoder stands. -/
  decoder : Decoder
  /-- No more bytes will come. -/
  finished : Bool

/-- The input in front of more input. -/
def Input.within (i : Input) (s : Surroundings) : Input :=
  { i with decoder := s.decoder, pending := i.pending ++ s.behind, finished := s.finished }

namespace Machine

/-- The machine in given surroundings. -/
def within (m : Machine) (s : Surroundings) : Machine :=
  { m with queue := s.before ++ m.queue, input := m.input.within s }

variable (m : Machine) (s : Surroundings)

/-! ## (1) Fields and choices -/

@[simp] theorem state_within : (m.within s).state = m.state := rfl

@[simp] theorem lastStartTag_within : (m.within s).lastStartTag = m.lastStartTag := rfl

@[simp] theorem text_within : (m.within s).text = m.text := rfl

@[simp] theorem reference_within : (m.within s).reference = m.reference := rfl

@[simp] theorem tag_within : (m.within s).tag = m.tag := rfl

@[simp] theorem currentAttribute_within :
    (m.within s).currentAttribute = m.currentAttribute := rfl

@[simp] theorem letters_within : (m.within s).letters = m.letters := rfl

@[simp] theorem ended_within : (m.within s).ended = m.ended := rfl

@[simp] theorem isAppropriateEndTag_within :
    (m.within s).isAppropriateEndTag = m.isAppropriateEndTag := rfl

@[simp] theorem within_ite (p : Prop) [Decidable p] (m m' : Machine) :
    (if p then m else m').within s = if p then m.within s else m'.within s :=
  apply_ite (·.within s) p m m'

/-! ## (2) Actions -/

@[simp] theorem within_goto (next : State) : (m.goto next).within s = (m.within s).goto next := by
  unfold goto
  split
  · rw [if_pos (by assumption)]
  · rw [if_neg (by assumption)]
    rfl

/-- What is read must have arrived. -/
@[simp] theorem within_advance {m : Machine} (h : m.input.pending ≠ []) :
    m.advance.within s = (m.within s).advance := by
  have htail : (m.input.pending ++ s.behind).tail = m.input.pending.tail ++ s.behind :=
    List.tail_append_of_ne_nil h
  simp only [advance, within, Input.advance, Input.within, htail]

@[simp] theorem within_skip {m : Machine} {n : Nat} (h : n ≤ m.input.pending.length) :
    (m.skip n).within s = (m.within s).skip n := by
  simp only [skip, within, Input.skip, Input.within, List.drop_append_of_le_length h]

@[simp] theorem within_putChar (c : Char) : (m.putChar c).within s = (m.within s).putChar c := rfl

@[simp] theorem within_putText (t : String) :
    (m.putText t).within s = (m.within s).putText t := rfl

@[simp] theorem within_enqueue (t : Token) :
    (m.enqueue t).within s = (m.within s).enqueue t := by
  simp only [enqueue, within, Array.append_push]

@[simp] theorem within_flush : m.flush.within s = (m.within s).flush := by
  unfold flush
  rw [within_ite, within_enqueue]
  rfl

@[simp] theorem within_emit (t : Token) : (m.emit t).within s = (m.within s).emit t := by
  rw [emit, within_enqueue, within_flush, emit]

@[simp] theorem within_report (code : ErrorCode) :
    (m.report code).within s = (m.within s).report code := by
  rw [report, within_emit]
  rfl

@[simp] theorem within_emitEnd : m.emitEnd.within s = (m.within s).emitEnd := by
  have hemit := within_emit m s .endOfInput
  unfold emitEnd
  rw [← hemit]
  rfl

@[simp] theorem within_openTag (kind : TagKind) (c : Char) :
    (m.openTag kind c).within s = (m.within s).openTag kind c := rfl

@[simp] theorem within_putTagName (c : Char) :
    (m.putTagName c).within s = (m.within s).putTagName c := rfl

@[simp] theorem within_dropAttribute : m.dropAttribute.within s = (m.within s).dropAttribute := rfl

@[simp] theorem within_closeAttribute : m.closeAttribute.within s = (m.within s).closeAttribute := by
  unfold closeAttribute
  rw [currentAttribute_within]
  cases m.currentAttribute with
  | none => rfl
  | some a =>
    simp only [within_ite, within_report, tag_within]
    rfl

@[simp] theorem within_openAttribute (c : Char) :
    (m.openAttribute c).within s = (m.within s).openAttribute c := by
  unfold openAttribute
  rw [← within_closeAttribute]
  rfl

@[simp] theorem within_putAttributeName (c : Char) :
    (m.putAttributeName c).within s = (m.within s).putAttributeName c := rfl

@[simp] theorem within_putAttributeValue (c : Char) :
    (m.putAttributeValue c).within s = (m.within s).putAttributeValue c := rfl

@[simp] theorem within_putAttributeText (t : String) :
    (m.putAttributeText t).within s = (m.within s).putAttributeText t := rfl

@[simp] theorem within_markSelfClosing :
    m.markSelfClosing.within s = (m.within s).markSelfClosing := rfl

@[simp] theorem within_reportTag (t : Tag) :
    (m.reportTag t).within s = (m.within s).reportTag t := by
  unfold reportTag
  cases t.kind with
  | opening => rfl
  | closing => simp only [within_ite, within_report]

@[simp] theorem within_resetTag : m.resetTag.within s = (m.within s).resetTag := rfl

@[simp] theorem within_emitTag : m.emitTag.within s = (m.within s).emitTag := by
  have htag : (m.within s).closeAttribute.tag = m.closeAttribute.tag := by
    rw [← within_closeAttribute, tag_within]
  simp [emitTag, htag]

@[simp] theorem within_putLetter (c : Char) :
    (m.putLetter c).within s = (m.within s).putLetter c := rfl

@[simp] theorem within_clearLetters : m.clearLetters.within s = (m.within s).clearLetters := rfl

@[simp] theorem within_putComment (c : Char) :
    (m.putComment c).within s = (m.within s).putComment c := rfl

@[simp] theorem within_putCommentText (t : String) :
    (m.putCommentText t).within s = (m.within s).putCommentText t := rfl

@[simp] theorem within_openComment (t : String) :
    (m.openComment t).within s = (m.within s).openComment t := rfl

@[simp] theorem within_emitComment : m.emitComment.within s = (m.within s).emitComment := by
  unfold emitComment
  rw [within_goto, within_emit]
  rfl

@[simp] theorem within_putDoctypeName (c : Char) :
    (m.putDoctypeName c).within s = (m.within s).putDoctypeName c := rfl

@[simp] theorem within_openIdentifier (kind : IdentifierKind) :
    (m.openIdentifier kind).within s = (m.within s).openIdentifier kind := by
  cases kind <;> rfl

@[simp] theorem within_putIdentifier (c : Char) (kind : IdentifierKind) :
    (m.putIdentifier c kind).within s = (m.within s).putIdentifier c kind := by
  cases kind <;> rfl

@[simp] theorem within_resetDoctype : m.resetDoctype.within s = (m.within s).resetDoctype := rfl

@[simp] theorem within_forceQuirks : m.forceQuirks.within s = (m.within s).forceQuirks := rfl

@[simp] theorem within_emitDoctype : m.emitDoctype.within s = (m.within s).emitDoctype := by
  unfold emitDoctype
  rw [within_goto, within_emit]
  rfl

@[simp] theorem within_beginReference :
    m.beginReference.within s = (m.within s).beginReference := rfl

@[simp] theorem within_keepReference (r : Reference) :
    (m.keepReference r).within s = (m.within s).keepReference r := rfl

@[simp] theorem within_closeReference (r : Reference) (t : String) :
    (m.closeReference r t).within s = (m.within s).closeReference r t := by
  unfold closeReference
  rw [within_ite]
  rfl

/-! ## (3) Text and raw text -/

@[simp] theorem within_replaceNull : m.replaceNull.within s = (m.within s).replaceNull := by
  rw [replaceNull, within_putChar, within_report, replaceNull]

@[simp] theorem within_escapedLessThan (kind : EscapeKind) :
    (m.escapedLessThan kind).within s = (m.within s).escapedLessThan kind := by
  cases kind <;> exact within_goto _ s _

@[simp] theorem within_putBackEndTag (kind : RawKind) :
    (m.putBackEndTag kind).within s = (m.within s).putBackEndTag kind := by
  rw [putBackEndTag, within_goto, within_putText, within_clearLetters]
  rfl

@[simp] theorem within_afterDashes (kind : EscapeKind) (c : Char) :
    (m.afterDashes kind c).within s = (m.within s).afterDashes kind c := by
  unfold afterDashes
  split <;> simp

variable {m}

@[simp] theorem within_stepData (h : m.input.pending ≠ []) (c : Char) :
    (m.stepData c).within s = (m.within s).stepData c := by
  unfold stepData
  split <;> simp [h]

@[simp] theorem within_stepPlaintext (h : m.input.pending ≠ []) (c : Char) :
    (m.stepPlaintext c).within s = (m.within s).stepPlaintext c := by
  unfold stepPlaintext
  split <;> simp [h]

@[simp] theorem within_stepRawData (h : m.input.pending ≠ []) (kind : RawKind) (c : Char) :
    (m.stepRawData kind c).within s = (m.within s).stepRawData kind c := by
  unfold stepRawData
  split <;> simp [h]

@[simp] theorem within_stepRawLessThanSign (h : m.input.pending ≠ []) (kind : RawKind) (c : Char) :
    (m.stepRawLessThanSign kind c).within s = (m.within s).stepRawLessThanSign kind c := by
  unfold stepRawLessThanSign
  split <;> simp [h]

@[simp] theorem within_stepRawEndTagOpen (h : m.input.pending ≠ []) (kind : RawKind) (c : Char) :
    (m.stepRawEndTagOpen kind c).within s = (m.within s).stepRawEndTagOpen kind c := by
  simp [stepRawEndTagOpen, h]

@[simp] theorem within_stepRawEndTagName (h : m.input.pending ≠ []) (kind : RawKind) (c : Char) :
    (m.stepRawEndTagName kind c).within s = (m.within s).stepRawEndTagName kind c := by
  simp [stepRawEndTagName, h]

@[simp] theorem within_escapeDash (h : m.input.pending ≠ []) (c : Char)
    (onDash otherwise : State) :
    (m.escapeDash c onDash otherwise).within s = (m.within s).escapeDash c onDash otherwise := by
  simp [escapeDash, h]

@[simp] theorem within_escapeBoundary (h : m.input.pending ≠ []) (c : Char)
    (onScript otherwise : EscapeKind) :
    (m.escapeBoundary c onScript otherwise).within s
      = (m.within s).escapeBoundary c onScript otherwise := by
  simp only [escapeBoundary, within_ite, within_goto, within_putChar, within_putLetter,
    within_advance s h]
  rfl

@[simp] theorem within_stepEscapeStart (h : m.input.pending ≠ []) (kind : EscapeKind) (c : Char) :
    (m.stepEscapeStart kind c).within s = (m.within s).stepEscapeStart kind c := by
  cases kind with
  | escaped => simp [stepEscapeStart, h]
  | doubleEscaped => simp [stepEscapeStart, h]

@[simp] theorem within_stepEscapeStartDash (h : m.input.pending ≠ []) (c : Char) :
    (m.stepEscapeStartDash c).within s = (m.within s).stepEscapeStartDash c := by
  simp [stepEscapeStartDash, h]

@[simp] theorem within_stepEscapedDash (h : m.input.pending ≠ []) (kind : EscapeKind) (c : Char) :
    (m.stepEscapedDash kind c).within s = (m.within s).stepEscapedDash kind c := by
  unfold stepEscapedDash
  split <;> simp [h]

@[simp] theorem within_stepEscapedDashDash (h : m.input.pending ≠ []) (kind : EscapeKind) (c : Char) :
    (m.stepEscapedDashDash kind c).within s = (m.within s).stepEscapedDashDash kind c := by
  unfold stepEscapedDashDash
  split <;> simp [h]

@[simp] theorem within_stepDoubleEscapeEnd (h : m.input.pending ≠ []) (c : Char) :
    (m.stepDoubleEscapeEnd c).within s = (m.within s).stepDoubleEscapeEnd c := by
  simp [stepDoubleEscapeEnd, h]

/-! ## (4) Tags -/

@[simp] theorem within_beginAttribute (m : Machine) (c : Char) :
    (m.beginAttribute c).within s = (m.within s).beginAttribute c := by
  simp [beginAttribute]

@[simp] theorem within_stepTagOpen (h : m.input.pending ≠ []) (c : Char) :
    (m.stepTagOpen c).within s = (m.within s).stepTagOpen c := by
  simp [stepTagOpen, h]

@[simp] theorem within_stepEndTagOpen (h : m.input.pending ≠ []) (c : Char) :
    (m.stepEndTagOpen c).within s = (m.within s).stepEndTagOpen c := by
  simp [stepEndTagOpen, h]

@[simp] theorem within_stepTagName (h : m.input.pending ≠ []) (c : Char) :
    (m.stepTagName c).within s = (m.within s).stepTagName c := by
  simp [stepTagName, h]

@[simp] theorem within_stepBeforeAttributeName (h : m.input.pending ≠ []) (c : Char) :
    (m.stepBeforeAttributeName c).within s = (m.within s).stepBeforeAttributeName c := by
  simp [stepBeforeAttributeName, h]

@[simp] theorem within_stepAttributeName (h : m.input.pending ≠ []) (c : Char) :
    (m.stepAttributeName c).within s = (m.within s).stepAttributeName c := by
  simp [stepAttributeName, h]

@[simp] theorem within_stepAfterAttributeName (h : m.input.pending ≠ []) (c : Char) :
    (m.stepAfterAttributeName c).within s = (m.within s).stepAfterAttributeName c := by
  simp [stepAfterAttributeName, h]

@[simp] theorem within_stepBeforeAttributeValue (h : m.input.pending ≠ []) (c : Char) :
    (m.stepBeforeAttributeValue c).within s = (m.within s).stepBeforeAttributeValue c := by
  simp [stepBeforeAttributeValue, h]

@[simp] theorem within_stepAttributeValue (h : m.input.pending ≠ []) (kind : QuoteKind) (c : Char) :
    (m.stepAttributeValue kind c).within s = (m.within s).stepAttributeValue kind c := by
  simp [stepAttributeValue, h]

@[simp] theorem within_stepAfterAttributeValueQuoted (h : m.input.pending ≠ []) (c : Char) :
    (m.stepAfterAttributeValueQuoted c).within s
      = (m.within s).stepAfterAttributeValueQuoted c := by
  simp [stepAfterAttributeValueQuoted, h]

@[simp] theorem within_stepSelfClosingStartTag (h : m.input.pending ≠ []) (c : Char) :
    (m.stepSelfClosingStartTag c).within s = (m.within s).stepSelfClosingStartTag c := by
  simp [stepSelfClosingStartTag, h]

/-! ## (5) Comments -/

@[simp] theorem within_putBackDashes (m : Machine) (c : Char) :
    (m.putBackDashes c).within s = (m.within s).putBackDashes c := by
  simp [putBackDashes]

@[simp] theorem within_putCommentChar (m : Machine) (c : Char) :
    (m.putCommentChar c).within s = (m.within s).putCommentChar c := by
  simp [putCommentChar]

@[simp] theorem within_stepBogusComment (h : m.input.pending ≠ []) (c : Char) :
    (m.stepBogusComment c).within s = (m.within s).stepBogusComment c := by
  simp [stepBogusComment, h]

@[simp] theorem within_stepCommentStart (h : m.input.pending ≠ []) (c : Char) :
    (m.stepCommentStart c).within s = (m.within s).stepCommentStart c := by
  simp [stepCommentStart, h]

@[simp] theorem within_stepCommentStartDash (h : m.input.pending ≠ []) (c : Char) :
    (m.stepCommentStartDash c).within s = (m.within s).stepCommentStartDash c := by
  simp [stepCommentStartDash, h]

@[simp] theorem within_stepCommentText (h : m.input.pending ≠ []) (c : Char) :
    (m.stepCommentText c).within s = (m.within s).stepCommentText c := by
  simp [stepCommentText, h]

@[simp] theorem within_stepCommentEndDash (h : m.input.pending ≠ []) (c : Char) :
    (m.stepCommentEndDash c).within s = (m.within s).stepCommentEndDash c := by
  simp [stepCommentEndDash, h]

@[simp] theorem within_stepCommentEnd (h : m.input.pending ≠ []) (c : Char) :
    (m.stepCommentEnd c).within s = (m.within s).stepCommentEnd c := by
  simp [stepCommentEnd, h]

@[simp] theorem within_stepCommentEndBang (h : m.input.pending ≠ []) (c : Char) :
    (m.stepCommentEndBang c).within s = (m.within s).stepCommentEndBang c := by
  simp [stepCommentEndBang, h]

/-! ## (6) Document types -/

@[simp] theorem within_beforeDoctypeName (m : Machine) (c : Char) :
    (m.beforeDoctypeName c).within s = (m.within s).beforeDoctypeName c := by
  simp [beforeDoctypeName]

@[simp] theorem within_abandonDoctype (m : Machine) (code : ErrorCode) :
    (m.abandonDoctype code).within s = (m.within s).abandonDoctype code := by
  simp [abandonDoctype]

@[simp] theorem within_cutDoctype (m : Machine) (code : ErrorCode) :
    (m.cutDoctype code).within s = (m.within s).cutDoctype code := by
  simp [cutDoctype]

@[simp] theorem within_beginIdentifier (m : Machine) (kind : IdentifierKind) (c : Char) :
    (m.beginIdentifier kind c).within s = (m.within s).beginIdentifier kind c := by
  simp [beginIdentifier]

@[simp] theorem within_stepDoctype (h : m.input.pending ≠ []) (c : Char) :
    (m.stepDoctype c).within s = (m.within s).stepDoctype c := by
  simp [stepDoctype, h]

@[simp] theorem within_stepBeforeDoctypeName (h : m.input.pending ≠ []) (c : Char) :
    (m.stepBeforeDoctypeName c).within s = (m.within s).stepBeforeDoctypeName c := by
  simp [stepBeforeDoctypeName, h]

@[simp] theorem within_stepDoctypeName (h : m.input.pending ≠ []) (c : Char) :
    (m.stepDoctypeName c).within s = (m.within s).stepDoctypeName c := by
  simp [stepDoctypeName, h]

@[simp] theorem within_stepAfterDoctypeKeyword (h : m.input.pending ≠ []) (kind : IdentifierKind)
    (c : Char) : (m.stepAfterDoctypeKeyword kind c).within s
      = (m.within s).stepAfterDoctypeKeyword kind c := by
  simp [stepAfterDoctypeKeyword, h]

@[simp] theorem within_stepBeforeDoctypeIdentifier (h : m.input.pending ≠ []) (kind : IdentifierKind)
    (c : Char) : (m.stepBeforeDoctypeIdentifier kind c).within s
      = (m.within s).stepBeforeDoctypeIdentifier kind c := by
  simp [stepBeforeDoctypeIdentifier, h]

@[simp] theorem within_stepDoctypeIdentifier (h : m.input.pending ≠ []) (kind : IdentifierKind)
    (quote c : Char) : (m.stepDoctypeIdentifier kind quote c).within s
      = (m.within s).stepDoctypeIdentifier kind quote c := by
  simp [stepDoctypeIdentifier, h]

@[simp] theorem within_stepAfterPublicIdentifier (h : m.input.pending ≠ []) (c : Char) :
    (m.stepAfterPublicIdentifier c).within s = (m.within s).stepAfterPublicIdentifier c := by
  simp [stepAfterPublicIdentifier, h]

@[simp] theorem within_stepAfterSystemIdentifier (h : m.input.pending ≠ []) (c : Char) :
    (m.stepAfterSystemIdentifier c).within s = (m.within s).stepAfterSystemIdentifier c := by
  simp [stepAfterSystemIdentifier, h]

@[simp] theorem within_stepBetweenIdentifiers (h : m.input.pending ≠ []) (c : Char) :
    (m.stepBetweenIdentifiers c).within s = (m.within s).stepBetweenIdentifiers c := by
  simp [stepBetweenIdentifiers, h]

@[simp] theorem within_stepBogusDoctype (h : m.input.pending ≠ []) (c : Char) :
    (m.stepBogusDoctype c).within s = (m.within s).stepBogusDoctype c := by
  simp [stepBogusDoctype, h]

/-! ## (7) Character references -/

@[simp] theorem within_closeLiteral (m : Machine) (r : Reference) :
    (m.closeLiteral r).within s = (m.within s).closeLiteral r := by
  simp [closeLiteral]

@[simp] theorem within_closeNumber (m : Machine) (r : Reference) :
    (m.closeNumber r).within s = (m.within s).closeNumber r := by
  have hreport : ∀ n, (m.reportNumber n).within s = (m.within s).reportNumber n := by
    intro n
    unfold reportNumber
    split <;> simp
  simp [closeNumber, hreport]

@[simp] theorem within_closeName (m : Machine) (r : Reference) (next : Option Char) :
    (m.closeName r next).within s = (m.within s).closeName r next := by
  simp only [closeName]
  cases Reference.longestMatch r.raw.toList <;> simp

/-- One step of a reference reads a character only if there is one. -/
@[simp] theorem within_stepReference (h : m.input.pending ≠ []) (r : Reference) (c : Char) :
    (m.stepReference r (some c)).within s = (m.within s).stepReference r (some c) := by
  have hend : ∀ next, (m.endDigits r next).within s = (m.within s).endDigits r next := by
    intro next
    simp [endDigits, h]
  unfold stepReference
  cases r.phase with
  | opened =>
    by_cases hc : c = '#'
    · simp [stepOpened, hc, h]
    · simp [stepOpened]
  | numeric => simp [stepNumeric, h]
  | digits hex =>
    simp only [stepDigits]
    cases Text.digitValue? (Reference.base hex) c <;> simp [hend, h]
  | named => simp [stepNamed, h]

/-! ## (8) Keywords -/

/-- The machine is not at the end of its input, or the surroundings add nothing there. -/
def Suits (m : Machine) (s : Surroundings) : Prop :=
  m.input.finished = true → s.behind = [] ∧ s.finished = true

variable {m m' : Machine} {s : Surroundings}

/-- A decided lookahead is the same in any surroundings. -/
theorem lookahead_within (hs : m.Suits s) {same : Char → Char → Bool} {keyword : String}
    (h : m.input.lookahead same keyword ≠ .undecided) :
    (m.within s).input.lookahead same keyword = m.input.lookahead same keyword :=
  Lookahead.compare_append hs h

theorem within_stepMarkupDeclarationOpen (hs : m.Suits s)
    (h : m.stepMarkupDeclarationOpen = some m') :
    (m.within s).stepMarkupDeclarationOpen = some (m'.within s) := by
  unfold stepMarkupDeclarationOpen at h ⊢
  -- a step was made, so each keyword up to the one found is decided and stays so in the surroundings
  cases hdash : m.input.lookahead sameChar "--" with
  | undecided => simp [hdash] at h
  | found =>
    have hlen : 2 ≤ m.input.pending.length := Lookahead.length_le_of_found hdash
    rw [lookahead_within hs (by simp [hdash]), hdash]
    simp only [hdash, Option.some.injEq] at h
    simp [← h, within_skip s hlen]
  | absent =>
    rw [lookahead_within hs (by simp [hdash]), hdash]
    simp only [hdash] at h ⊢
    cases hdoc : m.input.lookahead sameLetter "doctype" with
    | undecided => simp [hdoc] at h
    | found =>
      have hlen : 7 ≤ m.input.pending.length := Lookahead.length_le_of_found hdoc
      rw [lookahead_within hs (by simp [hdoc]), hdoc]
      simp only [hdoc, Option.some.injEq] at h
      simp [← h, within_skip s hlen]
    | absent =>
      rw [lookahead_within hs (by simp [hdoc]), hdoc]
      simp only [hdoc] at h ⊢
      cases hcdata : m.input.lookahead sameChar "[CDATA[" with
      | undecided => simp [hcdata] at h
      | found =>
        have hlen : 7 ≤ m.input.pending.length := Lookahead.length_le_of_found hcdata
        rw [lookahead_within hs (by simp [hcdata]), hcdata]
        -- here the error is queued before the keyword is skipped
        have hreport : 7 ≤ (m.report .cdataInHtmlContent).input.pending.length := by
          rw [input_report]
          exact hlen
        simp only [hcdata, Option.some.injEq] at h
        simp [← h, within_skip s hreport]
      | absent =>
        rw [lookahead_within hs (by simp [hcdata]), hcdata]
        simp only [hcdata, Option.some.injEq] at h
        simp [← h]

theorem within_stepAfterDoctypeName (hs : m.Suits s) (hne : m.input.pending ≠ []) {c : Char}
    (h : m.stepAfterDoctypeName c = some m') :
    (m.within s).stepAfterDoctypeName c = some (m'.within s) := by
  unfold stepAfterDoctypeName at h ⊢
  -- white space, the end of the declaration, then the two keywords in turn
  split
  · rw [if_pos (by assumption), Option.some.injEq] at h
    rw [← h, within_advance s hne]
  · rw [if_neg (by assumption)] at h
    split
    · rw [if_pos (by assumption), Option.some.injEq] at h
      rw [← h, within_emitDoctype, within_advance s hne]
    · rw [if_neg (by assumption)] at h
      cases hpublic : m.input.lookahead sameLetter "public" with
      | undecided => simp [hpublic] at h
      | found =>
        have hlen : 6 ≤ m.input.pending.length := Lookahead.length_le_of_found hpublic
        rw [lookahead_within hs (by simp [hpublic]), hpublic]
        simp only [hpublic, Option.some.injEq] at h
        simp [← h, within_skip s hlen]
      | absent =>
        rw [lookahead_within hs (by simp [hpublic]), hpublic]
        simp only [hpublic] at h ⊢
        cases hsystem : m.input.lookahead sameLetter "system" with
        | undecided => simp [hsystem] at h
        | found =>
          have hlen : 6 ≤ m.input.pending.length := Lookahead.length_le_of_found hsystem
          rw [lookahead_within hs (by simp [hsystem]), hsystem]
          simp only [hsystem, Option.some.injEq] at h
          simp [← h, within_skip s hlen]
        | absent =>
          rw [lookahead_within hs (by simp [hsystem]), hsystem]
          simp only [hsystem, Option.some.injEq] at h
          simp [← h]

/-! ## (9) Steps -/

/-- **The step at a character** is the same in any surroundings. -/
theorem stepChar_within (hs : m.Suits s) (hne : m.input.pending ≠ []) {c : Char}
    (h : m.stepChar c = some m') : (m.within s).stepChar c = some (m'.within s) := by
  unfold stepChar at h ⊢
  rw [state_within]
  -- only two states look further ahead than one character and may have to wait
  cases hstate : m.state with
  | markupDeclarationOpen =>
    simp only [hstate] at h
    exact within_stepMarkupDeclarationOpen hs h
  | afterDoctypeName =>
    simp only [hstate] at h
    exact within_stepAfterDoctypeName hs hne h
  | afterDoctypeIdentifier kind =>
    cases kind with
    | publicId =>
      simp only [hstate, Option.some.injEq] at h
      simp [← h, hne]
    | systemId =>
      simp only [hstate, Option.some.injEq] at h
      simp [← h, hne]
  | _ =>
    simp only [hstate, Option.some.injEq] at h
    simp [← h, hne]

/-- The step at the end of the input is the same in any surroundings. -/
theorem within_stepEnd (m : Machine) (s : Surroundings) :
    m.stepEnd.within s = (m.within s).stepEnd := by
  unfold stepEnd
  rw [state_within]
  split <;> simp [endDoctype]

/-- At the end of the input a reference reads nothing. -/
theorem within_stepReference_none (m : Machine) (s : Surroundings) (r : Reference) :
    (m.stepReference r none).within s = (m.within s).stepReference r none := by
  unfold stepReference
  cases r.phase with
  | opened => simp [stepOpened]
  | numeric => simp [stepNumeric]
  | digits hex => simp [stepDigits, endDigits]
  | named => simp [stepNamed]

/-- By character, no run is taken. -/
theorem stepAt_byChar (m : Machine) (c : Char) : stepAt .byChar m c = m.stepChar c := rfl

/-- **A step is the same in any surroundings** that add nothing at the end of the input. -/
theorem step_within (hs : m.Suits s) (h : step .byChar m = some m') :
    step .byChar (m.within s) = some (m'.within s) := by
  unfold step at h ⊢
  rw [ended_within, reference_within]
  by_cases hended : m.ended = true
  · simp [hended] at h
  · rw [if_neg hended] at h ⊢
    cases hpending : m.input.pending with
    | cons c rest =>
      -- the character read is the first one in the surroundings too
      have hne : m.input.pending ≠ [] := by simp [hpending]
      have hfront : (m.within s).input.pending = c :: (rest ++ s.behind) := by
        simp [within, Input.within, hpending]
      rw [hfront]
      cases href : m.reference with
      | some r =>
        simp only [href, hpending, Option.some.injEq] at h
        simp [← h, hne]
      | none =>
        simp only [href, hpending, stepAt_byChar] at h ⊢
        exact stepChar_within hs hne h
    | nil =>
      -- a step without a character is one at the end of the input, where nothing is added
      have hfinished : m.input.finished = true := by
        cases href : m.reference <;> simp_all
      obtain ⟨hbehind, hs⟩ := hs hfinished
      have hempty : (m.within s).input.pending = [] := by
        simp [within, Input.within, hpending, hbehind]
      have hstill : (m.within s).input.finished = true := hs
      rw [hempty]
      cases href : m.reference with
      | some r =>
        simp only [href, hpending, hfinished, if_true, Option.some.injEq] at h
        simp [← h, hstill, within_stepReference_none]
      | none =>
        simp only [href, hpending, hfinished, if_true, Option.some.injEq] at h
        simp [← h, hstill, within_stepEnd]

end Machine

end HtmlStream

import HtmlStream.Proofs.Machine.Runs

/-! # What a machine does not know of its past

A machine never looks at the tokens it has queued nor at its counters, except that the count of the
characters read goes into an error as its position. So a machine makes the same steps whatever it has
behind it, and the errors of a machine that began later are those of one that began at the start, moved
by the characters read before.

* **`Past`** and **`Machine.following`**: a machine that has something behind it.
* **`following_goto`, `following_report`, …**: each action is the same whatever is behind the machine.
* **`step_following`** and **`run_following`**: so are steps and runs. -/

namespace HtmlStream

/-- What a machine may have behind it. -/
structure Past where
  /-- Tokens queued. -/
  queued : Array Token
  /-- Characters read. -/
  consumed : Nat
  /-- Changes to another state. -/
  transitions : Nat
  /-- Tokens counted. -/
  tokens : Nat
  /-- Errors counted. -/
  errors : Nat

/-- The token of a machine that has read `n` more characters: errors say where they are. -/
def Token.moved (n : Nat) : Token → Token
  | .error e state => .error { e with position := n + e.position } state
  | t => t

namespace Machine

/-- The machine with a past behind it. -/
def following (m : Machine) (p : Past) : Machine :=
  { m with
    queue := p.queued ++ m.queue.map (Token.moved p.consumed)
    input := { m.input with consumed := p.consumed + m.input.consumed }
    transitions := p.transitions + m.transitions
    tokens := p.tokens + m.tokens
    errors := p.errors + m.errors }

variable (m : Machine) (p : Past)

/-! ## (1) Fields and choices -/

@[simp] theorem state_following : (m.following p).state = m.state := rfl

@[simp] theorem pending_following : (m.following p).input.pending = m.input.pending := rfl

@[simp] theorem finished_following : (m.following p).input.finished = m.input.finished := rfl

@[simp] theorem lookahead_following (same : Char → Char → Bool) (keyword : String) :
    (m.following p).input.lookahead same keyword = m.input.lookahead same keyword := rfl

@[simp] theorem reference_following : (m.following p).reference = m.reference := rfl

@[simp] theorem tag_following : (m.following p).tag = m.tag := rfl

@[simp] theorem currentAttribute_following :
    (m.following p).currentAttribute = m.currentAttribute := rfl

@[simp] theorem letters_following : (m.following p).letters = m.letters := rfl

@[simp] theorem ended_following : (m.following p).ended = m.ended := rfl

@[simp] theorem isAppropriateEndTag_following :
    (m.following p).isAppropriateEndTag = m.isAppropriateEndTag := rfl

@[simp] theorem following_ite (q : Prop) [Decidable q] (m m' : Machine) :
    (if q then m else m').following p = if q then m.following p else m'.following p :=
  apply_ite (·.following p) q m m'

/-! ## (2) Actions -/

@[simp] theorem following_goto (next : State) :
    (m.goto next).following p = (m.following p).goto next := by
  unfold goto
  split
  · rw [if_pos (by assumption)]
  · rw [if_neg (by assumption)]
    rfl

@[simp] theorem following_advance : m.advance.following p = (m.following p).advance := rfl

@[simp] theorem following_skip (n : Nat) : (m.skip n).following p = (m.following p).skip n := by
  simp only [skip, following, Input.skip, Nat.add_assoc]

@[simp] theorem following_putChar (c : Char) :
    (m.putChar c).following p = (m.following p).putChar c := rfl

@[simp] theorem following_putText (t : String) :
    (m.putText t).following p = (m.following p).putText t := rfl

/-- A token queued is moved with those before it. -/
theorem following_enqueue (t : Token) :
    (m.enqueue t).following p = (m.following p).enqueue (t.moved p.consumed) := by
  simp only [enqueue, following, Array.map_push, Array.append_push, Nat.add_assoc]

@[simp] theorem following_flush : m.flush.following p = (m.following p).flush := by
  unfold flush
  rw [following_ite, following_enqueue]
  rfl

theorem following_emit (t : Token) :
    (m.emit t).following p = (m.following p).emit (t.moved p.consumed) := by
  rw [emit, following_enqueue, following_flush, emit]

@[simp] theorem following_emit_nullCharacter :
    (m.emit .nullCharacter).following p = (m.following p).emit .nullCharacter :=
  m.following_emit p _

@[simp] theorem following_report (code : ErrorCode) :
    (m.report code).following p = (m.following p).report code := by
  rw [report, following_emit]
  rfl

@[simp] theorem following_emitEnd : m.emitEnd.following p = (m.following p).emitEnd := by
  have hemit := m.following_emit p .endOfInput
  unfold emitEnd
  rw [show (m.following p).emit .endOfInput = _ from hemit.symm]
  rfl

@[simp] theorem following_openTag (kind : TagKind) (c : Char) :
    (m.openTag kind c).following p = (m.following p).openTag kind c := rfl

@[simp] theorem following_putTagName (c : Char) :
    (m.putTagName c).following p = (m.following p).putTagName c := rfl

@[simp] theorem following_dropAttribute :
    m.dropAttribute.following p = (m.following p).dropAttribute := rfl

@[simp] theorem following_closeAttribute :
    m.closeAttribute.following p = (m.following p).closeAttribute := by
  unfold closeAttribute
  rw [currentAttribute_following]
  cases m.currentAttribute with
  | none => rfl
  | some a =>
    simp only [following_ite, following_report, tag_following]
    rfl

@[simp] theorem following_openAttribute (c : Char) :
    (m.openAttribute c).following p = (m.following p).openAttribute c := by
  unfold openAttribute
  rw [← following_closeAttribute]
  rfl

@[simp] theorem following_putAttributeName (c : Char) :
    (m.putAttributeName c).following p = (m.following p).putAttributeName c := rfl

@[simp] theorem following_putAttributeValue (c : Char) :
    (m.putAttributeValue c).following p = (m.following p).putAttributeValue c := rfl

@[simp] theorem following_markSelfClosing :
    m.markSelfClosing.following p = (m.following p).markSelfClosing := rfl

@[simp] theorem following_reportTag (t : Tag) :
    (m.reportTag t).following p = (m.following p).reportTag t := by
  unfold reportTag
  cases t.kind with
  | opening => rfl
  | closing => simp only [following_ite, following_report]

@[simp] theorem following_resetTag : m.resetTag.following p = (m.following p).resetTag := rfl

@[simp] theorem following_emitTag : m.emitTag.following p = (m.following p).emitTag := by
  have htag : (m.following p).closeAttribute.tag = m.closeAttribute.tag := by
    rw [← following_closeAttribute, tag_following]
  simp only [emitTag, following_goto, following_emit, following_reportTag, following_resetTag,
    following_closeAttribute, htag]
  rfl

@[simp] theorem following_putLetter (c : Char) :
    (m.putLetter c).following p = (m.following p).putLetter c := rfl

@[simp] theorem following_clearLetters :
    m.clearLetters.following p = (m.following p).clearLetters := rfl

@[simp] theorem following_putComment (c : Char) :
    (m.putComment c).following p = (m.following p).putComment c := rfl

@[simp] theorem following_putCommentText (t : String) :
    (m.putCommentText t).following p = (m.following p).putCommentText t := rfl

@[simp] theorem following_openComment (t : String) :
    (m.openComment t).following p = (m.following p).openComment t := rfl

@[simp] theorem following_emitComment :
    m.emitComment.following p = (m.following p).emitComment := by
  rw [emitComment, following_goto, following_emit]
  rfl

@[simp] theorem following_putDoctypeName (c : Char) :
    (m.putDoctypeName c).following p = (m.following p).putDoctypeName c := rfl

@[simp] theorem following_openIdentifier (kind : IdentifierKind) :
    (m.openIdentifier kind).following p = (m.following p).openIdentifier kind := by
  cases kind <;> rfl

@[simp] theorem following_putIdentifier (c : Char) (kind : IdentifierKind) :
    (m.putIdentifier c kind).following p = (m.following p).putIdentifier c kind := by
  cases kind <;> rfl

@[simp] theorem following_resetDoctype :
    m.resetDoctype.following p = (m.following p).resetDoctype := rfl

@[simp] theorem following_forceQuirks :
    m.forceQuirks.following p = (m.following p).forceQuirks := rfl

@[simp] theorem following_emitDoctype :
    m.emitDoctype.following p = (m.following p).emitDoctype := by
  rw [emitDoctype, following_goto, following_emit]
  rfl

@[simp] theorem following_beginReference :
    m.beginReference.following p = (m.following p).beginReference := rfl

@[simp] theorem following_keepReference (r : Reference) :
    (m.keepReference r).following p = (m.following p).keepReference r := rfl

@[simp] theorem following_closeReference (r : Reference) (t : String) :
    (m.closeReference r t).following p = (m.following p).closeReference r t := by
  unfold closeReference
  rw [following_ite]
  rfl

@[simp] theorem following_reportNumber (n : Nat) :
    (m.reportNumber n).following p = (m.following p).reportNumber n := by
  unfold reportNumber
  split <;> simp

/-! ## (3) States -/

theorem following_stepData (c : Char) :
    (m.stepData c).following p = (m.following p).stepData c := by
  unfold stepData
  split <;> simp

theorem following_stepPlaintext (c : Char) :
    (m.stepPlaintext c).following p = (m.following p).stepPlaintext c := by
  unfold stepPlaintext
  split <;> simp [replaceNull]

theorem following_escapedLessThan (kind : EscapeKind) :
    (m.escapedLessThan kind).following p = (m.following p).escapedLessThan kind := by
  cases kind <;> exact following_goto _ p _

theorem following_stepRawData (kind : RawKind) (c : Char) :
    (m.stepRawData kind c).following p = (m.following p).stepRawData kind c := by
  unfold stepRawData
  split <;> simp [replaceNull, following_escapedLessThan]

theorem following_stepRawLessThanSign (kind : RawKind) (c : Char) :
    (m.stepRawLessThanSign kind c).following p = (m.following p).stepRawLessThanSign kind c := by
  unfold stepRawLessThanSign
  split <;> simp

@[simp] theorem following_escapeBoundary (c : Char) (onScript otherwise : EscapeKind) :
    (m.escapeBoundary c onScript otherwise).following p
      = (m.following p).escapeBoundary c onScript otherwise := by
  simp only [escapeBoundary, following_ite, following_goto, following_putChar, following_putLetter,
    following_advance]
  rfl

theorem following_stepEscapeStart (kind : EscapeKind) (c : Char) :
    (m.stepEscapeStart kind c).following p = (m.following p).stepEscapeStart kind c := by
  cases kind <;> simp [stepEscapeStart, escapeDash]

theorem following_afterDashes (kind : EscapeKind) (c : Char) :
    (m.afterDashes kind c).following p = (m.following p).afterDashes kind c := by
  unfold afterDashes
  split <;> simp [replaceNull, following_escapedLessThan]

theorem following_stepEscapedDash (kind : EscapeKind) (c : Char) :
    (m.stepEscapedDash kind c).following p = (m.following p).stepEscapedDash kind c := by
  unfold stepEscapedDash
  split <;> simp [following_afterDashes]

theorem following_stepEscapedDashDash (kind : EscapeKind) (c : Char) :
    (m.stepEscapedDashDash kind c).following p = (m.following p).stepEscapedDashDash kind c := by
  unfold stepEscapedDashDash
  split <;> simp [following_afterDashes]

@[simp] theorem following_putBackDashes (c : Char) :
    (m.putBackDashes c).following p = (m.following p).putBackDashes c := by
  simp [putBackDashes]

@[simp] theorem following_putCommentChar (c : Char) :
    (m.putCommentChar c).following p = (m.following p).putCommentChar c := by
  simp [putCommentChar]

theorem following_stepMarkupDeclarationOpen :
    m.stepMarkupDeclarationOpen.map (·.following p) = (m.following p).stepMarkupDeclarationOpen := by
  simp only [stepMarkupDeclarationOpen, lookahead_following]
  repeat' split
  all_goals simp

theorem following_stepAfterDoctypeName (c : Char) :
    (m.stepAfterDoctypeName c).map (·.following p) = (m.following p).stepAfterDoctypeName c := by
  simp only [stepAfterDoctypeName, lookahead_following]
  repeat' split
  all_goals simp [abandonDoctype]

/-- **The step at a character** is the same whatever is behind the machine. -/
theorem following_stepChar (c : Char) :
    (m.stepChar c).map (·.following p) = (m.following p).stepChar c := by
  unfold stepChar
  rw [state_following]
  cases m.state with
  | markupDeclarationOpen => exact m.following_stepMarkupDeclarationOpen p
  | afterDoctypeName => exact m.following_stepAfterDoctypeName p c
  | data => exact congrArg some (m.following_stepData p c)
  | plaintext => exact congrArg some (m.following_stepPlaintext p c)
  | rawData kind => exact congrArg some (m.following_stepRawData p kind c)
  | rawLessThanSign kind => exact congrArg some (m.following_stepRawLessThanSign p kind c)
  | scriptDataEscapeStart kind => exact congrArg some (m.following_stepEscapeStart p kind c)
  | scriptDataEscapedDash kind => exact congrArg some (m.following_stepEscapedDash p kind c)
  | scriptDataEscapedDashDash kind => exact congrArg some (m.following_stepEscapedDashDash p kind c)
  | afterDoctypeIdentifier kind =>
    cases kind <;>
      simp [stepAfterPublicIdentifier, stepAfterSystemIdentifier, abandonDoctype, beginIdentifier]
  | _ =>
    simp [stepRawEndTagOpen, stepRawEndTagName, putBackEndTag, stepEscapeStartDash, escapeDash,
      stepDoubleEscapeEnd, stepTagOpen, stepEndTagOpen, stepTagName,
      stepBeforeAttributeName, beginAttribute, stepAttributeName, stepAfterAttributeName,
      stepBeforeAttributeValue, stepAttributeValue, stepAfterAttributeValueQuoted,
      stepSelfClosingStartTag, stepCommentStart, stepCommentStartDash, stepCommentText,
      stepCommentEndDash, stepCommentEnd, stepCommentEndBang, stepBogusComment, stepDoctype,
      stepBeforeDoctypeName, beforeDoctypeName, stepDoctypeName, stepAfterDoctypeKeyword, cutDoctype,
      abandonDoctype, beginIdentifier, stepBeforeDoctypeIdentifier, stepDoctypeIdentifier,
      stepBetweenIdentifiers, stepBogusDoctype]

@[simp] theorem following_closeLiteral (r : Reference) :
    (m.closeLiteral r).following p = (m.following p).closeLiteral r := by
  simp [closeLiteral]

@[simp] theorem following_closeName (r : Reference) (next : Option Char) :
    (m.closeName r next).following p = (m.following p).closeName r next := by
  simp only [closeName]
  cases Reference.longestMatch r.raw.toList <;> simp

/-- So is a step of a reference. -/
theorem following_stepReference (r : Reference) (next : Option Char) :
    (m.stepReference r next).following p = (m.following p).stepReference r next := by
  have hend : (m.endDigits r next).following p = (m.following p).endDigits r next := by
    simp [endDigits, closeNumber]
  unfold stepReference
  cases r.phase with
  | opened =>
    cases next with
    | none => simp [stepOpened]
    | some c => by_cases hc : c = '#' <;> simp [stepOpened, hc]
  | numeric => cases next <;> simp [stepNumeric]
  | digits hex =>
    cases next with
    | none => exact hend
    | some c =>
      simp only [stepDigits]
      cases Text.digitValue? (Reference.base hex) c <;> simp [hend]
  | named => cases next <;> simp [stepNamed]

/-- So is the step at the end of the input. -/
theorem following_stepEnd : m.stepEnd.following p = (m.following p).stepEnd := by
  unfold stepEnd
  rw [state_following]
  split <;> simp [endDoctype, putBackEndTag]

/-! ## (4) Steps and runs -/

variable {m} {k : Machine}

/-- **A step is the same** whatever is behind the machine. -/
theorem step_following : step .byChar (m.following p) = (step .byChar m).map (·.following p) := by
  unfold step
  rw [ended_following, reference_following, pending_following, finished_following]
  split
  · rfl
  · split
    · exact congrArg some (m.following_stepReference p _ _).symm
    · split
      · exact congrArg some (m.following_stepReference p _ _).symm
      · rfl
    · exact (m.following_stepChar p _).symm
    · split
      · exact congrArg some (m.following_stepEnd p).symm
      · rfl

/-- So is a chain of steps. -/
theorem leads_following (h : m.Leads k) : (m.following p).Leads (k.following p) := by
  induction h with
  | refl => exact Relation.ReflTransGen.refl
  | @tail k k' _ hstep ih =>
    refine Relation.ReflTransGen.tail ih ?_
    rw [step_following, Option.mem_def.mp hstep]
    rfl

/-- **So is a run.** -/
theorem run_following : (m.following p).run = m.run.following p := by
  refine (eq_run_of_leads (leads_following p m.leads_run) ?_).symm
  rw [step_following, step_eq_none_of_byRun m.step_run]
  rfl

end Machine

end HtmlStream

import HtmlStream.Proofs.Machine.Acts
import HtmlStream.Proofs.Machine.Reports

/-! # Tags and document types in the queue

Only the states of a tag queue tags, and only those of a document type queue document types. In all other
states a step leaves both as they are.

* **`Marks`** and **`Machine.marks`**: the tags and the document types in the queue; one equation for each
  action.
* **`State.insideDoctype`**: behind the keyword of a document type.
* **`doctypes_of_step`**: steps in other states queue no document types. -/

namespace HtmlStream

/-! ## (1) Marks -/

/-- The tags and the document types among tokens. -/
structure Marks where
  /-- The tags. -/
  tags : List Tag
  /-- The document types. -/
  doctypes : List Doctype

/-- One token more. -/
def Marks.add (s : Marks) : Token → Marks
  | .tag t => { s with tags := s.tags ++ [t] }
  | .doctype d => { s with doctypes := s.doctypes ++ [d] }
  | _ => s

/-- The tag that a token is. -/
def Token.tag? : Token → Option Tag
  | .tag t => some t
  | _ => none

/-- The document type that a token is. -/
def Token.doctype? : Token → Option Doctype
  | .doctype d => some d
  | _ => none

namespace Machine

/-- The tags and the document types in the queue. -/
def marks (m : Machine) : Marks :=
  ⟨m.queue.toList.filterMap Token.tag?, m.queue.toList.filterMap Token.doctype?⟩

variable (m : Machine)

/-- Text held back is neither. -/
@[simp] theorem marks_emit (t : Token) : (m.emit t).marks = m.marks.add t := by
  have htags : m.heldBack.filterMap Token.tag? = [] := by
    unfold heldBack textTokens
    split <;> rfl
  have hdoctypes : m.heldBack.filterMap Token.doctype? = [] := by
    unfold heldBack textTokens
    split <;> rfl
  simp only [marks, toList_queue_emit, List.filterMap_append, htags, hdoctypes, List.nil_append]
  cases t <;> simp [Marks.add, Token.tag?, Token.doctype?]

@[simp] theorem marks_report (code : ErrorCode) : (m.report code).marks = m.marks := marks_emit _ _

@[simp] theorem marks_emitEnd : m.emitEnd.marks = m.marks := marks_emit _ _

@[simp] theorem marks_goto (next : State) : (m.goto next).marks = m.marks := by
  unfold goto
  split <;> rfl

@[simp] theorem marks_advance : m.advance.marks = m.marks := rfl

@[simp] theorem marks_skip (n : Nat) : (m.skip n).marks = m.marks := rfl

@[simp] theorem marks_putChar (c : Char) : (m.putChar c).marks = m.marks := rfl

@[simp] theorem marks_putText (s : String) : (m.putText s).marks = m.marks := rfl

@[simp] theorem marks_openTag (kind : TagKind) (c : Char) : (m.openTag kind c).marks = m.marks := rfl

@[simp] theorem marks_putTagName (c : Char) : (m.putTagName c).marks = m.marks := rfl

@[simp] theorem marks_dropAttribute : m.dropAttribute.marks = m.marks := rfl

@[simp] theorem marks_closeAttribute : m.closeAttribute.marks = m.marks := by
  unfold closeAttribute
  split
  · rfl
  · split
    · exact marks_report _ _
    · rfl

@[simp] theorem marks_openAttribute (c : Char) : (m.openAttribute c).marks = m.marks :=
  m.marks_closeAttribute

@[simp] theorem marks_putAttributeName (c : Char) : (m.putAttributeName c).marks = m.marks := rfl

@[simp] theorem marks_putAttributeValue (c : Char) : (m.putAttributeValue c).marks = m.marks := rfl

@[simp] theorem marks_markSelfClosing : m.markSelfClosing.marks = m.marks := rfl

@[simp] theorem marks_resetTag : m.resetTag.marks = m.marks := rfl

@[simp] theorem marks_reportTag (t : Tag) : (m.reportTag t).marks = m.marks := by
  unfold reportTag
  cases t.kind with
  | opening => rfl
  | closing => cases t.attributes.isEmpty <;> cases t.selfClosing <;> simp

@[simp] theorem marks_emitTag : m.emitTag.marks = m.marks.add (.tag m.closeAttribute.tag) := by
  simp [emitTag]

@[simp] theorem marks_putLetter (c : Char) : (m.putLetter c).marks = m.marks := rfl

@[simp] theorem marks_clearLetters : m.clearLetters.marks = m.marks := rfl

@[simp] theorem marks_putComment (c : Char) : (m.putComment c).marks = m.marks := rfl

@[simp] theorem marks_putCommentText (s : String) : (m.putCommentText s).marks = m.marks := rfl

@[simp] theorem marks_openComment (s : String) : (m.openComment s).marks = m.marks := rfl

@[simp] theorem marks_emitComment : m.emitComment.marks = m.marks := by
  simp [emitComment, Marks.add]

@[simp] theorem marks_putDoctypeName (c : Char) : (m.putDoctypeName c).marks = m.marks := rfl

@[simp] theorem marks_openIdentifier (kind : IdentifierKind) :
    (m.openIdentifier kind).marks = m.marks := by
  cases kind <;> rfl

@[simp] theorem marks_putIdentifier (c : Char) (kind : IdentifierKind) :
    (m.putIdentifier c kind).marks = m.marks := by
  cases kind <;> rfl

@[simp] theorem marks_resetDoctype : m.resetDoctype.marks = m.marks := rfl

@[simp] theorem marks_forceQuirks : m.forceQuirks.marks = m.marks := rfl

@[simp] theorem marks_emitDoctype : m.emitDoctype.marks = m.marks.add (.doctype m.doctype) := by
  simp [emitDoctype]

@[simp] theorem marks_beginReference : m.beginReference.marks = m.marks := rfl

@[simp] theorem marks_keepReference (r : Reference) : (m.keepReference r).marks = m.marks := rfl

@[simp] theorem marks_closeReference (r : Reference) (s : String) :
    (m.closeReference r s).marks = m.marks := by
  unfold closeReference
  cases r.inAttribute <;> rfl

@[simp] theorem marks_closeLiteral (r : Reference) : (m.closeLiteral r).marks = m.marks :=
  m.marks_closeReference r _

@[simp] theorem marks_closeNumber (r : Reference) : (m.closeNumber r).marks = m.marks := by
  unfold closeNumber reportNumber
  split <;> simp

@[simp] theorem marks_closeName (r : Reference) (next : Option Char) :
    (m.closeName r next).marks = m.marks := by
  simp only [closeName]
  repeat' split
  all_goals simp

/-- **A reference is neither.** -/
@[simp] theorem marks_stepReference (r : Reference) (next : Option Char) :
    (m.stepReference r next).marks = m.marks := by
  unfold stepReference
  cases r.phase with
  | opened =>
    simp only [stepOpened]
    repeat' split
    all_goals simp
  | numeric =>
    simp only [stepNumeric]
    repeat' split
    all_goals simp
  | digits hex =>
    simp only [stepDigits, endDigits]
    repeat' split
    all_goals simp
  | named =>
    simp only [stepNamed]
    repeat' split
    all_goals simp

end Machine

/-! ## (2) Where they are queued -/

/-- Whether the state is behind the keyword of a document type, and has read a character since. -/
def State.insideDoctype : State → Bool
  | .beforeDoctypeName | .doctypeName | .afterDoctypeName | .afterDoctypeKeyword _
  | .beforeDoctypeIdentifier _ | .doctypeIdentifierDoubleQuoted _
  | .doctypeIdentifierSingleQuoted _ | .afterDoctypeIdentifier _
  | .betweenDoctypePublicAndSystemIdentifiers | .bogusDoctype => true
  | _ => false

namespace Machine

variable {m k : Machine} {c : Char}

theorem state_eq_course (m : Machine) : m.state = m.course.state := rfl

/-- **A step** goes on with the reference under construction, reads a character, or finds the end of the
input. -/
theorem step_cases (h : step .byChar m = some k) :
    (∃ r next, m.reference = some r ∧ k = m.stepReference r next) ∨
    (m.reference = none ∧ ∃ c cs, m.input.pending = c :: cs ∧ m.stepChar c = some k) ∨
    (m.reference = none ∧ m.input.pending = [] ∧ k = m.stepEnd) := by
  unfold step at h
  split at h
  · cases h
  · split at h
    · rename_i r c cs href hpending
      cases h
      exact .inl ⟨r, some c, href, rfl⟩
    · rename_i r href hpending
      split at h
      · cases h
        exact .inl ⟨r, none, href, rfl⟩
      · cases h
    · rename_i c cs href hpending
      exact .inr (.inl ⟨href, c, cs, hpending, h⟩)
    · rename_i href hpending
      split at h
      · cases h
        exact .inr (.inr ⟨href, hpending, rfl⟩)
      · cases h

section

variable (hdoctype : m.state ≠ .doctype) (hinside : m.state.insideDoctype = false)
include hdoctype hinside

theorem doctypes_stepChar (hk : m.stepChar c = some k) :
    k.marks.doctypes = m.marks.doctypes ∧ k.state.insideDoctype = false := by
  unfold stepChar at hk
  cases hstate : m.state <;> simp only [hstate, Option.some.injEq] at hk
  case doctype => exact absurd hstate hdoctype
  case markupDeclarationOpen =>
    unfold stepMarkupDeclarationOpen at hk
    repeat' split at hk
    all_goals cases hk
    all_goals simp [state_eq_course, State.insideDoctype]
  -- the other states of a document type are excluded
  all_goals try (rw [hstate] at hinside; cases hinside; done)
  all_goals
    subst hk
    rw [state_eq_course] at hstate ⊢
    simp only [stepData, stepPlaintext, stepRawData, stepRawLessThanSign, stepRawEndTagOpen,
      stepRawEndTagName, putBackEndTag, stepEscapeStart, stepEscapeStartDash, stepEscapedDash,
      stepEscapedDashDash, stepDoubleEscapeEnd, escapeDash, escapeBoundary, afterDashes,
      escapedLessThan, replaceNull, stepTagOpen, stepEndTagOpen, stepTagName,
      stepBeforeAttributeName, stepAttributeName, stepAfterAttributeName, stepBeforeAttributeValue,
      stepAttributeValue, stepAfterAttributeValueQuoted, stepSelfClosingStartTag, beginAttribute,
      stepBogusComment, stepCommentStart, stepCommentStartDash, stepCommentText, stepCommentEndDash,
      stepCommentEnd, stepCommentEndBang, putCommentChar, putBackDashes]
    repeat' split
    all_goals simp [hstate, Marks.add, State.insideDoctype]

theorem doctypes_stepEnd :
    m.stepEnd.marks.doctypes = m.marks.doctypes ∧ m.stepEnd.state.insideDoctype = false := by
  unfold stepEnd
  cases hstate : m.state
  case doctype => exact absurd hstate hdoctype
  all_goals try (rw [hstate] at hinside; cases hinside; done)
  all_goals
    rw [state_eq_course] at hstate ⊢
    simp only [putBackEndTag]
    repeat' split
    all_goals simp_all [State.insideDoctype]

/-- **Outside document types** a step queues none, and goes no further than behind the keyword of one. -/
theorem doctypes_of_step (h : step .byChar m = some k) :
    k.marks.doctypes = m.marks.doctypes ∧ k.state.insideDoctype = false := by
  rcases step_cases h with ⟨r, next, -, rfl⟩ | ⟨-, c, cs, -, hchar⟩ | ⟨-, -, rfl⟩
  · rw [marks_stepReference,
      show (m.stepReference r next).state = m.state from (course_stepReference m r next).1]
    exact ⟨rfl, hinside⟩
  · exact doctypes_stepChar hdoctype hinside hchar
  · exact doctypes_stepEnd hdoctype hinside

end

end Machine

end HtmlStream

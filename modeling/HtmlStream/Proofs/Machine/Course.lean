import HtmlStream.Machine.Run

/-! # The course of a machine

Where a machine goes on from is decided by its state, its input, the reference under construction and
whether it has ended: its course. Most actions leave the course alone; the others change one part of
it. With one equation for each action, `simp` computes where a composition of actions leads.

* **`Course`** and **`Machine.course`**: the four parts.
* **`course_goto`, `course_report`, …**: what each action does to them. -/

namespace HtmlStream

/-- What decides how a machine goes on. -/
structure Course where
  /-- Its place in the markup. -/
  state : State
  /-- Its input. -/
  input : Input
  /-- The character reference under construction. -/
  reference : Option Reference
  /-- The end of the input has been queued. -/
  ended : Bool

namespace Machine

/-- The course of a machine. -/
def course (m : Machine) : Course := ⟨m.state, m.input, m.reference, m.ended⟩

variable (m : Machine)

@[simp] theorem course_ite (p : Prop) [Decidable p] (m m' : Machine) :
    (if p then m else m').course = if p then m.course else m'.course :=
  apply_ite course p m m'

/-! ## (1) Moving -/

@[simp] theorem course_goto (next : State) :
    (m.goto next).course = { m.course with state := next } := by
  unfold goto
  split
  · rename_i h
    rw [← h]
    rfl
  · rfl

@[simp] theorem course_advance :
    m.advance.course = { m.course with input := m.course.input.advance } := rfl

@[simp] theorem course_skip (n : Nat) :
    (m.skip n).course = { m.course with input := m.course.input.skip n } := rfl

/-! ## (2) Text and tokens -/

@[simp] theorem course_putChar (c : Char) : (m.putChar c).course = m.course := rfl

@[simp] theorem course_putText (t : String) : (m.putText t).course = m.course := rfl

@[simp] theorem course_flush : m.flush.course = m.course := by
  unfold flush
  split <;> rfl

@[simp] theorem course_emit (t : Token) : (m.emit t).course = m.course := m.course_flush

@[simp] theorem course_report (code : ErrorCode) : (m.report code).course = m.course :=
  course_flush _

theorem input_report (code : ErrorCode) : (m.report code).input = m.input :=
  congrArg Course.input (m.course_report code)

@[simp] theorem course_emitEnd : m.emitEnd.course = { m.course with ended := true } := by
  have hemit := m.course_emit .endOfInput
  simp only [course, Course.mk.injEq] at hemit ⊢
  exact ⟨hemit.1, hemit.2.1, hemit.2.2.1, rfl⟩

/-! ## (3) Tags -/

@[simp] theorem course_openTag (kind : TagKind) (c : Char) :
    (m.openTag kind c).course = m.course := rfl

@[simp] theorem course_putTagName (c : Char) : (m.putTagName c).course = m.course := rfl

@[simp] theorem course_dropAttribute : m.dropAttribute.course = m.course := rfl

@[simp] theorem course_closeAttribute : m.closeAttribute.course = m.course := by
  unfold closeAttribute
  split
  · rfl
  · split
    · exact course_report _ _
    · rfl

@[simp] theorem course_openAttribute (c : Char) : (m.openAttribute c).course = m.course :=
  m.course_closeAttribute

@[simp] theorem course_putAttributeName (c : Char) :
    (m.putAttributeName c).course = m.course := rfl

@[simp] theorem course_putAttributeValue (c : Char) :
    (m.putAttributeValue c).course = m.course := rfl

@[simp] theorem course_markSelfClosing : m.markSelfClosing.course = m.course := rfl

@[simp] theorem course_reportTag (t : Tag) : (m.reportTag t).course = m.course := by
  unfold reportTag
  cases t.kind with
  | opening => rfl
  | closing => cases t.attributes.isEmpty <;> cases t.selfClosing <;> simp

@[simp] theorem course_resetTag : m.resetTag.course = m.course := rfl

@[simp] theorem course_emitTag : m.emitTag.course = { m.course with state := .data } := by
  simp [emitTag]

@[simp] theorem course_putLetter (c : Char) : (m.putLetter c).course = m.course := rfl

@[simp] theorem course_clearLetters : m.clearLetters.course = m.course := rfl

/-! ## (4) Comments and document types -/

@[simp] theorem course_putComment (c : Char) : (m.putComment c).course = m.course := rfl

@[simp] theorem course_putCommentText (t : String) :
    (m.putCommentText t).course = m.course := rfl

@[simp] theorem course_openComment (t : String) : (m.openComment t).course = m.course := rfl

@[simp] theorem course_emitComment :
    m.emitComment.course = { m.course with state := .data } := by
  rw [emitComment, course_goto, course_emit]
  rfl

@[simp] theorem course_putDoctypeName (c : Char) : (m.putDoctypeName c).course = m.course := rfl

@[simp] theorem course_openIdentifier (kind : IdentifierKind) :
    (m.openIdentifier kind).course = m.course := by
  cases kind <;> rfl

@[simp] theorem course_putIdentifier (c : Char) (kind : IdentifierKind) :
    (m.putIdentifier c kind).course = m.course := by
  cases kind <;> rfl

@[simp] theorem course_resetDoctype : m.resetDoctype.course = m.course := rfl

@[simp] theorem course_forceQuirks : m.forceQuirks.course = m.course := rfl

@[simp] theorem course_emitDoctype :
    m.emitDoctype.course = { m.course with state := .data } := by
  rw [emitDoctype, course_goto, course_emit]
  rfl

/-! ## (5) Character references -/

@[simp] theorem course_beginReference :
    m.beginReference.course
      = { m.course with
          reference := some { inAttribute := m.course.state.isAttributeValue } } := rfl

@[simp] theorem course_keepReference (r : Reference) :
    (m.keepReference r).course = { m.course with reference := some r } := rfl

@[simp] theorem course_closeReference (r : Reference) (t : String) :
    (m.closeReference r t).course = { m.course with reference := none } := by
  unfold closeReference
  cases r.inAttribute <;> rfl

@[simp] theorem course_reportNumber (n : Nat) : (m.reportNumber n).course = m.course := by
  unfold reportNumber
  split <;> simp

end Machine

end HtmlStream

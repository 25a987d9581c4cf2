import HtmlStream.Proofs.Machine.Halting

/-! # Text held back in front of a tag

Inside a tag nothing is text: the first thing a tag queues, an error or the tag itself, is queued behind
the text held back before it. So it makes no difference whether that text is queued at the beginning of
the tag or when the tag queues something.

* **`State.isTag`** and **`Course.InsideTag`**: inside a tag, behind its first letter.
* **`flush_goto`, `flush_report`, …**: actions inside a tag are the same with the text queued before.
* **`flush_stepChar`**, **`calm_stepChar`**: so are the states, and what leaves the tag has queued
  the text.
* **`run_flush`**: so is the run. -/

namespace HtmlStream

/-- Whether the state is inside a tag, behind its first letter. -/
def State.isTag : State → Bool
  | .tagName | .beforeAttributeName | .attributeName | .afterAttributeName | .beforeAttributeValue
  | .attributeValue _ | .afterAttributeValueQuoted | .selfClosingStartTag => true
  | _ => false

/-- **Inside a tag**, or in a reference in the value of one of its attributes. -/
def Course.InsideTag (c : Course) : Prop :=
  c.state.isTag = true ∧ (∀ r ∈ c.reference, r.inAttribute = true) ∧ c.ended = false

namespace Machine

/-! ## (1) Actions inside a tag -/

theorem flush_of_text {m : Machine} (h : m.text = "") : m.flush = m :=
  if_pos (String.isEmpty_iff.mpr h)

/-- What queueing the text changes. -/
theorem flush_eq (m : Machine) :
    m.flush = { m with queue := m.flush.queue, text := "", tokens := m.flush.tokens } := by
  unfold flush
  split
  · rename_i h
    rw [← String.isEmpty_iff.mp h]
  · rfl

variable (m : Machine)

/-- **An action that neither looks at the text held back nor queues anything** is the same with the text
queued before. -/
theorem flush_action (act : Machine → Machine) (htext : (act m).text = m.text)
    (hqueue : { act m with text := "" }.enqueue (.characters m.text)
      = act ({ m with text := "" }.enqueue (.characters m.text))) : (act m).flush = act m.flush := by
  unfold flush
  rw [htext]
  split
  · rfl
  · exact hqueue

@[simp] theorem state_flush : m.flush.state = m.state := congrArg Course.state m.course_flush

@[simp] theorem input_flush : m.flush.input = m.input := congrArg Course.input m.course_flush

@[simp] theorem tag_flush : m.flush.tag = m.tag := by
  rw [flush_eq]

@[simp] theorem currentAttribute_flush : m.flush.currentAttribute = m.currentAttribute := by
  rw [flush_eq]

@[simp] theorem flush_ite (q : Prop) [Decidable q] (m m' : Machine) :
    (if q then m else m').flush = if q then m.flush else m'.flush :=
  apply_ite flush q m m'

@[simp] theorem flush_goto (next : State) : (m.goto next).flush = m.flush.goto next := by
  unfold goto
  rw [state_flush, flush_ite]
  split
  · rfl
  · exact m.flush_action (fun k => { k with state := next, transitions := k.transitions + 1 }) rfl rfl

@[simp] theorem flush_advance : m.advance.flush = m.flush.advance :=
  m.flush_action advance rfl rfl

/-- A token is queued behind the text held back. -/
@[simp] theorem flush_emit (t : Token) : (m.emit t).flush = m.flush.emit t := by
  rw [flush_of_text (m.text_emit t), emit, emit, flush_of_text m.text_flush]

@[simp] theorem flush_report (code : ErrorCode) : (m.report code).flush = m.flush.report code := by
  have hcount := m.flush_action (fun k => { k with errors := k.errors + 1 }) rfl rfl
  rw [report, flush_emit, hcount, report, input_flush, state_flush]

@[simp] theorem flush_putTagName (c : Char) : (m.putTagName c).flush = m.flush.putTagName c :=
  m.flush_action (putTagName · c) rfl rfl

@[simp] theorem flush_dropAttribute : m.dropAttribute.flush = m.flush.dropAttribute :=
  m.flush_action dropAttribute rfl rfl

@[simp] theorem flush_closeAttribute : m.closeAttribute.flush = m.flush.closeAttribute := by
  unfold closeAttribute
  rw [currentAttribute_flush]
  cases m.currentAttribute with
  | none => rfl
  | some a =>
    simp only [flush_ite, flush_report, flush_dropAttribute, tag_flush]
    refine congrArg (ite _ _) ?_
    exact m.flush_action (fun k =>
      { k.dropAttribute with tag := { m.tag with attributes := m.tag.attributes.push a } }) rfl rfl

@[simp] theorem flush_openAttribute (c : Char) :
    (m.openAttribute c).flush = m.flush.openAttribute c := by
  unfold openAttribute
  rw [← flush_closeAttribute]
  exact flush_action _ (fun k =>
    { k with currentAttribute := some { name := String.singleton c } }) rfl rfl

@[simp] theorem flush_putAttributeName (c : Char) :
    (m.putAttributeName c).flush = m.flush.putAttributeName c :=
  m.flush_action (putAttributeName · c) rfl rfl

@[simp] theorem flush_putAttributeValue (c : Char) :
    (m.putAttributeValue c).flush = m.flush.putAttributeValue c :=
  m.flush_action (putAttributeValue · c) rfl rfl

theorem flush_putAttributeText (t : String) :
    (m.putAttributeText t).flush = m.flush.putAttributeText t :=
  m.flush_action (putAttributeText · t) rfl rfl

@[simp] theorem flush_markSelfClosing : m.markSelfClosing.flush = m.flush.markSelfClosing :=
  m.flush_action markSelfClosing rfl rfl

@[simp] theorem flush_reportTag (t : Tag) : (m.reportTag t).flush = m.flush.reportTag t := by
  unfold reportTag
  cases t.kind with
  | opening =>
    exact m.flush_action (fun k => { k with lastStartTag := some t.name }) rfl rfl
  | closing => simp only [flush_ite, flush_report]

@[simp] theorem flush_resetTag : m.resetTag.flush = m.flush.resetTag :=
  m.flush_action resetTag rfl rfl

@[simp] theorem flush_emitTag : m.emitTag.flush = m.flush.emitTag := by
  have htag : m.flush.closeAttribute.tag = m.closeAttribute.tag := by
    rw [← flush_closeAttribute, tag_flush]
  simp [emitTag, htag]

@[simp] theorem flush_beginReference : m.beginReference.flush = m.flush.beginReference :=
  m.flush_action beginReference rfl rfl

@[simp] theorem flush_keepReference (r : Reference) :
    (m.keepReference r).flush = m.flush.keepReference r :=
  m.flush_action (keepReference · r) rfl rfl

/-- In the value of an attribute, a reference ends without text. -/
theorem flush_closeReference {r : Reference} (hr : r.inAttribute = true) (t : String) :
    (m.closeReference r t).flush = m.flush.closeReference r t := by
  simp only [closeReference, hr, if_true, flush_putAttributeText]
  exact congrArg (putAttributeText · t) (m.flush_action (fun k => { k with reference := none }) rfl rfl)

@[simp] theorem flush_reportNumber (n : Nat) :
    (m.reportNumber n).flush = m.flush.reportNumber n := by
  unfold reportNumber
  split <;> simp

/-! ## (2) States -/

variable {m}

/-- **At a character** inside a tag, nothing depends on whether the text has been queued. -/
theorem flush_stepChar (h : m.state.isTag = true) (c : Char) :
    (m.stepChar c).map flush = m.flush.stepChar c := by
  unfold stepChar
  rw [state_flush]
  cases hstate : m.state with
  | tagName | beforeAttributeName | attributeName | afterAttributeName | beforeAttributeValue
  | attributeValue | afterAttributeValueQuoted | selfClosingStartTag =>
    simp [stepTagName, stepBeforeAttributeName, beginAttribute, stepAttributeName,
      stepAfterAttributeName, stepBeforeAttributeValue, stepAttributeValue,
      stepAfterAttributeValueQuoted, stepSelfClosingStartTag]
  | _ =>
    rw [hstate] at h
    cases h

theorem flush_closeLiteral {r : Reference} (hr : r.inAttribute = true) :
    (m.closeLiteral r).flush = m.flush.closeLiteral r :=
  m.flush_closeReference hr _

theorem flush_closeNumber {r : Reference} (hr : r.inAttribute = true) :
    (m.closeNumber r).flush = m.flush.closeNumber r := by
  rw [closeNumber, flush_closeReference _ hr, flush_reportNumber, closeNumber]

theorem flush_closeName {r : Reference} (hr : r.inAttribute = true) (next : Option Char) :
    (m.closeName r next).flush = m.flush.closeName r next := by
  simp only [closeName]
  cases Reference.longestMatch r.raw.toList <;>
    simp [flush_closeReference _ hr, flush_closeLiteral hr]

/-- So it is in a reference, -/
theorem flush_stepReference {r : Reference} (hr : r.inAttribute = true) (next : Option Char) :
    (m.stepReference r next).flush = m.flush.stepReference r next := by
  have hend : (m.endDigits r next).flush = m.flush.endDigits r next := by
    simp [endDigits, flush_closeLiteral hr, flush_closeNumber hr]
  unfold stepReference
  cases r.phase with
  | opened =>
    cases next with
    | none => exact flush_closeLiteral hr
    | some c => by_cases hc : c = '#' <;> simp [stepOpened, hc, flush_closeLiteral hr]
  | numeric => cases next <;> simp [stepNumeric]
  | digits hex =>
    cases next with
    | none => exact hend
    | some c =>
      simp only [stepDigits]
      cases Text.digitValue? (Reference.base hex) c <;> simp [hend]
  | named =>
    have hname : ∀ raw, { r with raw := raw }.inAttribute = true := fun _ => hr
    cases next <;> simp [stepNamed, flush_closeName hr, flush_closeName (hname _)]

/-- and at the end of the input. -/
theorem flush_stepEnd (h : m.state.isTag = true) : m.stepEnd.flush = m.flush.stepEnd := by
  unfold stepEnd
  rw [state_flush]
  cases hstate : m.state with
  | tagName | beforeAttributeName | attributeName | afterAttributeName | beforeAttributeValue
  | attributeValue | afterAttributeValueQuoted | selfClosingStartTag => simp
  | _ =>
    rw [hstate] at h
    cases h

/-! ## (3) Steps -/

theorem text_goto (m : Machine) (next : State) : (m.goto next).text = m.text := by
  unfold goto
  split <;> rfl

/-- Inside a tag, or with the text queued. -/
def Calm (m : Machine) : Prop := m.course.InsideTag ∨ m.text = ""

@[simp] theorem calm_ite (q : Prop) [Decidable q] (m m' : Machine) :
    (if q then m else m').Calm ↔ (q → m.Calm) ∧ (¬q → m'.Calm) := by
  split <;> simp_all

/-- A tag queued has queued the text before it. -/
@[simp] theorem calm_emitTag (m : Machine) : m.emitTag.Calm :=
  .inr ((text_goto _ _).trans (text_emit _ _))

/-- **A character keeps the machine inside the tag**, unless it makes it queue the tag. -/
theorem calm_stepChar {m' : Machine} (h : m.course.InsideTag) (hreference : m.reference = none)
    {c : Char} (hstep : m.stepChar c = some m') : m'.Calm := by
  have hstay {k : Machine} (htag : k.course.state.isTag = true)
      (hplace : ∀ r ∈ k.course.reference, r.inAttribute = true) (hend : k.course.ended = false) :
      k.Calm :=
    .inl ⟨htag, hplace, hend⟩
  have hnone : m.course.reference = none := hreference
  have hended : m.course.ended = false := h.2.2
  unfold stepChar at hstep
  cases hstate : m.state with
  | tagName | beforeAttributeName | attributeName | afterAttributeName | beforeAttributeValue
  | attributeValue | afterAttributeValueQuoted | selfClosingStartTag =>
    have hcourse : m.course.state = _ := hstate
    simp only [hstate, Option.some.injEq] at hstep
    subst hstep
    simp [stepTagName, stepBeforeAttributeName, beginAttribute, stepAttributeName,
      stepAfterAttributeName, stepBeforeAttributeValue, stepAttributeValue,
      stepAfterAttributeValueQuoted, stepSelfClosingStartTag, hstay, hcourse, hnone, hended,
      State.isTag, State.isAttributeValue]
  | _ =>
    have htag : m.state.isTag = true := h.1
    rw [hstate] at htag
    cases htag

/-- The end of the input inside a tag makes it queue an error. -/
theorem text_stepEnd (h : m.state.isTag = true) : m.stepEnd.text = "" := by
  have hdropped : (m.report .eofInTag).dropAttribute.text = "" := m.text_report .eofInTag
  unfold stepEnd
  cases hstate : m.state with
  | tagName | beforeAttributeName | attributeName | afterAttributeName | beforeAttributeValue
  | attributeValue | afterAttributeValueQuoted | selfClosingStartTag =>
    exact (text_goto _ _).trans hdropped
  | _ =>
    rw [hstate] at h
    cases h

/-- A reference in the value of an attribute stays there. -/
theorem insideTag_stepReference {r : Reference} (h : m.course.InsideTag)
    (hreference : m.reference = some r) (next : Option Char) :
    (m.stepReference r next).course.InsideTag := by
  obtain ⟨hstate, -, hplace, hended⟩ := m.course_stepReference r next
  refine ⟨hstate ▸ h.1, fun r' hr' => (hplace r' hr').trans (h.2.1 r hreference), hended.trans h.2.2⟩

/-- **A step inside a tag** is the same with the text queued before. It stays inside or queues the
text. -/
theorem step_flush {m' : Machine} (h : m.course.InsideTag) (hstep : step .byChar m = some m') :
    step .byChar m.flush = some m'.flush ∧ m'.Calm := by
  have hcourse := m.course_flush
  simp only [course, Course.mk.injEq] at hcourse
  obtain ⟨-, hinput, href, hended⟩ := hcourse
  unfold step at hstep ⊢
  rw [hended, href, hinput]
  split at hstep
  · cases hstep
  · rw [if_neg (by assumption)]
    split at hstep <;> rename_i hreference _
    · cases hstep
      exact ⟨congrArg some (flush_stepReference (h.2.1 _ hreference) _).symm,
        .inl (insideTag_stepReference h hreference _)⟩
    · split at hstep <;> cases hstep
      rw [if_pos (by assumption)]
      exact ⟨congrArg some (flush_stepReference (h.2.1 _ hreference) _).symm,
        .inl (insideTag_stepReference h hreference _)⟩
    · rw [stepAt_byChar] at hstep
      refine ⟨?_, calm_stepChar h hreference hstep⟩
      rw [stepAt_byChar, ← flush_stepChar h.1, hstep]
      rfl
    · split at hstep <;> cases hstep
      rw [if_pos (by assumption)]
      exact ⟨congrArg some (flush_stepEnd h.1).symm, .inr (text_stepEnd h.1)⟩

/-- **Inside a tag**, a machine runs to the same end with the text queued before. -/
theorem run_flush (h : m.course.InsideTag) (hfinished : m.input.finished = true) :
    m.flush.run = m.run := by
  -- induction on the steps to come, of which the first that leaves the tag queues the text
  induction m using (wellFounded_step .byChar).induction with
  | _ m ih =>
    cases hstep : step .byChar m with
    | none =>
      have hended : m.ended = false := h.2.2
      rw [ended_of_step_eq_none hfinished hstep] at hended
      cases hended
    | some m' =>
      obtain ⟨hflush, hstill⟩ := step_flush h hstep
      rw [run_eq_of_leads (Leads.single hflush), run_eq_of_leads (Leads.single hstep)]
      rcases hstill with hin | htext
      · exact ih m' hstep hin ((input_of_step hstep).2.trans hfinished)
      · rw [flush_of_text htext]

end Machine

end HtmlStream

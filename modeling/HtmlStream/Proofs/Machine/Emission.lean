import HtmlStream.Proofs.Machine.Runs

/-! # What steps queue

Text is queued only in front of a token that is not text, and the end of the input only by the step
that ends the machine. So whatever a machine has queued, its text tokens are not empty, no two of them
are neighbours, and the end of the input is its last token or none.

* **`Spaced`**: lists of tokens in which text stands only in front of other tokens.
* **`Adds`**: all that a step does to the queue, as long as the machine has not ended.
* **`adds_stepTagName`, …**: each state obeys it.
* **`adds_of_leads`**, **`ends_of_leads`**: so does a chain of steps, with the end of the input behind
  it if the machine has ended. -/

namespace HtmlStream

/-! ## (1) Spaced tokens -/

/-- Whether a token is a run of text. -/
def Token.isText : Token → Bool
  | .characters _ => true
  | _ => false

/-- A run of text, as it is queued. -/
def textTokens (s : String) : List Token := if s = "" then [] else [.characters s]

/-- **Text stands only in front of other tokens**, and is not empty. -/
inductive Spaced : List Token → Prop
  /-- Nothing is queued. -/
  | nil : Spaced []
  /-- A token that is not text. -/
  | other {t : Token} {rest : List Token} (ht : t.isText = false) (h : Spaced rest) :
    Spaced (t :: rest)
  /-- Text and the token that it was held back for. -/
  | text {s : String} {t : Token} {rest : List Token} (hs : s ≠ "") (ht : t.isText = false)
    (h : Spaced rest) : Spaced (.characters s :: t :: rest)

theorem Spaced.append {q q' : List Token} (h : Spaced q) (h' : Spaced q') : Spaced (q ++ q') := by
  induction h with
  | nil => exact h'
  | other ht _ ih => exact Spaced.other ht ih
  | text hs ht _ ih => exact Spaced.text hs ht ih

/-- Batches of spaced tokens are spaced one behind the other. -/
theorem Spaced.flatten {batches : List (List Token)} (h : ∀ batch ∈ batches, Spaced batch) :
    Spaced batches.flatten := by
  induction batches with
  | nil => exact Spaced.nil
  | cons batch rest ih =>
    rw [List.forall_mem_cons] at h
    exact h.1.append (ih h.2)

namespace Machine

/-! ## (2) What actions queue -/

/-- The text held back, as it is queued. -/
def heldBack (k : Machine) : List Token := textTokens k.text

theorem toList_queue_flush (k : Machine) : k.flush.queue.toList = k.queue.toList ++ k.heldBack := by
  unfold flush heldBack textTokens
  by_cases h : k.text = ""
  · rw [if_pos (by simp [h]), if_pos h, List.append_nil]
  · rw [if_neg (by simpa using h), if_neg h, enqueue, Array.toList_push]

theorem toList_queue_emit (k : Machine) (t : Token) :
    (k.emit t).queue.toList = k.queue.toList ++ (k.heldBack ++ [t]) := by
  rw [emit, enqueue, Array.toList_push, toList_queue_flush, List.append_assoc]

/-- Nothing is held back once it has been queued. -/
theorem text_flush (k : Machine) : k.flush.text = "" := by
  unfold flush
  split
  · rename_i h
    exact String.isEmpty_iff.mp h
  · rfl

theorem text_emit (k : Machine) (t : Token) : (k.emit t).text = "" := k.text_flush

theorem text_report (k : Machine) (code : ErrorCode) : (k.report code).text = "" := text_flush _

/-- What is held back is spaced with the token it was held back for. -/
theorem spaced_heldBack (k : Machine) {t : Token} (ht : t.isText = false) :
    Spaced (k.heldBack ++ [t]) := by
  unfold heldBack textTokens
  split
  · exact Spaced.other ht Spaced.nil
  · exact Spaced.text (by assumption) ht Spaced.nil

theorem endOfInput_notMem_heldBack (k : Machine) : Token.endOfInput ∉ k.heldBack := by
  unfold heldBack textTokens
  split <;> simp

/-- `k` comes from `m` by queueing spaced tokens, the end of the input not among them. -/
def Adds (m k : Machine) : Prop :=
  k.ended = m.ended ∧ ∃ added, k.queue.toList = m.queue.toList ++ added ∧ Spaced added ∧
    Token.endOfInput ∉ added

variable {m k : Machine}

@[simp] theorem Adds.refl (m : Machine) : Adds m m := ⟨rfl, [], by simp, Spaced.nil, by simp⟩

theorem Adds.trans {k' : Machine} (h : Adds m k) (h' : Adds k k') : Adds m k' := by
  obtain ⟨hended, added, hqueue, hspaced, hend⟩ := h
  obtain ⟨hended', added', hqueue', hspaced', hend'⟩ := h'
  refine ⟨hended'.trans hended, added ++ added', ?_, hspaced.append hspaced', ?_⟩
  · rw [hqueue', hqueue, List.append_assoc]
  · rw [List.mem_append, not_or]
    exact ⟨hend, hend'⟩

@[simp] theorem adds_ite (p : Prop) [Decidable p] (k k' : Machine) :
    Adds m (if p then k else k') ↔ (p → Adds m k) ∧ (¬p → Adds m k') := by
  split <;> simp_all

/-- **A token that is not text** is queued behind the text held back. -/
@[simp] theorem adds_emit {t : Token} (h : Adds m k) (ht : t.isText = false)
    (hend : t ≠ .endOfInput) : Adds m (k.emit t) := by
  refine h.trans ⟨congrArg Course.ended (k.course_emit t), _, k.toList_queue_emit t,
    k.spaced_heldBack ht, ?_⟩
  -- neither the text held back nor the token is the end of the input
  rw [List.mem_append, not_or, List.mem_singleton]
  exact ⟨k.endOfInput_notMem_heldBack, hend.symm⟩

@[simp] theorem adds_report (h : Adds m k) (code : ErrorCode) : Adds m (k.report code) :=
  adds_emit h rfl (by simp)

@[simp] theorem adds_goto (next : State) : Adds m (k.goto next) ↔ Adds m k := by
  unfold goto
  split <;> rfl

@[simp] theorem adds_advance : Adds m k.advance ↔ Adds m k := Iff.rfl

@[simp] theorem adds_skip (n : Nat) : Adds m (k.skip n) ↔ Adds m k := Iff.rfl

@[simp] theorem adds_putChar (c : Char) : Adds m (k.putChar c) ↔ Adds m k := Iff.rfl

@[simp] theorem adds_putText (t : String) : Adds m (k.putText t) ↔ Adds m k := Iff.rfl

@[simp] theorem adds_openTag (kind : TagKind) (c : Char) :
    Adds m (k.openTag kind c) ↔ Adds m k := Iff.rfl

@[simp] theorem adds_putTagName (c : Char) : Adds m (k.putTagName c) ↔ Adds m k := Iff.rfl

@[simp] theorem adds_dropAttribute : Adds m k.dropAttribute ↔ Adds m k := Iff.rfl

@[simp] theorem adds_closeAttribute (h : Adds m k) : Adds m k.closeAttribute := by
  unfold closeAttribute
  split
  · exact h
  · split
    · exact adds_report (adds_dropAttribute.mpr h) _
    · exact h

@[simp] theorem adds_openAttribute (h : Adds m k) (c : Char) : Adds m (k.openAttribute c) :=
  adds_closeAttribute h

@[simp] theorem adds_putAttributeName (c : Char) :
    Adds m (k.putAttributeName c) ↔ Adds m k := Iff.rfl

@[simp] theorem adds_putAttributeValue (c : Char) :
    Adds m (k.putAttributeValue c) ↔ Adds m k := Iff.rfl

@[simp] theorem adds_markSelfClosing : Adds m k.markSelfClosing ↔ Adds m k := Iff.rfl

@[simp] theorem adds_reportTag (h : Adds m k) (t : Tag) : Adds m (k.reportTag t) := by
  unfold reportTag
  cases t.kind with
  | opening => exact h
  | closing => cases t.attributes.isEmpty <;> cases t.selfClosing <;> simp [h]

@[simp] theorem adds_resetTag : Adds m k.resetTag ↔ Adds m k := Iff.rfl

@[simp] theorem adds_emitTag (h : Adds m k) : Adds m k.emitTag :=
  (adds_goto .data).mpr (adds_emit (adds_reportTag (adds_resetTag.mpr (adds_closeAttribute h)) _) rfl
    (by simp))

@[simp] theorem adds_putLetter (c : Char) : Adds m (k.putLetter c) ↔ Adds m k := Iff.rfl

@[simp] theorem adds_clearLetters : Adds m k.clearLetters ↔ Adds m k := Iff.rfl

@[simp] theorem adds_putComment (c : Char) : Adds m (k.putComment c) ↔ Adds m k := Iff.rfl

@[simp] theorem adds_putCommentText (t : String) :
    Adds m (k.putCommentText t) ↔ Adds m k := Iff.rfl

@[simp] theorem adds_openComment (t : String) : Adds m (k.openComment t) ↔ Adds m k := Iff.rfl

@[simp] theorem adds_emitComment (h : Adds m k) : Adds m k.emitComment :=
  (adds_goto .data).mpr (adds_emit h rfl (by simp))

@[simp] theorem adds_putDoctypeName (c : Char) :
    Adds m (k.putDoctypeName c) ↔ Adds m k := Iff.rfl

@[simp] theorem adds_openIdentifier (kind : IdentifierKind) :
    Adds m (k.openIdentifier kind) ↔ Adds m k := by
  cases kind <;> rfl

@[simp] theorem adds_putIdentifier (c : Char) (kind : IdentifierKind) :
    Adds m (k.putIdentifier c kind) ↔ Adds m k := by
  cases kind <;> rfl

@[simp] theorem adds_resetDoctype : Adds m k.resetDoctype ↔ Adds m k := Iff.rfl

@[simp] theorem adds_forceQuirks : Adds m k.forceQuirks ↔ Adds m k := Iff.rfl

@[simp] theorem adds_emitDoctype (h : Adds m k) : Adds m k.emitDoctype :=
  (adds_goto .data).mpr (adds_emit h rfl (by simp))

@[simp] theorem adds_beginReference : Adds m k.beginReference ↔ Adds m k := Iff.rfl

@[simp] theorem adds_keepReference (r : Reference) :
    Adds m (k.keepReference r) ↔ Adds m k := Iff.rfl

@[simp] theorem adds_closeReference (r : Reference) (t : String) :
    Adds m (k.closeReference r t) ↔ Adds m k := by
  unfold closeReference
  cases r.inAttribute <;> rfl

@[simp] theorem adds_reportNumber (h : Adds m k) (n : Nat) : Adds m (k.reportNumber n) := by
  unfold reportNumber
  split <;> simp [h]

/-! ## (3) What each state queues -/

section

variable (m : Machine) (c : Char)

@[simp] theorem adds_stepData : Adds m (m.stepData c) := by
  unfold stepData
  split
  · simp
  · simp
  · -- a NUL is a token of its own here
    exact adds_emit (adds_report (adds_advance.mpr (.refl m)) _) rfl (by simp)
  · simp

@[simp] theorem adds_replaceNull (h : Adds m k) : Adds m k.replaceNull :=
  (adds_putChar _).mpr (adds_report h _)

@[simp] theorem adds_stepPlaintext : Adds m (m.stepPlaintext c) := by
  unfold stepPlaintext
  split <;> simp

@[simp] theorem adds_escapedLessThan (kind : EscapeKind) (h : Adds m k) :
    Adds m (k.escapedLessThan kind) := by
  cases kind <;> simp [escapedLessThan, h]

@[simp] theorem adds_stepRawData (kind : RawKind) : Adds m (m.stepRawData kind c) := by
  unfold stepRawData
  split <;> simp

@[simp] theorem adds_stepRawLessThanSign (kind : RawKind) : Adds m (m.stepRawLessThanSign kind c) := by
  unfold stepRawLessThanSign
  split <;> simp

@[simp] theorem adds_stepRawEndTagOpen (kind : RawKind) : Adds m (m.stepRawEndTagOpen kind c) := by
  simp [stepRawEndTagOpen]

@[simp] theorem adds_putBackEndTag (kind : RawKind) : Adds m (m.putBackEndTag kind) := by
  simp [putBackEndTag]

@[simp] theorem adds_stepRawEndTagName (kind : RawKind) : Adds m (m.stepRawEndTagName kind c) := by
  simp [stepRawEndTagName]

@[simp] theorem adds_escapeDash (onDash otherwise : State) :
    Adds m (m.escapeDash c onDash otherwise) := by
  simp [escapeDash]

@[simp] theorem adds_escapeBoundary (onScript otherwise : EscapeKind) :
    Adds m (m.escapeBoundary c onScript otherwise) := by
  simp [escapeBoundary]

@[simp] theorem adds_stepEscapeStart (kind : EscapeKind) : Adds m (m.stepEscapeStart kind c) := by
  cases kind <;> simp [stepEscapeStart]

@[simp] theorem adds_afterDashes (kind : EscapeKind) (h : Adds m k) :
    Adds m (k.afterDashes kind c) := by
  unfold afterDashes
  split <;> simp [h]

@[simp] theorem adds_stepEscapedDash (kind : EscapeKind) : Adds m (m.stepEscapedDash kind c) := by
  unfold stepEscapedDash
  split <;> simp

@[simp] theorem adds_stepEscapedDashDash (kind : EscapeKind) :
    Adds m (m.stepEscapedDashDash kind c) := by
  unfold stepEscapedDashDash
  split <;> simp

@[simp] theorem adds_stepTagOpen : Adds m (m.stepTagOpen c) := by simp [stepTagOpen]

@[simp] theorem adds_stepEndTagOpen : Adds m (m.stepEndTagOpen c) := by simp [stepEndTagOpen]

@[simp] theorem adds_stepTagName : Adds m (m.stepTagName c) := by simp [stepTagName]

@[simp] theorem adds_beginAttribute (h : Adds m k) : Adds m (k.beginAttribute c) := by
  simp [beginAttribute, h]

@[simp] theorem adds_stepBeforeAttributeName : Adds m (m.stepBeforeAttributeName c) := by
  simp [stepBeforeAttributeName]

@[simp] theorem adds_stepAttributeName : Adds m (m.stepAttributeName c) := by simp [stepAttributeName]

@[simp] theorem adds_stepAfterAttributeName : Adds m (m.stepAfterAttributeName c) := by
  simp [stepAfterAttributeName]

@[simp] theorem adds_stepBeforeAttributeValue : Adds m (m.stepBeforeAttributeValue c) := by
  simp [stepBeforeAttributeValue]

@[simp] theorem adds_stepAttributeValue (kind : QuoteKind) : Adds m (m.stepAttributeValue kind c) := by
  simp [stepAttributeValue]

@[simp] theorem adds_stepAfterAttributeValueQuoted : Adds m (m.stepAfterAttributeValueQuoted c) := by
  simp [stepAfterAttributeValueQuoted]

@[simp] theorem adds_stepSelfClosingStartTag : Adds m (m.stepSelfClosingStartTag c) := by
  simp [stepSelfClosingStartTag]

@[simp] theorem adds_putCommentChar (h : Adds m k) : Adds m (k.putCommentChar c) := by
  simp [putCommentChar, putBackDashes, h]

@[simp] theorem adds_stepBogusComment : Adds m (m.stepBogusComment c) := by simp [stepBogusComment]

@[simp] theorem adds_stepCommentStart : Adds m (m.stepCommentStart c) := by simp [stepCommentStart]

@[simp] theorem adds_stepCommentStartDash : Adds m (m.stepCommentStartDash c) := by
  simp [stepCommentStartDash]

@[simp] theorem adds_stepCommentText : Adds m (m.stepCommentText c) := by simp [stepCommentText]

@[simp] theorem adds_stepCommentEndDash : Adds m (m.stepCommentEndDash c) := by
  simp [stepCommentEndDash]

@[simp] theorem adds_stepCommentEnd : Adds m (m.stepCommentEnd c) := by simp [stepCommentEnd]

@[simp] theorem adds_stepCommentEndBang : Adds m (m.stepCommentEndBang c) := by
  simp [stepCommentEndBang]

@[simp] theorem adds_beforeDoctypeName (h : Adds m k) : Adds m (k.beforeDoctypeName c) := by
  simp [beforeDoctypeName, h]

@[simp] theorem adds_stepDoctype : Adds m (m.stepDoctype c) := by simp [stepDoctype]

@[simp] theorem adds_stepBeforeDoctypeName : Adds m (m.stepBeforeDoctypeName c) := by
  simp [stepBeforeDoctypeName]

@[simp] theorem adds_stepDoctypeName : Adds m (m.stepDoctypeName c) := by simp [stepDoctypeName]

@[simp] theorem adds_abandonDoctype (h : Adds m k) (code : ErrorCode) :
    Adds m (k.abandonDoctype code) := by
  simp [abandonDoctype, h]

@[simp] theorem adds_cutDoctype (h : Adds m k) (code : ErrorCode) :
    Adds m (k.cutDoctype code) := by
  simp [cutDoctype, h]

@[simp] theorem adds_beginIdentifier (kind : IdentifierKind) :
    Adds m (k.beginIdentifier kind c) ↔ Adds m k := by
  simp [beginIdentifier]

@[simp] theorem adds_stepAfterDoctypeKeyword (kind : IdentifierKind) :
    Adds m (m.stepAfterDoctypeKeyword kind c) := by
  simp [stepAfterDoctypeKeyword]

@[simp] theorem adds_stepBeforeDoctypeIdentifier (kind : IdentifierKind) :
    Adds m (m.stepBeforeDoctypeIdentifier kind c) := by
  simp [stepBeforeDoctypeIdentifier]

@[simp] theorem adds_stepDoctypeIdentifier (kind : IdentifierKind) (quote : Char) :
    Adds m (m.stepDoctypeIdentifier kind quote c) := by
  simp [stepDoctypeIdentifier]

@[simp] theorem adds_stepAfterPublicIdentifier : Adds m (m.stepAfterPublicIdentifier c) := by
  simp [stepAfterPublicIdentifier]

@[simp] theorem adds_stepAfterSystemIdentifier : Adds m (m.stepAfterSystemIdentifier c) := by
  simp [stepAfterSystemIdentifier]

@[simp] theorem adds_stepBetweenIdentifiers : Adds m (m.stepBetweenIdentifiers c) := by
  simp [stepBetweenIdentifiers]

@[simp] theorem adds_stepBogusDoctype : Adds m (m.stepBogusDoctype c) := by simp [stepBogusDoctype]

/-- Decided lookaheads queue spaced tokens too. -/
theorem adds_stepMarkupDeclarationOpen {m' : Machine} (h : m.stepMarkupDeclarationOpen = some m') :
    Adds m m' := by
  unfold stepMarkupDeclarationOpen at h
  repeat' split at h
  all_goals cases h
  all_goals simp

theorem adds_stepAfterDoctypeName {m' : Machine} (h : m.stepAfterDoctypeName c = some m') :
    Adds m m' := by
  unfold stepAfterDoctypeName at h
  repeat' split at h
  all_goals cases h
  all_goals simp

/-- **A step at a character** queues spaced tokens. -/
theorem adds_stepChar {m' : Machine} (h : m.stepChar c = some m') : Adds m m' := by
  unfold stepChar at h
  -- every other state makes a step whatever has arrived
  cases hstate : m.state with
  | markupDeclarationOpen =>
    simp only [hstate] at h
    exact adds_stepMarkupDeclarationOpen m h
  | afterDoctypeName =>
    simp only [hstate] at h
    exact adds_stepAfterDoctypeName m c h
  | afterDoctypeIdentifier kind =>
    cases kind <;> simp only [hstate, Option.some.injEq] at h <;> simp [← h]
  | _ =>
    simp only [hstate, Option.some.injEq] at h
    simp [stepEscapeStartDash, stepDoubleEscapeEnd, ← h]

@[simp] theorem adds_closeLiteral (h : Adds m k) (r : Reference) : Adds m (k.closeLiteral r) := by
  simp [closeLiteral, h]

@[simp] theorem adds_closeNumber (h : Adds m k) (r : Reference) : Adds m (k.closeNumber r) := by
  simp [closeNumber, h]

@[simp] theorem adds_closeName (h : Adds m k) (r : Reference) (next : Option Char) :
    Adds m (k.closeName r next) := by
  simp only [closeName]
  repeat' split
  all_goals simp [h]

/-- **A step of a reference** queues spaced tokens. -/
theorem adds_stepReference (r : Reference) (next : Option Char) :
    Adds m (m.stepReference r next) := by
  unfold stepReference
  cases r.phase with
  | opened =>
    simp only [stepOpened]
    split <;> simp
  | numeric =>
    simp only [stepNumeric]
    split <;> simp
  | digits hex =>
    simp only [stepDigits, endDigits]
    repeat' split
    all_goals simp
  | named =>
    simp only [stepNamed]
    repeat' split
    all_goals simp

/-- **A step at the end of the input** queues spaced tokens, and behind them the end if it ends the
machine. -/
theorem adds_stepEnd : Adds m m.stepEnd ∨ ∃ k, Adds m k ∧ m.stepEnd = k.emitEnd := by
  unfold stepEnd
  split
  -- the states of text end the input, the others only lead there
  all_goals first
    | exact Or.inl (by simp [endDoctype])
    | refine Or.inr ⟨_, ?_, rfl⟩
      simp

end

/-! ## (4) What chains of steps queue -/

/-- `k` comes from `m` by queueing spaced tokens, the end of the input last among them. -/
def Ends (m k : Machine) : Prop :=
  k.ended = true ∧ ∃ added, k.queue.toList = m.queue.toList ++ (added ++ [.endOfInput]) ∧
    Spaced (added ++ [.endOfInput]) ∧ Token.endOfInput ∉ added

theorem Adds.ends (h : Adds m k) : Ends m k.emitEnd := by
  obtain ⟨-, added, hqueue, hspaced, hend⟩ := h
  refine ⟨rfl, added ++ k.heldBack, ?_, ?_, ?_⟩
  · -- the text held back is queued in front of the end
    have hemit : k.emitEnd.queue = (k.emit .endOfInput).queue := rfl
    rw [hemit, toList_queue_emit, hqueue]
    simp
  · rw [List.append_assoc]
    exact hspaced.append (k.spaced_heldBack rfl)
  · rw [List.mem_append, not_or]
    exact ⟨hend, k.endOfInput_notMem_heldBack⟩

theorem Adds.trans_ends {k' : Machine} (h : Adds m k) (h' : Ends k k') : Ends m k' := by
  obtain ⟨-, added, hqueue, hspaced, hend⟩ := h
  obtain ⟨hended', added', hqueue', hspaced', hend'⟩ := h'
  refine ⟨hended', added ++ added', ?_, ?_, ?_⟩
  · rw [hqueue', hqueue]
    simp
  · rw [List.append_assoc]
    exact hspaced.append hspaced'
  · rw [List.mem_append, not_or]
    exact ⟨hend, hend'⟩

/-- Before the last byte has come, a step queues spaced tokens. -/
theorem adds_of_step (hfinished : m.input.finished = false) (h : step .byChar m = some k) :
    Adds m k := by
  unfold step at h
  split at h
  · cases h
  · split at h
    · cases h
      exact adds_stepReference m _ _
    · -- without a character a machine waits for the next chunk
      simp [hfinished] at h
    · exact adds_stepChar m _ h
    · simp [hfinished] at h

/-- Behind the last byte it may queue the end as well. -/
theorem adds_or_ends_of_step (h : step .byChar m = some k) : Adds m k ∨ Ends m k := by
  unfold step at h
  split at h
  · cases h
  · split at h
    · cases h
      exact Or.inl (adds_stepReference m _ _)
    · split at h
      · cases h
        exact Or.inl (adds_stepReference m _ _)
      · cases h
    · exact Or.inl (adds_stepChar m _ h)
    · split at h
      · cases h
        rcases adds_stepEnd m with hadds | ⟨k, hadds, hend⟩
        · exact Or.inl hadds
        · rw [hend]
          exact Or.inr hadds.ends
      · cases h

/-- **Before the last byte has come**, a chain of steps queues spaced tokens. -/
theorem adds_of_leads (hfinished : m.input.finished = false) (h : m.Leads k) : Adds m k := by
  induction h with
  | refl => exact .refl m
  | tail hk hstep ih =>
    exact ih.trans (adds_of_step ((input_of_leads hk).2.trans hfinished) hstep)

/-- A chain of steps queues spaced tokens, and behind them the end or not. -/
theorem adds_or_ends_of_leads (h : m.Leads k) : Adds m k ∨ Ends m k := by
  induction h with
  | refl => exact Or.inl (.refl m)
  | tail _ hstep ih =>
    rcases ih with ih | ih
    · rcases adds_or_ends_of_step hstep with hadds | hends
      · exact Or.inl (ih.trans hadds)
      · exact Or.inr (ih.trans_ends hends)
    · -- no step follows the end
      rw [step_of_ended ih.1] at hstep
      cases hstep

/-- What has been queued stays in front. -/
theorem queue_prefix_run (m : Machine) : m.queue.toList <+: m.run.queue.toList := by
  rcases adds_or_ends_of_leads m.leads_run with ⟨-, added, hqueue, -⟩ | ⟨-, added, hqueue, -⟩
  · exact ⟨_, hqueue.symm⟩
  · exact ⟨_, hqueue.symm⟩

/-- **If it ends the machine**, a chain of steps queues spaced tokens and then the end. -/
theorem ends_of_leads (hended : m.ended = false) (h : m.Leads k) (hk : k.ended = true) :
    Ends m k := by
  refine (adds_or_ends_of_leads h).resolve_left ?_
  intro hadds
  rw [hadds.1, hended] at hk
  cases hk

end Machine

end HtmlStream

import HtmlStream.Proofs.Machine.Halting

/-! # The books of a machine

A machine counts the characters it reads, the tokens it queues and the errors among them, each in the
action that reads or queues it. An error carries the count of characters read, so along the queue the
positions of errors never fall, and none is behind what was read.

* **`Site`** and **`sites`**: where errors were noticed.
* **`Ledger`** and **`Machine.ledger`**: the queue and the three counters.
* **`Ledger.Records`**: what is entered between two moments; **`Ledger.Grows`**: something is.
* **`grows_report`, `grows_stepTagName`, …**: actions and states enter what they do.
* **`grows_step`**, **`records_run`**: so do steps and runs. -/

namespace HtmlStream

/-! ## (1) Places -/

/-- Where an error was noticed. -/
structure Site where
  /-- The state the machine was in. -/
  state : State
  /-- The number of characters it had read. -/
  position : Nat
  deriving DecidableEq, Repr

/-- The place of an error, none of another token. -/
def Token.site? : Token → Option Site
  | .error e state => some ⟨state, e.position⟩
  | _ => none

/-- The sites of the errors among tokens. -/
def sites (tokens : List Token) : List Site := tokens.filterMap Token.site?

theorem sites_append (q q' : List Token) : sites (q ++ q') = sites q ++ sites q' :=
  List.filterMap_append

/-! ## (2) The ledger -/

/-- The queue of a machine and what it counts. -/
structure Ledger where
  /-- The tokens queued. -/
  queue : List Token
  /-- How many were queued. -/
  tokens : Nat
  /-- How many of them are errors. -/
  errors : Nat
  /-- How many characters were read. -/
  consumed : Nat

namespace Ledger

/-- **The tokens `added` are entered** between the moments `l` and `l'`. -/
structure Records (l l' : Ledger) (added : List Token) : Prop where
  /-- They are queued behind the others. -/
  queue : l'.queue = l.queue ++ added
  /-- All of them are counted. -/
  tokens : l'.tokens = l.tokens + added.length
  /-- So are the errors among them. -/
  errors : l'.errors = l.errors + (sites added).length
  /-- Reading goes forward. -/
  consumed : l.consumed ≤ l'.consumed
  /-- A later error is not at an earlier position. -/
  ordered : (sites added).Pairwise (·.position ≤ ·.position)
  /-- No error is noticed in front of what was read before. -/
  since : ∀ p ∈ sites added, l.consumed ≤ p.position
  /-- No error is noticed behind what has been read. -/
  upTo : ∀ p ∈ sites added, p.position ≤ l'.consumed

/-- Some tokens are entered. -/
def Grows (l l' : Ledger) : Prop := ∃ added, l.Records l' added

variable {l l' l'' : Ledger} {added added' : List Token}

theorem Records.refl (l : Ledger) : l.Records l [] :=
  ⟨by simp, rfl, rfl, Nat.le_refl _, .nil, by simp [sites], by simp [sites]⟩

@[simp] theorem Grows.refl (l : Ledger) : l.Grows l := ⟨[], .refl l⟩

/-- **Entries one behind the other** are entered together. -/
theorem Records.trans (h : l.Records l' added) (h' : l'.Records l'' added') :
    l.Records l'' (added ++ added') where
  queue := by rw [h'.queue, h.queue, List.append_assoc]
  tokens := by rw [h'.tokens, h.tokens, List.length_append, Nat.add_assoc]
  errors := by rw [h'.errors, h.errors, sites_append, List.length_append, Nat.add_assoc]
  consumed := h.consumed.trans h'.consumed
  ordered := by
    rw [sites_append, List.pairwise_append]
    refine ⟨h.ordered, h'.ordered, ?_⟩
    intro p hp p' hp'
    exact (h.upTo p hp).trans (h'.since p' hp')
  since := by
    rw [sites_append]
    intro p hp
    rcases List.mem_append.mp hp with hp | hp
    · exact h.since p hp
    · exact h.consumed.trans (h'.since p hp)
  upTo := by
    rw [sites_append]
    intro p hp
    rcases List.mem_append.mp hp with hp | hp
    · exact (h.upTo p hp).trans h'.consumed
    · exact h'.upTo p hp

theorem Grows.trans (h : l.Grows l') (h' : l'.Grows l'') : l.Grows l'' := by
  obtain ⟨added, h⟩ := h
  obtain ⟨added', h'⟩ := h'
  exact ⟨added ++ added', h.trans h'⟩

/-- Reading enters no token. -/
theorem Grows.read (h : l.Grows l') (n : Nat) :
    l.Grows { l' with consumed := l'.consumed + n } := by
  refine h.trans ⟨[], (List.append_nil _).symm, rfl, rfl, Nat.le_add_right _ _, .nil, ?_, ?_⟩
  · simp [sites]
  · simp [sites]

end Ledger

namespace Machine

/-- The books of a machine. -/
def ledger (m : Machine) : Ledger := ⟨m.queue.toList, m.tokens, m.errors, m.input.consumed⟩

/-! ## (3) Actions that enter nothing -/

section

variable {l : Ledger} {m : Machine}

@[simp] theorem grows_ite (p : Prop) [Decidable p] (k k' : Machine) :
    l.Grows (if p then k else k').ledger ↔ (p → l.Grows k.ledger) ∧ (¬p → l.Grows k'.ledger) := by
  split <;> simp_all

@[simp] theorem grows_goto (next : State) : l.Grows (m.goto next).ledger ↔ l.Grows m.ledger := by
  unfold goto
  split <;> rfl

@[simp] theorem grows_putChar (c : Char) : l.Grows (m.putChar c).ledger ↔ l.Grows m.ledger := Iff.rfl

@[simp] theorem grows_putText (t : String) :
    l.Grows (m.putText t).ledger ↔ l.Grows m.ledger := Iff.rfl

@[simp] theorem grows_openTag (kind : TagKind) (c : Char) :
    l.Grows (m.openTag kind c).ledger ↔ l.Grows m.ledger := Iff.rfl

@[simp] theorem grows_putTagName (c : Char) :
    l.Grows (m.putTagName c).ledger ↔ l.Grows m.ledger := Iff.rfl

@[simp] theorem grows_dropAttribute : l.Grows m.dropAttribute.ledger ↔ l.Grows m.ledger := Iff.rfl

@[simp] theorem grows_putAttributeName (c : Char) :
    l.Grows (m.putAttributeName c).ledger ↔ l.Grows m.ledger := Iff.rfl

@[simp] theorem grows_putAttributeValue (c : Char) :
    l.Grows (m.putAttributeValue c).ledger ↔ l.Grows m.ledger := Iff.rfl

@[simp] theorem grows_markSelfClosing :
    l.Grows m.markSelfClosing.ledger ↔ l.Grows m.ledger := Iff.rfl

@[simp] theorem grows_resetTag : l.Grows m.resetTag.ledger ↔ l.Grows m.ledger := Iff.rfl

@[simp] theorem grows_putLetter (c : Char) :
    l.Grows (m.putLetter c).ledger ↔ l.Grows m.ledger := Iff.rfl

@[simp] theorem grows_clearLetters : l.Grows m.clearLetters.ledger ↔ l.Grows m.ledger := Iff.rfl

@[simp] theorem grows_putComment (c : Char) :
    l.Grows (m.putComment c).ledger ↔ l.Grows m.ledger := Iff.rfl

@[simp] theorem grows_putCommentText (t : String) :
    l.Grows (m.putCommentText t).ledger ↔ l.Grows m.ledger := Iff.rfl

@[simp] theorem grows_openComment (t : String) :
    l.Grows (m.openComment t).ledger ↔ l.Grows m.ledger := Iff.rfl

@[simp] theorem grows_putDoctypeName (c : Char) :
    l.Grows (m.putDoctypeName c).ledger ↔ l.Grows m.ledger := Iff.rfl

@[simp] theorem grows_openIdentifier (kind : IdentifierKind) :
    l.Grows (m.openIdentifier kind).ledger ↔ l.Grows m.ledger := by
  cases kind <;> rfl

@[simp] theorem grows_putIdentifier (c : Char) (kind : IdentifierKind) :
    l.Grows (m.putIdentifier c kind).ledger ↔ l.Grows m.ledger := by
  cases kind <;> rfl

@[simp] theorem grows_resetDoctype : l.Grows m.resetDoctype.ledger ↔ l.Grows m.ledger := Iff.rfl

@[simp] theorem grows_forceQuirks : l.Grows m.forceQuirks.ledger ↔ l.Grows m.ledger := Iff.rfl

@[simp] theorem grows_beginReference : l.Grows m.beginReference.ledger ↔ l.Grows m.ledger := Iff.rfl

@[simp] theorem grows_keepReference (r : Reference) :
    l.Grows (m.keepReference r).ledger ↔ l.Grows m.ledger := Iff.rfl

@[simp] theorem grows_closeReference (r : Reference) (t : String) :
    l.Grows (m.closeReference r t).ledger ↔ l.Grows m.ledger := by
  unfold closeReference
  cases r.inAttribute <;> rfl

@[simp] theorem grows_putRun (t : String) : l.Grows (m.putRun t).ledger ↔ l.Grows m.ledger := by
  unfold putRun
  split <;> rfl

end

/-! ## (4) Actions that enter something -/

theorem sites_heldBack (k : Machine) : sites k.heldBack = [] := by
  unfold heldBack textTokens
  split <;> rfl

/-- **A token is counted with the text held back** that is queued in front of it. -/
theorem ledger_emit (k : Machine) (t : Token) :
    (k.emit t).ledger = { k.ledger with
      queue := k.queue.toList ++ (k.heldBack ++ [t]),
      tokens := k.tokens + (k.heldBack ++ [t]).length } := by
  have hqueue := k.toList_queue_emit t
  unfold ledger
  rw [hqueue]
  unfold emit flush heldBack textTokens
  by_cases h : k.text = ""
  · simp [h, enqueue]
  · simp [h, enqueue, Nat.add_assoc]

/-- A token that is no error is entered. -/
theorem records_emit (k : Machine) {t : Token} (ht : t.site? = none) :
    k.ledger.Records (k.emit t).ledger (k.heldBack ++ [t]) := by
  have hsites : sites (k.heldBack ++ [t]) = [] := by
    rw [sites_append, sites_heldBack]
    simp [sites, ht]
  rw [ledger_emit]
  exact ⟨rfl, rfl, by simp [hsites], Nat.le_refl _, by simp [hsites], by simp [hsites],
    by simp [hsites]⟩

/-- **An error is entered** at the position the machine is at. -/
theorem records_report (k : Machine) (code : ErrorCode) :
    k.ledger.Records (k.report code).ledger
      (k.heldBack ++ [.error ⟨code, k.input.consumed⟩ k.state]) := by
  have hsites : sites (k.heldBack ++ [.error ⟨code, k.input.consumed⟩ k.state])
      = [⟨k.state, k.input.consumed⟩] := by
    rw [sites_append, sites_heldBack]
    rfl
  rw [report, ledger_emit]
  exact ⟨rfl, rfl, by simp [hsites, ledger], Nat.le_refl _, by simp [hsites],
    by simp [hsites, ledger], by simp [hsites, ledger]⟩

section

variable {l : Ledger} {k : Machine}

@[simp] theorem grows_advance (h : l.Grows k.ledger) : l.Grows k.advance.ledger := h.read 1

@[simp] theorem grows_skip (h : l.Grows k.ledger) (n : Nat) : l.Grows (k.skip n).ledger := h.read n

@[simp] theorem grows_emit (h : l.Grows k.ledger) {t : Token} (ht : t.site? = none) :
    l.Grows (k.emit t).ledger := h.trans ⟨_, k.records_emit ht⟩

@[simp] theorem grows_report (h : l.Grows k.ledger) (code : ErrorCode) :
    l.Grows (k.report code).ledger := h.trans ⟨_, k.records_report code⟩

@[simp] theorem grows_emitEnd (h : l.Grows k.ledger) : l.Grows k.emitEnd.ledger :=
  show l.Grows (k.emit .endOfInput).ledger from grows_emit h rfl

@[simp] theorem grows_closeAttribute (h : l.Grows k.ledger) : l.Grows k.closeAttribute.ledger := by
  unfold closeAttribute
  split
  · exact h
  · split
    · exact grows_report (grows_dropAttribute.mpr h) _
    · exact h

@[simp] theorem grows_openAttribute (h : l.Grows k.ledger) (c : Char) :
    l.Grows (k.openAttribute c).ledger := grows_closeAttribute h

@[simp] theorem grows_reportTag (h : l.Grows k.ledger) (t : Tag) :
    l.Grows (k.reportTag t).ledger := by
  unfold reportTag
  cases t.kind with
  | opening => exact h
  | closing => cases t.attributes.isEmpty <;> cases t.selfClosing <;> simp [h]

@[simp] theorem grows_emitTag (h : l.Grows k.ledger) : l.Grows k.emitTag.ledger := by
  rw [emitTag, grows_goto]
  exact grows_emit (grows_reportTag (grows_resetTag.mpr (grows_closeAttribute h)) _) rfl

@[simp] theorem grows_emitComment (h : l.Grows k.ledger) : l.Grows k.emitComment.ledger := by
  rw [emitComment, grows_goto]
  exact grows_emit ((grows_openComment "").mpr h) rfl

@[simp] theorem grows_emitDoctype (h : l.Grows k.ledger) : l.Grows k.emitDoctype.ledger := by
  rw [emitDoctype, grows_goto]
  exact grows_emit (grows_resetDoctype.mpr h) rfl

@[simp] theorem grows_reportNumber (h : l.Grows k.ledger) (n : Nat) :
    l.Grows (k.reportNumber n).ledger := by
  unfold reportNumber
  split <;> simp [h]

end

/-! ## (5) What each state enters -/

section

variable {l : Ledger} {m : Machine} (h : l.Grows m.ledger) (c : Char)
include h

@[simp] theorem grows_stepData : l.Grows (m.stepData c).ledger := by
  unfold stepData
  split
  · simp [h]
  · simp [h]
  · -- a NUL is a token of its own here
    exact grows_emit (grows_report (grows_advance h) _) rfl
  · simp [h]

@[simp] theorem grows_replaceNull : l.Grows m.replaceNull.ledger := by simp [replaceNull, h]

@[simp] theorem grows_stepPlaintext : l.Grows (m.stepPlaintext c).ledger := by
  unfold stepPlaintext
  split <;> simp [h]

@[simp] theorem grows_escapedLessThan (kind : EscapeKind) :
    l.Grows (m.escapedLessThan kind).ledger := by
  cases kind <;> simp [escapedLessThan, h]

@[simp] theorem grows_stepRawData (kind : RawKind) : l.Grows (m.stepRawData kind c).ledger := by
  unfold stepRawData
  split <;> simp [h]

@[simp] theorem grows_stepRawLessThanSign (kind : RawKind) :
    l.Grows (m.stepRawLessThanSign kind c).ledger := by
  unfold stepRawLessThanSign
  split <;> simp [h]

@[simp] theorem grows_stepRawEndTagOpen (kind : RawKind) :
    l.Grows (m.stepRawEndTagOpen kind c).ledger := by
  simp [stepRawEndTagOpen, h]

@[simp] theorem grows_putBackEndTag (kind : RawKind) : l.Grows (m.putBackEndTag kind).ledger := by
  simp [putBackEndTag, h]

@[simp] theorem grows_stepRawEndTagName (kind : RawKind) :
    l.Grows (m.stepRawEndTagName kind c).ledger := by
  simp [stepRawEndTagName, h]

@[simp] theorem grows_escapeDash (onDash otherwise : State) :
    l.Grows (m.escapeDash c onDash otherwise).ledger := by
  simp [escapeDash, h]

@[simp] theorem grows_escapeBoundary (onScript otherwise : EscapeKind) :
    l.Grows (m.escapeBoundary c onScript otherwise).ledger := by
  simp [escapeBoundary, h]

@[simp] theorem grows_stepEscapeStart (kind : EscapeKind) :
    l.Grows (m.stepEscapeStart kind c).ledger := by
  cases kind <;> simp [stepEscapeStart, h]

@[simp] theorem grows_afterDashes (kind : EscapeKind) : l.Grows (m.afterDashes kind c).ledger := by
  unfold afterDashes
  split <;> simp [h]

@[simp] theorem grows_stepEscapedDash (kind : EscapeKind) :
    l.Grows (m.stepEscapedDash kind c).ledger := by
  unfold stepEscapedDash
  split <;> simp [h]

@[simp] theorem grows_stepEscapedDashDash (kind : EscapeKind) :
    l.Grows (m.stepEscapedDashDash kind c).ledger := by
  unfold stepEscapedDashDash
  split <;> simp [h]

@[simp] theorem grows_stepTagOpen : l.Grows (m.stepTagOpen c).ledger := by simp [stepTagOpen, h]

@[simp] theorem grows_stepEndTagOpen : l.Grows (m.stepEndTagOpen c).ledger := by
  simp [stepEndTagOpen, h]

@[simp] theorem grows_stepTagName : l.Grows (m.stepTagName c).ledger := by simp [stepTagName, h]

@[simp] theorem grows_beginAttribute : l.Grows (m.beginAttribute c).ledger := by
  simp [beginAttribute, h]

@[simp] theorem grows_stepBeforeAttributeName :
    l.Grows (m.stepBeforeAttributeName c).ledger := by
  simp [stepBeforeAttributeName, h]

@[simp] theorem grows_stepAttributeName : l.Grows (m.stepAttributeName c).ledger := by
  simp [stepAttributeName, h]

@[simp] theorem grows_stepAfterAttributeName : l.Grows (m.stepAfterAttributeName c).ledger := by
  simp [stepAfterAttributeName, h]

@[simp] theorem grows_stepBeforeAttributeValue :
    l.Grows (m.stepBeforeAttributeValue c).ledger := by
  simp [stepBeforeAttributeValue, h]

@[simp] theorem grows_stepAttributeValue (kind : QuoteKind) :
    l.Grows (m.stepAttributeValue kind c).ledger := by
  simp [stepAttributeValue, h]

@[simp] theorem grows_stepAfterAttributeValueQuoted :
    l.Grows (m.stepAfterAttributeValueQuoted c).ledger := by
  simp [stepAfterAttributeValueQuoted, h]

@[simp] theorem grows_stepSelfClosingStartTag :
    l.Grows (m.stepSelfClosingStartTag c).ledger := by
  simp [stepSelfClosingStartTag, h]

@[simp] theorem grows_putCommentChar : l.Grows (m.putCommentChar c).ledger := by
  simp [putCommentChar, putBackDashes, h]

@[simp] theorem grows_stepBogusComment : l.Grows (m.stepBogusComment c).ledger := by
  simp [stepBogusComment, h]

@[simp] theorem grows_stepCommentStart : l.Grows (m.stepCommentStart c).ledger := by
  simp [stepCommentStart, h]

@[simp] theorem grows_stepCommentStartDash : l.Grows (m.stepCommentStartDash c).ledger := by
  simp [stepCommentStartDash, h]

@[simp] theorem grows_stepCommentText : l.Grows (m.stepCommentText c).ledger := by
  simp [stepCommentText, h]

@[simp] theorem grows_stepCommentEndDash : l.Grows (m.stepCommentEndDash c).ledger := by
  simp [stepCommentEndDash, h]

@[simp] theorem grows_stepCommentEnd : l.Grows (m.stepCommentEnd c).ledger := by
  simp [stepCommentEnd, h]

@[simp] theorem grows_stepCommentEndBang : l.Grows (m.stepCommentEndBang c).ledger := by
  simp [stepCommentEndBang, h]

@[simp] theorem grows_beforeDoctypeName : l.Grows (m.beforeDoctypeName c).ledger := by
  simp [beforeDoctypeName, h]

@[simp] theorem grows_stepDoctype : l.Grows (m.stepDoctype c).ledger := by simp [stepDoctype, h]

@[simp] theorem grows_stepBeforeDoctypeName : l.Grows (m.stepBeforeDoctypeName c).ledger := by
  simp [stepBeforeDoctypeName, h]

@[simp] theorem grows_stepDoctypeName : l.Grows (m.stepDoctypeName c).ledger := by
  simp [stepDoctypeName, h]

@[simp] theorem grows_abandonDoctype (code : ErrorCode) :
    l.Grows (m.abandonDoctype code).ledger := by
  simp [abandonDoctype, h]

@[simp] theorem grows_cutDoctype (code : ErrorCode) : l.Grows (m.cutDoctype code).ledger := by
  simp [cutDoctype, h]

@[simp] theorem grows_beginIdentifier (kind : IdentifierKind) :
    l.Grows (m.beginIdentifier kind c).ledger := by
  simp [beginIdentifier, h]

@[simp] theorem grows_stepAfterDoctypeKeyword (kind : IdentifierKind) :
    l.Grows (m.stepAfterDoctypeKeyword kind c).ledger := by
  simp [stepAfterDoctypeKeyword, h]

@[simp] theorem grows_stepBeforeDoctypeIdentifier (kind : IdentifierKind) :
    l.Grows (m.stepBeforeDoctypeIdentifier kind c).ledger := by
  simp [stepBeforeDoctypeIdentifier, h]

@[simp] theorem grows_stepDoctypeIdentifier (kind : IdentifierKind) (quote : Char) :
    l.Grows (m.stepDoctypeIdentifier kind quote c).ledger := by
  simp [stepDoctypeIdentifier, h]

@[simp] theorem grows_stepAfterPublicIdentifier :
    l.Grows (m.stepAfterPublicIdentifier c).ledger := by
  simp [stepAfterPublicIdentifier, h]

@[simp] theorem grows_stepAfterSystemIdentifier :
    l.Grows (m.stepAfterSystemIdentifier c).ledger := by
  simp [stepAfterSystemIdentifier, h]

@[simp] theorem grows_stepBetweenIdentifiers : l.Grows (m.stepBetweenIdentifiers c).ledger := by
  simp [stepBetweenIdentifiers, h]

@[simp] theorem grows_stepBogusDoctype : l.Grows (m.stepBogusDoctype c).ledger := by
  simp [stepBogusDoctype, h]

variable {k : Machine}

theorem grows_stepMarkupDeclarationOpen (hk : m.stepMarkupDeclarationOpen = some k) :
    l.Grows k.ledger := by
  unfold stepMarkupDeclarationOpen at hk
  repeat' split at hk
  all_goals cases hk
  all_goals simp [h]

theorem grows_stepAfterDoctypeName (hk : m.stepAfterDoctypeName c = some k) :
    l.Grows k.ledger := by
  unfold stepAfterDoctypeName at hk
  repeat' split at hk
  all_goals cases hk
  all_goals simp [h]

/-- **A step at a character** enters what it does. -/
theorem grows_stepChar (hk : m.stepChar c = some k) : l.Grows k.ledger := by
  unfold stepChar at hk
  -- every other state makes a step whatever has arrived
  cases hstate : m.state with
  | markupDeclarationOpen =>
    simp only [hstate] at hk
    exact grows_stepMarkupDeclarationOpen h hk
  | afterDoctypeName =>
    simp only [hstate] at hk
    exact grows_stepAfterDoctypeName h c hk
  | afterDoctypeIdentifier kind =>
    cases kind <;> simp only [hstate, Option.some.injEq] at hk <;> simp [← hk, h]
  | _ =>
    simp only [hstate, Option.some.injEq] at hk
    simp [stepEscapeStartDash, stepDoubleEscapeEnd, ← hk, h]

@[simp] theorem grows_closeLiteral (r : Reference) : l.Grows (m.closeLiteral r).ledger := by
  simp [closeLiteral, h]

@[simp] theorem grows_closeNumber (r : Reference) : l.Grows (m.closeNumber r).ledger := by
  simp [closeNumber, h]

@[simp] theorem grows_closeName (r : Reference) (next : Option Char) :
    l.Grows (m.closeName r next).ledger := by
  simp only [closeName]
  repeat' split
  all_goals simp [h]

/-- **A step of a reference** enters what it does. -/
theorem grows_stepReference (r : Reference) (next : Option Char) :
    l.Grows (m.stepReference r next).ledger := by
  unfold stepReference
  cases r.phase with
  | opened =>
    simp only [stepOpened]
    split <;> simp [h]
  | numeric =>
    simp only [stepNumeric]
    split <;> simp [h]
  | digits hex =>
    simp only [stepDigits, endDigits]
    repeat' split
    all_goals simp [h]
  | named =>
    simp only [stepNamed]
    repeat' split
    all_goals simp [h]

/-- **A step at the end of the input** enters what it does. -/
theorem grows_stepEnd : l.Grows m.stepEnd.ledger := by
  unfold stepEnd
  split <;> simp [endDoctype, h]

end

/-! ## (6) Steps and runs -/

variable {m k : Machine}

/-- **Every step** enters what it does. -/
theorem grows_step {pace : Pace} (h : step pace m = some k) : m.ledger.Grows k.ledger := by
  unfold step at h
  split at h
  · cases h
  · split at h
    · cases h
      exact grows_stepReference (.refl _) _ _
    · split at h
      · cases h
        exact grows_stepReference (.refl _) _ _
      · cases h
    · unfold stepAt at h
      simp only at h
      split at h
      · exact grows_stepChar (.refl _) _ h
      · -- a run of plain text is read and queues nothing
        cases h
        rw [grows_putRun]
        exact grows_skip (.refl _) _
    · split at h
      · cases h
        exact grows_stepEnd (.refl _)
      · cases h

theorem grows_leads (h : m.Leads k) : m.ledger.Grows k.ledger := by
  induction h with
  | refl => exact .refl _
  | tail _ hstep ih => exact ih.trans (grows_step hstep)

/-- **So does every run**: from an empty queue it enters what it queues. -/
theorem records_run (h : m.queue = #[]) : m.ledger.Records m.run.ledger m.run.queue.toList := by
  obtain ⟨added, hadded⟩ := grows_leads m.leads_run
  have hqueue : m.run.queue.toList = added := by
    rw [show m.run.queue.toList = m.queue.toList ++ added from hadded.queue, h]
    rfl
  rw [hqueue]
  exact hadded

end Machine

end HtmlStream

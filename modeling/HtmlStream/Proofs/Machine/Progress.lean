import HtmlStream.Proofs.Lookahead
import HtmlStream.Proofs.Machine.Course

/-! # Every step makes progress

A step reads a character or moves to a state in which fewer steps can follow before one is read. The
rank of a course counts both, so that every step lowers it and no machine runs for ever.

* **`Course.rank`**: eight for each unread character, and what the state and the reference add.
* **`input_stepTagName`, …**: the states that read a character each time.
* **`rank_step`**: every step lowers the rank.
* **`step_runFor`**: with fuel above the rank the machine runs until it waits or has ended;
  `rank_lt_stepBound`: `stepBound` is above the rank. -/

namespace HtmlStream

/-! ## (1) The rank -/

/-- How many steps can follow in a state before a character is read, the one that reads it included. -/
def State.rank : State → Nat
  | .data | .plaintext | .rawData _ => 1
  | .rawLessThanSign _ | .tagOpen | .endTagOpen | .beforeAttributeValue
  | .afterAttributeValueQuoted | .selfClosingStartTag | .markupDeclarationOpen
  | .afterDoctypeName => 3
  | _ => 2

theorem State.rank_pos (s : State) : 0 < s.rank := by
  unfold rank
  split <;> omega

theorem State.rank_le (s : State) : s.rank ≤ 3 := by
  unfold rank
  split <;> omega

/-- How many steps can follow in a reference before a character is read. -/
def Reference.Phase.rank : Reference.Phase → Nat
  | .opened | .numeric => 2
  | .digits _ | .named => 1

/-- What a reference under construction adds. -/
def Reference.rank? : Option Reference → Nat
  | none => 0
  | some r => r.phase.rank

theorem Reference.rank?_le (r : Option Reference) : rank? r ≤ 2 := by
  cases r with
  | none => simp [rank?]
  | some r =>
    rw [rank?]
    cases r.phase <;> simp [Phase.rank]

namespace Course

/-- **The rank**: an upper bound on the steps to come. -/
def rank (k : Course) : Nat :=
  if k.ended then 0
  else 8 * k.input.pending.length + k.state.rank + Reference.rank? k.reference

theorem rank_le (k : Course) : k.rank ≤ 8 * k.input.pending.length + 5 := by
  have hstate := k.state.rank_le
  have href := Reference.rank?_le k.reference
  unfold rank
  split <;> omega

theorem rank_of_not_ended {k : Course} (h : k.ended = false) :
    k.rank = 8 * k.input.pending.length + k.state.rank + Reference.rank? k.reference := by
  rw [rank, if_neg (by simp [h])]

/-- **Reading lowers the rank**, whatever else it changes. -/
theorem rank_lt_of_read {k k' : Course} (h : k.ended = false)
    (hlen : k'.input.pending.length < k.input.pending.length) : k'.rank < k.rank := by
  have hstate := k.state.rank_pos
  have hle := k'.rank_le
  rw [rank_of_not_ended h]
  omega

/-- Moving lowers the rank if the state has a lower one. -/
theorem rank_lt_of_state {k : Course} (h : k.ended = false) {next : State}
    (hlt : next.rank < k.state.rank) : { k with state := next }.rank < k.rank := by
  have hnext : { k with state := next }.ended = false := h
  rw [rank_of_not_ended h, rank_of_not_ended hnext]
  simp only
  omega

/-- A reference that goes on without reading lowers the rank if its phase has a lower one. -/
theorem rank_lt_of_reference {k : Course} (h : k.ended = false) {next : Option Reference}
    (hlt : Reference.rank? next < Reference.rank? k.reference) :
    { k with reference := next }.rank < k.rank := by
  have hnext : { k with reference := next }.ended = false := h
  rw [rank_of_not_ended h, rank_of_not_ended hnext]
  simp only
  omega

/-- The end lowers the rank. -/
theorem rank_lt_of_end {k : Course} (h : k.ended = false) :
    { k with ended := true }.rank < k.rank := by
  have hstate := k.state.rank_pos
  rw [rank_of_not_ended h, rank, if_pos rfl]
  omega

@[simp] theorem input_ite (p : Prop) [Decidable p] (k k' : Course) :
    (if p then k else k').input = if p then k.input else k'.input :=
  apply_ite Course.input p k k'

end Course

namespace Machine

/-! ## (2) States that read a character -/

section

variable (m : Machine) (c : Char)

@[simp] theorem course_replaceNull : m.replaceNull.course = m.course := by simp [replaceNull]

@[simp] theorem input_escapedLessThan (kind : EscapeKind) :
    (m.escapedLessThan kind).course.input = m.course.input := by
  cases kind <;> simp [escapedLessThan]

@[simp] theorem input_afterDashes (kind : EscapeKind) :
    (m.afterDashes kind c).course.input = m.course.input := by
  unfold afterDashes
  split <;> simp

@[simp] theorem input_beginAttribute : (m.beginAttribute c).course.input = m.course.input := by
  simp [beginAttribute]

@[simp] theorem input_putCommentChar : (m.putCommentChar c).course.input = m.course.input := by
  simp [putCommentChar, putBackDashes]

@[simp] theorem input_beforeDoctypeName : (m.beforeDoctypeName c).course.input = m.course.input := by
  simp [beforeDoctypeName]

@[simp] theorem input_stepData : (m.stepData c).course.input = m.course.input.advance := by
  unfold stepData
  split <;> simp

@[simp] theorem input_stepPlaintext : (m.stepPlaintext c).course.input = m.course.input.advance := by
  unfold stepPlaintext
  split <;> simp

@[simp] theorem input_stepRawData (kind : RawKind) :
    (m.stepRawData kind c).course.input = m.course.input.advance := by
  unfold stepRawData
  split <;> simp

@[simp] theorem input_stepEscapedDash (kind : EscapeKind) :
    (m.stepEscapedDash kind c).course.input = m.course.input.advance := by
  unfold stepEscapedDash
  split <;> simp

@[simp] theorem input_stepEscapedDashDash (kind : EscapeKind) :
    (m.stepEscapedDashDash kind c).course.input = m.course.input.advance := by
  unfold stepEscapedDashDash
  split <;> simp

@[simp] theorem input_stepTagName : (m.stepTagName c).course.input = m.course.input.advance := by
  simp [stepTagName]

@[simp] theorem input_stepBeforeAttributeName :
    (m.stepBeforeAttributeName c).course.input = m.course.input.advance := by
  simp [stepBeforeAttributeName]

@[simp] theorem input_stepAttributeName :
    (m.stepAttributeName c).course.input = m.course.input.advance := by
  simp [stepAttributeName]

@[simp] theorem input_stepAfterAttributeName :
    (m.stepAfterAttributeName c).course.input = m.course.input.advance := by
  simp [stepAfterAttributeName]

@[simp] theorem input_stepAttributeValue (kind : QuoteKind) :
    (m.stepAttributeValue kind c).course.input = m.course.input.advance := by
  simp [stepAttributeValue]

@[simp] theorem input_stepBogusComment :
    (m.stepBogusComment c).course.input = m.course.input.advance := by
  simp [stepBogusComment]

@[simp] theorem input_stepCommentStart :
    (m.stepCommentStart c).course.input = m.course.input.advance := by
  simp [stepCommentStart]

@[simp] theorem input_stepCommentStartDash :
    (m.stepCommentStartDash c).course.input = m.course.input.advance := by
  simp [stepCommentStartDash]

@[simp] theorem input_stepCommentText :
    (m.stepCommentText c).course.input = m.course.input.advance := by
  simp [stepCommentText]

@[simp] theorem input_stepCommentEndDash :
    (m.stepCommentEndDash c).course.input = m.course.input.advance := by
  simp [stepCommentEndDash]

@[simp] theorem input_stepCommentEnd : (m.stepCommentEnd c).course.input = m.course.input.advance := by
  simp [stepCommentEnd]

@[simp] theorem input_stepCommentEndBang :
    (m.stepCommentEndBang c).course.input = m.course.input.advance := by
  simp [stepCommentEndBang]

@[simp] theorem input_stepDoctype : (m.stepDoctype c).course.input = m.course.input.advance := by
  simp [stepDoctype]

@[simp] theorem input_stepBeforeDoctypeName :
    (m.stepBeforeDoctypeName c).course.input = m.course.input.advance := by
  simp [stepBeforeDoctypeName]

@[simp] theorem input_stepDoctypeName : (m.stepDoctypeName c).course.input = m.course.input.advance := by
  simp [stepDoctypeName]

@[simp] theorem input_stepAfterDoctypeKeyword (kind : IdentifierKind) :
    (m.stepAfterDoctypeKeyword kind c).course.input = m.course.input.advance := by
  simp [stepAfterDoctypeKeyword, beginIdentifier, cutDoctype, abandonDoctype]

@[simp] theorem input_stepBeforeDoctypeIdentifier (kind : IdentifierKind) :
    (m.stepBeforeDoctypeIdentifier kind c).course.input = m.course.input.advance := by
  simp [stepBeforeDoctypeIdentifier, beginIdentifier, cutDoctype, abandonDoctype]

@[simp] theorem input_stepDoctypeIdentifier (kind : IdentifierKind) (quote : Char) :
    (m.stepDoctypeIdentifier kind quote c).course.input = m.course.input.advance := by
  simp [stepDoctypeIdentifier, cutDoctype]

@[simp] theorem input_stepAfterPublicIdentifier :
    (m.stepAfterPublicIdentifier c).course.input = m.course.input.advance := by
  simp [stepAfterPublicIdentifier, beginIdentifier, abandonDoctype]

@[simp] theorem input_stepAfterSystemIdentifier :
    (m.stepAfterSystemIdentifier c).course.input = m.course.input.advance := by
  simp [stepAfterSystemIdentifier]

@[simp] theorem input_stepBetweenIdentifiers :
    (m.stepBetweenIdentifiers c).course.input = m.course.input.advance := by
  simp [stepBetweenIdentifiers, beginIdentifier, abandonDoctype]

@[simp] theorem input_stepBogusDoctype :
    (m.stepBogusDoctype c).course.input = m.course.input.advance := by
  simp [stepBogusDoctype]

end

/-- Whether a state reads a character each time. -/
def reads : State → Bool
  | .rawLessThanSign _ | .rawEndTagOpen _ | .rawEndTagName _ | .scriptDataEscapeStart _
  | .scriptDataEscapeStartDash | .scriptDataDoubleEscapeEnd | .tagOpen | .endTagOpen
  | .beforeAttributeValue | .afterAttributeValueQuoted | .selfClosingStartTag
  | .markupDeclarationOpen | .afterDoctypeName => false
  | _ => true

/-- **Those states read one character.** -/
theorem input_stepChar {m m' : Machine} {c : Char} (hreads : reads m.state = true)
    (h : m.stepChar c = some m') : m'.course.input = m.course.input.advance := by
  unfold stepChar at h
  cases hstate : m.state with
  | afterDoctypeIdentifier kind =>
    -- two functions serve this state, one for each kind of identifier
    cases kind <;> simp only [hstate, Option.some.injEq] at h <;> simp [← h]
  | _ =>
    -- `hreads` excludes the states that may leave the character; each of the others advances
    simp [hstate, reads] at hreads <;> simp only [hstate, Option.some.injEq] at h <;> simp [← h]

/-! ## (3) States that may leave the character unread -/

section

variable {m : Machine} (c : Char)

/-- Reading is progress. -/
theorem rank_lt_of_advance (hended : m.ended = false) (hne : m.input.pending ≠ []) {k : Course}
    (h : k.input = m.course.input.advance) : k.rank < m.course.rank := by
  refine Course.rank_lt_of_read hended ?_
  have hlen : m.course.input.advance.pending.length < m.course.input.pending.length := by
    have hpos : 0 < m.input.pending.length := List.length_pos_iff.mpr hne
    show m.input.pending.tail.length < m.input.pending.length
    rw [List.length_tail]
    omega
  rwa [h]

/-- Moving on is progress, if the state has a lower rank. -/
theorem rank_lt_of_goto (hended : m.ended = false) {state next : State} (hstate : m.state = state)
    (hlt : next.rank < state.rank) : { m.course with state := next }.rank < m.course.rank :=
  Course.rank_lt_of_state hended (by subst hstate; exact hlt)

variable (hended : m.ended = false) (hne : m.input.pending ≠ [])
include hended hne

theorem rank_stepRawLessThanSign {kind : RawKind} (hstate : m.state = .rawLessThanSign kind) :
    (m.stepRawLessThanSign kind c).course.rank < m.course.rank := by
  -- each branch either reads, whatever it changes, or moves to a state of lower rank
  have hread := fun k => @rank_lt_of_advance m hended hne k
  have hmove := fun next => @rank_lt_of_goto m hended _ next hstate
  unfold stepRawLessThanSign
  split
  · exact hread _ (by simp)
  · simpa using hmove (.rawData _) (by simp [State.rank])
  · exact hread _ (by simp)
  · exact hread _ (by simp)
  · split
    · simpa using hmove (.scriptDataEscapeStart _) (by simp [State.rank])
    · simpa using hmove (.rawData _) (by simp [State.rank])
  · simpa using hmove (.rawData _) (by simp [State.rank])

theorem rank_stepRawEndTagOpen {kind : RawKind} (hstate : m.state = .rawEndTagOpen kind) :
    (m.stepRawEndTagOpen kind c).course.rank < m.course.rank := by
  unfold stepRawEndTagOpen
  split
  · exact rank_lt_of_advance hended hne (by simp)
  · simpa using @rank_lt_of_goto m hended _ (.rawData kind) hstate (by simp [State.rank])

theorem rank_stepRawEndTagName {kind : RawKind} (hstate : m.state = .rawEndTagName kind) :
    (m.stepRawEndTagName kind c).course.rank < m.course.rank := by
  have hread := fun k => @rank_lt_of_advance m hended hne k
  have hmove := fun next => @rank_lt_of_goto m hended _ next hstate
  unfold stepRawEndTagName
  repeat' split
  · exact hread _ (by simp)
  · exact hread _ (by simp)
  · exact hread _ (by simp)
  · exact hread _ (by simp)
  · simpa [putBackEndTag] using hmove (.rawData _) (by simp [State.rank])

theorem rank_escapeDash {state : State} (hstate : m.state = state) (onDash otherwise : State)
    (hlt : otherwise.rank < state.rank) :
    (m.escapeDash c onDash otherwise).course.rank < m.course.rank := by
  unfold escapeDash
  split
  · exact rank_lt_of_advance hended hne (by simp)
  · simpa using rank_lt_of_goto hended hstate hlt

theorem rank_escapeBoundary {state : State} (hstate : m.state = state)
    (onScript otherwise : EscapeKind)
    (hlt : (State.rawData (.scriptDataEscaped otherwise)).rank < state.rank) :
    (m.escapeBoundary c onScript otherwise).course.rank < m.course.rank := by
  unfold escapeBoundary
  repeat' split
  · exact rank_lt_of_advance hended hne (by simp)
  · exact rank_lt_of_advance hended hne (by simp)
  · exact rank_lt_of_advance hended hne (by simp)
  · simpa using rank_lt_of_goto hended hstate hlt

theorem rank_stepTagOpen (hstate : m.state = .tagOpen) :
    (m.stepTagOpen c).course.rank < m.course.rank := by
  have hread := fun k => @rank_lt_of_advance m hended hne k
  have hmove := fun next => @rank_lt_of_goto m hended _ next hstate
  unfold stepTagOpen
  repeat' split
  · exact hread _ (by simp)
  · exact hread _ (by simp)
  · simpa using hmove .bogusComment (by decide)
  · exact hread _ (by simp)
  · simpa using hmove .data (by decide)

theorem rank_stepEndTagOpen (hstate : m.state = .endTagOpen) :
    (m.stepEndTagOpen c).course.rank < m.course.rank := by
  unfold stepEndTagOpen
  repeat' split
  · exact rank_lt_of_advance hended hne (by simp)
  · exact rank_lt_of_advance hended hne (by simp)
  · simpa using rank_lt_of_goto hended hstate (by decide : State.bogusComment.rank < _)

theorem rank_stepBeforeAttributeValue (hstate : m.state = .beforeAttributeValue) :
    (m.stepBeforeAttributeValue c).course.rank < m.course.rank := by
  have hread := fun k => @rank_lt_of_advance m hended hne k
  unfold stepBeforeAttributeValue
  repeat' split
  · exact hread _ (by simp)
  · exact hread _ (by simp)
  · exact hread _ (by simp)
  · exact hread _ (by simp)
  · simpa using
      rank_lt_of_goto hended hstate (by decide : (State.attributeValue .unquoted).rank < _)

theorem rank_stepAfterAttributeValueQuoted (hstate : m.state = .afterAttributeValueQuoted) :
    (m.stepAfterAttributeValueQuoted c).course.rank < m.course.rank := by
  have hread := fun k => @rank_lt_of_advance m hended hne k
  unfold stepAfterAttributeValueQuoted
  repeat' split
  · exact hread _ (by simp)
  · exact hread _ (by simp)
  · exact hread _ (by simp)
  · simpa using rank_lt_of_goto hended hstate (by decide : State.beforeAttributeName.rank < _)

theorem rank_stepSelfClosingStartTag (hstate : m.state = .selfClosingStartTag) :
    (m.stepSelfClosingStartTag c).course.rank < m.course.rank := by
  unfold stepSelfClosingStartTag
  split
  · exact rank_lt_of_advance hended hne (by simp)
  · simpa using rank_lt_of_goto hended hstate (by decide : State.beforeAttributeName.rank < _)

omit hne

/-- Skipping a keyword that has arrived is progress. -/
theorem rank_lt_of_skip {n : Nat} (hn : 0 < n) (hle : n ≤ m.input.pending.length) {k : Course}
    (h : k.input = m.course.input.skip n) : k.rank < m.course.rank := by
  refine Course.rank_lt_of_read hended ?_
  rw [h]
  show (m.input.pending.drop n).length < m.input.pending.length
  rw [List.length_drop]
  omega

theorem rank_stepMarkupDeclarationOpen {m' : Machine} (hstate : m.state = .markupDeclarationOpen)
    (h : m.stepMarkupDeclarationOpen = some m') : m'.course.rank < m.course.rank := by
  unfold stepMarkupDeclarationOpen at h
  -- for each of `--`, `DOCTYPE` and `[CDATA[`: found, undecided (no step), or not there
  split at h
  · rename_i hfound
    cases h
    exact rank_lt_of_skip hended (by decide) (Lookahead.length_le_of_found hfound) (by simp)
  · cases h
  · split at h
    · rename_i hfound
      cases h
      exact rank_lt_of_skip hended (by decide) (Lookahead.length_le_of_found hfound) (by simp)
    · cases h
    · split at h
      · rename_i hfound
        cases h
        exact rank_lt_of_skip hended (by decide) (Lookahead.length_le_of_found hfound) (by simp)
      · cases h
      · -- none of the three: the character stays for the bogus comment
        cases h
        simpa using rank_lt_of_goto hended hstate (by decide : State.bogusComment.rank < _)

include hne

theorem rank_stepAfterDoctypeName {m' : Machine} (hstate : m.state = .afterDoctypeName)
    (h : m.stepAfterDoctypeName c = some m') : m'.course.rank < m.course.rank := by
  unfold stepAfterDoctypeName at h
  split at h
  · cases h
    exact rank_lt_of_advance hended hne (by simp)
  · split at h
    · cases h
      exact rank_lt_of_advance hended hne (by simp)
    · -- `PUBLIC`, then `SYSTEM`: found, undecided (no step), or not there
      split at h
      · rename_i hfound
        cases h
        exact rank_lt_of_skip hended (by decide) (Lookahead.length_le_of_found hfound) (by simp)
      · cases h
      · split at h
        · rename_i hfound
          cases h
          exact rank_lt_of_skip hended (by decide) (Lookahead.length_le_of_found hfound) (by simp)
        · cases h
        · cases h
          simpa [abandonDoctype] using
            rank_lt_of_goto hended hstate (by decide : State.bogusDoctype.rank < _)

/-- **Every step at a character makes progress**, outside references. -/
theorem rank_stepChar {m' : Machine} (h : m.stepChar c = some m') :
    m'.course.rank < m.course.rank := by
  by_cases hreads : reads m.state = true
  · exact rank_lt_of_advance hended hne (input_stepChar hreads h)
  · -- thirteen states may leave the character; the last case is every other state
    unfold stepChar at h
    cases hstate : m.state with
    | rawLessThanSign kind =>
      cases hstate ▸ h
      exact rank_stepRawLessThanSign c hended hne hstate
    | rawEndTagOpen kind =>
      cases hstate ▸ h
      exact rank_stepRawEndTagOpen c hended hne hstate
    | rawEndTagName kind =>
      cases hstate ▸ h
      exact rank_stepRawEndTagName c hended hne hstate
    | scriptDataEscapeStart kind =>
      cases hstate ▸ h
      -- a dash is awaited after `<!`, and the letters of a nested script inside the escape
      cases kind with
      | escaped => exact rank_escapeDash c hended hne hstate _ _ (by decide)
      | doubleEscaped => exact rank_escapeBoundary c hended hne hstate _ _ (by decide)
    | scriptDataEscapeStartDash =>
      cases hstate ▸ h
      exact rank_escapeDash c hended hne hstate _ _ (by decide)
    | scriptDataDoubleEscapeEnd =>
      cases hstate ▸ h
      exact rank_escapeBoundary c hended hne hstate _ _ (by decide)
    | tagOpen =>
      cases hstate ▸ h
      exact rank_stepTagOpen c hended hne hstate
    | endTagOpen =>
      cases hstate ▸ h
      exact rank_stepEndTagOpen c hended hne hstate
    | beforeAttributeValue =>
      cases hstate ▸ h
      exact rank_stepBeforeAttributeValue c hended hne hstate
    | afterAttributeValueQuoted =>
      cases hstate ▸ h
      exact rank_stepAfterAttributeValueQuoted c hended hne hstate
    | selfClosingStartTag =>
      cases hstate ▸ h
      exact rank_stepSelfClosingStartTag c hended hne hstate
    | markupDeclarationOpen =>
      exact rank_stepMarkupDeclarationOpen hended hstate (by simpa only [hstate] using h)
    | afterDoctypeName =>
      exact rank_stepAfterDoctypeName c hended hne hstate (by simpa only [hstate] using h)
    | _ => exact absurd (by rw [hstate]; rfl) hreads

end

/-! ## (4) References and the end of the input -/

section

variable {m : Machine} {r : Reference}

/-- A reference that goes on without reading is in a phase of lower rank, or closed. -/
theorem rank_lt_of_reference (hended : m.ended = false) (href : m.reference = some r)
    {next : Option Reference} (hlt : Reference.rank? next < r.phase.rank) :
    { m.course with reference := next }.rank < m.course.rank :=
  Course.rank_lt_of_reference hended (by rw [course, href]; exact hlt)

@[simp] theorem course_closeLiteral :
    (m.closeLiteral r).course = { m.course with reference := none } := by
  simp [closeLiteral]

@[simp] theorem course_closeNumber :
    (m.closeNumber r).course = { m.course with reference := none } := by
  simp [closeNumber]

@[simp] theorem course_closeName (next : Option Char) :
    (m.closeName r next).course = { m.course with reference := none } := by
  simp only [closeName]
  split
  · -- a name matched: with its semicolon, kept as text in an attribute, or without the semicolon
    repeat' split
    all_goals simp
  · -- no name matched: a semicolon is an error, and the text stays as it is written
    split <;> simp

/-- **What a step of a reference leaves**: the state as it is, and the reference, unless it ends, in the
same place. It reads the character at which it is made or none. -/
theorem course_stepReference (m : Machine) (r : Reference) (next : Option Char) :
    (m.stepReference r next).course.state = m.course.state ∧
      ((m.stepReference r next).course.input = m.course.input ∨
        next.isSome = true ∧ (m.stepReference r next).course.input = m.course.input.advance) ∧
      (∀ r' ∈ (m.stepReference r next).course.reference, r'.inAttribute = r.inAttribute) ∧
      (m.stepReference r next).course.ended = m.course.ended := by
  unfold stepReference
  cases r.phase with
  | opened =>
    cases next with
    | none => simp [stepOpened]
    | some c =>
      by_cases hc : c = '#'
      · simp [stepOpened, hc]
      · by_cases hletter : c.isAlphanum = true <;> simp [stepOpened, hletter]
  | numeric =>
    simp only [stepNumeric]
    repeat' split
    all_goals simp
  | digits hex =>
    simp only [stepDigits, endDigits]
    repeat' split
    all_goals simp_all
  | named =>
    simp only [stepNamed]
    repeat' split
    all_goals simp

variable (hended : m.ended = false) (href : m.reference = some r)
include hended href

/-- **A step of a reference at a character makes progress.** -/
theorem rank_stepReference (hne : m.input.pending ≠ []) (c : Char) :
    (m.stepReference r (some c)).course.rank < m.course.rank := by
  have hread := fun k => @rank_lt_of_advance m hended hne k
  have hmove := fun next => @rank_lt_of_reference m r hended href next
  unfold stepReference
  -- one case for each phase; a phase that leaves the character has a lower rank to go to
  split
  · rename_i hphase
    rw [hphase] at hmove
    unfold stepOpened
    split
    · exact hread _ (by simp)
    · split
      · simpa using hmove (some { r with phase := .named })
          (by simp [Reference.rank?, Reference.Phase.rank])
      · simpa using hmove none (by simp [Reference.rank?, Reference.Phase.rank])
    · simpa using hmove none (by simp [Reference.rank?, Reference.Phase.rank])
  · rename_i hphase
    rw [hphase] at hmove
    simp only [stepNumeric]
    split
    · exact hread _ (by simp)
    · simpa using hmove (some { r with phase := .digits false })
        (by simp [Reference.rank?, Reference.Phase.rank])
  · rename_i hex hphase
    rw [hphase] at hmove
    simp only [stepDigits, endDigits]
    split
    · exact hread _ (by simp)
    · repeat' split
      · simpa using hmove none (by simp [Reference.rank?, Reference.Phase.rank])
      · exact hread _ (by simp)
      · simpa using hmove none (by simp [Reference.rank?, Reference.Phase.rank])
  · rename_i hphase
    rw [hphase] at hmove
    simp only [stepNamed]
    repeat' split
    · exact hread _ (by simp)
    · exact hread _ (by simp)
    · simpa using hmove none (by simp [Reference.rank?, Reference.Phase.rank])

/-- **A step of a reference at the end of the input makes progress.** -/
theorem rank_stepReference_none : (m.stepReference r none).course.rank < m.course.rank := by
  have hmove := fun next => @rank_lt_of_reference m r hended href next
  unfold stepReference
  split
  · rename_i hphase
    rw [hphase] at hmove
    simpa [stepOpened] using hmove none (by simp [Reference.rank?, Reference.Phase.rank])
  · rename_i hphase
    rw [hphase] at hmove
    simpa [stepNumeric] using hmove (some { r with phase := .digits false })
        (by simp [Reference.rank?, Reference.Phase.rank])
  · rename_i hphase
    rw [hphase] at hmove
    simpa [stepDigits, endDigits] using
      hmove none (by simp [Reference.rank?, Reference.Phase.rank])
  · rename_i hphase
    rw [hphase] at hmove
    simpa [stepNamed] using hmove none (by simp [Reference.rank?, Reference.Phase.rank])

omit href

/-- **A step at the end of the input makes progress.** -/
theorem rank_stepEnd : m.stepEnd.course.rank < m.course.rank := by
  have hmove := fun state next => @rank_lt_of_goto m hended state next
  have hend := Course.rank_lt_of_end (k := m.course) hended
  unfold stepEnd
  split <;> rename_i hstate
  -- a state that cannot end here hands over to one of lower rank; the others end the input
  all_goals first
    | simpa using hend
    | simpa [putBackEndTag, endDoctype] using hmove _ _ hstate (by simp [State.rank])

end

/-! ## (5) Steps and runs of steps -/

@[simp] theorem course_putRun (m : Machine) (t : String) : (m.putRun t).course = m.course := by
  unfold putRun
  split <;> rfl

theorem length_runAhead_le (pace : Pace) (m : Machine) :
    (runAhead pace m).length ≤ m.input.pending.length := by
  unfold runAhead
  split
  · exact (List.takeWhile_sublist _).length_le
  · exact Nat.zero_le _

/-- **Every step makes progress.** -/
theorem rank_step {pace : Pace} {m m' : Machine} (h : step pace m = some m') :
    m'.course.rank < m.course.rank := by
  unfold step at h
  by_cases hended : m.ended = true
  · rw [if_pos hended] at h
    cases h
  · rw [if_neg hended] at h
    rw [Bool.not_eq_true] at hended
    -- inside or outside a reference, with or without a character to read
    split at h
    · rename_i r c rest href hpending
      cases h
      exact rank_stepReference hended href (by simp [hpending]) c
    · rename_i r href hpending
      split at h
      · cases h
        exact rank_stepReference_none hended href
      · cases h
    · rename_i c rest href hpending
      unfold stepAt at h
      simp only at h
      split at h
      · exact rank_stepChar c hended (by simp [hpending]) h
      · -- a run of plain text is put in one step, and it is not empty
        rename_i hrun
        cases h
        have hpos : 0 < (runAhead pace m).length :=
          List.length_pos_iff.mpr (by simpa using hrun)
        exact rank_lt_of_skip hended hpos (length_runAhead_le pace m) (by simp)
    · rename_i href hpending
      -- nothing left to read: the machine ends if the input is complete, else it waits
      split at h
      · cases h
        exact rank_stepEnd hended
      · cases h

/-- **With fuel for its rank** a machine runs until it waits for input or has ended. -/
theorem step_runFor (pace : Pace) {fuel : Nat} {m : Machine} (h : m.course.rank ≤ fuel) :
    step pace (runFor pace fuel m) = none := by
  -- induction on the fuel; a step lowers the rank, so the rest of the fuel still covers it
  induction fuel generalizing m with
  | zero =>
    rw [runFor]
    cases hstep : step pace m with
    | none => rfl
    | some m' =>
      -- no step can follow at rank zero
      have hlt := rank_step hstep
      omega
  | succ fuel ih =>
    rw [runFor]
    cases hstep : step pace m with
    | none => exact hstep
    | some m' =>
      have hlt := rank_step hstep
      exact ih (by omega)

theorem rank_lt_stepBound (m : Machine) : m.course.rank < m.stepBound := by
  have hle := m.course.rank_le
  have hpending : m.course.input.pending.length = m.input.pending.length := rfl
  unfold stepBound
  omega

/-- **A run ends** where the machine waits for input or has ended. -/
theorem step_run (m : Machine) : step .byRun m.run = none :=
  step_runFor .byRun (Nat.le_of_lt m.rank_lt_stepBound)

end Machine

end HtmlStream

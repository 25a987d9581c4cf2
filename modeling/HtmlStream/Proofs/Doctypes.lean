import HtmlStream.Proofs.Machine.Episodes
import HtmlStream.Proofs.Reading.Doctype

/-! # Document types and their errors

A document type forces quirks mode if and only if one of the errors that say so was reported since its
keyword. The flag is set in many places and the document type begins anew in few; that the two go together
is an invariant of the states in between, kept by each action on the document type.

* **`ErrorCode.forcesQuirks`**: the errors that say that a document type forces quirks mode.
* **`Machine.Honest base codes`**: since `base` was put out, errors with the given codes were, and the
  document type under construction agrees with them. **`goes_stepChar`**: the states behind the name keep it so.
* **`Machine.Forgets`**: before the name, an earlier document type stays in place or is forgotten.
* **`exists_forgotten`**: what a run from behind a keyword reads, whatever came before.
  **`exists_keyword`**: what stands in front of it.
* **`doctype_justified`**: every document type that is called for. -/

namespace HtmlStream

/-! ## (1) Errors and flags -/

/-- Whether the error says that a document type forces quirks mode. -/
def ErrorCode.forcesQuirks : ErrorCode → Bool
  | .missingDoctypeName | .invalidCharacterSequenceAfterDoctypeName
  | .missingDoctypePublicIdentifier | .missingDoctypeSystemIdentifier
  | .missingQuoteBeforeDoctypePublicIdentifier | .missingQuoteBeforeDoctypeSystemIdentifier
  | .abruptDoctypePublicIdentifier | .abruptDoctypeSystemIdentifier | .eofInDoctype => true
  | _ => false

/-- **A document type agrees with the errors reported for it**: it forces quirks mode if and only if one of
them says so, and if it does not, it has a name. -/
structure Doctype.Agrees (d : Doctype) (codes : List ErrorCode) : Prop where
  /-- The flag. -/
  quirks : d.forceQuirks = true ↔ ∃ code ∈ codes, code.forcesQuirks = true
  /-- The name. -/
  named : d.forceQuirks = false → d.name.getD "" ≠ ""

/-- Another part of the document type does not matter. -/
theorem Doctype.Agrees.congr {d d' : Doctype} {codes : List ErrorCode} (h : d.Agrees codes)
    (hquirks : d'.forceQuirks = d.forceQuirks) (hname : d.name.getD "" ≠ "" → d'.name.getD "" ≠ "") :
    d'.Agrees codes :=
  ⟨hquirks ▸ h.quirks, fun hfalse => hname (h.named (hquirks ▸ hfalse))⟩

/-- An error that does not say so. -/
theorem Doctype.Agrees.append {d : Doctype} {codes : List ErrorCode} {code : ErrorCode}
    (h : d.Agrees codes) (hcode : code.forcesQuirks = false) : d.Agrees (codes ++ [code]) := by
  refine ⟨?_, h.named⟩
  rw [h.quirks]
  simp [or_and_right, exists_or, hcode]

/-- An error that says so, and a document type that forces quirks mode. -/
theorem Doctype.agrees_quirks {d : Doctype} {codes : List ErrorCode} {code : ErrorCode}
    (hquirks : d.forceQuirks = true) (hcode : code.forcesQuirks = true) : d.Agrees (codes ++ [code]) :=
  ⟨iff_of_true hquirks ⟨code, by simp, hcode⟩, fun hfalse => by rw [hquirks] at hfalse; cases hfalse⟩

/-- A document type with a name and no such error. -/
theorem Doctype.agrees_named {d : Doctype} {codes : List ErrorCode} (hquirks : d.forceQuirks = false)
    (hcodes : ∀ code ∈ codes, code.forcesQuirks = false) (hname : d.name.getD "" ≠ "") :
    d.Agrees codes := by
  refine ⟨iff_of_false (by simp [hquirks]) ?_, fun _ => hname⟩
  rintro ⟨code, hmem, hcode⟩
  rw [hcodes code hmem] at hcode
  cases hcode

/-! ## (2) Actions -/

namespace Machine

/-- **The document type under construction agrees** with the errors that were put out behind `base`. -/
structure Honest (base : List Token) (codes : List ErrorCode) (m : Machine) : Prop where
  /-- The errors. -/
  told : m.Told base codes
  /-- The document type. -/
  agrees : m.doctype.Agrees codes

/-- **A document type has been read** behind `base` and errors with which it agrees. -/
def DoctypeRead (base : List Token) (k : Machine) : Prop :=
  ∃ codes errors d, AreErrors codes errors ∧ d.Agrees codes ∧ k.output = base ++ errors ++ [.doctype d] ∧
    k.text = "" ∧ k.state = .data

variable {base : List Token} {codes : List ErrorCode} {m k : Machine}

theorem doctype_report (m : Machine) (code : ErrorCode) : (m.report code).doctype = m.doctype := by
  rw [Machine.report, Clean.emit_eq]

theorem doctype_goto (m : Machine) (next : State) : (m.goto next).doctype = m.doctype :=
  congrArg Pose.doctype (m.pose_goto next)

namespace Honest

theorem goto (h : m.Honest base codes) (next : State) : (m.goto next).Honest base codes :=
  ⟨h.told.congr (output_goto _ _), by rw [doctype_goto]; exact h.agrees⟩

theorem advance (h : m.Honest base codes) : m.advance.Honest base codes := ⟨h.told, h.agrees⟩

theorem skip (h : m.Honest base codes) (n : Nat) : (m.skip n).Honest base codes := ⟨h.told, h.agrees⟩

/-- An error that does not force quirks mode. -/
theorem report (h : m.Honest base codes) (code : ErrorCode) (hcode : code.forcesQuirks = false) :
    (m.report code).Honest base (codes ++ [code]) :=
  ⟨h.told.report code, by rw [doctype_report]; exact h.agrees.append hcode⟩

theorem putDoctypeName (h : m.Honest base codes) (c : Char) :
    (m.putDoctypeName c).Honest base codes :=
  ⟨h.told, h.agrees.congr rfl fun _ => by simp [Machine.putDoctypeName]⟩

theorem openIdentifier (h : m.Honest base codes) (kind : IdentifierKind) :
    (m.openIdentifier kind).Honest base codes :=
  ⟨h.told.congr (output_openIdentifier _ _), by cases kind <;> exact h.agrees.congr rfl id⟩

theorem putIdentifier (h : m.Honest base codes) (c : Char) (kind : IdentifierKind) :
    (m.putIdentifier c kind).Honest base codes :=
  ⟨h.told.congr (output_putIdentifier _ _ _), by cases kind <;> exact h.agrees.congr rfl id⟩

/-- **A document type that is queued** has been read. -/
theorem emitDoctype (h : m.Honest base codes) : m.emitDoctype.DoctypeRead base := by
  obtain ⟨errors, herrors, hm⟩ := h.told
  refine ⟨codes, errors, m.doctype, herrors, h.agrees, ?_, ?_, congrArg Course.state m.course_emitDoctype⟩
  · rw [output_emitDoctype, hm]
  · exact congrArg Pose.held m.pose_emitDoctype

end Honest

/-- **An error and the flag** go together. -/
theorem Told.forceQuirks (h : m.Told base codes) (code : ErrorCode) (hcode : code.forcesQuirks = true) :
    (m.report code).forceQuirks.Honest base (codes ++ [code]) :=
  ⟨h.report code, Doctype.agrees_quirks rfl hcode⟩

end Machine

/-! ## (3) States -/

/-- Whether the state is behind the first character of the name of a document type. -/
def State.behindDoctypeName : State → Bool
  | .beforeDoctypeName => false
  | state => state.insideDoctype

namespace Machine

/-- **What a step behind the name leads to**: a document type that still agrees with its errors, or one that
has been read. -/
def Goes (base : List Token) (k : Machine) : Prop :=
  (k.state.behindDoctypeName = true ∧ ∃ codes, k.Honest base codes) ∨ k.DoctypeRead base

variable {base : List Token} {codes : List ErrorCode} {m k : Machine} {c : Char}

theorem Honest.goes (h : m.Honest base codes) (hstate : m.state.behindDoctypeName = true) :
    m.Goes base := .inl ⟨hstate, _, h⟩

theorem Honest.goes_goto (h : m.Honest base codes) {next : State}
    (hnext : next.behindDoctypeName = true) : (m.goto next).Goes base := by
  refine .inl ⟨?_, _, h.goto next⟩
  rwa [show (m.goto next).state = next from congrArg Course.state (m.course_goto next)]

theorem Told.goes_abandon (h : m.Told base codes) (code : ErrorCode) (hcode : code.forcesQuirks = true) :
    (m.abandonDoctype code).Goes base := (h.forceQuirks code hcode).goes_goto rfl

theorem Told.goes_cut (h : m.Told base codes) (code : ErrorCode) (hcode : code.forcesQuirks = true) :
    (m.cutDoctype code).Goes base := .inr (h.forceQuirks code hcode).emitDoctype

theorem Honest.goes_beginIdentifier (h : m.Honest base codes) (kind : IdentifierKind) (c : Char) :
    (m.beginIdentifier kind c).Goes base := by
  unfold beginIdentifier
  split <;> exact (h.openIdentifier kind).goes_goto rfl

/-- An error leaves the state as it is. -/
theorem behindDoctypeName_report (hstate : m.state.behindDoctypeName = true) (code : ErrorCode) :
    (m.report code).state.behindDoctypeName = true := by
  rwa [state_report]

section

variable (h : m.Honest base codes)
include h

theorem goes_stepAfterDoctypeKeyword (kind : IdentifierKind) (c : Char) :
    (m.stepAfterDoctypeKeyword kind c).Goes base := by
  unfold stepAfterDoctypeKeyword
  split
  · exact h.advance.goes_goto rfl
  · split
    · exact (h.advance.report _ (by cases kind <;> rfl)).goes_beginIdentifier kind c
    · split
      · exact h.advance.told.goes_cut _ (by cases kind <;> rfl)
      · exact h.advance.told.goes_abandon _ (by cases kind <;> rfl)

theorem goes_stepAfterPublicIdentifier (c : Char) : (m.stepAfterPublicIdentifier c).Goes base := by
  unfold stepAfterPublicIdentifier
  split
  · exact h.advance.goes_goto rfl
  · split
    · exact .inr h.advance.emitDoctype
    · split
      · exact (h.advance.report _ rfl).goes_beginIdentifier .systemId c
      · exact h.advance.told.goes_abandon _ rfl

variable (hstate : m.state.behindDoctypeName = true)
include hstate

theorem goes_stepDoctypeName (c : Char) : (m.stepDoctypeName c).Goes base := by
  unfold stepDoctypeName
  split
  · exact h.advance.goes_goto rfl
  · split
    · exact .inr h.advance.emitDoctype
    · split
      · exact ((h.advance.report .unexpectedNullCharacter rfl).putDoctypeName _).goes
          (behindDoctypeName_report (m := m.advance) hstate .unexpectedNullCharacter)
      · exact (h.advance.putDoctypeName _).goes hstate

theorem goes_stepAfterDoctypeName (hk : m.stepAfterDoctypeName c = some k) : k.Goes base := by
  unfold stepAfterDoctypeName at hk
  split at hk
  · cases hk
    exact h.advance.goes hstate
  · split at hk
    · cases hk
      exact .inr h.advance.emitDoctype
    · split at hk
      · cases hk
        exact (h.skip 6).goes_goto rfl
      · cases hk
      · split at hk
        · cases hk
          exact (h.skip 6).goes_goto rfl
        · cases hk
        · cases hk
          exact h.told.goes_abandon _ rfl

theorem goes_stepDoctypeIdentifier (kind : IdentifierKind) (quote c : Char) :
    (m.stepDoctypeIdentifier kind quote c).Goes base := by
  unfold stepDoctypeIdentifier
  split
  · exact h.advance.goes_goto rfl
  · split
    · have hreport := (h.advance.report .unexpectedNullCharacter rfl).putIdentifier '\uFFFD' kind
      refine hreport.goes ?_
      have hsame : ((m.advance.report .unexpectedNullCharacter).putIdentifier '\uFFFD' kind).state
          = (m.advance.report .unexpectedNullCharacter).state := by cases kind <;> rfl
      rw [hsame]
      exact behindDoctypeName_report (m := m.advance) hstate _
    · split
      · exact h.advance.told.goes_cut _ (by cases kind <;> rfl)
      · refine (h.advance.putIdentifier c kind).goes ?_
        cases kind <;> exact hstate

theorem goes_stepBeforeDoctypeIdentifier (kind : IdentifierKind) (c : Char) :
    (m.stepBeforeDoctypeIdentifier kind c).Goes base := by
  unfold stepBeforeDoctypeIdentifier
  split
  · exact h.advance.goes hstate
  · split
    · exact h.advance.goes_beginIdentifier kind c
    · split
      · exact h.advance.told.goes_cut _ (by cases kind <;> rfl)
      · exact h.advance.told.goes_abandon _ (by cases kind <;> rfl)

theorem goes_stepAfterSystemIdentifier (c : Char) : (m.stepAfterSystemIdentifier c).Goes base := by
  unfold stepAfterSystemIdentifier
  split
  · exact h.advance.goes hstate
  · split
    · exact .inr h.advance.emitDoctype
    · exact (h.advance.report _ rfl).goes_goto rfl

theorem goes_stepBetweenIdentifiers (c : Char) : (m.stepBetweenIdentifiers c).Goes base := by
  unfold stepBetweenIdentifiers
  split
  · exact h.advance.goes hstate
  · split
    · exact .inr h.advance.emitDoctype
    · split
      · exact h.advance.goes_beginIdentifier .systemId c
      · exact h.advance.told.goes_abandon _ rfl

theorem goes_stepBogusDoctype (c : Char) : (m.stepBogusDoctype c).Goes base := by
  unfold stepBogusDoctype
  split
  · exact .inr h.advance.emitDoctype
  · split
    · exact (h.advance.report _ rfl).goes (behindDoctypeName_report (m := m.advance) hstate _)
    · exact h.advance.goes hstate

/-- **Every state behind the name.** -/
theorem goes_stepChar (hk : m.stepChar c = some k) : k.Goes base := by
  unfold stepChar at hk
  cases hm : m.state with
  | doctypeName => cases hm ▸ hk; exact goes_stepDoctypeName h hstate c
  | afterDoctypeName => exact goes_stepAfterDoctypeName h hstate (by simpa only [hm] using hk)
  | afterDoctypeKeyword kind => cases hm ▸ hk; exact goes_stepAfterDoctypeKeyword h kind c
  | beforeDoctypeIdentifier kind =>
    cases hm ▸ hk
    exact goes_stepBeforeDoctypeIdentifier h hstate kind c
  | doctypeIdentifierDoubleQuoted kind =>
    cases hm ▸ hk
    exact goes_stepDoctypeIdentifier h hstate kind _ c
  | doctypeIdentifierSingleQuoted kind =>
    cases hm ▸ hk
    exact goes_stepDoctypeIdentifier h hstate kind _ c
  | afterDoctypeIdentifier kind =>
    rw [hm] at hk
    cases kind with
    | publicId => cases hk; exact goes_stepAfterPublicIdentifier h c
    | systemId => cases hk; exact goes_stepAfterSystemIdentifier h hstate c
  | betweenDoctypePublicAndSystemIdentifiers =>
    cases hm ▸ hk
    exact goes_stepBetweenIdentifiers h hstate c
  | bogusDoctype => cases hm ▸ hk; exact goes_stepBogusDoctype h hstate c
  | _ => rw [hm] at hstate; cases hstate

/-- **The end of the input** behind the name. -/
theorem doctypeRead_stepEnd : m.stepEnd.DoctypeRead base := by
  have hend : m.endDoctype.DoctypeRead base :=
    (h.told.forceQuirks .eofInDoctype rfl).emitDoctype
  unfold stepEnd
  cases hm : m.state with
  | bogusDoctype => exact h.emitDoctype
  | doctypeName => exact hend
  | afterDoctypeName => exact hend
  | afterDoctypeKeyword kind => exact hend
  | beforeDoctypeIdentifier kind => exact hend
  | doctypeIdentifierDoubleQuoted kind => exact hend
  | doctypeIdentifierSingleQuoted kind => exact hend
  | afterDoctypeIdentifier kind => exact hend
  | betweenDoctypePublicAndSystemIdentifiers => exact hend
  | _ => rw [hm] at hstate; cases hstate

end

/-! ### Before the name -/

/-- **Before the name**, no error has been put out behind `base` that forces quirks mode. The document type
under construction is still an earlier one, if there is any. -/
def Waits (base : List Token) (m : Machine) : Prop :=
  m.state = .beforeDoctypeName ∧
    ∃ codes, m.Told base codes ∧ ∀ code ∈ codes, code.forcesQuirks = false

/-- **A document type without a name.** -/
theorem Told.doctypeRead_reset (h : m.Told base codes) (code : ErrorCode)
    (hcode : code.forcesQuirks = true) :
    (m.report code).resetDoctype.forceQuirks.emitDoctype.DoctypeRead base :=
  Honest.emitDoctype ⟨h.report code, Doctype.agrees_quirks rfl hcode⟩

/-- Other errors do not force quirks mode. -/
theorem Waits.report (h : m.Waits base) (code : ErrorCode) (hcode : code.forcesQuirks = false) :
    (m.report code).Waits base := by
  obtain ⟨hstate, codes, htold, hclear⟩ := h
  refine ⟨(state_report code).trans hstate, _, htold.report code, ?_⟩
  rw [List.forall_mem_append, List.forall_mem_singleton]
  exact ⟨hclear, hcode⟩

/-- **The first character of the name**, with which the document type begins anew. -/
theorem Waits.goes_name (h : m.Waits base) (c : Char) :
    ((m.resetDoctype.putDoctypeName c).goto .doctypeName).Goes base := by
  obtain ⟨-, codes, htold, hclear⟩ := h
  have hname : (m.resetDoctype.putDoctypeName c).doctype.name.getD "" ≠ "" := by
    simp [putDoctypeName, resetDoctype]
  have hhonest : (m.resetDoctype.putDoctypeName c).Honest base codes :=
    ⟨htold, Doctype.agrees_named rfl hclear hname⟩
  exact hhonest.goes_goto rfl

/-- **A character before the name.** -/
theorem Waits.beforeDoctypeName (h : m.Waits base) (c : Char) :
    (m.beforeDoctypeName c).Waits base ∨ (m.beforeDoctypeName c).Goes base := by
  unfold Machine.beforeDoctypeName
  split
  · exact .inl h
  · split
    · obtain ⟨-, codes, htold, -⟩ := h
      exact .inr (.inr (htold.doctypeRead_reset _ rfl))
    · split
      · exact .inr ((h.report .unexpectedNullCharacter rfl).goes_name _)
      · exact .inr (h.goes_name _)

/-- **A character behind the keyword.** -/
theorem Told.stepDoctype (h : m.Told base []) (c : Char) :
    (m.stepDoctype c).Waits base ∨ (m.stepDoctype c).Goes base := by
  have hwaits : (m.advance.goto .beforeDoctypeName).Waits base :=
    ⟨congrArg Course.state (m.advance.course_goto _), [], h.congr (output_goto _ _),
      List.forall_mem_nil _⟩
  unfold Machine.stepDoctype
  simp only
  split
  · exact .inl hwaits
  · split
    · exact hwaits.beforeDoctypeName c
    · exact (hwaits.report _ rfl).beforeDoctypeName c

/-! ## (4) Whole document types -/

/-- **In a document type**: behind its keyword, before its name, or behind that. -/
def InDoctype (base : List Token) (m : Machine) : Prop :=
  m.state = .doctype ∧ m.Told base [] ∨ m.Waits base ∨
    m.state.behindDoctypeName = true ∧ ∃ codes, m.Honest base codes

/-- No references are read in a document type. -/
theorem InDoctype.takesReferences (h : m.InDoctype base) : m.state.takesReferences = false := by
  rcases h with ⟨hstate, -⟩ | ⟨hstate, -⟩ | ⟨hstate, -⟩
  · rw [hstate]
    rfl
  · rw [hstate]
    rfl
  · cases hm : m.state <;> rw [hm] at hstate <;> first | rfl | cases hstate

/-- **A step in a document type** stays in it, or has read it. -/
theorem InDoctype.stays_or_read (h : m.InDoctype base) (href : m.reference = none)
    (hstep : step .byChar m = some k) :
    k.InDoctype base ∧ k.ended = m.ended ∨ k.DoctypeRead base := by
  have hgoes {k : Machine} (hended : k.ended = m.ended) :
      k.Waits base ∨ k.Goes base → k.InDoctype base ∧ k.ended = m.ended ∨ k.DoctypeRead base := by
    rintro (hwaits | hname | hread)
    · exact .inl ⟨.inr (.inl hwaits), hended⟩
    · exact .inl ⟨.inr (.inr hname), hended⟩
    · exact .inr hread
  rcases step_cases hstep with ⟨r, next, hr, -⟩ | ⟨-, c, cs, -, hchar⟩ | ⟨-, -, rfl⟩
  · rw [href] at hr
    cases hr
  · have hended : k.ended = m.ended := (adds_stepChar m c hchar).1
    rcases h with ⟨hstate, htold⟩ | hwaits | ⟨hstate, codes, hhonest⟩
    · rw [stepChar, hstate] at hchar
      cases hchar
      exact hgoes hended (htold.stepDoctype c)
    · rw [stepChar, hwaits.1] at hchar
      cases hchar
      exact hgoes hended (Waits.beforeDoctypeName (m := m.advance) hwaits c)
    · exact hgoes hended (.inr (goes_stepChar hhonest hstate hchar))
  · rcases h with ⟨hstate, htold⟩ | ⟨hstate, codes, htold, -⟩ | ⟨hstate, codes, hhonest⟩
    · rw [stepEnd, hstate]
      exact .inr (htold.doctypeRead_reset _ rfl)
    · rw [stepEnd, hstate]
      exact .inr (htold.doctypeRead_reset _ rfl)
    · exact .inr (doctypeRead_stepEnd hhonest hstate)

variable {config : Config} {bs : Bytes}

/-- No reference is under construction in a document type. -/
theorem InDoctype.reference_eq_none (hreach : (whole config bs).Leads m) (h : m.InDoctype base) :
    m.reference = none := by
  by_contra href
  have htakes := reference_of_leads hreach href
  rw [h.takesReferences] at htakes
  cases htakes

/-- **A machine in a document type takes a step**, with which it stays in it or has read it. -/
theorem InDoctype.exists_step (hreach : (whole config bs).Leads m) (h : m.InDoctype base)
    (hended : m.ended = false) :
    ∃ k, step .byChar m = some k ∧ (k.InDoctype base ∧ k.ended = false ∨ k.DoctypeRead base) := by
  cases hstep : step .byChar m with
  | none =>
    have hfinished : m.input.finished = true := (input_of_leads hreach).2
    rw [ended_of_step_eq_none hfinished hstep] at hended
    cases hended
  | some k =>
    have hk := h.stays_or_read (h.reference_eq_none hreach) hstep
    rw [hended] at hk
    exact ⟨k, rfl, hk⟩

/-- **A run in a document type** reads it. -/
theorem InDoctype.exists_read (hreach : (whole config bs).Leads m) (h : m.InDoctype base)
    (hended : m.ended = false) : ∃ k, m.Leads k ∧ k.DoctypeRead base := by
  -- induction on the steps that are left
  induction m using (wellFounded_step .byChar).induction with
  | _ m ih =>
    obtain ⟨k, hstep, ⟨hk, hended'⟩ | hread⟩ := h.exists_step hreach hended
    · obtain ⟨k', hleads, hread⟩ := ih k hstep (hreach.trans (Leads.single hstep)) hk hended'
      exact ⟨k', (Leads.single hstep).trans hleads, hread⟩
    · exact ⟨k, Leads.single hstep, hread⟩

/-! ## (5) Earlier document types -/

/-- The machine with an earlier document type under construction. -/
def withDoctype (m : Machine) (d : Doctype) : Machine := { m with doctype := d }

variable (d : Doctype)

theorem withDoctype_goto (m : Machine) (next : State) :
    (m.withDoctype d).goto next = (m.goto next).withDoctype d := by
  by_cases hstate : m.state = next <;> simp [goto, withDoctype, hstate]

theorem withDoctype_report (m : Machine) (code : ErrorCode) :
    (m.withDoctype d).report code = (m.report code).withDoctype d := by
  cases htext : m.text.isEmpty <;> simp [report, emit, flush, enqueue, withDoctype, htext]

/-- **Before the name** nothing is done with the document type but to forget it. -/
theorem withDoctype_beforeDoctypeName (m : Machine) (hstate : m.state = .beforeDoctypeName) (c : Char) :
    ((m.beforeDoctypeName c).state = .beforeDoctypeName ∧
      ∀ d, (m.withDoctype d).beforeDoctypeName c = (m.beforeDoctypeName c).withDoctype d) ∨
    ∀ d, (m.withDoctype d).beforeDoctypeName c = m.beforeDoctypeName c := by
  unfold Machine.beforeDoctypeName
  split
  · exact .inl ⟨hstate, fun _ => rfl⟩
  · -- with a name, or without one, the document type begins anew
    refine .inr fun d => ?_
    simp only [withDoctype_report]
    rfl

/-- **What becomes of an earlier document type** in a step from `m` to `k`: it stays in place before the name,
or it is forgotten. -/
def Forgets (m k : Machine) : Prop :=
  (k.state = .beforeDoctypeName ∧
    ∀ d, step .byChar (m.withDoctype d) = some (k.withDoctype d)) ∨
  ∀ d, step .byChar (m.withDoctype d) = some k

theorem forgets_of_step (hstate : m.state = .doctype ∨ m.state = .beforeDoctypeName)
    (hended : m.ended = false) (href : m.reference = none) (hfinished : m.input.finished = true)
    (hstep : step .byChar m = some k) : m.Forgets k := by
  rcases step_cases hstep with ⟨r, next, hr, -⟩ | ⟨-, c, cs, hpending, hchar⟩ | ⟨-, hpending, rfl⟩
  · rw [href] at hr
    cases hr
  · have hstep' (d : Doctype) : step .byChar (m.withDoctype d) = (m.withDoctype d).stepChar c :=
      step_of_char (m := m.withDoctype d) hended href hpending
    simp only [Forgets, hstep']
    rcases hstate with hstate | hstate
    · let m' : Machine := m.advance.goto .beforeDoctypeName
      have hm' : m'.state = .beforeDoctypeName := congrArg Course.state (m.advance.course_goto _)
      have hmoved (d : Doctype) :
          (m.withDoctype d).advance.goto .beforeDoctypeName = m'.withDoctype d :=
        withDoctype_goto d m.advance _
      have hkeyword (d : Doctype) : (m.withDoctype d).stepChar c = some ((m.withDoctype d).stepDoctype c) := by
        rw [stepChar, show (m.withDoctype d).state = .doctype from hstate]
      rw [stepChar, hstate] at hchar
      cases hchar
      simp only [hkeyword, Option.some.injEq]
      simp only [stepDoctype, hmoved]
      split
      · exact .inl ⟨hm', fun _ => rfl⟩
      · split
        · exact withDoctype_beforeDoctypeName m' hm' c
        · simp only [withDoctype_report]
          exact withDoctype_beforeDoctypeName _ ((state_report _).trans hm') c
    · have hname (d : Doctype) :
          (m.withDoctype d).stepChar c = some ((m.withDoctype d).stepBeforeDoctypeName c) := by
        rw [stepChar, show (m.withDoctype d).state = .beforeDoctypeName from hstate]
      rw [stepChar, hstate] at hchar
      cases hchar
      simp only [hname, Option.some.injEq]
      exact withDoctype_beforeDoctypeName m.advance hstate c
  · -- the end of the input
    refine .inr fun d =>
      (step_of_end (m := m.withDoctype d) hended href hpending hfinished).trans (congrArg some ?_)
    have hend : (m.withDoctype d).stepEnd
        = ((m.withDoctype d).report .eofInDoctype).resetDoctype.forceQuirks.emitDoctype := by
      rw [stepEnd]
      rcases hstate with hstate | hstate
      · rw [show (m.withDoctype d).state = .doctype from hstate]
      · rw [show (m.withDoctype d).state = .beforeDoctypeName from hstate]
    have hend' : m.stepEnd = (m.report .eofInDoctype).resetDoctype.forceQuirks.emitDoctype := by
      rw [stepEnd]
      rcases hstate with hstate | hstate <;> rw [hstate]
    rw [hend, hend', withDoctype_report]
    rfl

/-- **Whatever document type came before**, a run from before the name reads the same one. -/
theorem exists_forgotten (hreach : (whole config bs).Leads m) (h : m.InDoctype base)
    (hstate : m.state = .doctype ∨ m.state = .beforeDoctypeName) (hended : m.ended = false) :
    ∃ k, (∀ d, (m.withDoctype d).Leads k) ∧ k.DoctypeRead base := by
  -- induction on the steps that are left
  induction m using (wellFounded_step .byChar).induction with
  | _ m ih =>
    obtain ⟨k, hstep, hk⟩ := h.exists_step hreach hended
    have hreach' : (whole config bs).Leads k := hreach.trans (Leads.single hstep)
    have hfinished : m.input.finished = true := (input_of_leads hreach).2
    rcases forgets_of_step hstate hended (h.reference_eq_none hreach) hfinished hstep with
      ⟨hbefore, hsteps⟩ | hsteps
    · rcases hk with ⟨hk, hended'⟩ | ⟨codes, errors, d, -, -, -, -, hdata⟩
      · obtain ⟨k', hleads, hread⟩ := ih k hstep hreach' hk (.inr hbefore) hended'
        exact ⟨k', fun d => (Leads.single (hsteps d)).trans (hleads d), hread⟩
      · rw [hdata] at hbefore
        cases hbefore
    · rcases hk with ⟨hk, hended'⟩ | hread
      · obtain ⟨k', hleads, hread⟩ := hk.exists_read hreach' hended'
        exact ⟨k', fun d => (Leads.single (hsteps d)).trans hleads, hread⟩
      · exact ⟨k, fun d => Leads.single (hsteps d), hread⟩

end Machine

/-! ## (6) Where document types open -/

/-- **A text begins with `<!doctype`**, in letters of either case. -/
def OpensDoctype (text : List Char) : Prop :=
  ∃ keyword rest, text = '<' :: '!' :: (keyword ++ rest) ∧
    keyword.map Char.toLower = "doctype".toList

/-- What a comparison has found. -/
theorem Lookahead.exists_of_found {finished : Bool} {keyword pending : List Char}
    (h : compare sameLetter finished keyword pending = .found) :
    ∃ read rest, pending = read ++ rest ∧ read.map Char.toLower = keyword := by
  induction keyword generalizing pending with
  | nil => exact ⟨[], pending, rfl, rfl⟩
  | cons k keyword ih =>
    cases pending with
    | nil => cases finished <;> cases h
    | cons c pending =>
      rw [compare] at h
      split at h
      · rename_i hsame
        obtain ⟨read, rest, rfl, rfl⟩ := ih h
        exact ⟨c :: read, rest, rfl, by simp [sameLetter] at hsame; simp [hsame]⟩
      · cases h

namespace Machine

variable {base : List Token} {codes : List ErrorCode} {m k : Machine} {c : Char} {cs : List Char}
  {config : Config} {bs : Bytes}

/-- **A step that only moves on** does so whatever document type came before. -/
theorem withDoctype_of_goto (hended : m.ended = false) (href : m.reference = none)
    (hpending : m.input.pending = c :: cs) {i : Input} {next : State}
    (hstep : ∀ d, (m.withDoctype d).stepChar c
      = some (({ m with input := i } : Machine).withDoctype d |>.goto next)) (d : Doctype) :
    step .byChar (m.withDoctype d) = some ((({ m with input := i } : Machine).goto next).withDoctype d) := by
  rw [step_of_char (m := m.withDoctype d) hended href hpending, stepAt_byChar, hstep,
    withDoctype_goto]

/-- Only `<` leads from text into markup. -/
theorem eq_of_stepData (hstate : m.state = .data) (h : (m.stepData c).state = .tagOpen) : c = '<' := by
  by_contra hc
  rw [state_eq_course] at hstate h
  unfold stepData at h
  split at h <;> simp [hstate] at h hc

/-- Only `!` leads from there to a declaration. -/
theorem eq_of_stepTagOpen (h : (m.stepTagOpen c).state = .markupDeclarationOpen) : c = '!' := by
  by_contra hc
  rw [state_eq_course] at h
  unfold stepTagOpen at h
  rw [if_neg hc] at h
  repeat' split at h
  all_goals simp at h

/-- Only the keyword leads from there to a document type. -/
theorem lookahead_of_stepMarkupDeclarationOpen (hk : m.stepMarkupDeclarationOpen = some k)
    (hstate : k.state = .doctype) :
    m.input.lookahead sameChar "--" = .absent ∧ m.input.lookahead sameLetter "doctype" = .found ∧
      k = (m.skip 7).goto .doctype := by
  rw [state_eq_course] at hstate
  unfold stepMarkupDeclarationOpen at hk
  repeat' split at hk
  all_goals cases hk
  all_goals first
    | exact ⟨by assumption, by assumption, rfl⟩
    | simp at hstate

/-- **In front of a document type** stands `<!doctype`. -/
theorem exists_keyword (hreach : (whole config bs).Leads m) (hstate : m.state = .doctype) :
    ∃ m₀, (whole config bs).Leads m₀ ∧ m₀.state = .data ∧ m₀.reference = none ∧
      OpensDoctype m₀.input.pending ∧ m₀.output = m.output ∧
      ∀ d, (m₀.withDoctype d).Leads (m.withDoctype d) := by
  obtain ⟨m₂, c₂, cs₂, hreach₂, hstate₂, href₂, hended₂, hpending₂, hchar₂⟩ :=
    exists_before hreach (by rw [hstate]; rfl)
  obtain ⟨m₁, c₁, cs₁, hreach₁, hstate₁, href₁, hended₁, hpending₁, hchar₁⟩ :=
    exists_before hreach₂ (by rw [hstate₂]; rfl)
  obtain ⟨m₀, c₀, cs₀, hreach₀, hstate₀, href₀, hended₀, hpending₀, hchar₀⟩ :=
    exists_before hreach₁ (by rw [hstate₁]; rfl)
  -- what is read in the three steps
  rw [stepChar, hstate₂] at hchar₂
  rw [stepChar, hstate₁, Option.some.injEq] at hchar₁
  rw [stepChar, hstate₀, Option.some.injEq] at hchar₀
  obtain ⟨hcomment, hfound, rfl⟩ := lookahead_of_stepMarkupDeclarationOpen hchar₂ hstate
  obtain rfl := eq_of_stepTagOpen (hchar₁ ▸ hstate₂)
  obtain rfl := eq_of_stepData hstate₀ (hchar₀ ▸ hstate₁)
  subst hchar₀ hchar₁
  have hinput₁ : (m₀.stepData '<').input = m₀.input.advance :=
    congrArg Course.input (m₀.advance.course_goto .tagOpen)
  have hinput₂ : ((m₀.stepData '<').stepTagOpen '!').input = (m₀.stepData '<').input.advance :=
    congrArg Course.input ((m₀.stepData '<').advance.course_goto .markupDeclarationOpen)
  refine ⟨m₀, hreach₀, hstate₀, href₀, ?_, ?_, fun d => ?_⟩
  · have hcs₀ : '!' :: cs₁ = cs₀ :=
      hpending₁.symm.trans ((congrArg Input.pending hinput₁).trans (congrArg List.tail hpending₀))
    have hcs₁ : c₂ :: cs₂ = cs₁ :=
      hpending₂.symm.trans ((congrArg Input.pending hinput₂).trans (congrArg List.tail hpending₁))
    obtain ⟨keyword, rest, hread, hkeyword⟩ := Lookahead.exists_of_found hfound
    refine ⟨keyword, rest, ?_, hkeyword⟩
    rw [hpending₀, ← hcs₀, ← hcs₁, ← hpending₂, hread]
  · rw [output_goto, output_skip]
    have hopen : (m₀.stepData '<').output = m₀.output := output_goto m₀.advance _
    exact hopen.symm.trans (output_goto (m₀.stepData '<').advance _).symm
  · have hopen : step .byChar (m₀.withDoctype d) = some ((m₀.stepData '<').withDoctype d) := by
      refine withDoctype_of_goto hended₀ href₀ hpending₀ (i := m₀.input.advance) (fun d => ?_) d
      rw [stepChar, show (m₀.withDoctype d).state = .data from hstate₀]
      rfl
    have hdeclare : step .byChar ((m₀.stepData '<').withDoctype d)
        = some (((m₀.stepData '<').stepTagOpen '!').withDoctype d) := by
      refine withDoctype_of_goto hended₁ href₁ hpending₁ (i := (m₀.stepData '<').input.advance)
        (fun d => ?_) d
      rw [stepChar, show ((m₀.stepData '<').withDoctype d).state = .tagOpen from hstate₁]
      rfl
    have hkeyword : step .byChar (((m₀.stepData '<').stepTagOpen '!').withDoctype d)
        = some (((((m₀.stepData '<').stepTagOpen '!').skip 7).goto .doctype).withDoctype d) := by
      refine withDoctype_of_goto hended₂ href₂ hpending₂
        (i := ((m₀.stepData '<').stepTagOpen '!').input.skip 7) (fun d => ?_) d
      generalize (m₀.stepData '<').stepTagOpen '!' = m₂ at *
      rw [stepChar, show (m₂.withDoctype d).state = .markupDeclarationOpen from hstate₂]
      simp only [stepMarkupDeclarationOpen, show (m₂.withDoctype d).input = m₂.input from rfl,
        hcomment, hfound]
      rfl
    exact (Leads.single hopen).trans ((Leads.single hdeclare).trans (Leads.single hkeyword))

/-! ## (7) Every document type -/

/-- **What a document type in the queue was read from**: behind a keyword, errors with which it agrees, and
the same whatever document type came before. -/
def ReadsDoctype (m : Machine) (front : List Token) (t : Token) : Prop :=
  ∃ k codes errors d, t = .doctype d ∧ (∀ earlier, (m.withDoctype earlier).Leads k) ∧
    AreErrors codes errors ∧ d.Agrees codes ∧ m.queue.toList ++ front = m.output ++ errors ∧
    k.queue.toList = m.output ++ errors ++ [.doctype d]

/-- **A machine behind a keyword** reads a document type, and nothing but errors in front of it. -/
theorem exists_readsDoctype (hreach : (whole config bs).Leads m) (hstate : m.state = .doctype) :
    ∃ k, m.Leads k ∧ k.state = .data ∧ ∀ added, k.queue.toList = m.queue.toList ++ added →
      ∀ front t back, added = front ++ t :: back → t.doctype?.isSome → m.ReadsDoctype front t := by
  have hbegin : m.InDoctype m.output := .inl ⟨hstate, [], .nil, (List.append_nil _).symm⟩
  obtain ⟨_, _, _, -, -, -, hended, -, hchar⟩ := exists_before hreach (by rw [hstate]; rfl)
  have hended' : m.ended = false := (adds_stepChar _ _ hchar).1.trans hended
  obtain ⟨k, hleads, codes, errors, d, herrors, hagrees, houtput, htext, hdata⟩ :=
    exists_forgotten hreach hbegin (.inl hstate) hended'
  have hqueue := k.toList_queue_of_output htext houtput
  refine ⟨k, hleads m.doctype, hdata, fun added hadded front t back hsplit ht => ?_⟩
  obtain ⟨hfront, rfl⟩ := eq_last_of_added (p := fun t => t.doctype?.isSome) (by simp [Token.doctype?])
    (by simp [Token.doctype?]) herrors hqueue hadded hsplit ht
  exact ⟨k, codes, errors, d, rfl, hleads, herrors, hagrees, hfront, hqueue⟩

/-- **Every document type in the queue of a run** was read from behind a keyword. -/
theorem exists_readsDoctype_of_run {front back : List Token} {d : Doctype}
    (h : (whole config bs).run.queue.toList = front ++ .doctype d :: back) :
    ∃ m before, (whole config bs).Leads m ∧ m.state = .doctype ∧ m.ReadsDoctype before (.doctype d) ∧
      front = m.queue.toList ++ before := by
  let Outside (m : Machine) : Prop := (whole config bs).Leads m ∧ m.state.insideDoctype = false
  have hquiet (m k : Machine) (hm : Outside m) (hopens : ¬m.state = .doctype)
      (hstep : step .byChar m = some k) : Outside k ∧
        ∀ added, k.queue.toList = m.queue.toList ++ added → ∀ t ∈ added, ¬t.doctype?.isSome := by
    obtain ⟨hsame, houtside⟩ := doctypes_of_step hopens hm.2 hstep
    exact ⟨⟨hm.1.trans (Leads.single hstep), houtside⟩, fun added hadded =>
      not_isSome_of_filterMap_eq hsame hadded⟩
  have hstart : Outside (whole config bs) := by
    refine ⟨Relation.ReflTransGen.refl, ?_⟩
    have hinitial : (whole config bs).state = config.initialState.state := rfl
    rw [hinitial]
    cases config.initialState <;> rfl
  obtain ⟨m, before, -, houtside, hopens, hreads, hfront⟩ :=
    exists_opening (p := fun t => t.doctype?.isSome) hquiet
      (fun m hm hopens => by
        obtain ⟨k, hleads, hdata, hreads⟩ := exists_readsDoctype hm.1 hopens
        exact ⟨k, hleads, ⟨hm.1.trans hleads, by rw [hdata]; rfl⟩, by rw [hdata]; simp, hreads⟩)
      hstart (t := .doctype d) rfl h
  exact ⟨m, before, houtside.1, hopens, hreads, hfront⟩

end Machine

/-- **Only a document type calls for one**, and for nothing else. -/
theorem Token.exists_doctype {exact : Bool} {t : Token} {pre post : List TextCallback}
    {name publicId systemId : String} {quirks : Bool}
    (h : t.callbacks exact = pre ++ .doctype name publicId systemId quirks :: post) :
    ∃ d, t = .doctype d ∧ pre = [] ∧
      t.callbacks exact = [.doctype name publicId systemId quirks] ∧
      name = d.name.getD "" ∧ quirks = d.forceQuirks := by
  have hmem : .doctype name publicId systemId quirks ∈ t.callbacks exact := by
    rw [h]
    simp
  cases t with
  | doctype d =>
    have hcall : pre = [] ∧ post = [] := by
      have hlength := congrArg List.length h
      simp only [callbacks, List.length_append, List.length_cons, List.length_nil] at hlength
      rw [← List.length_eq_zero_iff, ← List.length_eq_zero_iff]
      omega
    obtain ⟨rfl, rfl⟩ := hcall
    have hsame := h
    simp only [callbacks, List.nil_append, List.cons.injEq, Callback.doctype.injEq] at hsame
    exact ⟨d, rfl, rfl, h, hsame.1.1.symm, hsame.1.2.2.2.symm⟩
  | tag t =>
    unfold callbacks Tag.callbacks at hmem
    cases hkind : t.kind <;> simp [hkind] at hmem
  | _ => simp [callbacks] at hmem

/-- **The quirks flag is justified.** In front of every call for a document type, a session of any input, cut
and taken however it may be, reads `<!doctype` in text and calls for errors only from there on. The flag of
the call is set if and only if one of those errors forces quirks mode; if it is not, the name is not empty;
and whatever document type was under construction before, the session comes to the same call. -/
theorem doctype_justified {surface : Surface} {config : Config} {chunks : List Bytes}
    {calls : List TextCallback} {stats : Stats} (h : tokenize surface config chunks = .ok (calls, stats))
    {before after : List TextCallback} {name publicId systemId : String} {quirks : Bool}
    (hcalls : calls = before ++ .doctype name publicId systemId quirks :: after) :
    ∃ m codes errors,
      ((Machine.whole config chunks.flatten).Leads m ∧ m.state = .data ∧ m.reference = none ∧
        OpensDoctype m.input.pending) ∧
      AreErrors codes errors ∧ before = config.calls (m.output ++ errors) ∧
      (quirks = true ↔ ∃ code ∈ codes, code.forcesQuirks = true) ∧ (quirks = false → name ≠ "") ∧
      ∃ k, (∀ earlier, (m.withDoctype earlier).Leads k) ∧
        config.calls k.queue.toList = before ++ [.doctype name publicId systemId quirks] := by
  rw [tokenize_eq, Except.ok.injEq, Prod.mk.injEq] at h
  rw [← h.1] at hcalls
  obtain ⟨front, t, back, pre, post, htokens, ht, hbefore, -⟩ := Config.exists_of_calls hcalls
  obtain ⟨d, rfl, rfl, hcall, rfl, rfl⟩ := Token.exists_doctype ht
  rw [List.append_nil] at hbefore
  obtain ⟨m, read, hreach, hstate, hread, rfl⟩ := Machine.exists_readsDoctype_of_run htokens
  obtain ⟨k, codes, errors, d', hd', hleads, herrors, hagrees, hfront, hqueue⟩ := hread
  obtain rfl := Token.doctype.inj hd'
  obtain ⟨m₀, hreach₀, hstate₀, href₀, hopens, houtput, hkeyword⟩ :=
    Machine.exists_keyword hreach hstate
  refine ⟨m₀, codes, errors, ⟨hreach₀, hstate₀, href₀, hopens⟩, herrors, ?_, hagrees.quirks,
    hagrees.named, k, fun earlier => (hkeyword earlier).trans (hleads earlier), ?_⟩
  · rw [hbefore, hfront, houtput]
  · have hlast : config.calls [.doctype d] = (Token.doctype d).callbacks config.exactErrors :=
      List.flatMap_singleton _ _
    rw [hqueue, Config.calls_append, hlast, hcall, hbefore, hfront]

/-- A document type without a name, its keyword cut, behind one with a name and an identifier. -/
theorem doctype_justified_second :
    ∃ stats, tokenize .borrowed {} [Utf8.encode "<!DOCTYPE a SYSTEM 'b'><!doc", Utf8.encode "type>"]
      = .ok ([.doctype "a" "" "b" false, .error "missing-doctype-name", .doctype "" "" "" true, .eof],
          stats) ∧
      ∃ (m : Machine) (codes : List ErrorCode) (errors : List Token),
        OpensDoctype m.input.pending ∧ AreErrors codes errors ∧
        [.doctype "a" "" "b" false, .error "missing-doctype-name"]
          = Config.calls {} (m.output ++ errors) ∧
        (∃ code ∈ codes, code.forcesQuirks = true) ∧
        ∃ k, ∀ earlier, (m.withDoctype earlier).Leads k := by
  have hcalls : Config.calls {} (Machine.whole {} [Utf8.encode "<!DOCTYPE a SYSTEM 'b'><!doc",
      Utf8.encode "type>"].flatten).run.queue.toList
        = [.doctype "a" "" "b" false, .error "missing-doctype-name", .doctype "" "" "" true, .eof] := by
    decide +kernel
  have htokens := tokenize_eq .borrowed {} [Utf8.encode "<!DOCTYPE a SYSTEM 'b'><!doc",
    Utf8.encode "type>"]
  rw [hcalls] at htokens
  obtain ⟨m, codes, errors, ⟨-, -, -, hopens⟩, herrors, hbefore, hquirks, -, k, hleads, -⟩ :=
    @doctype_justified _ _ _ _ _ htokens [.doctype "a" "" "b" false, .error "missing-doctype-name"]
      [.eof] "" "" "" true rfl
  exact ⟨_, htokens, m, codes, errors, hopens, herrors, hbefore, hquirks.mp rfl, k, hleads⟩

end HtmlStream

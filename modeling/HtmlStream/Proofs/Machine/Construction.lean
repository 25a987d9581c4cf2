import HtmlStream.Proofs.Machine.Flushed
import HtmlStream.Proofs.Machine.Marks
import Mathlib.Tactic.SplitIfs

/-! # What is under construction

The tag, the attribute and the character reference that a machine has begun are kept apart from its state.
Each state goes on with some of them: they have to be there, in the shape that the state expects. What one
state goes on with was begun by another, often many characters before, and has been kept by those between.

* **`Construction`** and **`Machine.construction`**: the state and what has been begun, with one equation
  for each action.
* **`IsEndTag`**: a possible end tag of raw text, and its letters.
* **`Construction.Fits`**, **`Construction.InPlace`**: tag, attribute and letters are what the state goes on
  with, and so is the reference.
* **`sound_stepChar`**, **`sound_stepReference`**, **`sound_stepEnd`**: so it is behind a step.
  **`sound_leads`**: and behind a run. **`sound_start`**: so it is at the beginning. -/

namespace HtmlStream

/-- What a machine has begun, and its state. -/
structure Construction where
  /-- The place in the markup. -/
  state : State
  /-- The character reference. -/
  reference : Option Reference
  /-- The tag. -/
  tag : Tag
  /-- The attribute. -/
  current : Option Attribute
  /-- The letters of a possible end tag in raw text. -/
  letters : String

namespace Machine

/-- What a machine has under construction. -/
def construction (m : Machine) : Construction :=
  ⟨m.state, m.reference, m.tag, m.currentAttribute, m.letters⟩

/-! ## (1) Actions -/

section

variable (m : Machine)

@[simp] theorem construction_ite (p : Prop) [Decidable p] (m m' : Machine) :
    (if p then m else m').construction = if p then m.construction else m'.construction :=
  apply_ite construction p m m'

@[simp] theorem construction_goto (next : State) :
    (m.goto next).construction = { m.construction with state := next } := by
  unfold goto
  split
  case isTrue h =>
    rw [← h]
    rfl
  case isFalse => rfl

@[simp] theorem construction_advance : m.advance.construction = m.construction := rfl

@[simp] theorem construction_skip (n : Nat) : (m.skip n).construction = m.construction := rfl

@[simp] theorem construction_putChar (c : Char) : (m.putChar c).construction = m.construction := rfl

@[simp] theorem construction_putText (t : String) : (m.putText t).construction = m.construction := rfl

@[simp] theorem construction_flush : m.flush.construction = m.construction := by
  unfold flush
  split
  · rfl
  · rfl

@[simp] theorem construction_emit (t : Token) : (m.emit t).construction = m.construction :=
  m.construction_flush

@[simp] theorem construction_report (code : ErrorCode) :
    (m.report code).construction = m.construction :=
  construction_flush _

@[simp] theorem construction_emitEnd : m.emitEnd.construction = m.construction :=
  m.construction_flush

@[simp] theorem construction_openTag (kind : TagKind) (c : Char) :
    (m.openTag kind c).construction
      = { m.construction with tag := { kind, name := String.singleton c }, current := none } := rfl

@[simp] theorem construction_putTagName (c : Char) :
    (m.putTagName c).construction = { m.construction with
      tag := { m.construction.tag with name := m.construction.tag.name.push c } } := rfl

@[simp] theorem construction_dropAttribute :
    m.dropAttribute.construction = { m.construction with current := none } := rfl

/-- An attribute that ends may be added to the tag. -/
theorem construction_closeAttribute :
    m.closeAttribute.construction
      = { m.construction with tag := m.closeAttribute.tag, current := none } := by
  unfold closeAttribute
  cases hcurrent : m.currentAttribute with
  | none =>
    rw [construction, hcurrent]
  | some a =>
    simp only
    split
    · have htag := congrArg Construction.tag (m.dropAttribute.construction_report .duplicateAttribute)
      have hreport := m.dropAttribute.construction_report .duplicateAttribute
      rw [show (m.dropAttribute.report .duplicateAttribute).tag = m.tag from htag, hreport]
      rfl
    · rfl

/-- It leaves the name of the tag. -/
@[simp] theorem name_closeAttribute : m.closeAttribute.tag.name = m.construction.tag.name := by
  unfold closeAttribute
  cases m.currentAttribute with
  | none => rfl
  | some a =>
    simp only
    split
    · have hreport := m.dropAttribute.construction_report .duplicateAttribute
      exact congrArg (fun k => k.tag.name) hreport
    · rfl

@[simp] theorem construction_openAttribute (c : Char) :
    (m.openAttribute c).construction = { m.construction with
      tag := m.closeAttribute.tag, current := some { name := String.singleton c } } := by
  have hclosed := m.construction_closeAttribute
  have hopened : (m.openAttribute c).construction = { m.closeAttribute.construction with
    current := some { name := String.singleton c } } := rfl
  rw [hopened, hclosed]

@[simp] theorem construction_putAttributeName (c : Char) :
    (m.putAttributeName c).construction = { m.construction with
      current := m.construction.current.map fun a => { a with name := a.name.push c } } := rfl

@[simp] theorem construction_putAttributeValue (c : Char) :
    (m.putAttributeValue c).construction = { m.construction with
      current := m.construction.current.map fun a => { a with value := a.value.push c } } := rfl

@[simp] theorem construction_markSelfClosing :
    m.markSelfClosing.construction
      = { m.construction with tag := { m.construction.tag with selfClosing := true } } := rfl

@[simp] theorem construction_reportTag (t : Tag) : (m.reportTag t).construction = m.construction := by
  unfold reportTag
  cases t.kind with
  | opening => rfl
  | closing =>
    simp only [construction_ite, construction_report, ite_self]

@[simp] theorem construction_emitTag :
    m.emitTag.construction = { m.construction with
      state := .data, tag := { kind := .opening }, current := none } := by
  have hreset : m.closeAttribute.resetTag.construction
      = { m.closeAttribute.construction with tag := { kind := .opening } } := rfl
  rw [emitTag, construction_goto, construction_emit, construction_reportTag, hreset,
    construction_closeAttribute]

@[simp] theorem construction_putLetter (c : Char) :
    (m.putLetter c).construction
      = { m.construction with letters := m.construction.letters.push c } := rfl

@[simp] theorem construction_clearLetters :
    m.clearLetters.construction = { m.construction with letters := "" } := rfl

@[simp] theorem construction_putComment (c : Char) :
    (m.putComment c).construction = m.construction := rfl

@[simp] theorem construction_putCommentText (t : String) :
    (m.putCommentText t).construction = m.construction := rfl

@[simp] theorem construction_openComment (t : String) :
    (m.openComment t).construction = m.construction := rfl

@[simp] theorem construction_emitComment :
    m.emitComment.construction = { m.construction with state := .data } := by
  rw [emitComment, construction_goto, construction_emit]
  rfl

@[simp] theorem construction_putDoctypeName (c : Char) :
    (m.putDoctypeName c).construction = m.construction := rfl

@[simp] theorem construction_openIdentifier (kind : IdentifierKind) :
    (m.openIdentifier kind).construction = m.construction := by
  cases kind with
  | publicId => rfl
  | systemId => rfl

@[simp] theorem construction_putIdentifier (c : Char) (kind : IdentifierKind) :
    (m.putIdentifier c kind).construction = m.construction := by
  cases kind with
  | publicId => rfl
  | systemId => rfl

@[simp] theorem construction_resetDoctype : m.resetDoctype.construction = m.construction := rfl

@[simp] theorem construction_forceQuirks : m.forceQuirks.construction = m.construction := rfl

@[simp] theorem construction_emitDoctype :
    m.emitDoctype.construction = { m.construction with state := .data } := by
  rw [emitDoctype, construction_goto, construction_emit]
  rfl

@[simp] theorem construction_beginReference :
    m.beginReference.construction = { m.construction with
      reference := some { inAttribute := m.construction.state.isAttributeValue } } := rfl

@[simp] theorem construction_keepReference (r : Reference) :
    (m.keepReference r).construction = { m.construction with reference := some r } := rfl

@[simp] theorem construction_reportNumber (n : Nat) :
    (m.reportNumber n).construction = m.construction := by
  unfold reportNumber
  split
  all_goals simp

end

end Machine

/-! ## (2) End tags of raw text -/

/-- **A possible end tag of raw text**: its letters are kept as they came, and its name is what they are in
lower case. -/
structure IsEndTag (t : Tag) (letters : String) : Prop where
  /-- It closes. -/
  closing : t.kind = .closing
  /-- It has no attributes. -/
  attributes : t.attributes = #[]
  /-- Its name is what the letters are in lower case. -/
  name : t.name = Ascii.lower letters
  /-- There are letters, -/
  nonempty : letters ≠ ""
  /-- and nothing else. -/
  isAlpha : ∀ c ∈ letters.toList, c.isAlpha = true

theorem Ascii.lower_push (s : String) (c : Char) : lower (s.push c) = (lower s).push c.toLower := by
  refine String.toList_inj.mp ?_
  simp [lower]

namespace IsEndTag

variable {t : Tag} {letters : String} {c : Char}

/-- The first letter. -/
theorem first (hc : c.isAlpha = true) :
    IsEndTag { kind := .closing, name := String.singleton c.toLower } (String.singleton c) where
  closing := rfl
  attributes := rfl
  name := (Ascii.lower_push "" c).symm
  nonempty := String.singleton_ne_empty
  isAlpha := by
    intro d hd
    obtain rfl : d = c := by simpa using hd
    exact hc

/-- One more letter. -/
theorem push (h : IsEndTag t letters) (hc : c.isAlpha = true) :
    IsEndTag { t with name := t.name.push c.toLower } (letters.push c) where
  closing := h.closing
  attributes := h.attributes
  name := by rw [h.name, Ascii.lower_push]
  nonempty := String.push_ne_empty
  isAlpha := by
    intro d hd
    rw [String.toList_push, List.mem_append, List.mem_singleton] at hd
    rcases hd with hd | rfl
    · exact h.isAlpha d hd
    · exact hc

/-- It has a name. -/
theorem name_ne (h : IsEndTag t letters) : t.name ≠ "" := by
  intro hname
  have hlower : Ascii.lower letters = "" := h.name.symm.trans hname
  rw [Ascii.lower, String.ofList_eq_empty_iff, List.map_eq_nil_iff, String.toList_eq_nil_iff] at hlower
  exact h.nonempty hlower

end IsEndTag

/-! ## (3) What fits a state -/

namespace Construction

/-- **An attribute that has begun**: it has a name. -/
def HasAttribute (k : Construction) : Prop := ∃ a, k.current = some a ∧ a.name ≠ ""

/-- **What a state goes on with.** -/
def Fits (k : Construction) : Prop :=
  match k.state with
  | .tagName | .beforeAttributeName | .selfClosingStartTag => k.tag.name ≠ ""
  | .attributeName | .afterAttributeName | .beforeAttributeValue | .attributeValue _
  | .afterAttributeValueQuoted => k.tag.name ≠ "" ∧ k.HasAttribute
  | .rawEndTagOpen kind => kind ≠ .scriptDataEscaped .doubleEscaped ∧ k.letters = ""
  | .rawEndTagName kind => kind ≠ .scriptDataEscaped .doubleEscaped ∧ IsEndTag k.tag k.letters
  | _ => True

/-- **A reference in its place**: in text or in the value of an attribute, as it says. -/
def InPlace (k : Construction) : Prop :=
  ∀ r, k.reference = some r →
    (k.state = .data ∨ k.state = .rawData .rcdata) ∧ r.inAttribute = false ∨
      (∃ kind, k.state = .attributeValue kind) ∧ r.inAttribute = true

/-- **All that is under construction fits the state.** -/
def Sound (k : Construction) : Prop := k.Fits ∧ k.InPlace

end Construction

/-- The states of a tag in which one of its attributes has begun. -/
def State.holdsAttribute : State → Bool
  | .attributeName | .afterAttributeName | .beforeAttributeValue | .attributeValue _
  | .afterAttributeValueQuoted => true
  | _ => false

namespace Construction

variable {k : Construction}

theorem Fits.name (h : k.Fits) (hstate : k.state.isTag = true) : k.tag.name ≠ "" := by
  obtain ⟨state, reference, tag, current, letters⟩ := k
  cases state with
  | tagName | beforeAttributeName | selfClosingStartTag => exact h
  | attributeName | afterAttributeName | beforeAttributeValue | attributeValue
  | afterAttributeValueQuoted => exact h.1
  | _ => cases hstate

theorem Fits.hasAttribute (h : k.Fits) (hstate : k.state.holdsAttribute = true) :
    k.HasAttribute := by
  obtain ⟨state, reference, tag, current, letters⟩ := k
  cases state with
  | attributeName | afterAttributeName | beforeAttributeValue | attributeValue
  | afterAttributeValueQuoted => exact h.2
  | _ => cases hstate

theorem Fits.endTagOpen (h : k.Fits) {kind : RawKind} (hstate : k.state = .rawEndTagOpen kind) :
    kind ≠ .scriptDataEscaped .doubleEscaped ∧ k.letters = "" := by
  rw [Fits, hstate] at h
  exact h

theorem Fits.endTagName (h : k.Fits) {kind : RawKind} (hstate : k.state = .rawEndTagName kind) :
    kind ≠ .scriptDataEscaped .doubleEscaped ∧ IsEndTag k.tag k.letters := by
  rw [Fits, hstate] at h
  exact h

/-- What happens to the value of the attribute is all the same. -/
theorem Fits.putValue (h : k.Fits) (s : String) :
    Fits { k with current := k.current.map fun a => { a with value := a.value ++ s } } := by
  have hattribute (ha : k.HasAttribute) :
      HasAttribute { k with current := k.current.map fun a => { a with value := a.value ++ s } } := by
    obtain ⟨a, ha, hne⟩ := ha
    exact ⟨{ a with value := a.value ++ s }, by simp [ha], hne⟩
  obtain ⟨state, reference, tag, current, letters⟩ := k
  cases state with
  | attributeName | afterAttributeName | beforeAttributeValue | attributeValue
  | afterAttributeValueQuoted => exact ⟨h.1, hattribute h.2⟩
  | _ => exact h

end Construction

/-! ## (4) Steps at a character -/

namespace Machine

variable {m k : Machine} {c : Char}

section

variable (h : m.construction.Fits) (href : m.construction.reference = none)
include h href

/-- **In a tag**, an attribute begins in front of what is added to it. -/
theorem sound_stepTag (htag : m.state.isTag = true) (hk : m.stepChar c = some k) :
    k.construction.Sound := by
  have hname : m.construction.tag.name ≠ "" := h.name htag
  unfold stepChar at hk
  cases hstate : m.state with
  | tagName | beforeAttributeName | selfClosingStartTag =>
    -- no attribute has to be there, and if the next state needs one, it begins now
    have hconstruction : m.construction.state = _ := hstate
    simp only [hstate, Option.some.injEq] at hk
    subst hk
    simp only [stepTagName, stepBeforeAttributeName, beginAttribute, stepSelfClosingStartTag]
    split_ifs
    all_goals simp [Construction.Sound, Construction.Fits, Construction.InPlace,
      Construction.HasAttribute, hconstruction, href, hname]
  | attributeName | afterAttributeName | beforeAttributeValue | attributeValue
  | afterAttributeValueQuoted =>
    -- the attribute goes on, another one begins in its place, or the next state needs none
    have hconstruction : m.construction.state = _ := hstate
    obtain ⟨a, ha, hne⟩ := h.hasAttribute (by rw [hconstruction]; rfl)
    simp only [hstate, Option.some.injEq] at hk
    subst hk
    simp only [beginAttribute, stepAttributeName, stepAfterAttributeName, stepBeforeAttributeValue,
      stepAttributeValue, stepAfterAttributeValueQuoted]
    split_ifs
    all_goals simp [Construction.Sound, Construction.Fits, Construction.InPlace,
      Construction.HasAttribute, State.isAttributeValue, hconstruction, href, hname, ha, hne]
  | _ =>
    rw [hstate] at htag
    cases htag

/-- **After `</` in raw text**, there are no letters yet. -/
theorem sound_stepRawEndTagOpen {kind : RawKind} (hstate : m.state = .rawEndTagOpen kind) :
    (m.stepRawEndTagOpen kind c).construction.Sound := by
  obtain ⟨hkind, hletters⟩ := h.endTagOpen hstate
  unfold stepRawEndTagOpen
  split_ifs with hc
  · simp [Construction.Sound, Construction.Fits, Construction.InPlace, href, hkind, hletters,
      IsEndTag.first hc]
  · simp [Construction.Sound, Construction.Fits, Construction.InPlace, href]

/-- **In its name**, each letter is kept in both spellings. -/
theorem sound_stepRawEndTagName {kind : RawKind} (hstate : m.state = .rawEndTagName kind) :
    (m.stepRawEndTagName kind c).construction.Sound := by
  have hconstruction : m.construction.state = _ := hstate
  obtain ⟨hkind, hendTag⟩ := h.endTagName hstate
  unfold stepRawEndTagName putBackEndTag
  split_ifs with hspace hsolidus hclose hc
  · simp [Construction.Sound, Construction.Fits, Construction.InPlace, href, hendTag.name_ne]
  · simp [Construction.Sound, Construction.Fits, Construction.InPlace, href, hendTag.name_ne]
  · simp [Construction.Sound, Construction.Fits, Construction.InPlace, href]
  · simp [Construction.Sound, Construction.Fits, Construction.InPlace, href, hconstruction, hkind,
      hendTag.push hc]
  · simp [Construction.Sound, Construction.Fits, Construction.InPlace, href]

/-- **At a character**, what is under construction goes on fitting the state. -/
theorem sound_stepChar (hk : m.stepChar c = some k) : k.construction.Sound := by
  cases hstate : m.state with
  | tagName | beforeAttributeName | attributeName | afterAttributeName | beforeAttributeValue
  | attributeValue | afterAttributeValueQuoted | selfClosingStartTag =>
    exact sound_stepTag h href (by rw [hstate]; rfl) hk
  | rawEndTagOpen kind =>
    simp only [stepChar, hstate, Option.some.injEq] at hk
    exact hk ▸ sound_stepRawEndTagOpen h href hstate
  | rawEndTagName kind =>
    simp only [stepChar, hstate, Option.some.injEq] at hk
    exact hk ▸ sound_stepRawEndTagName h href hstate
  | markupDeclarationOpen =>
    simp only [stepChar, hstate, stepMarkupDeclarationOpen] at hk
    repeat' split at hk
    all_goals cases hk
    all_goals simp [Construction.Sound, Construction.Fits, Construction.InPlace, href]
  | afterDoctypeName =>
    have hconstruction : m.construction.state = _ := hstate
    simp only [stepChar, hstate, stepAfterDoctypeName, abandonDoctype] at hk
    repeat' split at hk
    all_goals cases hk
    all_goals simp [Construction.Sound, Construction.Fits, Construction.InPlace, hconstruction, href]
  | afterDoctypeIdentifier kind =>
    have hconstruction : m.construction.state = _ := hstate
    cases kind
    all_goals
      simp only [stepChar, hstate, Option.some.injEq] at hk
      subst hk
      simp only [stepAfterPublicIdentifier, stepAfterSystemIdentifier, beginIdentifier, abandonDoctype]
      split_ifs
      all_goals simp [Construction.Sound, Construction.Fits, Construction.InPlace, hconstruction, href]
  | _ =>
    have hconstruction : m.construction.state = _ := hstate
    simp only [stepChar, hstate, Option.some.injEq] at hk
    subst hk
    -- nothing has to be there in the other states, nor in those that they lead to
    simp only [stepData, stepPlaintext, stepRawData, stepRawLessThanSign, escapedLessThan, replaceNull,
      stepEscapeStart, stepEscapeStartDash, stepEscapedDash, stepEscapedDashDash, stepDoubleEscapeEnd,
      escapeDash, escapeBoundary, afterDashes, stepTagOpen, stepEndTagOpen, stepBogusComment,
      stepCommentStart, stepCommentStartDash, stepCommentText, stepCommentEndDash, stepCommentEnd,
      stepCommentEndBang, putCommentChar, putBackDashes, stepDoctype, stepBeforeDoctypeName,
      beforeDoctypeName, stepDoctypeName, stepAfterDoctypeKeyword, stepBeforeDoctypeIdentifier,
      stepDoctypeIdentifier, stepBetweenIdentifiers, stepBogusDoctype, abandonDoctype, cutDoctype,
      beginIdentifier]
    repeat' split
    all_goals simp_all [Construction.Sound, Construction.Fits, Construction.InPlace,
      State.isAttributeValue]

end

/-! ## (5) References, runs and the end -/

/-- **What happens to a value** changes neither the tag nor the name of the attribute. -/
theorem sound_closeReference (h : m.construction.Fits) (r : Reference) (s : String) :
    (m.closeReference r s).construction.Sound := by
  have hnone : (m.closeReference r s).construction.reference = none :=
    congrArg Course.reference (m.course_closeReference r s)
  refine ⟨?_, ?_⟩
  · unfold closeReference
    cases r.inAttribute with
    | false => exact h
    | true => exact h.putValue s
  · intro r' hr'
    rw [hnone] at hr'
    cases hr'

/-- **A reference that goes on** stays where it is. -/
theorem sound_keepReference {r r' : Reference} (h : m.construction.Sound) (href : m.reference = some r)
    (hplace : r'.inAttribute = r.inAttribute) : (m.keepReference r').construction.Sound := by
  refine ⟨h.1, ?_⟩
  rintro _ ⟨⟩
  rw [hplace]
  exact h.2 r href

/-- **In a reference**, the state waits, and where the reference is does not change. -/
theorem sound_stepReference {r : Reference} (h : m.construction.Sound) (href : m.reference = some r)
    (next : Option Char) : (m.stepReference r next).construction.Sound := by
  have hclose {m' : Machine} (hm' : m'.construction = m.construction) (r' : Reference) (s : String) :
      (m'.closeReference r' s).construction.Sound := by
    refine sound_closeReference ?_ r' s
    rw [hm']
    exact h.1
  have hkeep {m' : Machine} (hm' : m'.construction = m.construction) {r' : Reference}
      (hplace : r'.inAttribute = r.inAttribute) : (m'.keepReference r').construction.Sound := by
    refine @sound_keepReference m' r r' ?_ ?_ hplace
    · rw [hm']
      exact h
    · exact (congrArg Construction.reference hm').trans href
  unfold stepReference
  cases r.phase with
  | opened =>
    simp only [stepOpened, closeLiteral]
    repeat' split
    all_goals first | exact hkeep (by simp) rfl | exact hclose (by simp) _ _
  | numeric =>
    simp only [stepNumeric]
    repeat' split
    all_goals exact hkeep (by simp) rfl
  | digits hex =>
    simp only [stepDigits, endDigits, closeLiteral, closeNumber]
    repeat' split
    all_goals first | exact hkeep (by simp) rfl | exact hclose (by simp) _ _
  | named =>
    simp only [stepNamed, closeName, closeLiteral]
    repeat' split
    all_goals first | exact hkeep (by simp) rfl | exact hclose (by simp) _ _

/-- **At the end of the input**, what is under construction is dropped with the state. -/
theorem sound_stepEnd (href : m.construction.reference = none) : m.stepEnd.construction.Sound := by
  unfold stepEnd
  cases hstate : m.state
  all_goals
    have hconstruction : m.construction.state = _ := hstate
    simp only [putBackEndTag, endDoctype]
    repeat' split
    all_goals simp_all [Construction.Sound, Construction.Fits, Construction.InPlace]

/-- **A step** goes on with what fits its state. -/
theorem sound_step (h : m.construction.Sound) (hk : step .byChar m = some k) :
    k.construction.Sound := by
  rcases step_cases hk with ⟨r, next, href, rfl⟩ | ⟨href, c, cs, -, hchar⟩ | ⟨href, -, rfl⟩
  · exact sound_stepReference h href next
  · exact sound_stepChar h.1 href hchar
  · exact sound_stepEnd href

/-- **So does a run.** -/
theorem sound_leads (h : m.construction.Sound) (hleads : m.Leads k) : k.construction.Sound := by
  induction hleads with
  | refl => exact h
  | tail _ hstep ih => exact sound_step ih hstep

/-- Nothing has to be there at the beginning. -/
theorem sound_start (config : Config) : (start config).construction.Sound := by
  constructor
  · obtain ⟨exactErrors, discardBom, initialState, lastStartTag⟩ := config
    cases initialState
    all_goals trivial
  · rintro r ⟨⟩

end Machine

end HtmlStream

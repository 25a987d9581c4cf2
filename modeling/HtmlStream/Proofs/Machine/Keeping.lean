import HtmlStream.Proofs.Machine.Construction
import HtmlStream.Proofs.Requests

/-! # What is written for an attribute is kept

What is to be added to an attribute goes nowhere if no attribute has begun, and nothing tells. A machine
that fails then instead, wherever it adds to one, does the same as the machine and never fails: where it
adds, an attribute has begun.

* **`Keeping.step`**, **`Keeping.run`**: the machine that fails. **`Keeping.step_eq`**: it does not.
* **`Machine.Reachable`**: the machines that sessions have, in a call and between two calls.
* **`Machine.WellBuilt`**: what they have under construction. **`wellBuilt_of_reachable`**: all of them
  have it and keep what is written. -/

namespace HtmlStream

/-! ## (1) A machine that keeps or fails -/

namespace Keeping

/-- **What was to be added** to an attribute that has not begun. -/
structure Loss where
  /-- The text. -/
  text : String
  deriving DecidableEq, Repr

/-- Changes the attribute under construction, which has to be there for the text. -/
def change (m : Machine) (text : String) (f : Attribute → Attribute) : Except Loss Machine :=
  match m.currentAttribute with
  | none => .error ⟨text⟩
  | some a => .ok { m with currentAttribute := some (f a) }

/-- Adds to the name of the attribute. -/
def putAttributeName (m : Machine) (c : Char) : Except Loss Machine :=
  change m (String.singleton c) fun a => { a with name := a.name.push c }

/-- Adds a character to the value of the attribute. -/
def putAttributeValue (m : Machine) (c : Char) : Except Loss Machine :=
  change m (String.singleton c) fun a => { a with value := a.value.push c }

/-- Adds to the value of the attribute. -/
def putAttributeText (m : Machine) (s : String) : Except Loss Machine :=
  change m s fun a => { a with value := a.value ++ s }

/-- In the name of an attribute. -/
def stepAttributeName (m : Machine) (c : Char) : Except Loss Machine :=
  let m := m.advance
  if Ascii.isSpace c then .ok (m.goto .afterAttributeName)
  else if c = '/' then .ok (m.goto .selfClosingStartTag)
  else if c = '=' then .ok (m.goto .beforeAttributeValue)
  else if c = '>' then .ok m.emitTag
  else if c = '\x00' then putAttributeName (m.report .unexpectedNullCharacter) '\uFFFD'
  else if Machine.isOddInName c then
    putAttributeName (m.report .unexpectedCharacterInAttributeName) c
  else putAttributeName m c.toLower

/-- In the value of an attribute. -/
def stepAttributeValue (m : Machine) (kind : QuoteKind) (c : Char) : Except Loss Machine :=
  let m := m.advance
  if Machine.closesValue kind c then .ok (m.goto .afterAttributeValueQuoted)
  else if kind = .unquoted && Ascii.isSpace c then .ok (m.goto .beforeAttributeName)
  else if kind = .unquoted && c = '>' then .ok m.emitTag
  else if c = '&' then .ok m.beginReference
  else if c = '\x00' then putAttributeValue (m.report .unexpectedNullCharacter) '\uFFFD'
  else if kind = .unquoted && Machine.isOddUnquoted c then
    putAttributeValue (m.report .unexpectedCharacterInUnquotedAttributeValue) c
  else putAttributeValue m c

/-- Ends a reference with the text it amounts to. -/
def closeReference (m : Machine) (r : Reference) (s : String) : Except Loss Machine :=
  let m := { m with reference := none }
  if r.inAttribute then putAttributeText m s else .ok (m.putText s)

/-- Ends a reference that is kept as it is written. -/
def closeLiteral (m : Machine) (r : Reference) : Except Loss Machine :=
  closeReference m r ("&" ++ r.raw)

/-- Ends a numeric reference. -/
def closeNumber (m : Machine) (r : Reference) : Except Loss Machine :=
  closeReference (m.reportNumber r.number) r (String.singleton (Reference.numberChar r.number))

/-- Ends a named reference. -/
def closeName (m : Machine) (r : Reference) (next : Option Char) : Except Loss Machine :=
  let raw := r.raw.toList
  match Reference.longestMatch raw with
  | some entry =>
    let rest := raw.drop entry.name.length
    let expanded := entry.expansion ++ String.ofList rest
    if entry.isClosed then closeReference m r expanded
    else if r.inAttribute && Machine.continuesName (rest.head?.or next) then closeLiteral m r
    else closeReference (m.report .missingSemicolonAfterCharacterReference) r expanded
  | none =>
    if raw.getLast? = some ';' then closeLiteral (m.report .unknownNamedCharacterReference) r
    else closeLiteral m r

/-- After `&`. -/
def stepOpened (m : Machine) (r : Reference) : Option Char → Except Loss Machine
  | some '#' => .ok (m.advance.keepReference { r with phase := .numeric, raw := r.raw.push '#' })
  | some c =>
    if c.isAlphanum then .ok (m.keepReference { r with phase := .named }) else closeLiteral m r
  | none => closeLiteral m r

/-- At the end of the digits. -/
def endDigits (m : Machine) (r : Reference) (next : Option Char) : Except Loss Machine :=
  if !r.sawDigit then
    closeLiteral (m.report .absenceOfDigitsInNumericCharacterReference) r
  else if next = some ';' then closeNumber m.advance r
  else closeNumber (m.report .missingSemicolonAfterCharacterReference) r

/-- In the digits. -/
def stepDigits (m : Machine) (r : Reference) (hex : Bool) (next : Option Char) :
    Except Loss Machine :=
  match next with
  | some c =>
    match Text.digitValue? (Reference.base hex) c with
    | some digit =>
      .ok (m.advance.keepReference
        { r with raw := r.raw.push c, number := Reference.accumulate hex r.number digit,
                 sawDigit := true })
    | none => endDigits m r next
  | none => endDigits m r next

/-- In a name. -/
def stepNamed (m : Machine) (r : Reference) (next : Option Char) : Except Loss Machine :=
  match next with
  | some c =>
    if r.raw.length < Reference.nameLimit && c.isAlphanum then
      .ok (m.advance.keepReference { r with raw := r.raw.push c })
    else if r.raw.length < Reference.nameLimit && c = ';' then
      closeName m.advance { r with raw := r.raw.push ';' } none
    else closeName m r next
  | none => closeName m r next

/-- One step of a reference. -/
def stepReference (m : Machine) (r : Reference) (next : Option Char) : Except Loss Machine :=
  match r.phase with
  | .opened => stepOpened m r next
  | .numeric => .ok (m.stepNumeric r next)
  | .digits hex => stepDigits m r hex next
  | .named => stepNamed m r next

/-- One step at a character. The other states add to no attribute. -/
def stepChar (m : Machine) (c : Char) : Except Loss (Option Machine) :=
  match m.state with
  | .attributeName => some <$> stepAttributeName m c
  | .attributeValue kind => some <$> stepAttributeValue m kind c
  | _ => .ok (m.stepChar c)

/-- One step with the unread character `c`. -/
def stepAt (pace : Pace) (m : Machine) (c : Char) : Except Loss (Option Machine) :=
  let run := Machine.runAhead pace m
  if run.isEmpty then stepChar m c
  else .ok (some ((m.skip run.length).putRun (String.ofList run)))

/-- One step. -/
def step (pace : Pace) (m : Machine) : Except Loss (Option Machine) :=
  if m.ended then .ok none
  else
    match m.reference, m.input.pending with
    | some r, c :: _ => some <$> stepReference m r (some c)
    | some r, [] => if m.input.finished then some <$> stepReference m r none else .ok none
    | none, c :: _ => stepAt pace m c
    | none, [] => .ok (if m.input.finished then some m.stepEnd else none)

/-- At most `fuel` steps. -/
def runFor (pace : Pace) : Nat → Machine → Except Loss Machine
  | 0, m => .ok m
  | fuel + 1, m => do
    match ← step pace m with
    | none => return m
    | some next => runFor pace fuel next

/-- Runs the machine. -/
def run (m : Machine) : Except Loss Machine := runFor .byRun m.stepBound m

/-! ## (2) It does not fail -/

variable {m : Machine}

/-- **An attribute that has begun** is changed. -/
theorem change_eq (h : m.construction.HasAttribute) (text : String) (f : Attribute → Attribute) :
    change m text f = .ok { m with currentAttribute := m.currentAttribute.map f } := by
  obtain ⟨a, ha, -⟩ := h
  have hcurrent : m.currentAttribute = some a := ha
  rw [change, hcurrent]
  rfl

theorem putAttributeName_eq (h : m.construction.HasAttribute) (c : Char) :
    putAttributeName m c = .ok (m.putAttributeName c) :=
  change_eq h _ _

theorem putAttributeValue_eq (h : m.construction.HasAttribute) (c : Char) :
    putAttributeValue m c = .ok (m.putAttributeValue c) :=
  change_eq h _ _

theorem hasAttribute_report (h : m.construction.HasAttribute) (code : ErrorCode) :
    (m.report code).construction.HasAttribute := by
  rwa [Machine.construction_report]

theorem stepAttributeName_eq (h : m.construction.HasAttribute) (c : Char) :
    stepAttributeName m c = .ok (m.stepAttributeName c) := by
  have hadvance : m.advance.construction.HasAttribute := h
  simp only [stepAttributeName, Machine.stepAttributeName]
  split_ifs
  · rfl
  · rfl
  · rfl
  · rfl
  · exact putAttributeName_eq (hasAttribute_report hadvance _) _
  · exact putAttributeName_eq (hasAttribute_report hadvance _) _
  · exact putAttributeName_eq hadvance _

theorem stepAttributeValue_eq (h : m.construction.HasAttribute) (kind : QuoteKind) (c : Char) :
    stepAttributeValue m kind c = .ok (m.stepAttributeValue kind c) := by
  have hadvance : m.advance.construction.HasAttribute := h
  simp only [stepAttributeValue, Machine.stepAttributeValue]
  split_ifs
  · rfl
  · rfl
  · rfl
  · rfl
  · exact putAttributeValue_eq (hasAttribute_report hadvance _) _
  · exact putAttributeValue_eq (hasAttribute_report hadvance _) _
  · exact putAttributeValue_eq hadvance _

/-- **In the name of an attribute** and in its value the attribute has begun. -/
theorem stepChar_eq (h : m.construction.Fits) (c : Char) : stepChar m c = .ok (m.stepChar c) := by
  cases hstate : m.state with
  | attributeName =>
    have hattribute : m.construction.HasAttribute := h.hasAttribute (congrArg _ hstate)
    rw [stepChar, Machine.stepChar, hstate]
    show some <$> stepAttributeName m c = _
    rw [stepAttributeName_eq hattribute]
    rfl
  | attributeValue kind =>
    have hattribute : m.construction.HasAttribute := h.hasAttribute (congrArg _ hstate)
    rw [stepChar, Machine.stepChar, hstate]
    show some <$> stepAttributeValue m kind c = _
    rw [stepAttributeValue_eq hattribute]
    rfl
  | _ => rw [stepChar, hstate]

section

variable {r : Reference} (h : r.inAttribute = true → m.construction.HasAttribute)
include h

/-- **At the end of a reference** in an attribute the attribute has begun. -/
theorem closeReference_eq (s : String) : closeReference m r s = .ok (m.closeReference r s) := by
  simp only [closeReference, Machine.closeReference]
  split_ifs with hplace
  · have hattribute : ({ m with reference := none } : Machine).construction.HasAttribute := h hplace
    exact change_eq hattribute _ _
  · rfl

theorem closeReference_report_eq (code : ErrorCode) (s : String) :
    closeReference (m.report code) r s = .ok ((m.report code).closeReference r s) :=
  closeReference_eq (fun hplace => hasAttribute_report (h hplace) code) s

theorem closeNumber_eq : closeNumber m r = .ok (m.closeNumber r) := by
  refine closeReference_eq ?_ _
  rwa [Machine.construction_reportNumber]

theorem closeName_eq (next : Option Char) : closeName m r next = .ok (m.closeName r next) := by
  simp only [closeName, Machine.closeName, closeLiteral, Machine.closeLiteral]
  cases Reference.longestMatch r.raw.toList with
  | none =>
    simp only
    split_ifs
    · exact closeReference_report_eq h _ _
    · exact closeReference_eq h _
  | some entry =>
    simp only
    split_ifs
    · exact closeReference_eq h _
    · exact closeReference_eq h _
    · exact closeReference_report_eq h _ _

/-- **A reference** keeps what it amounts to. -/
theorem stepReference_eq (next : Option Char) :
    stepReference m r next = .ok (m.stepReference r next) := by
  have hadvance : r.inAttribute = true → m.advance.construction.HasAttribute := h
  have hend (c? : Option Char) : endDigits m r c? = .ok (m.endDigits r c?) := by
    simp only [endDigits, Machine.endDigits]
    split_ifs
    · exact closeReference_report_eq h _ _
    · exact closeNumber_eq hadvance
    · refine closeNumber_eq fun hplace => hasAttribute_report (h hplace) _
  -- only what ends the reference adds to the attribute
  rw [stepReference, Machine.stepReference]
  cases r.phase with
  | opened =>
    cases next with
    | none => exact closeReference_eq h _
    | some c =>
      by_cases hc : c = '#'
      · subst hc
        rfl
      · simp only [stepOpened, Machine.stepOpened]
        split_ifs
        · rfl
        · exact closeReference_eq h _
  | numeric => rfl
  | digits hex =>
    cases next with
    | none => exact hend none
    | some c =>
      simp only [stepDigits, Machine.stepDigits]
      cases Text.digitValue? (Reference.base hex) c with
      | none => exact hend (some c)
      | some digit => rfl
  | named =>
    cases next with
    | none => exact closeName_eq h none
    | some c =>
      simp only [stepNamed, Machine.stepNamed]
      split_ifs
      · rfl
      · exact @closeName_eq m.advance { r with raw := r.raw.push ';' } hadvance none
      · exact closeName_eq h (some c)

end

/-- A reference in an attribute is in the value of one that has begun. -/
theorem hasAttribute_of_reference (h : m.construction.Sound) {r : Reference} (href : m.reference = some r)
    (hplace : r.inAttribute = true) : m.construction.HasAttribute := by
  rcases h.2 r href with ⟨-, hnot⟩ | ⟨⟨kind, hstate⟩, -⟩
  · rw [hnot] at hplace
    cases hplace
  · exact h.1.hasAttribute (congrArg State.holdsAttribute hstate)

theorem stepAt_eq (h : m.construction.Fits) (pace : Pace) (c : Char) :
    stepAt pace m c = .ok (m.stepAt pace c) := by
  simp only [stepAt, Machine.stepAt]
  split_ifs
  · exact stepChar_eq h c
  · rfl

/-- **A step loses nothing.** -/
theorem step_eq (h : m.construction.Sound) (pace : Pace) : step pace m = .ok (m.step pace) := by
  rw [step, Machine.step]
  by_cases hended : m.ended = true
  · rw [if_pos hended, if_pos hended]
  · rw [if_neg hended, if_neg hended]
    cases href : m.reference with
    | some r =>
      have hreference := stepReference_eq (hasAttribute_of_reference h href)
      cases m.input.pending with
      | nil =>
        simp only [hreference]
        split_ifs
        · rfl
        · rfl
      | cons c cs =>
        simp only [hreference]
        rfl
    | none =>
      cases m.input.pending with
      | nil => rfl
      | cons c cs => exact stepAt_eq h.1 pace c

/-- **A run loses nothing.** -/
theorem runFor_eq (h : m.construction.Sound) (pace : Pace) (fuel : Nat) :
    runFor pace fuel m = .ok (m.runFor pace fuel) := by
  induction fuel generalizing m with
  | zero => rfl
  | succ fuel ih =>
    -- what is under construction fits the state behind the step, too
    rw [runFor, Machine.runFor, step_eq h]
    cases hstep : m.step pace with
    | none => rfl
    | some next => exact ih (Machine.sound_leads h (Machine.leads_of_step hstep))

end Keeping

namespace Machine

/-! ## (3) Machines of sessions -/

/-- **The machines that a session may have**: between two calls, and behind each step of a call. -/
inductive Reachable (config : Config) : Machine → Prop
  /-- At the beginning. -/
  | start : Reachable config (.start config)
  /-- Behind a chunk. -/
  | receive {m : Machine} (h : Reachable config m) (chunk : Bytes) : Reachable config (m.receive chunk)
  /-- Behind the end of the input. -/
  | close {m : Machine} (h : Reachable config m) : Reachable config m.close
  /-- With what is queued handed over. -/
  | drain {m : Machine} (h : Reachable config m) : Reachable config m.drain.2
  /-- Behind a step. -/
  | step {m k : Machine} (h : Reachable config m) (pace : Pace) (hstep : m.step pace = some k) :
    Reachable config k

variable {config : Config} {m : Machine}

theorem Reachable.leads {k : Machine} (h : Reachable config m) (hleads : m.Leads k) :
    Reachable config k := by
  induction hleads with
  | refl => exact h
  | tail _ hstep ih => exact ih.step .byChar hstep

/-- **The machine behind any requests** is one of these. -/
theorem reachable_after {s : Session} (h : Reachable config s.machine) (requests : List Request) :
    Reachable config (s.after requests).machine := by
  induction requests generalizing s with
  | nil => exact h
  | cons first rest ih =>
    refine ih ?_
    obtain ⟨-, hserve⟩ | ⟨chunk, -, -, -, hserve⟩ | ⟨-, -, hserve⟩ := s.serve_cases first
    · rwa [hserve]
    · rw [hserve]
      exact ((h.receive chunk).leads (leads_run _)).drain
    · rw [hserve]
      exact (h.close.leads (leads_run _)).drain

/-- **All of them have what their state goes on with.** -/
theorem sound_of_reachable (h : Reachable config m) : m.construction.Sound := by
  induction h with
  | start => exact sound_start config
  | receive _ chunk ih => exact ih
  | close _ ih => exact ih
  | drain _ ih => exact ih
  | step _ pace hstep ih => exact sound_leads ih (leads_of_step hstep)

/-! ## (4) What machines have under construction -/

/-- **What a machine has under construction.** -/
structure WellBuilt (m : Machine) : Prop where
  /-- From the name of an attribute to the quote behind its value, there is an attribute with a name. -/
  hasAttribute : m.state.holdsAttribute = true → ∃ a, m.currentAttribute = some a ∧ a.name ≠ ""
  /-- A reference is in text or in the value of an attribute, and knows in which. -/
  reference : ∀ r, m.reference = some r →
    (m.state = .data ∨ m.state = .rawData .rcdata) ∧ r.inAttribute = false ∨
      (∃ kind, m.state = .attributeValue kind) ∧ r.inAttribute = true
  /-- In the name of an end tag of raw text, the tag is that of the letters. -/
  endTag : ∀ kind, m.state = .rawEndTagName kind → IsEndTag m.tag m.letters
  /-- No end tag is looked for in double escaped text. -/
  notDouble : ∀ kind, m.state = .rawEndTagOpen kind ∨ m.state = .rawEndTagName kind →
    kind ≠ .scriptDataEscaped .doubleEscaped
  /-- Behind its first letter, a tag has a name. -/
  named : m.state.isTag = true ∨ (∃ kind, m.state = .rawEndTagName kind) → m.tag.name ≠ ""

/-- **Well-built machines**: what has begun is what the state goes on with. -/
theorem wellBuilt_of_sound (h : m.construction.Sound) : m.WellBuilt where
  hasAttribute := fun hstate => h.1.hasAttribute hstate
  reference := h.2
  endTag := fun _ hstate => (h.1.endTagName hstate).2
  notDouble := by
    rintro kind (hstate | hstate)
    · exact (h.1.endTagOpen hstate).1
    · exact (h.1.endTagName hstate).1
  named := by
    rintro (hstate | ⟨kind, hstate⟩)
    · exact h.1.name hstate
    · exact (h.1.endTagName hstate).2.name_ne

/-- **Every machine of a session is well built**, between the calls and behind each step of them, and
nothing that is written for an attribute is lost on the way. -/
theorem wellBuilt_of_reachable (config : Config) :
    (∀ surface requests,
      Reachable config ((AnySession.start surface config).after requests).session.machine) ∧
    ∀ m, Reachable config m → m.WellBuilt ∧
      (∀ pace, Keeping.step pace m = .ok (m.step pace)) ∧ Keeping.run m = .ok m.run := by
  constructor
  · intro surface requests
    rw [AnySession.session_after, AnySession.session_start]
    exact reachable_after .start requests
  · intro m hm
    have hsound := sound_of_reachable hm
    exact ⟨wellBuilt_of_sound hsound, Keeping.step_eq hsound, Keeping.runFor_eq hsound _ _⟩

/-- A session that waits in a reference in the value of an attribute, and one that waits in the name of an
end tag of raw text. -/
theorem wellBuilt_waiting :
    (∃ m, Reachable {} m ∧ m.state = .attributeValue .doubleQuoted ∧
      m.reference.map (·.inAttribute) = some true ∧ m.WellBuilt ∧ Keeping.run m = .ok m.run) ∧
    ∃ m, Reachable { initialState := .rcdata } m ∧ m.state = .rawEndTagName .rcdata ∧
      m.letters = "TI" ∧ m.WellBuilt ∧ Keeping.run m = .ok m.run := by
  obtain ⟨hsessions, hall⟩ := wellBuilt_of_reachable {}
  obtain ⟨hsessions', hall'⟩ := wellBuilt_of_reachable { initialState := .rcdata }
  have hvalue := hsessions .borrowed [.feed (Utf8.encode "<a b=\x22&am")]
  have hname := hsessions' .shared [.feed (Utf8.encode "x</TI")]
  constructor
  · refine ⟨_, hvalue, ?_, ?_, (hall _ hvalue).1, (hall _ hvalue).2.2⟩
    · decide +kernel
    · decide +kernel
  · refine ⟨_, hname, ?_, ?_, (hall' _ hname).1, (hall' _ hname).2.2⟩
    · decide +kernel
    · decide +kernel

end Machine

end HtmlStream

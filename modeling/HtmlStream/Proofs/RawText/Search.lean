import HtmlStream.Proofs.Machine.Flushed
import HtmlStream.Proofs.RawText.Conservation

/-! # The search for the end tag of raw text

As long as raw text has not ended, what the machine does does not depend on the tag that would end it:
what begins like an end tag and is none is put back, and the search goes on behind it. So up to the first
end tag of the last start tag, if there is one, a machine does what a machine without a last start tag
does, and at the `<` of that end tag it stands where the other stands at the end of its input.

* **`ClosesRawText last cs`**: the end tag that ends raw text is at the front of `cs`.
* **`Machine.beside a`**: a machine that remembers other things; **`beside_stepReference`**, …: what is
  made of references, and of raw text that goes on, is the same.
* **`Scene.InRawText kind y`**: the invariant of a machine that reads `y` as raw text.
* **`exists_step`**, **`step_stop`**: a character, and the end of `y` or a `<` behind it.
* **`exists_end`**: all of `y`. -/

namespace HtmlStream

open Script

/-! ## (1) End tags of raw text -/

/-- Whether a character may stand behind the name of an end tag. -/
def endsTagName (c : Char) : Bool := Ascii.isSpace c || c = '/' || c = '>'

/-- **The end tag that ends raw text** is at the front: `</`, letters that are the name of the last start
tag, and a character that may stand behind them. -/
def ClosesRawText (last : Option String) (cs : List Char) : Prop :=
  ∃ letters c rest, cs = '<' :: '/' :: (letters ++ c :: rest) ∧ letters ≠ [] ∧
    (∀ l ∈ letters, l.isAlpha = true) ∧
    last = some (String.ofList (letters.map Char.toLower)) ∧ endsTagName c = true

/-! ## (2) What raw text leaves aside -/

/-- What a machine remembers and raw text does not change: of it, only the name of the last start tag
plays a part in raw text, and only in an end tag that ends it. -/
structure Aside where
  /-- The name of the last start tag. -/
  lastStartTag : Option String
  /-- The comment under construction. -/
  comment : String := ""
  /-- The document type under construction. -/
  doctype : Doctype := {}

namespace Machine

/-- The machine with other things to remember. -/
def beside (m : Machine) (a : Aside) : Machine :=
  { m with lastStartTag := a.lastStartTag, comment := a.comment, doctype := a.doctype }

variable (m : Machine) (a : Aside)

@[simp] theorem state_beside : (m.beside a).state = m.state := rfl

@[simp] theorem beside_ite (q : Prop) [Decidable q] (m m' : Machine) :
    (if q then m else m').beside a = if q then m.beside a else m'.beside a :=
  apply_ite (·.beside a) q m m'

@[simp] theorem beside_goto (next : State) : (m.goto next).beside a = (m.beside a).goto next := by
  unfold goto
  rw [beside_ite]
  rfl

@[simp] theorem beside_advance : m.advance.beside a = (m.beside a).advance := rfl

@[simp] theorem beside_putChar (c : Char) : (m.putChar c).beside a = (m.beside a).putChar c := rfl

@[simp] theorem beside_putText (t : String) : (m.putText t).beside a = (m.beside a).putText t := rfl

@[simp] theorem beside_report (code : ErrorCode) :
    (m.report code).beside a = (m.beside a).report code := by
  have hflush := flush_action { m with errors := m.errors + 1 } (beside · a) rfl rfl
  exact congrArg (enqueue · (.error ⟨code, m.input.consumed⟩ m.state)) hflush.symm

@[simp] theorem beside_clearLetters : m.clearLetters.beside a = (m.beside a).clearLetters := rfl

@[simp] theorem beside_putLetter (c : Char) :
    (m.putLetter c).beside a = (m.beside a).putLetter c := rfl

@[simp] theorem beside_openTag (kind : TagKind) (c : Char) :
    (m.openTag kind c).beside a = (m.beside a).openTag kind c := rfl

@[simp] theorem beside_putTagName (c : Char) :
    (m.putTagName c).beside a = (m.beside a).putTagName c := rfl

@[simp] theorem beside_putBackEndTag (kind : RawKind) :
    (m.putBackEndTag kind).beside a = (m.beside a).putBackEndTag kind := by
  rw [putBackEndTag, beside_goto]
  rfl

@[simp] theorem beside_beginReference : m.beginReference.beside a = (m.beside a).beginReference := rfl

@[simp] theorem beside_keepReference (r : Reference) :
    (m.keepReference r).beside a = (m.beside a).keepReference r := rfl

@[simp] theorem beside_closeReference (r : Reference) (t : String) :
    (m.closeReference r t).beside a = (m.beside a).closeReference r t := by
  unfold closeReference
  rw [beside_ite]
  rfl

@[simp] theorem beside_reportNumber (n : Nat) :
    (m.reportNumber n).beside a = (m.beside a).reportNumber n := by
  unfold reportNumber
  split <;> simp

@[simp] theorem beside_closeLiteral (r : Reference) :
    (m.closeLiteral r).beside a = (m.beside a).closeLiteral r :=
  m.beside_closeReference a r _

@[simp] theorem beside_closeName (r : Reference) (next : Option Char) :
    (m.closeName r next).beside a = (m.beside a).closeName r next := by
  simp only [closeName]
  cases Reference.longestMatch r.raw.toList <;> simp

/-- **References** do not depend on what the machine remembers. -/
theorem beside_stepReference (r : Reference) (next : Option Char) :
    (m.stepReference r next).beside a = (m.beside a).stepReference r next := by
  have hend : (m.endDigits r next).beside a = (m.beside a).endDigits r next := by
    simp [endDigits, closeNumber]
  unfold stepReference
  cases r.phase with
  | opened =>
    cases next with
    | none => simp [stepOpened]
    | some c => by_cases hc : c = '#' <;> simp [stepOpened, hc]
  | numeric => cases next <;> simp [stepNumeric]
  | digits hex =>
    cases next with
    | none => exact hend
    | some c =>
      simp only [stepDigits]
      cases Text.digitValue? (Reference.base hex) c <;> simp [hend]
  | named => cases next <;> simp [stepNamed]

theorem beside_stepRawData (kind : RawKind) (c : Char) :
    (m.stepRawData kind c).beside a = (m.beside a).stepRawData kind c := by
  unfold stepRawData escapedLessThan
  split <;> simp [replaceNull]
  split <;> simp

theorem beside_stepRawLessThanSign (kind : RawKind) (c : Char) :
    (m.stepRawLessThanSign kind c).beside a = (m.beside a).stepRawLessThanSign kind c := by
  unfold stepRawLessThanSign
  split <;> simp

theorem beside_stepRawEndTagOpen (kind : RawKind) (c : Char) :
    (m.stepRawEndTagOpen kind c).beside a = (m.beside a).stepRawEndTagOpen kind c := by
  simp [stepRawEndTagOpen]

/-- The name of an end tag that does not end the text. -/
theorem stepRawEndTagName_of_not {m : Machine} {c : Char}
    (h : m.isAppropriateEndTag = true → endsTagName c = false) (kind : RawKind) :
    m.stepRawEndTagName kind c
      = if c.isAlpha then (m.advance.putTagName c.toLower).putLetter c else m.putBackEndTag kind := by
  unfold stepRawEndTagName
  cases happropriate : m.isAppropriateEndTag with
  | false => simp
  | true =>
    have hc := h happropriate
    simp only [endsTagName, Bool.or_eq_false_iff] at hc
    simp [hc.1.1, hc.1.2, hc.2]

/-- Without a last start tag, and with one whose name does not end here, a name is the same. -/
theorem beside_stepRawEndTagName {m : Machine} {a : Aside} {c : Char} (hnone : m.lastStartTag = none)
    (hnot : a.lastStartTag = some m.tag.name → endsTagName c = false) (kind : RawKind) :
    (m.stepRawEndTagName kind c).beside a = (m.beside a).stepRawEndTagName kind c := by
  have happropriate : (m.beside a).isAppropriateEndTag = true → endsTagName c = false :=
    fun h => hnot (of_decide_eq_true h)
  rw [stepRawEndTagName_of_not happropriate,
    stepRawEndTagName_of_not (by simp [isAppropriateEndTag, hnone])]
  simp

/-- A reference outside of attributes ends as text. -/
theorem scene_closeReference {r : Reference} (hr : r.inAttribute = false) (t : String) :
    (m.closeReference r t).scene
      = { m.scene with held := m.scene.held ++ t, reference := none } := by
  rw [closeReference, hr]
  rfl

end Machine

/-- The input goes on with `z` and ends behind it. -/
def Surroundings.ending (z : List Char) : Surroundings := ⟨#[], z, .idle, true⟩

/-! ## (3) Raw text that goes on -/

/-- What is withheld in a state of raw text, `name` being that of the tag under construction. -/
inductive Withholds (kind : RawKind) : State → String → List Char → Prop
  /-- Text withholds nothing. -/
  | text (name : String) : Withholds kind (.rawData kind) name []
  /-- After `<`. -/
  | lessThanSign (name : String) : Withholds kind (.rawLessThanSign kind) name ['<']
  /-- After `</`. -/
  | solidus (name : String) : Withholds kind (.rawEndTagOpen kind) name ['<', '/']
  /-- After `</` and letters, which are the name but for their case. -/
  | letters {ls : List Char} (hne : ls ≠ []) (hletters : ∀ l ∈ ls, l.isAlpha = true) :
    Withholds kind (.rawEndTagName kind) (String.ofList (ls.map Char.toLower)) ('<' :: '/' :: ls)

/-- **A scene of raw text** of a kind: what is withheld and what is still to be read are an end of `y`.
Only text and errors have been queued. More may come of it. -/
structure Scene.InRawText (kind : RawKind) (y : List Char) (s : Scene) : Prop where
  /-- What is withheld and what is still to be read. -/
  place : ∃ withheld, Withholds kind s.state s.tag.name withheld ∧ withheld ++ s.rest <:+ y
  /-- Text and errors are queued. -/
  quiet : ∀ t ∈ s.queued, t.isQuiet = true
  /-- References are read in the text itself. -/
  reference : ∀ r ∈ s.reference, r.inAttribute = false ∧ s.state = .rawData kind
  /-- No end tag ends the text. -/
  last : s.last = none
  /-- More may come of it. -/
  ended : s.ended = false

namespace Scene.InRawText

open Machine

variable {kind : RawKind} {y : List Char} {m : Machine}

/-- What is still to be read is an end of `y`. -/
theorem rest_suffix (h : m.scene.InRawText kind y) : m.scene.rest <:+ y := by
  obtain ⟨withheld, -, hsuffix⟩ := h.place
  exact (List.suffix_append withheld _).trans hsuffix

theorem putText (h : m.scene.InRawText kind y) (t : String) :
    (m.putText t).scene.InRawText kind y :=
  ⟨h.place, h.quiet, h.reference, h.last, h.ended⟩

theorem putChar (h : m.scene.InRawText kind y) (c : Char) :
    (m.putChar c).scene.InRawText kind y :=
  ⟨h.place, h.quiet, h.reference, h.last, h.ended⟩

theorem clearLetters (h : m.scene.InRawText kind y) : m.clearLetters.scene.InRawText kind y :=
  ⟨h.place, h.quiet, h.reference, h.last, h.ended⟩

theorem report (h : m.scene.InRawText kind y) (code : ErrorCode) :
    (m.report code).scene.InRawText kind y := by
  rw [scene_report]
  refine ⟨h.place, ?_, h.reference, h.last, h.ended⟩
  simp only [List.mem_append, List.mem_singleton]
  rintro t (ht | ht | rfl)
  · exact h.quiet t ht
  · exact isQuiet_of_mem_textTokens ht
  · rfl

/-- The place is what changes, while nothing is queued and no reference is under construction. -/
theorem of_place {s' : Scene} (h : m.scene.InRawText kind y) (href : m.scene.reference = none)
    {withheld : List Char} (hplace : Withholds kind s'.state s'.tag.name withheld)
    (hrest : withheld ++ s'.rest <:+ y)
    (hsame : s'.queued = m.scene.queued ∧ s'.reference = m.scene.reference ∧
      s'.last = m.scene.last ∧ s'.ended = m.scene.ended) : s'.InRawText kind y := by
  obtain ⟨hqueued, hreference, hlast, hended⟩ := hsame
  exact ⟨⟨withheld, hplace, hrest⟩, hqueued ▸ h.quiet, by simp [hreference, href],
    hlast.trans h.last, hended.trans h.ended⟩

/-- A character of text is read. -/
theorem advance (h : m.scene.InRawText kind y) (hstate : m.scene.state = .rawData kind) :
    m.advance.scene.InRawText kind y := by
  refine ⟨⟨[], ?_, ?_⟩, h.quiet, h.reference, h.last, h.ended⟩
  · rw [show m.advance.scene.state = _ from hstate]
    exact .text _
  · exact (List.tail_suffix _).trans h.rest_suffix

/-- **What is withheld is put back**, and the text goes on. -/
theorem goto (h : m.scene.InRawText kind y) : (m.goto (.rawData kind)).scene.InRawText kind y := by
  rw [scene_goto]
  exact ⟨⟨[], .text _, h.rest_suffix⟩, h.quiet, fun r hr => ⟨(h.reference r hr).1, rfl⟩,
    h.last, h.ended⟩

theorem keepReference (h : m.scene.InRawText kind y) (hstate : m.scene.state = .rawData kind)
    {r : Reference} (hr : r.inAttribute = false) : (m.keepReference r).scene.InRawText kind y :=
  ⟨h.place, h.quiet, by rintro _ ⟨⟩; exact ⟨hr, hstate⟩, h.last, h.ended⟩

theorem closeReference (h : m.scene.InRawText kind y) {r : Reference} (hr : r.inAttribute = false)
    (t : String) : (m.closeReference r t).scene.InRawText kind y := by
  rw [scene_closeReference m hr]
  exact ⟨h.place, h.quiet, by simp, h.last, h.ended⟩

/-- **A step of a reference** stays in the text. -/
theorem stepReference (h : m.scene.InRawText kind y) {r : Reference} (href : m.reference = some r)
    (next : Option Char) : (m.stepReference r next).scene.InRawText kind y := by
  obtain ⟨hr, hstate⟩ := h.reference r href
  have hnumber {k : Machine} (hk : k.scene.InRawText kind y) :
      (k.closeNumber r).scene.InRawText kind y := by
    refine Scene.InRawText.closeReference ?_ hr _
    unfold reportNumber
    split
    all_goals first | exact hk | exact hk.report _
  have hname {k : Machine} (hk : k.scene.InRawText kind y) {r' : Reference}
      (hr' : r'.inAttribute = false) (next : Option Char) :
      (k.closeName r' next).scene.InRawText kind y := by
    simp only [closeName, closeLiteral]
    repeat' split
    all_goals first | exact hk.closeReference hr' _ | exact (hk.report _).closeReference hr' _
  unfold Machine.stepReference
  cases r.phase with
  | opened =>
    simp only [stepOpened, closeLiteral]
    repeat' split
    · exact (h.advance hstate).keepReference hstate hr
    · exact h.keepReference hstate hr
    · exact h.closeReference hr _
    · exact h.closeReference hr _
  | numeric =>
    simp only [stepNumeric]
    repeat' split
    · exact (h.advance hstate).keepReference hstate hr
    · exact h.keepReference hstate hr
    · exact h.keepReference hstate hr
  | digits hex =>
    have hend : (m.endDigits r next).scene.InRawText kind y := by
      simp only [endDigits, closeLiteral]
      repeat' split
      · exact (h.report _).closeReference hr _
      · exact hnumber (h.advance hstate)
      · exact hnumber (h.report _)
    simp only [stepDigits]
    repeat' split
    · exact (h.advance hstate).keepReference hstate hr
    · exact hend
    · exact hend
  | named =>
    simp only [stepNamed]
    repeat' split
    · exact (h.advance hstate).keepReference hstate hr
    · refine hname (h.advance hstate) ?_ none
      exact hr
    · exact hname h hr _
    · exact hname h hr _

end Scene.InRawText

namespace Machine

/-! ## (4) Steps -/

variable {kind : RawKind} {y rest : List Char} {m : Machine} {c : Char} {a : Aside}

/-- Whether the text goes on at `c`. -/
theorem stepRawData_eq (hkind : kind = .rawtext ∨ kind = .rcdata) (c : Char) :
    m.stepRawData kind c = if kind = .rcdata ∧ c = '&' then m.advance.beginReference
      else if c = '<' then m.advance.goto (.rawLessThanSign kind)
      else if c = '\x00' then m.advance.replaceNull
      else m.advance.putChar c := by
  rcases hkind with rfl | rfl
  · rw [stepRawData_rawtext]
    simp
  · unfold stepRawData
    split <;> simp_all

theorem stepRawLessThanSign_eq (hkind : kind = .rawtext ∨ kind = .rcdata) (c : Char) :
    m.stepRawLessThanSign kind c
      = if c = '/' then m.advance.clearLetters.goto (.rawEndTagOpen kind)
        else (m.putChar '<').goto (.rawData kind) := by
  rcases hkind with rfl | rfl
  · exact stepRawLessThanSign_rawtext c
  · unfold stepRawLessThanSign
    split <;> simp_all

/-- **A character of the text**, or what an end tag may begin with. -/
theorem inRawText_stepRawData (hkind : kind = .rawtext ∨ kind = .rcdata)
    (h : m.scene.InRawText kind y) (hstate : m.scene.state = .rawData kind)
    (href : m.scene.reference = none) (hpending : m.scene.rest = c :: rest) :
    (m.stepRawData kind c).scene.InRawText kind y := by
  have hread := h.advance hstate
  rw [stepRawData_eq hkind]
  split
  · refine ⟨hread.place, hread.quiet, ?_, hread.last, hread.ended⟩
    rintro _ ⟨⟩
    refine ⟨?_, hstate⟩
    show m.scene.state.isAttributeValue = false
    rw [hstate]
    rfl
  · split
    · rename_i hlt
      rw [hlt] at hpending
      refine h.of_place href (by simpa using .lessThanSign _) ?_ (by simp)
      simpa [hpending] using h.rest_suffix
    · split
      · exact (hread.report _).putChar _
      · exact hread.putChar c

/-- **After `<`.** -/
theorem inRawText_stepRawLessThanSign (hkind : kind = .rawtext ∨ kind = .rcdata)
    (h : m.scene.InRawText kind y) (href : m.scene.reference = none)
    (hplace : '<' :: m.scene.rest <:+ y) (hpending : m.scene.rest = c :: rest) :
    (m.stepRawLessThanSign kind c).scene.InRawText kind y := by
  rw [stepRawLessThanSign_eq hkind]
  split
  · rename_i hc
    rw [hc] at hpending
    refine h.of_place href (by simpa using .solidus _) ?_ (by simp)
    simpa [hpending] using hplace
  · exact (h.putChar _).goto

/-- **After `</`**, a letter may begin the name. -/
theorem inRawText_stepRawEndTagOpen (h : m.scene.InRawText kind y) (href : m.scene.reference = none)
    (hplace : '<' :: '/' :: m.scene.rest <:+ y) (hpending : m.scene.rest = c :: rest) :
    (m.stepRawEndTagOpen kind c).scene.InRawText kind y := by
  unfold stepRawEndTagOpen
  split
  · rename_i hc
    have hname : Withholds kind (.rawEndTagName kind) (String.singleton c.toLower) ['<', '/', c] :=
      .letters (List.cons_ne_nil c []) (by simpa using hc)
    refine h.of_place href (by simpa [endTagOf] using hname) ?_ (by simp)
    simpa [hpending] using hplace
  · exact (h.putText _).goto

/-- **In the name**, letters are more of it, and without a last start tag all else puts it back. -/
theorem inRawText_stepRawEndTagName (h : m.scene.InRawText kind y) (href : m.scene.reference = none)
    (hstate : m.scene.state = .rawEndTagName kind) {ls : List Char}
    (hletters : ∀ l ∈ ls, l.isAlpha = true)
    (hname : m.scene.tag.name = String.ofList (ls.map Char.toLower))
    (hplace : '<' :: '/' :: ls ++ m.scene.rest <:+ y) (hpending : m.scene.rest = c :: rest) :
    (m.stepRawEndTagName kind c).scene.InRawText kind y := by
  have hnone : m.isAppropriateEndTag = false := by
    rw [isAppropriateEndTag, show m.lastStartTag = none from h.last]
    rfl
  rw [stepRawEndTagName_of_not (by simp [hnone])]
  split
  · rename_i hc
    have hmore : Withholds kind (.rawEndTagName kind)
        (String.ofList ((ls ++ [c]).map Char.toLower)) ('<' :: '/' :: (ls ++ [c])) := by
      refine .letters (by simp) ?_
      simpa [or_imp, forall_and] using ⟨hletters, hc⟩
    have hpush : (m.scene.tag.name.push c.toLower)
        = String.ofList ((ls ++ [c]).map Char.toLower) := by
      rw [hname, ← String.toList_inj]
      simp
    rw [← hpush, ← hstate] at hmore
    refine h.of_place href hmore ?_ ⟨rfl, rfl, rfl, rfl⟩
    simpa [hpending] using hplace
  · exact (h.clearLetters.putText _).goto

/-- What the machine remembers plays no part in a step of raw text that goes on. -/
theorem exists_step (hkind : kind = .rawtext ∨ kind = .rcdata) (h : m.scene.InRawText kind y)
    (hopen : ∀ cs, cs <:+ y → ¬ClosesRawText a.lastStartTag cs)
    (hpending : m.input.pending = c :: rest) :
    ∃ m' : Machine, m'.scene.InRawText kind y ∧ step .byChar m = some m' ∧
      step .byChar (m.beside a) = some (m'.beside a) := by
  have hended : m.ended = false := h.ended
  have hended' : (m.beside a).ended = false := h.ended
  have hpending' : (m.beside a).input.pending = c :: rest := hpending
  cases href : m.reference with
  | some r =>
    refine ⟨_, h.stepReference href (some c), ?_, ?_⟩
    · rw [step, if_neg (by simp [hended]), href, hpending]
    · have href' : (m.beside a).reference = some r := href
      rw [step, if_neg (by simp [hended']), href', hpending', beside_stepReference]
  | none =>
    have href' : (m.beside a).reference = none := href
    -- it is a matter of the state
    suffices hchar : ∃ m', m'.scene.InRawText kind y ∧ m.stepChar c = some m' ∧
        (m.beside a).stepChar c = some (m'.beside a) by
      obtain ⟨m', hm', hstep, hbeside⟩ := hchar
      refine ⟨m', hm', ?_, ?_⟩
      · rw [step_of_char hended href hpending, stepAt_byChar, hstep]
      · rw [step_of_char hended' href' hpending', stepAt_byChar, hbeside]
    obtain ⟨withheld, hplace, hsuffix⟩ := h.place
    unfold stepChar
    rw [state_beside]
    generalize hstate : m.scene.state = state at hplace
    generalize hname : m.scene.tag.name = name at hplace
    rw [show m.state = state from hstate]
    cases hplace with
    | text => exact ⟨_, inRawText_stepRawData hkind h hstate href hpending, rfl,
        congrArg some (beside_stepRawData m a kind c).symm⟩
    | lessThanSign => exact ⟨_, inRawText_stepRawLessThanSign hkind h href hsuffix hpending, rfl,
        congrArg some (beside_stepRawLessThanSign m a kind c).symm⟩
    | solidus => exact ⟨_, inRawText_stepRawEndTagOpen h href hsuffix hpending, rfl,
        congrArg some (beside_stepRawEndTagOpen m a kind c).symm⟩
    | @letters ls hne hletters =>
      have hrest : m.scene.rest = c :: rest := hpending
      -- a name that ends here would be that of an end tag that ends the text
      have hnot (hlast : a.lastStartTag = some m.tag.name) : endsTagName c = false := by
        rw [Bool.eq_false_iff]
        intro hc
        rw [hrest] at hsuffix
        exact hopen _ hsuffix ⟨ls, c, rest, rfl, hne, hletters, hname ▸ hlast, hc⟩
      exact ⟨_, inRawText_stepRawEndTagName h href hstate hletters hname hsuffix hpending, rfl,
        congrArg some (beside_stepRawEndTagName h.last hnot kind).symm⟩

/-! ## (5) The end of the text -/

/-- The step of a machine that has nothing left to read. -/
def stepStop (m : Machine) : Machine :=
  match m.reference with
  | some r => m.stepReference r none
  | none => m.stepEnd

/-- Outside of attributes, a reference ends at `<` as it does at the end of the input. -/
theorem stepReference_lessThanSign {r : Reference} (hr : r.inAttribute = false) :
    m.stepReference r (some '<') = m.stepReference r none := by
  have hletter : '<'.isAlphanum = false := by decide
  have hdigit (hex : Bool) : Text.digitValue? (Reference.base hex) '<' = none := by
    cases hex <;> decide
  unfold stepReference
  cases r.phase with
  | opened => simp [stepOpened, hletter]
  | numeric => simp [stepNumeric]
  | digits hex => simp [stepDigits, hdigit, endDigits]
  | named => simp [stepNamed, hletter, closeName, hr]

/-- What is under construction in raw text: a reference, or a possible end tag. -/
def Pends (kind : RawKind) (m : Machine) : Prop :=
  (∃ r, m.reference = some r ∧ r.inAttribute = false) ∨
    m.reference = none ∧ (m.state = .rawLessThanSign kind ∨ m.state = .rawEndTagOpen kind ∨
      m.state = .rawEndTagName kind)

/-- **A `<` is like the end of the input** to what is under construction in raw text. -/
theorem step_stop (hkind : kind = .rawtext ∨ kind = .rcdata) (h : m.Pends kind)
    (hended : m.ended = false) (hfinished : m.input.finished = true)
    (hstop : ∀ c ∈ m.input.pending.head?, c = '<') : step .byChar m = some m.stepStop := by
  unfold step stepStop
  rw [if_neg (by simp [hended])]
  rcases h with ⟨r, href, hr⟩ | ⟨href, hstate⟩
  · rw [href]
    cases hpending : m.input.pending with
    | nil => simp [hfinished]
    | cons c rest =>
      rw [hpending] at hstop
      rw [hstop c rfl]
      exact congrArg some (stepReference_lessThanSign hr)
  · rw [href]
    cases hpending : m.input.pending with
    | nil => simp [hfinished]
    | cons c rest =>
      rw [hpending] at hstop
      rw [hstop c rfl]
      show m.stepChar '<' = some m.stepEnd
      unfold stepChar stepEnd
      rcases hstate with hstate | hstate | hstate
      · rw [hstate]
        rcases hkind with rfl | rfl <;> rfl
      · rw [hstate]
        exact congrArg some (if_neg (by decide))
      · rw [hstate]
        refine congrArg some ((stepRawEndTagName_of_not (fun _ => ?_) kind).trans (if_neg ?_)) <;>
          decide

/-- What is still to be read stays, and what was under construction is text or nearer to it. -/
theorem inRawText_stepStop (hkind : kind = .rawtext ∨ kind = .rcdata) (h : m.scene.InRawText kind y)
    (hpends : m.Pends kind) : m.stepStop.scene.InRawText kind y ∧ m.stepStop.input = m.input := by
  unfold stepStop
  rcases hpends with ⟨r, href, -⟩ | ⟨href, hstate⟩
  · rw [href]
    refine ⟨h.stepReference href none, ?_⟩
    obtain ⟨-, hinput | ⟨hsome, -⟩, -⟩ := m.course_stepReference r none
    · exact hinput
    · cases hsome
  · rw [href]
    refine ⟨?_, m.input_stepEnd⟩
    simp only [stepEnd]
    rcases hstate with hstate | hstate | hstate
    · rw [hstate]
      rcases hkind with rfl | rfl <;> exact (h.putChar _).goto
    · rw [hstate]
      exact (h.putText _).goto
    · rw [hstate]
      exact (h.clearLetters.putText _).goto

theorem beside_stepStop (hkind : kind = .rawtext ∨ kind = .rcdata) (hpends : m.Pends kind)
    (a : Aside) : m.stepStop.beside a = (m.beside a).stepStop := by
  unfold stepStop
  rcases hpends with ⟨r, href, -⟩ | ⟨href, hstate⟩
  · have href' : (m.beside a).reference = some r := href
    rw [href, href']
    exact m.beside_stepReference a r none
  · have href' : (m.beside a).reference = none := href
    rw [href, href']
    simp only [stepEnd, state_beside]
    rcases hstate with hstate | hstate | hstate
    · rw [hstate]
      rcases hkind with rfl | rfl <;> simp
    · rw [hstate]
      simp
    · rw [hstate]
      simp

theorem within_stepStop (m : Machine) (s : Surroundings) :
    m.stepStop.within s = (m.within s).stepStop := by
  unfold stepStop
  rw [reference_within]
  cases m.reference with
  | some r => exact within_stepReference_none m s r
  | none => exact within_stepEnd m s

/-- **Where the text may end**: all has been read, and nothing is under construction. -/
structure AtEnd (kind : RawKind) (m : Machine) : Prop where
  /-- It is in the text. -/
  state : m.state = .rawData kind
  /-- No reference is under construction. -/
  reference : m.reference = none
  /-- All has been read. -/
  pending : m.input.pending = []

/-- Raw text has something under construction or nothing. -/
theorem pends_or_state (h : m.scene.InRawText kind y) :
    m.Pends kind ∨ m.state = .rawData kind ∧ m.reference = none := by
  cases href : m.reference with
  | some r => exact .inl (.inl ⟨r, href, (h.reference r href).1⟩)
  | none =>
    obtain ⟨withheld, hplace, -⟩ := h.place
    generalize hstate : m.scene.state = state at hplace
    generalize m.scene.tag.name = name at hplace
    have hstate : m.state = state := hstate
    cases hplace with
    | text => exact .inr ⟨hstate, rfl⟩
    | lessThanSign => exact .inl (.inr ⟨href, .inl hstate⟩)
    | solidus => exact .inl (.inr ⟨href, .inr (.inl hstate)⟩)
    | letters => exact .inl (.inr ⟨href, .inr (.inr hstate)⟩)

/-- **The next step** is the same in all surroundings in which the input ends or goes on with `<`, and
whatever the machine remembers. -/
theorem exists_next (hkind : kind = .rawtext ∨ kind = .rcdata)
    (hopen : ∀ cs, cs <:+ y → ¬ClosesRawText a.lastStartTag cs) (h : m.scene.InRawText kind y)
    (hunfinished : m.input.finished = false) :
    m.AtEnd kind ∨ ∃ m' : Machine, m'.scene.InRawText kind y ∧ m'.input.finished = false ∧
      ∀ s : Surroundings, s.finished = true → (∀ c ∈ s.behind.head?, c = '<') →
        step .byChar (m.within s) = some (m'.within s) ∧
        step .byChar ((m.beside a).within s) = some ((m'.beside a).within s) := by
  cases hpending : m.input.pending with
  | cons c rest =>
    obtain ⟨m', hm', hstep, hbeside⟩ := exists_step hkind h hopen hpending
    have hsuits (s : Surroundings) : m.Suits s := fun hfinished => by
      rw [hunfinished] at hfinished
      cases hfinished
    exact .inr ⟨m', hm', (input_of_step hstep).2.trans hunfinished, fun s _ _ =>
      ⟨step_within (hsuits s) hstep, step_within (hsuits s) hbeside⟩⟩
  | nil =>
    rcases pends_or_state h with hpends | ⟨hstate, href⟩
    · obtain ⟨hm', hinput⟩ := inRawText_stepStop hkind h hpends
      refine .inr ⟨_, hm', by rw [hinput, hunfinished], fun s hfinished hbehind => ?_⟩
      have hstop : ∀ c ∈ (m.input.pending ++ s.behind).head?, c = '<' := by
        rw [hpending]
        exact hbehind
      refine ⟨?_, ?_⟩
      · rw [within_stepStop]
        exact step_stop hkind hpends h.ended hfinished hstop
      · rw [beside_stepStop hkind hpends, within_stepStop]
        exact step_stop hkind hpends h.ended hfinished hstop
    · exact .inl ⟨hstate, href, hpending⟩

/-- **All of the text is read** up to where it may end, in all those surroundings and whatever the
machine remembers. -/
theorem exists_end (hkind : kind = .rawtext ∨ kind = .rcdata)
    (hopen : ∀ cs, cs <:+ y → ¬ClosesRawText a.lastStartTag cs) (h : m.scene.InRawText kind y)
    (hunfinished : m.input.finished = false) :
    ∃ k : Machine, k.scene.InRawText kind y ∧ k.AtEnd kind ∧
      ∀ s : Surroundings, s.finished = true → (∀ c ∈ s.behind.head?, c = '<') →
        (m.within s).Leads (k.within s) ∧ ((m.beside a).within s).Leads ((k.beside a).within s) := by
  -- induction on the steps that are left if the input ends behind `y`
  generalize hrank : (m.within (.ending [])).course.rank = n
  induction n using Nat.strong_induction_on generalizing m with
  | _ n ih =>
    rcases exists_next hkind hopen h hunfinished with hend | ⟨m', hm', hopen', hstep⟩
    · exact ⟨m, h, hend, fun s _ _ => ⟨Relation.ReflTransGen.refl, Relation.ReflTransGen.refl⟩⟩
    · have hlt := rank_step (hstep (.ending []) rfl (by simp [Surroundings.ending])).1
      obtain ⟨k, hk, hend, hleads⟩ := ih _ (hrank ▸ hlt) hm' hopen' rfl
      refine ⟨k, hk, hend, fun s hfinished hbehind => ?_⟩
      obtain ⟨halone, hbeside⟩ := hstep s hfinished hbehind
      obtain ⟨halone', hbeside'⟩ := hleads s hfinished hbehind
      exact ⟨halone'.head halone, hbeside'.head hbeside⟩

end Machine

end HtmlStream

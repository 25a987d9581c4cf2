import HtmlStream.Proofs.Reading.Comment

/-! # Reading document types back

From `<!DOCTYPE` to `>`: the name and up to two identifiers, of which the system identifier stands
behind its keyword or behind the public identifier.

* **`leads_doctypeName`**: the name.
* **`leads_identifier`**: an identifier between quotation marks.
* **`leads_doctype`**: a canonical document type is read back. -/

namespace HtmlStream

/-- The document type with an identifier. -/
def Doctype.withIdentifier (d : Doctype) (kind : IdentifierKind) (id : String) : Doctype :=
  match kind with
  | .publicId => { d with publicId := some id }
  | .systemId => { d with systemId := some id }

/-- The keyword of an identifier, as it is spelled. -/
def IdentifierKind.spelling : IdentifierKind → String
  | .publicId => "PUBLIC"
  | .systemId => "SYSTEM"

namespace Machine

variable (m : Machine)

@[simp] theorem pose_openIdentifier (kind : IdentifierKind) :
    (m.openIdentifier kind).pose
      = { m.pose with doctype := m.pose.doctype.withIdentifier kind "" } := by
  cases kind <;> rfl

theorem pose_putIdentifier {d : Doctype} {kind : IdentifierKind} {id : String} (c : Char)
    (h : m.pose.doctype = d.withIdentifier kind id) :
    (m.putIdentifier c kind).pose
      = { m.pose with doctype := d.withIdentifier kind (id.push c) } := by
  have hdoctype : m.doctype = d.withIdentifier kind id := h
  cases kind <;> simp [putIdentifier, pose, hdoctype, Doctype.withIdentifier]

@[simp] theorem pose_emitDoctype :
    m.emitDoctype.pose
      = { m.pose with
          state := .data
          done := m.pose.done ++ (textTokens m.pose.held ++ [.doctype m.pose.doctype])
          held := ""
          doctype := {} } := by
  rw [emitDoctype, pose_goto, pose_emit]
  rfl

end Machine

namespace Pose

open Machine (stepMarkupDeclarationOpen stepDoctypeName stepAfterDoctypeName stepDoctypeIdentifier
  beforeDoctypeName)

variable {done : List Token} {held : String} {doctype : Doctype} {cs : List Char}

/-! ## (1) The name -/

/-- `DOCTYPE` behind `<!` begins a document type. -/
theorem leads_doctypeKeyword :
    Leads { state := .markupDeclarationOpen, rest := "DOCTYPE".toList ++ cs, done, held }
      { state := .doctype, rest := cs, done, held } := by
  refine leads_of_stepChar rfl rfl ?_
  intro m hm hpose
  refine ⟨(m.skip 7).goto .doctype, ?_, ?_⟩
  · have hpending : m.input.pending = "DOCTYPE".toList ++ cs := congrArg rest hpose
    have hcomment : m.input.lookahead sameChar "--" = .absent := by
      rw [Input.lookahead, hpending]
      rfl
    have hfound : m.input.lookahead sameLetter "doctype" = .found := by
      rw [Input.lookahead, hpending]
      rfl
    rw [Machine.stepChar, hm]
    simp only [stepMarkupDeclarationOpen, hcomment, hfound]
  · simp [hpose]

/-- **The first letter of the name.** -/
theorem leads_doctypeStart {c : Char} (hc : isDoctypeNameChar c = true) :
    Leads { state := .doctype, rest := ' ' :: c :: cs, done, held }
      { state := .doctypeName, rest := cs, done, held,
        doctype := { name := some (String.singleton c) } } := by
  obtain ⟨htext, hupper, hspace, hbracket⟩ := isDoctypeNameChar_iff.mp hc
  have hblank : Leads { state := .doctype, rest := ' ' :: c :: cs, done, held }
      { state := .beforeDoctypeName, rest := c :: cs, done, held } := by
    refine leads_goto rfl rfl ?_
    intro m hm
    rw [Machine.stepChar, hm]
    rfl
  refine hblank.trans (leads_of_stepChar rfl rfl ?_)
  intro m hm hpose
  refine ⟨(m.advance.resetDoctype.putDoctypeName c).goto .doctypeName, ?_, ?_⟩
  · rw [Machine.stepChar, hm]
    simp [Machine.stepBeforeDoctypeName, beforeDoctypeName, hspace, hbracket,
      (isTextChar_iff.mp htext).1, toLower_of_not_isUpper hupper]
  · simp [hpose]

/-- A letter of the name. -/
theorem leads_doctypeLetter {c : Char} {name : String} (hc : isDoctypeNameChar c = true) :
    Leads { state := .doctypeName, rest := c :: cs, done, held, doctype := { name := some name } }
      { state := .doctypeName, rest := cs, done, held,
        doctype := { name := some (name.push c) } } := by
  obtain ⟨htext, hupper, hspace, hbracket⟩ := isDoctypeNameChar_iff.mp hc
  refine leads_of_stepChar rfl rfl ?_
  intro m hm hpose
  refine ⟨m.advance.putDoctypeName c, ?_, ?_⟩
  · rw [Machine.stepChar, hm]
    simp [stepDoctypeName, hspace, hbracket, (isTextChar_iff.mp htext).1,
      toLower_of_not_isUpper hupper]
  · simp [hpose]

/-- **The name of a document type**, with the space before it. -/
theorem leads_doctypeName {name : String} (hname : name ≠ "")
    (h : ∀ c ∈ name.toList, isDoctypeNameChar c = true) :
    Leads { state := .doctype, rest := ' ' :: (name.toList ++ cs), done, held }
      { state := .doctypeName, rest := cs, done, held, doctype := { name := some name } } := by
  obtain ⟨first, others, hcons⟩ :=
    List.exists_cons_of_ne_nil (mt String.toList_eq_nil_iff.mp hname)
  have hfull : String.singleton first ++ String.ofList others = name := by
    rw [← String.ofList_cons, ← hcons, String.ofList_toList]
  rw [hcons, List.forall_mem_cons] at h
  have hothers := leads_letters (f := fun rest name =>
      { state := .doctypeName, rest, done, held, doctype := { name := some name } })
    (fun c cs s hc => leads_doctypeLetter hc) h.2 cs (String.singleton first)
  rw [hfull] at hothers
  rw [hcons]
  exact (leads_doctypeStart h.1).trans hothers

/-! ## (2) Identifiers -/

/-- **A keyword behind the name**, with the space behind it. -/
theorem leads_keyword (kind : IdentifierKind) :
    Leads { state := .doctypeName, rest := ' ' :: (kind.spelling.toList ++ ' ' :: cs), done, held,
            doctype }
      { state := .beforeDoctypeIdentifier kind, rest := cs, done, held, doctype } := by
  have hblank : Leads { state := .doctypeName, rest := ' ' :: (kind.spelling.toList ++ ' ' :: cs),
                        done, held, doctype }
      { state := .afterDoctypeName, rest := kind.spelling.toList ++ ' ' :: cs, done, held,
        doctype } := by
    refine leads_goto rfl rfl ?_
    intro m hm
    rw [Machine.stepChar, hm]
    rfl
  have hkeyword : Leads { state := .afterDoctypeName, rest := kind.spelling.toList ++ ' ' :: cs, done,
                          held, doctype }
      { state := .afterDoctypeKeyword kind, rest := ' ' :: cs, done, held, doctype } := by
    -- `PUBLIC` is looked for first, so it must be seen to be absent before `SYSTEM` is found
    cases kind with
    | publicId =>
      refine leads_of_stepChar rfl rfl ?_
      intro m hm hpose
      refine ⟨(m.skip 6).goto (.afterDoctypeKeyword .publicId), ?_, ?_⟩
      · have hpending : m.input.pending = "PUBLIC".toList ++ ' ' :: cs := congrArg rest hpose
        have hfound : m.input.lookahead sameLetter "public" = .found := by
          rw [Input.lookahead, hpending]
          rfl
        rw [Machine.stepChar, hm]
        simp only [stepAfterDoctypeName, hfound]
        rfl
      · simp [hpose, IdentifierKind.spelling]
    | systemId =>
      refine leads_of_stepChar rfl rfl ?_
      intro m hm hpose
      refine ⟨(m.skip 6).goto (.afterDoctypeKeyword .systemId), ?_, ?_⟩
      · have hpending : m.input.pending = "SYSTEM".toList ++ ' ' :: cs := congrArg rest hpose
        have habsent : m.input.lookahead sameLetter "public" = .absent := by
          rw [Input.lookahead, hpending]
          rfl
        have hfound : m.input.lookahead sameLetter "system" = .found := by
          rw [Input.lookahead, hpending]
          rfl
        rw [Machine.stepChar, hm]
        simp only [stepAfterDoctypeName, habsent, hfound]
        rfl
      · simp [hpose, IdentifierKind.spelling]
  refine hblank.trans (hkeyword.trans (leads_goto rfl rfl ?_))
  intro m hm
  rw [Machine.stepChar, hm]
  rfl

/-- A letter of an identifier. -/
theorem leads_identifierLetter {kind : IdentifierKind} {c : Char} {id : String}
    (hc : isIdentifierChar c = true) :
    Leads { state := .doctypeIdentifierDoubleQuoted kind, rest := c :: cs, done, held,
            doctype := doctype.withIdentifier kind id }
      { state := .doctypeIdentifierDoubleQuoted kind, rest := cs, done, held,
        doctype := doctype.withIdentifier kind (id.push c) } := by
  obtain ⟨htext, hquote, hbracket⟩ := isIdentifierChar_iff.mp hc
  refine leads_of_stepChar rfl rfl ?_
  intro m hm hpose
  refine ⟨m.advance.putIdentifier c kind, ?_, ?_⟩
  · rw [Machine.stepChar, hm]
    simp [stepDoctypeIdentifier, hquote, hbracket, (isTextChar_iff.mp htext).1]
  · have hdoctype : m.advance.pose.doctype = doctype.withIdentifier kind id :=
      congrArg Pose.doctype hpose
    rw [Machine.pose_putIdentifier _ c hdoctype, Machine.pose_advance, hpose]
    rfl

/-- The states in which a quotation mark begins an identifier: behind its keyword, or behind the public
identifier. -/
def BeginsIdentifier (kind : IdentifierKind) (state : State) : Prop :=
  state = .beforeDoctypeIdentifier kind ∨
    state = .betweenDoctypePublicAndSystemIdentifiers ∧ kind = .systemId

/-- **An identifier between quotation marks.** -/
theorem leads_identifier {kind : IdentifierKind} {state : State}
    (hstate : BeginsIdentifier kind state) {id : String}
    (h : ∀ c ∈ id.toList, isIdentifierChar c = true) :
    Leads { state, rest := (quote id).toList ++ cs, done, held, doctype }
      { state := .afterDoctypeIdentifier kind, rest := cs, done, held,
        doctype := doctype.withIdentifier kind id } := by
  have hrest : (quote id).toList ++ cs
      = Ascii.doubleQuote :: (id.toList ++ Ascii.doubleQuote :: cs) := by
    simp [quote, Ascii.doubleQuote]
  have hopen : Leads
      { state, rest := Ascii.doubleQuote :: (id.toList ++ Ascii.doubleQuote :: cs), done, held,
        doctype }
      { state := .doctypeIdentifierDoubleQuoted kind, rest := id.toList ++ Ascii.doubleQuote :: cs,
        done, held, doctype := doctype.withIdentifier kind "" } := by
    refine leads_of_stepChar rfl rfl ?_
    intro m hm hpose
    refine ⟨m.advance.beginIdentifier kind Ascii.doubleQuote, ?_, ?_⟩
    · -- behind the keyword, or behind the public identifier
      rcases hstate with rfl | ⟨rfl, rfl⟩
      · rw [Machine.stepChar, hm]
        rfl
      · rw [Machine.stepChar, hm]
        rfl
    · simp [Machine.beginIdentifier, hpose]
  have hletters := leads_letters (f := fun rest id =>
      { state := .doctypeIdentifierDoubleQuoted kind, rest, done, held,
        doctype := doctype.withIdentifier kind id })
    (fun c cs s hc => leads_identifierLetter hc) h (Ascii.doubleQuote :: cs) ""
  rw [String.ofList_toList, String.empty_append] at hletters
  have hclose : Leads
      { state := .doctypeIdentifierDoubleQuoted kind, rest := Ascii.doubleQuote :: cs, done, held,
        doctype := doctype.withIdentifier kind id }
      { state := .afterDoctypeIdentifier kind, rest := cs, done, held,
        doctype := doctype.withIdentifier kind id } := by
    refine leads_goto rfl rfl ?_
    intro m hm
    rw [Machine.stepChar, hm]
    rfl
  rw [hrest]
  exact hopen.trans (hletters.trans hclose)

/-- A space behind the public identifier. -/
theorem leads_between :
    Leads { state := .afterDoctypeIdentifier .publicId, rest := ' ' :: cs, done, held, doctype }
      { state := .betweenDoctypePublicAndSystemIdentifiers, rest := cs, done, held, doctype } := by
  refine leads_goto rfl rfl ?_
  intro m hm
  rw [Machine.stepChar, hm]
  rfl

/-! ## (3) Whole document types -/

/-- The states that `>` leaves with a document type that is complete. -/
def EndsDoctype (state : State) : Prop :=
  state = .doctypeName ∨ ∃ kind, state = .afterDoctypeIdentifier kind

/-- **The identifiers** are read, as many as there are. -/
theorem leads_identifiers {d : Doctype} (h : d.Canonical) :
    ∃ state, EndsDoctype state ∧
      Leads { state := .doctypeName, rest := d.identifiers.toList ++ cs, done, held,
              doctype := { name := d.name } }
        { state, rest := cs, done, held, doctype := d } := by
  have hpublic := h.publicId
  have hsystem := h.systemId
  obtain ⟨name, publicId, systemId, quirks⟩ := d
  cases show quirks = false from h.quirks
  cases publicId with
  | none =>
    cases systemId with
    | none => exact ⟨.doctypeName, Or.inl rfl, Leads.refl _⟩
    | some systemId =>
      refine ⟨.afterDoctypeIdentifier .systemId, Or.inr ⟨_, rfl⟩, ?_⟩
      have hrest : (Doctype.identifiers ⟨name, none, some systemId, false⟩).toList ++ cs
          = ' ' :: (IdentifierKind.systemId.spelling.toList ++
              ' ' :: ((quote systemId).toList ++ cs)) := by
        simp [Doctype.identifiers, IdentifierKind.spelling]
      rw [hrest]
      exact (leads_keyword .systemId).trans
        (leads_identifier (Or.inl rfl) (hsystem systemId rfl))
  | some publicId =>
    -- the public identifier is read in the same way whatever follows it
    have hread (cs : List Char) : Leads
        { state := .doctypeName, done, held, doctype := { name },
          rest := ' ' :: (IdentifierKind.publicId.spelling.toList ++
            ' ' :: ((quote publicId).toList ++ cs)) }
        { state := .afterDoctypeIdentifier .publicId, rest := cs, done, held,
          doctype := { name, publicId := some publicId } } :=
      (leads_keyword .publicId).trans (leads_identifier (Or.inl rfl) (hpublic publicId rfl))
    cases systemId with
    | none =>
      refine ⟨.afterDoctypeIdentifier .publicId, Or.inr ⟨_, rfl⟩, ?_⟩
      have hrest : (Doctype.identifiers ⟨name, some publicId, none, false⟩).toList ++ cs
          = ' ' :: (IdentifierKind.publicId.spelling.toList ++
              ' ' :: ((quote publicId).toList ++ cs)) := by
        simp [Doctype.identifiers, IdentifierKind.spelling]
      rw [hrest]
      exact hread cs
    | some systemId =>
      refine ⟨.afterDoctypeIdentifier .systemId, Or.inr ⟨_, rfl⟩, ?_⟩
      have hrest : (Doctype.identifiers ⟨name, some publicId, some systemId, false⟩).toList ++ cs
          = ' ' :: (IdentifierKind.publicId.spelling.toList ++
              ' ' :: ((quote publicId).toList ++ ' ' :: ((quote systemId).toList ++ cs))) := by
        simp [Doctype.identifiers, IdentifierKind.spelling]
      rw [hrest]
      exact (hread _).trans (leads_between.trans
        (leads_identifier (Or.inr ⟨rfl, rfl⟩) (hsystem systemId rfl)))

/-- `>` queues the document type. -/
theorem leads_doctypeEnd {state : State} (hstate : EndsDoctype state) :
    Leads { state, rest := '>' :: cs, done, held, doctype }
      { state := .data, rest := cs, done := done ++ (textTokens held ++ [.doctype doctype]),
        held := "" } := by
  refine leads_of_stepChar rfl rfl ?_
  intro m hm hpose
  refine ⟨m.advance.emitDoctype, ?_, ?_⟩
  · rcases hstate with rfl | ⟨kind, rfl⟩
    · rw [Machine.stepChar, hm]
      rfl
    · rw [Machine.stepChar, hm]
      cases kind <;> rfl
  · simp [hpose]

/-- **A canonical document type is read back.** -/
theorem leads_doctype {d : Doctype} (h : d.Canonical) :
    Leads { state := .data, rest := (Token.doctype d).markup.toList ++ cs, done, held }
      { state := .data, rest := cs, done := done ++ (textTokens held ++ [.doctype d]),
        held := "" } := by
  have hname : d.name = some (d.name.getD "") := by
    cases hd : d.name with
    | none => exact absurd (by rw [hd]; rfl) h.nonempty
    | some name => rfl
  have hrest : (Token.doctype d).markup.toList ++ cs
      = '<' :: '!' :: ("DOCTYPE".toList ++ ' ' :: ((d.name.getD "").toList ++
          (d.identifiers.toList ++ '>' :: cs))) := by
    simp [Token.markup]
  have hread := @leads_doctypeName done held (d.identifiers.toList ++ '>' :: cs) _ h.nonempty h.name
  rw [← hname] at hread
  obtain ⟨state, hends, hids⟩ := @leads_identifiers done held ('>' :: cs) d h
  rw [hrest]
  calc Leads _ _ := leads_declaration
    Leads _ _ := leads_doctypeKeyword
    Leads _ _ := hread
    Leads _ _ := hids
    Leads _ _ := leads_doctypeEnd hends

end Pose

end HtmlStream

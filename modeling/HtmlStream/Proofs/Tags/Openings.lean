import HtmlStream.Proofs.Tags.Bodies

/-! # Where tags open

A tag is read from the end of its name on. Up to there it has no attributes, and nowhere else a tag is queued.

* **`Machine.nameMayEnd`**: the name under construction may be that of a tag. **`Machine.BehindName`**: it ends.
* **`Machine.Bare`**: the tag under construction is a name only. **`bare_of_leads`**: it is as long as its name
  goes on.
* **`tags_of_step`**: steps elsewhere queue no tags.
* **`exists_readsTag_of_run`**: every tag in the queue of a run was read from behind its name. -/

namespace HtmlStream

/-- Whether the state is in the name of a tag. -/
def State.inTagName : State → Bool
  | .tagName | .rawEndTagName _ => true
  | _ => false

namespace Machine

open Attribute

/-- **The name under construction may be that of a tag**; in raw text it has to be that of the last start
tag. -/
def nameMayEnd (m : Machine) : Bool :=
  match m.state with
  | .tagName => true
  | .rawEndTagName _ => m.isAppropriateEndTag
  | _ => false

/-- **The name of a tag has been read**, and what is behind it is to be read. -/
def BehindName (m : Machine) : Prop :=
  m.nameMayEnd = true ∧ ∃ c ∈ m.input.pending.head?, endsTagName c = true

variable {m k : Machine} {c : Char}

/-! ## (1) Steps that queue no tags -/

section

variable (hname : m.nameMayEnd = true → endsTagName c = false) (hinside : m.state.insideTag = false)

include hname hinside in
theorem tags_stepChar (hk : m.stepChar c = some k) :
    k.marks.tags = m.marks.tags ∧ k.state.insideTag = false := by
  unfold nameMayEnd at hname
  unfold stepChar at hk
  cases hstate : m.state <;> simp only [hstate, Option.some.injEq] at hk hname
  case tagName =>
    obtain ⟨⟨hspace, hsolidus⟩, hbracket⟩ : (Ascii.isSpace c = false ∧ c ≠ '/') ∧ c ≠ '>' := by
      simpa [endsTagName] using hname
    subst hk
    rw [state_eq_course] at hstate ⊢
    simp only [stepTagName, hspace, hsolidus, hbracket, if_false, Bool.false_eq_true]
    split <;> simp [hstate, State.insideTag]
  case rawEndTagName kind =>
    have hplain : m.isAppropriateEndTag = true → (Ascii.isSpace c = false ∧ c ≠ '/') ∧ c ≠ '>' :=
      fun h => by simpa [endsTagName] using hname h
    subst hk
    rw [state_eq_course] at hstate ⊢
    simp only [stepRawEndTagName, putBackEndTag]
    rw [if_neg (by simpa using fun h => (hplain h).1.1), if_neg (by simpa using fun h => (hplain h).1.2),
      if_neg (by simpa using fun h => (hplain h).2)]
    split <;> simp [hstate, State.insideTag]
  case markupDeclarationOpen =>
    unfold stepMarkupDeclarationOpen at hk
    repeat' split at hk
    all_goals cases hk
    all_goals simp [state_eq_course, State.insideTag]
  case afterDoctypeName =>
    unfold stepAfterDoctypeName at hk
    repeat' split at hk
    all_goals cases hk
    all_goals rw [state_eq_course] at hstate ⊢
    all_goals simp [hstate, abandonDoctype, Marks.add, State.insideTag]
  case afterDoctypeIdentifier kind =>
    cases kind
    all_goals
      cases hk
      rw [state_eq_course] at hstate ⊢
      simp only [stepAfterPublicIdentifier, stepAfterSystemIdentifier, abandonDoctype, beginIdentifier]
      repeat' split
      all_goals simp [hstate, Marks.add, State.insideTag]
  -- the states behind the name are excluded
  all_goals try (rw [hstate] at hinside; cases hinside; done)
  all_goals
    subst hk
    rw [state_eq_course] at hstate ⊢
    simp only [stepData, stepPlaintext, stepRawData, stepRawLessThanSign, stepRawEndTagOpen,
      stepEscapeStart, stepEscapeStartDash, stepEscapedDash,
      stepEscapedDashDash, stepDoubleEscapeEnd, escapeDash, escapeBoundary, afterDashes,
      escapedLessThan, replaceNull, stepTagOpen, stepEndTagOpen,
      stepBogusComment, stepCommentStart, stepCommentStartDash, stepCommentText, stepCommentEndDash,
      stepCommentEnd, stepCommentEndBang, putCommentChar, putBackDashes, stepDoctype,
      stepBeforeDoctypeName, beforeDoctypeName, stepDoctypeName, stepAfterDoctypeKeyword,
      stepBeforeDoctypeIdentifier, stepDoctypeIdentifier, stepBetweenIdentifiers, stepBogusDoctype,
      abandonDoctype, cutDoctype, beginIdentifier]
    repeat' split
    all_goals simp [hstate, Marks.add, State.insideTag]

theorem tags_stepEnd : m.stepEnd.marks.tags = m.marks.tags ∧ m.stepEnd.state.insideTag = false := by
  unfold stepEnd
  cases hstate : m.state
  all_goals
    rw [state_eq_course] at hstate ⊢
    simp only [putBackEndTag, endDoctype]
    repeat' split
    all_goals simp_all [Marks.add, State.insideTag]

include hinside in
/-- **Elsewhere** a step queues no tags, and does not get behind a name. -/
theorem tags_of_step (hname : ¬m.BehindName) (h : step .byChar m = some k) :
    k.marks.tags = m.marks.tags ∧ k.state.insideTag = false := by
  rcases step_cases h with ⟨r, next, -, rfl⟩ | ⟨-, c, cs, hpending, hchar⟩ | ⟨-, -, rfl⟩
  · rw [marks_stepReference,
      show (m.stepReference r next).state = m.state from (course_stepReference m r next).1]
    exact ⟨rfl, hinside⟩
  · refine tags_stepChar (fun hends => Bool.eq_false_iff.mpr fun hc => hname ⟨hends, c, ?_, hc⟩)
      hinside hchar
    rw [hpending]
    rfl
  · exact tags_stepEnd

end

/-! ## (2) Tags that are names only -/

/-- **The tag under construction is a name only.** -/
def Bare (m : Machine) : Prop :=
  m.tag = { kind := m.tag.kind, name := m.tag.name } ∧ m.currentAttribute = none

theorem bare_openTag (kind : TagKind) (c : Char) : (m.openTag kind c).Bare := ⟨rfl, rfl⟩

theorem Bare.goto (h : m.Bare) (next : State) : (m.goto next).Bare := by
  unfold Machine.goto
  split <;> exact h

theorem Bare.putTagName (h : m.Bare) (c : Char) : (m.putTagName c).Bare := by
  refine ⟨?_, h.2⟩
  rw [Machine.putTagName, h.1]

theorem Bare.report (h : m.Bare) (code : ErrorCode) : (m.report code).Bare := by
  rw [Machine.report, Clean.emit_eq]
  exact h

theorem bare_stepTagOpen : (m.stepTagOpen c).state.inTagName = false ∨ (m.stepTagOpen c).Bare := by
  rw [state_eq_course]
  unfold stepTagOpen
  repeat' split
  all_goals first
    | exact .inr ((bare_openTag _ _).goto _)
    | exact .inl (by simp [State.inTagName])

theorem bare_stepEndTagOpen :
    (m.stepEndTagOpen c).state.inTagName = false ∨ (m.stepEndTagOpen c).Bare := by
  rw [state_eq_course]
  unfold stepEndTagOpen
  repeat' split
  all_goals first
    | exact .inr ((bare_openTag _ _).goto _)
    | exact .inl (by simp [State.inTagName])

theorem bare_stepRawEndTagOpen (kind : RawKind) :
    (m.stepRawEndTagOpen kind c).state.inTagName = false ∨ (m.stepRawEndTagOpen kind c).Bare := by
  rw [state_eq_course]
  unfold stepRawEndTagOpen
  split
  · have hopened : ((m.advance.openTag .closing c.toLower).putLetter c).Bare :=
      bare_openTag (m := m.advance) .closing c.toLower
    exact .inr (hopened.goto _)
  · exact .inl (by simp [State.inTagName])

theorem Bare.stepTagName (h : m.Bare) :
    (m.stepTagName c).state.inTagName = false ∨ (m.stepTagName c).Bare := by
  have hadvance : m.advance.Bare := h
  rw [state_eq_course]
  simp only [Machine.stepTagName]
  repeat' split
  -- the name ends, or goes on
  · simp [State.inTagName]
  · simp [State.inTagName]
  · simp [State.inTagName]
  · exact .inr ((hadvance.report _).putTagName _)
  · exact .inr (hadvance.putTagName _)

theorem Bare.stepRawEndTagName (h : m.Bare) (kind : RawKind) :
    (m.stepRawEndTagName kind c).state.inTagName = false ∨ (m.stepRawEndTagName kind c).Bare := by
  have hadvance : m.advance.Bare := h
  rw [state_eq_course]
  unfold Machine.stepRawEndTagName putBackEndTag
  repeat' split
  · simp [State.inTagName]
  · simp [State.inTagName]
  · simp [State.inTagName]
  · exact .inr (hadvance.putTagName _)
  · simp [State.inTagName]

/-- **As long as a name goes on**, nothing else comes to the tag. -/
theorem bare_stepChar (href : m.reference = none) (h : m.state.inTagName = true → m.Bare)
    (hk : m.stepChar c = some k) (hin : k.state.inTagName = true) : k.Bare := by
  have hbefore := (reference_stepChar href hk).2
  have hnot : ¬k.state.inTagName = false := by simp [hin]
  cases hnext : k.state <;> rw [hnext] at hin hbefore <;> try (cases hin; done)
  case tagName =>
    have hmem := hbefore _ rfl
    simp only [List.mem_cons, List.not_mem_nil, or_false] at hmem
    rcases hmem with hstate | hstate | hstate <;> rw [stepChar, hstate] at hk <;> cases hk
    · exact bare_stepTagOpen.resolve_left hnot
    · exact bare_stepEndTagOpen.resolve_left hnot
    · exact (h (by rw [hstate]; rfl)).stepTagName.resolve_left hnot
  case rawEndTagName kind =>
    have hmem := hbefore _ rfl
    simp only [List.mem_cons, List.not_mem_nil, or_false] at hmem
    rcases hmem with hstate | hstate <;> rw [stepChar, hstate] at hk <;> cases hk
    · exact (bare_stepRawEndTagOpen _).resolve_left hnot
    · exact ((h (by rw [hstate]; rfl)).stepRawEndTagName _).resolve_left hnot

variable {config : Config} {bs : Bytes}

/-- **As long as its name goes on**, the tag under construction is a name only. -/
theorem bare_of_leads (h : (whole config bs).Leads m) (hin : m.state.inTagName = true) : m.Bare := by
  induction h with
  | refl =>
    -- no run begins in a name
    have hinitial : (whole config bs).state = config.initialState.state := rfl
    rw [hinitial] at hin
    cases hkind : config.initialState <;> rw [hkind] at hin <;> cases hin
  | @tail m k hreach hstep ih =>
    rcases step_cases hstep with ⟨r, next, hr, rfl⟩ | ⟨href, c, cs, -, hchar⟩ | ⟨href, -, rfl⟩
    · -- nor is a reference read in one
      have htakes := reference_of_leads hreach (by simp [hr])
      rw [show (m.stepReference r next).state = m.state from (course_stepReference m r next).1] at hin
      cases hstate : m.state <;> rw [hstate] at hin htakes <;> first | cases hin; done | cases htakes
    · exact bare_stepChar href ih hchar hin
    · have hnone := (reference_stepEnd href).2
      cases hstate : m.stepEnd.state <;> rw [hstate] at hin hnone <;> first | cases hin; done | cases hnone

/-! ## (3) Reading a tag -/

/-- What is known of the tag under construction. -/
def tagStart (m : Machine) : TagStart := { kind := m.tag.kind, name := m.tag.name, base := m.output }

/-- **Behind its name** a tag has no attributes yet. -/
theorem at_of_behindName (hreach : (whole config bs).Leads m) (hended : m.ended = false)
    (hname : m.BehindName) : m.At m.tagStart ⟨m.state, m.input.pending, [], none⟩ := by
  have hin : m.state.inTagName = true := by
    have hmay := hname.1
    unfold nameMayEnd at hmay
    cases hstate : m.state <;> rw [hstate] at hmay <;> first | rfl | cases hmay
  obtain ⟨htag, hcurrent⟩ := bare_of_leads hreach hin
  refine ⟨rfl, rfl, ?_, hended, (input_of_leads hreach).2, hcurrent, htag, [], ?_, rfl⟩
  · by_contra href
    have htakes := reference_of_leads hreach href
    cases hstate : m.state <;> rw [hstate] at hin htakes <;> first | cases hin; done | cases htakes
  · exact ⟨[], .nil, (List.append_nil _).symm⟩

/-- **The step at the end of a name.** -/
theorem exists_stepChar_of_nameMayEnd (hmay : m.nameMayEnd = true) (hc : endsTagName c = true) :
    ∃ k, (k = m.advance ∨ k = m.advance.clearLetters) ∧ m.stepChar c = some (
      if Ascii.isSpace c then k.goto .beforeAttributeName
      else if c = '/' then k.goto .selfClosingStartTag
      else k.emitTag) := by
  have hcases : Ascii.isSpace c = true ∨ c = '/' ∨ c = '>' := by
    simpa [endsTagName, or_assoc] using hc
  unfold nameMayEnd at hmay
  unfold stepChar
  cases hstate : m.state <;> rw [hstate] at hmay <;> try (cases hmay; done)
  case tagName =>
    refine ⟨m.advance, .inl rfl, ?_⟩
    simp only [stepTagName]
    rcases hcases with hspace | rfl | rfl
    · rw [hspace, if_pos rfl, if_pos rfl]
    · rfl
    · rfl
  case rawEndTagName kind =>
    have happropriate : m.isAppropriateEndTag = true := hmay
    refine ⟨m.advance.clearLetters, .inr rfl, ?_⟩
    simp only [stepRawEndTagName, happropriate, Bool.true_and]
    rcases hcases with hspace | rfl | rfl
    · rw [hspace, if_pos rfl, if_pos rfl]
    · rfl
    · rfl

/-- **What becomes of a tag** is what is scanned behind its name. -/
theorem readsBody_of_behindName (hreach : (whole config bs).Leads m) (hended : m.ended = false)
    (hname : m.BehindName) : m.ReadsBody m.tagStart [] (TagBody.scan m.input.pending) := by
  have hm := at_of_behindName hreach hended hname
  obtain ⟨hmay, c, hhead, hc⟩ := hname
  obtain ⟨s, hs⟩ := List.head?_eq_some_iff.mp hhead
  rw [hs] at hm ⊢
  obtain ⟨k, hk, hchar⟩ := exists_stepChar_of_nameMayEnd hmay hc
  have hmoved : k.At m.tagStart ⟨m.state, s, [], none⟩ := by
    rcases hk with rfl | rfl
    · exact hm.advance
    · exact { hm.advance with }
  have hstep : step .byChar m = m.stepChar c := hm.step_eq rfl
  rw [hchar] at hstep
  by_cases hspace : Ascii.isSpace c = true
  · rw [if_pos hspace] at hstep
    rw [TagBody.scan_space hspace]
    exact ReadsBody.of_leads (Leads.single hstep)
      (readsBody (State.between_beforeAttributeName s) (hmoved.goto _) rfl)
  rw [if_neg hspace] at hstep hchar
  by_cases hsolidus : c = '/'
  · subst hsolidus
    exact ReadsBody.of_leads (Leads.single hstep) (readsBody_solidus (hmoved.goto _) fun k' hk' =>
      readsBody (State.between_beforeAttributeName s) hk' rfl)
  · obtain rfl : c = '>' := by simpa [endsTagName, hspace, hsolidus] using hc
    rw [if_neg hsolidus] at hchar
    rw [TagBody.scan_bracket]
    have hkept : k.At { m.tagStart with selfClosing := false } ⟨m.state, s, [], none⟩ := hmoved
    exact ReadsBody.of_emitTag hm rfl hchar hkept

/-- **What a tag in the queue was read from**: behind its name, a text that is scanned as what the tag is
made of, with errors as it says. -/
def ReadsTag (m : Machine) (front : List Token) (t : Token) : Prop :=
  ∃ body codes errors, TagBody.scan m.input.pending = some body ∧ AreErrors codes errors ∧
    codes.filter ErrorCode.concernsTags
      = List.replicate (dropped body.attributes) .duplicateAttribute ++ m.tag.kind.endErrors body ∧
    m.queue.toList ++ front = m.output ++ errors ∧
    t = .tag ⟨m.tag.kind, m.tag.name, body.selfClosing, (firsts body.attributes).toArray⟩

/-- **A machine behind a name** reads a tag, and nothing but errors in front of it, or loses it. -/
theorem exists_readsTag (hreach : (whole config bs).Leads m) (hended : m.ended = false)
    (hname : m.BehindName) :
    ∃ k, m.Leads k ∧ k.state = .data ∧ ∀ added, k.queue.toList = m.queue.toList ++ added →
      ∀ front t back, added = front ++ t :: back → t.tag?.isSome → m.ReadsTag front t := by
  obtain ⟨k, hleads, hread⟩ := readsBody_of_behindName hreach hended hname
  cases hscan : TagBody.scan m.input.pending with
  | none =>
    rw [hscan] at hread
    obtain ⟨⟨codes, errors, herrors, houtput⟩, htext, hdata⟩ := hread
    have hqueue := k.toList_queue_of_output htext houtput
    refine ⟨k, hleads, hdata, fun added hadded front t back hsplit ht => ?_⟩
    -- nothing but errors has been queued
    have hsame : m.heldBack ++ errors = added := by
      rw [hqueue, tagStart, output, List.append_assoc, List.append_cancel_left_eq] at hadded
      exact hadded
    refine absurd ht (not_of_mem_told (m := m) (p := fun t => t.tag?.isSome) (by simp [Token.tag?])
      (by simp [Token.tag?]) herrors t ?_)
    rw [hsame, hsplit]
    simp
  | some body =>
    rw [hscan] at hread
    obtain ⟨codes, errors, herrors, hcodes, houtput, htext, hdata⟩ := hread
    have hqueue := k.toList_queue_of_output htext houtput
    refine ⟨k, hleads, hdata, fun added hadded front t back hsplit ht => ?_⟩
    obtain ⟨hfront, rfl⟩ := eq_last_of_added (p := fun t => t.tag?.isSome) (by simp [Token.tag?])
      (by simp [Token.tag?]) herrors hqueue hadded hsplit ht
    exact ⟨body, codes, errors, hscan, herrors, hcodes, hfront, rfl⟩

/-- **Every tag in the queue of a run** was read from behind its name. -/
theorem exists_readsTag_of_run {front back : List Token} {t : Tag}
    (h : (whole config bs).run.queue.toList = front ++ .tag t :: back) :
    ∃ m before, (whole config bs).Leads m ∧ m.BehindName ∧ m.ReadsTag before (.tag t) ∧
      front = m.queue.toList ++ before := by
  let Outside (m : Machine) : Prop := (whole config bs).Leads m ∧ m.state.insideTag = false
  let Opens (m : Machine) : Prop := m.ended = false ∧ m.BehindName
  have hquiet (m k : Machine) (hm : Outside m) (hopens : ¬Opens m)
      (hstep : step .byChar m = some k) : Outside k ∧
        ∀ added, k.queue.toList = m.queue.toList ++ added → ∀ t ∈ added, ¬t.tag?.isSome := by
    obtain ⟨hsame, houtside⟩ :=
      tags_of_step hm.2 (fun hname => hopens ⟨ended_of_step hstep, hname⟩) hstep
    exact ⟨⟨hm.1.trans (Leads.single hstep), houtside⟩, fun added hadded =>
      not_isSome_of_filterMap_eq hsame hadded⟩
  have hstart : Outside (whole config bs) := by
    refine ⟨Relation.ReflTransGen.refl, ?_⟩
    have hinitial : (whole config bs).state = config.initialState.state := rfl
    rw [hinitial]
    cases config.initialState <;> rfl
  obtain ⟨m, before, -, houtside, hopens, hreads, hfront⟩ :=
    exists_opening (p := fun t => t.tag?.isSome) hquiet
      (fun m hm hopens => by
        obtain ⟨k, hleads, hdata, hreads⟩ := exists_readsTag hm.1 hopens.1 hopens.2
        refine ⟨k, hleads, ⟨hm.1.trans hleads, by rw [hdata]; rfl⟩, fun hk => ?_, hreads⟩
        have hmay := hk.2.1
        rw [nameMayEnd, hdata] at hmay
        cases hmay)
      hstart (t := .tag t) rfl h
  exact ⟨m, before, houtside.1, hopens.2, hreads, hfront⟩

end Machine

end HtmlStream

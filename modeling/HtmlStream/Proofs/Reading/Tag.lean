import HtmlStream.Proofs.Reading.Text

/-! # Reading tags back

From `<` to `>`: the name, the attributes one after another, and the end. The attribute read last is
added to the tag when the next one begins or the tag ends, so it is kept apart until then.

* **`leads_tagStart`**, **`leads_tagName`**: the beginning and the name.
* **`leads_attribute`**, **`leads_attributes`**: one attribute and all of them.
* **`leads_tag`**: a canonical tag is read back. -/

namespace HtmlStream

/-! ## (1) The attribute kept apart -/

/-- The attribute kept apart has a name that the tag has not. -/
def Tag.Fresh (t : Tag) (current : Option Attribute) : Prop :=
  ∀ a ∈ current, a.name ∉ t.attributes.toList.map (·.name)

/-- An end tag has neither attributes nor a solidus. -/
def Tag.Clean (t : Tag) : Prop := t.kind = .closing → t.attributes = #[] ∧ t.selfClosing = false

@[simp] theorem Tag.add_none (t : Tag) : t.add none = t := rfl

/-- Names that are distinct behind the addition are so before it. -/
theorem Tag.fresh_of_nodup {t : Tag} {current : Option Attribute}
    (h : ((t.add current).attributes.toList.map (·.name)).Nodup) : t.Fresh current := by
  intro a ha
  cases ha
  rw [Tag.add, Array.toList_push, List.map_append, List.nodup_append] at h
  intro hmem
  exact h.2.2 _ hmem _ (by simp) rfl

namespace Machine

variable (m : Machine)

theorem pose_openAttribute (c : Char) (h : m.pose.tag.Fresh m.pose.current) :
    (m.openAttribute c).pose
      = { m.pose with tag := m.pose.tag.add m.pose.current,
                      current := some { name := String.singleton c } } := by
  have hclose := m.pose_closeAttribute h
  show { m.closeAttribute.pose with current := some { name := String.singleton c } } = _
  rw [hclose]

/-- A clean tag has no errors. -/
theorem pose_reportTag {t : Tag} (h : t.Clean) : (m.reportTag t).pose = m.pose := by
  unfold reportTag
  cases hkind : t.kind with
  | opening => rfl
  | closing =>
    obtain ⟨hattributes, hsolidus⟩ := h hkind
    simp [hattributes, hsolidus]

/-- **A finished tag** is queued, and nothing of it is kept. -/
theorem pose_emitTag (h : m.pose.tag.Fresh m.pose.current)
    (hclean : (m.pose.tag.add m.pose.current).Clean) :
    m.emitTag.pose
      = { m.pose with
          state := .data
          done := m.pose.done ++
            (textTokens m.pose.held ++ [.tag (m.pose.tag.add m.pose.current)])
          held := ""
          tag := { kind := .opening }
          current := none } := by
  have hclose := m.pose_closeAttribute h
  have htag : m.closeAttribute.tag = m.pose.tag.add m.pose.current := congrArg Pose.tag hclose
  have hreset : m.closeAttribute.resetTag.pose
      = { m.pose with tag := { kind := .opening }, current := none } := by
    show { m.closeAttribute.pose with tag := { kind := .opening } } = _
    rw [hclose]
  rw [emitTag, pose_goto, pose_emit, htag, pose_reportTag _ hclean, hreset]

end Machine

namespace Pose

open Machine (stepTagOpen stepEndTagOpen stepTagName stepBeforeAttributeName stepAttributeName
  stepBeforeAttributeValue stepAttributeValue stepAfterAttributeValueQuoted stepSelfClosingStartTag)

variable {done : List Token} {held : String} {tag : Tag} {current : Option Attribute} {c : Char}
  {cs : List Char}

/-! ## (2) The beginning and the name -/

theorem leads_lessThan :
    Leads { state := .data, rest := '<' :: cs, done, held }
      { state := .tagOpen, rest := cs, done, held } := by
  refine leads_goto rfl rfl ?_
  intro m hm
  rw [Machine.stepChar, hm]
  rfl

/-- **The beginning of a tag**, with the first letter of its name. -/
theorem leads_tagStart (kind : TagKind) (hc : c.isLower = true) :
    Leads { state := .data, rest := kind.markup.toList ++ c :: cs, done, held }
      { state := .tagName, rest := cs, done, held,
        tag := { kind, name := String.singleton c } } := by
  have halpha := isAlpha_of_isLower hc
  have hlower := toLower_of_not_isUpper (isUpper_of_isLower hc)
  cases kind with
  | opening =>
    -- a letter is none of the characters that begin another kind of markup
    have hbang : c ≠ '!' := ne_of_isLower hc rfl
    have hsolidus : c ≠ '/' := ne_of_isLower hc rfl
    have hquestion : c ≠ '?' := ne_of_isLower hc rfl
    refine leads_lessThan.trans (leads_of_stepChar rfl rfl ?_)
    intro m hm hpose
    refine ⟨(m.advance.openTag .opening c).goto .tagName, ?_, ?_⟩
    · rw [Machine.stepChar, hm]
      simp [stepTagOpen, hbang, hsolidus, hquestion, halpha, hlower]
    · simp [hpose]
  | closing =>
    have hopen : Leads { state := .tagOpen, rest := '/' :: c :: cs, done, held }
        { state := .endTagOpen, rest := c :: cs, done, held } := by
      refine leads_goto rfl rfl ?_
      intro m hm
      rw [Machine.stepChar, hm]
      rfl
    refine leads_lessThan.trans (hopen.trans (leads_of_stepChar rfl rfl ?_))
    intro m hm hpose
    refine ⟨(m.advance.openTag .closing c).goto .tagName, ?_, ?_⟩
    · rw [Machine.stepChar, hm]
      simp [stepEndTagOpen, halpha, hlower]
    · simp [hpose]

/-- A letter of the name. -/
theorem leads_tagLetter {name : String} (hc : isNameChar c = true) :
    Leads { state := .tagName, rest := c :: cs, done, held, tag := { tag with name } }
      { state := .tagName, rest := cs, done, held, tag := { tag with name := name.push c } } := by
  obtain ⟨htext, hupper, hspace, hsolidus, hbracket⟩ := isNameChar_iff.mp hc
  refine leads_of_stepChar rfl rfl ?_
  intro m hm hpose
  refine ⟨m.advance.putTagName c, ?_, ?_⟩
  · rw [Machine.stepChar, hm]
    simp [stepTagName, hspace, hsolidus, hbracket, (isTextChar_iff.mp htext).1,
      toLower_of_not_isUpper hupper]
  · simp [hpose]

/-- **The name of a tag**, from its first letter on. -/
theorem leads_tagName {first : Char} {others : List Char}
    (h : ∀ c ∈ others, isNameChar c = true) :
    Leads { state := .tagName, rest := others ++ cs, done, held,
            tag := { tag with name := String.singleton first } }
      { state := .tagName, rest := cs, done, held,
        tag := { tag with name := String.ofList (first :: others) } } := by
  rw [String.ofList_cons]
  -- the name grows in the pose while the input shrinks
  exact leads_letters (f := fun rest name =>
      { state := .tagName, rest, done, held, tag := { tag with name } })
    (fun c cs s hc => leads_tagLetter hc) h cs (String.singleton first)

/-! ## (3) Attributes -/

/-- The states behind the name of a tag and behind a value between quotation marks: a space leads to
the next attribute, `/` and `>` to the end of the tag. -/
def EndsPart (state : State) : Prop := state = .tagName ∨ state = .afterAttributeValueQuoted

/-- What these states do. -/
theorem stepChar_of_endsPart {m : Machine} (h : EndsPart m.state) :
    m.stepChar ' ' = some (m.advance.goto .beforeAttributeName) ∧
      m.stepChar '/' = some (m.advance.goto .selfClosingStartTag) ∧
      m.stepChar '>' = some m.advance.emitTag := by
  rcases h with h | h
  · simp only [Machine.stepChar, h]
    exact ⟨rfl, rfl, rfl⟩
  · simp only [Machine.stepChar, h]
    exact ⟨rfl, rfl, rfl⟩

theorem leads_space {state : State} (hstate : EndsPart state) :
    Leads { state, rest := ' ' :: cs, done, held, tag, current }
      { state := .beforeAttributeName, rest := cs, done, held, tag, current } := by
  refine leads_goto rfl rfl ?_
  intro m hm
  exact (stepChar_of_endsPart (hm ▸ hstate)).1

/-- **The first letter of an attribute** adds the one before it to the tag. -/
theorem leads_attributeStart (hfresh : tag.Fresh current) (hc : isAttributeNameChar c = true) :
    Leads { state := .beforeAttributeName, rest := c :: cs, done, held, tag, current }
      { state := .attributeName, rest := cs, done, held, tag := tag.add current,
        current := some { name := String.singleton c } } := by
  obtain ⟨hname, hequals, hdouble, hsingle, hless⟩ := isAttributeNameChar_iff.mp hc
  obtain ⟨htext, hupper, hspace, hsolidus, hbracket⟩ := isNameChar_iff.mp hname
  refine leads_of_stepChar rfl rfl ?_
  intro m hm hpose
  refine ⟨(m.advance.openAttribute c).goto .attributeName, ?_, ?_⟩
  · rw [Machine.stepChar, hm]
    simp [stepBeforeAttributeName, Machine.beginAttribute, Machine.isOddInName, hspace, hsolidus,
      hbracket, (isTextChar_iff.mp htext).1, hequals, hdouble, hsingle, hless,
      toLower_of_not_isUpper hupper]
  · have hfresh' : m.advance.pose.tag.Fresh m.advance.pose.current := by
      rw [Machine.pose_advance, hpose]
      exact hfresh
    rw [Machine.pose_goto, Machine.pose_openAttribute _ _ hfresh', Machine.pose_advance, hpose]
    rfl

/-- A letter of its name. -/
theorem leads_attributeLetter {name : String} (hc : isAttributeNameChar c = true) :
    Leads { state := .attributeName, rest := c :: cs, done, held, tag, current := some { name } }
      { state := .attributeName, rest := cs, done, held, tag,
        current := some { name := name.push c } } := by
  obtain ⟨hname, hequals, hdouble, hsingle, hless⟩ := isAttributeNameChar_iff.mp hc
  obtain ⟨htext, hupper, hspace, hsolidus, hbracket⟩ := isNameChar_iff.mp hname
  refine leads_of_stepChar rfl rfl ?_
  intro m hm hpose
  refine ⟨m.advance.putAttributeName c, ?_, ?_⟩
  · rw [Machine.stepChar, hm]
    simp [stepAttributeName, Machine.isOddInName, hspace, hsolidus, hbracket,
      (isTextChar_iff.mp htext).1, hequals, hdouble, hsingle, hless,
      toLower_of_not_isUpper hupper]
  · simp [hpose]

/-- **The name of an attribute**, from its first letter on. -/
theorem leads_attributeName {first : Char} {others : List Char}
    (h : ∀ c ∈ others, isAttributeNameChar c = true) :
    Leads { state := .attributeName, rest := others ++ cs, done, held, tag,
            current := some { name := String.singleton first } }
      { state := .attributeName, rest := cs, done, held, tag,
        current := some { name := String.ofList (first :: others) } } := by
  rw [String.ofList_cons]
  exact leads_letters (f := fun rest name =>
      { state := .attributeName, rest, done, held, tag, current := some { name } })
    (fun c cs s hc => leads_attributeLetter hc) h cs (String.singleton first)

/-- A quotation mark behind `=` begins a value. -/
theorem leads_equals :
    Leads { state := .attributeName, rest := '=' :: Ascii.doubleQuote :: cs, done, held, tag,
            current }
      { state := .attributeValue .doubleQuoted, rest := cs, done, held, tag, current } := by
  have hequals :
      Leads { state := .attributeName, rest := '=' :: Ascii.doubleQuote :: cs, done, held, tag,
              current }
        { state := .beforeAttributeValue, rest := Ascii.doubleQuote :: cs, done, held, tag,
          current } := by
    refine leads_goto rfl rfl ?_
    intro m hm
    rw [Machine.stepChar, hm]
    rfl
  refine hequals.trans (leads_goto rfl rfl ?_)
  intro m hm
  rw [Machine.stepChar, hm]
  rfl

/-- The next one ends it. -/
theorem leads_endOfValue :
    Leads { state := .attributeValue .doubleQuoted, rest := Ascii.doubleQuote :: cs, done, held, tag,
            current }
      { state := .afterAttributeValueQuoted, rest := cs, done, held, tag, current } := by
  refine leads_goto rfl rfl ?_
  intro m hm
  rw [Machine.stepChar, hm]
  rfl

/-- **An attribute is read back** and kept apart. -/
theorem leads_attribute {state : State} (hstate : EndsPart state) (hfresh : tag.Fresh current)
    {a : Attribute} (ha : a.Canonical) :
    Leads { state, rest := a.markup.toList ++ cs, done, held, tag, current }
      { state := .afterAttributeValueQuoted, rest := cs, done, held, tag := tag.add current,
        current := some a } := by
  obtain ⟨first, others, hcons⟩ :=
    List.exists_cons_of_ne_nil (mt String.toList_eq_nil_iff.mp ha.nonempty)
  have hname := ha.name
  rw [hcons, List.forall_mem_cons] at hname
  have hrest : a.markup.toList ++ cs = ' ' :: first :: (others ++ '=' :: Ascii.doubleQuote ::
      ((Place.value.write a.value).toList ++ Ascii.doubleQuote :: cs)) := by
    simp [Attribute.markup, quote, hcons, Ascii.doubleQuote]
  have hfull : String.ofList (first :: others) = a.name := by
    rw [← hcons, String.ofList_toList]
  -- the value is read between the quotation marks into the attribute kept apart
  have hvalue := @leads_write
    { state := .attributeValue .doubleQuoted,
      rest := (Place.value.write a.value).toList ++ Ascii.doubleQuote :: cs, done, held,
      tag := tag.add current, current := some { name := a.name } }
    .value (Ascii.doubleQuote :: cs) a.value rfl rfl rfl ha.value
  have hread := @leads_attributeName done held (tag.add current) ('=' :: Ascii.doubleQuote ::
    ((Place.value.write a.value).toList ++ Ascii.doubleQuote :: cs)) first others hname.2
  rw [hfull] at hread
  simp only [put, Option.map_some, String.empty_append] at hvalue
  rw [hrest]
  calc Leads _ _ := leads_space hstate
    Leads _ _ := leads_attributeStart hfresh hname.1
    Leads _ _ := hread
    Leads _ _ := leads_equals
    Leads _ _ := hvalue
    Leads _ _ := leads_endOfValue

/-- **All attributes are read back**, the last of them kept apart. -/
theorem leads_attributes {state : State} (hstate : EndsPart state) {l : List Attribute}
    (hcanonical : ∀ a ∈ l, a.Canonical)
    (hdistinct : (((tag.add current).attributes.toList ++ l).map (·.name)).Nodup) :
    ∃ state' tag' current', EndsPart state' ∧ tag'.Fresh current' ∧
      tag'.add current'
        = { tag.add current with attributes := (tag.add current).attributes ++ l.toArray } ∧
      Leads { state, rest := (String.join (l.map Attribute.markup)).toList ++ cs, done, held, tag,
              current }
        { state := state', rest := cs, done, held, tag := tag', current := current' } := by
  have hfresh : tag.Fresh current := by
    refine Tag.fresh_of_nodup (hdistinct.sublist ?_)
    rw [List.map_append]
    exact List.sublist_append_left _ _
  -- induction on the attributes; reading one adds the one before it and keeps the new one apart
  induction l generalizing state tag current with
  | nil =>
    refine ⟨state, tag, current, hstate, hfresh, by simp, ?_⟩
    rw [List.map_nil, String.join_nil, String.toList_empty, List.nil_append]
    exact Leads.refl _
  | cons a l ih =>
    rw [List.forall_mem_cons] at hcanonical
    have hsplit : ((tag.add current).add (some a)).attributes.toList ++ l
        = (tag.add current).attributes.toList ++ a :: l := by
      simp [Tag.add]
    have hdistinct' :
        ((((tag.add current).add (some a)).attributes.toList ++ l).map (·.name)).Nodup := by
      rw [hsplit]
      exact hdistinct
    -- all names are distinct, so `a` is no repetition when it is added
    have hfresh' : (tag.add current).Fresh (some a) := by
      refine Tag.fresh_of_nodup (hdistinct'.sublist ?_)
      rw [List.map_append]
      exact List.sublist_append_left _ _
    have hbehind : EndsPart .afterAttributeValueQuoted := Or.inr rfl
    obtain ⟨state', tag', current', hends, hnew, hadd, hleads⟩ :=
      ih hbehind hcanonical.2 hdistinct' hfresh'
    refine ⟨state', tag', current', hends, hnew, ?_, ?_⟩
    · rw [hadd]
      simp [Tag.add]
    · have hfirst := @leads_attribute done held tag current
        ((String.join (l.map Attribute.markup)).toList ++ cs) state hstate hfresh a hcanonical.1
      rw [List.map_cons, String.join_cons, String.toList_append, List.append_assoc]
      exact hfirst.trans hleads

/-! ## (4) The end -/

/-- **The end of a tag**, with a solidus or without. -/
theorem leads_tagEnd {state : State} (hstate : EndsPart state) (hfresh : tag.Fresh current) {t : Tag}
    (ht : t.Clean) (hadd : tag.add current = { t with selfClosing := false }) :
    Leads { state, rest := (if t.selfClosing then "/>" else ">").toList ++ cs, done, held, tag,
            current }
      { state := .data, rest := cs, done := done ++ (textTokens held ++ [.tag t]), held := "" } := by
  cases hsolidus : t.selfClosing with
  | false =>
    -- `>` alone
    have htag : tag.add current = t := by
      rw [hadd, ← hsolidus]
    refine leads_of_stepChar rfl rfl ?_
    intro m hm hpose
    refine ⟨_, (stepChar_of_endsPart (hm ▸ hstate)).2.2, ?_⟩
    rw [Machine.pose_emitTag _ (by rw [Machine.pose_advance, hpose]; exact hfresh)
      (by rw [Machine.pose_advance, hpose]; exact htag ▸ ht), Machine.pose_advance, hpose]
    simp only [htag]
    rfl
  | true =>
    -- `/` marks the tag and `>` ends it; marking and adding the last attribute commute
    have hmark : ({ tag with selfClosing := true } : Tag).add current = t := by
      have hcommute : ({ tag with selfClosing := true } : Tag).add current
          = { tag.add current with selfClosing := true } := by
        cases current <;> rfl
      rw [hcommute, hadd, ← hsolidus]
    have hfresh' : ({ tag with selfClosing := true } : Tag).Fresh current := hfresh
    have hslash : Leads { state, rest := '/' :: '>' :: cs, done, held, tag, current }
        { state := .selfClosingStartTag, rest := '>' :: cs, done, held, tag, current } := by
      refine leads_goto rfl rfl ?_
      intro m hm
      exact (stepChar_of_endsPart (hm ▸ hstate)).2.1
    refine hslash.trans (leads_of_stepChar rfl rfl ?_)
    intro m hm hpose
    refine ⟨m.advance.markSelfClosing.emitTag, ?_, ?_⟩
    · rw [Machine.stepChar, hm]
      rfl
    · have hmarked : m.advance.markSelfClosing.pose
          = { state := .selfClosingStartTag, rest := cs, done, held,
              tag := { tag with selfClosing := true }, current } := by
        rw [Machine.pose_markSelfClosing, Machine.pose_advance, hpose]
        rfl
      rw [Machine.pose_emitTag _ (by rw [hmarked]; exact hfresh')
        (by rw [hmarked]; exact hmark ▸ ht), hmarked]
      simp only [hmark]

/-- **A canonical tag is read back.** -/
theorem leads_tag {t : Tag} (ht : t.Canonical) :
    Leads { state := .data, rest := t.markup.toList ++ cs, done, held }
      { state := .data, rest := cs, done := done ++ (textTokens held ++ [.tag t]), held := "" } := by
  obtain ⟨first, others, hcons, hfirst, hothers⟩ := ht.name
  have hfull : String.ofList (first :: others) = t.name := by
    rw [← hcons, String.ofList_toList]
  have hrest : t.markup.toList ++ cs = t.kind.markup.toList ++ first :: (others ++
      ((String.join (t.attributes.toList.map Attribute.markup)).toList ++
        ((if t.selfClosing then "/>" else ">").toList ++ cs))) := by
    simp only [Tag.markup, String.toList_append, hcons, List.append_assoc, List.cons_append]
  -- nothing is kept apart behind the name
  have hname := @leads_tagName done held { kind := t.kind }
    ((String.join (t.attributes.toList.map Attribute.markup)).toList ++
      ((if t.selfClosing then "/>" else ">").toList ++ cs)) first others hothers
  rw [hfull] at hname
  obtain ⟨state, tag, current, hends, hfresh, hadd, hattributes⟩ :=
    @leads_attributes done held { kind := t.kind, name := t.name } none
      ((if t.selfClosing then "/>" else ">").toList ++ cs) .tagName (Or.inl rfl)
      t.attributes.toList ht.attributes (by simpa using ht.distinct)
  have hend := @leads_tagEnd done held tag current cs state hends hfresh t ht.closing
    (by rw [hadd]; simp)
  rw [hrest]
  calc Leads _ _ := leads_tagStart t.kind hfirst
    Leads _ _ := hname
    Leads _ _ := hattributes
    Leads _ _ := hend

end Pose

end HtmlStream

import HtmlStream.Proofs.Machine.Flushed
import HtmlStream.Proofs.Tags.Values

/-! # Tags are read as they are written

From behind the name of a tag the machine gets to text. If the text of the tag ends first, no tag is queued;
otherwise the tag has the first attribute of each name that is written in it, and there is an error for each
other one.

* **`Machine.TagRead`**, **`Machine.TagLost`**: how it gets there. **`At.emitTag`**, **`At.stepEnd`**: the
  steps that do.
* **`State.Between`**: the states in which an attribute may begin, or the tag end. **`goes_first`**,
  **`goes_name`**, **`readsBody_value`**: the parts of an attribute.
* **`readsBody`**: from there on, what is read is what is scanned. -/

namespace HtmlStream

/-- The errors of an end tag that is more than a name. -/
def TagKind.endErrors (kind : TagKind) (body : TagBody) : List ErrorCode :=
  match kind with
  | .opening => []
  | .closing =>
    (if body.attributes = [] then [] else [.endTagWithAttributes]) ++
      if body.selfClosing then [.endTagWithTrailingSolidus] else []

namespace Machine

open Attribute

/-- **A tag has been read**: behind errors it has been queued with the first attribute of each name; there is
an error for each attribute that was dropped, and those of its end. -/
def TagRead (o : TagStart) (body : TagBody) (k : Machine) : Prop :=
  ∃ codes errors, AreErrors codes errors ∧
    codes.filter ErrorCode.concernsTags
      = List.replicate (dropped body.attributes) .duplicateAttribute ++ o.kind.endErrors body ∧
    k.output = o.base ++ errors ++ [.tag ({ o with selfClosing := body.selfClosing }.tag body.attributes)] ∧
    k.text = "" ∧ k.state = .data

/-- **A tag has been lost** at the end of the input: only errors have been queued. -/
def TagLost (o : TagStart) (k : Machine) : Prop :=
  (∃ codes, k.Told o.base codes) ∧ k.text = "" ∧ k.state = .data

/-- **What becomes of a tag** from a machine on that has the attributes, if the text from there on is scanned
as `body?`. -/
def ReadsBody (o : TagStart) (attributes : List Attribute) (body? : Option TagBody) (m : Machine) : Prop :=
  ∃ k, m.Leads k ∧ match body? with
    | some body => k.TagRead o { body with attributes := attributes ++ body.attributes }
    | none => k.TagLost o

variable {o : TagStart} {p : Spot} {m k : Machine}

/-! ## (1) Ends of tags -/

namespace At

/-- The errors of a finished tag. -/
theorem told_reportTag (h : m.At o p) : ∃ codes, (m.resetTag.reportTag m.tag).Told o.base codes ∧
    codes.filter ErrorCode.concernsTags
      = List.replicate (dropped p.closed) .duplicateAttribute
        ++ o.kind.endErrors ⟨p.closed, o.selfClosing⟩ := by
  obtain ⟨codes, htold, hcodes⟩ := h.told
  have hreset : m.resetTag.Told o.base codes := htold
  have hempty : m.tag.attributes.isEmpty = decide (p.closed = []) := by
    rw [h.tag, TagStart.tag, Bool.eq_iff_iff]
    simp [firsts_eq_nil_iff]
  have hkind : m.tag.kind = o.kind := congrArg Tag.kind h.tag
  have hself : m.tag.selfClosing = o.selfClosing := congrArg Tag.selfClosing h.tag
  unfold Machine.reportTag TagKind.endErrors
  rw [hkind, hempty, hself]
  cases o.kind with
  | opening => exact ⟨codes, htold, by rw [hcodes]; exact (List.append_nil _).symm⟩
  | closing =>
    have hfilter (added : List ErrorCode) (hadded : added.filter ErrorCode.concernsTags = added) :
        (codes ++ added).filter ErrorCode.concernsTags
          = List.replicate (dropped p.closed) .duplicateAttribute ++ added := by
      rw [List.filter_append, hcodes, hadded]
    generalize dropped p.closed = n at hfilter
    by_cases hattributes : p.closed = [] <;> cases o.selfClosing
    all_goals simp only [hattributes, decide_true, decide_false, if_true, if_false, Bool.false_eq_true]
    · exact ⟨_, hreset, (List.append_nil codes) ▸ hfilter [] rfl⟩
    · exact ⟨_, hreset.report _, hfilter [_] rfl⟩
    · exact ⟨_, hreset.report _, hfilter [_] rfl⟩
    · refine ⟨_, (hreset.report _).report _, ?_⟩
      rw [List.append_assoc]
      exact hfilter [_, _] rfl

/-- **At the end of a tag** it is queued. -/
theorem emitTag (h : m.At o p) :
    m.emitTag.TagRead o ⟨p.closed ++ p.current.toList, o.selfClosing⟩ := by
  obtain ⟨codes, ⟨errors, herrors, houtput⟩, hcodes⟩ := h.closeAttribute.told_reportTag
  refine ⟨codes, errors, herrors, hcodes, ?_, ?_, congrArg Course.state m.course_emitTag⟩
  · rw [Machine.emitTag, output_goto, output_emit, houtput, h.closeAttribute.tag]
    rfl
  · exact (text_goto _ _).trans (text_emit _ _)

/-- **At the end of the input** it is lost. -/
theorem stepEnd (h : m.At o p) (hstate : p.state.insideTag = true) : m.stepEnd.TagLost o := by
  have hend : m.stepEnd = (m.report .eofInTag).dropAttribute.goto .data := by
    rw [← h.state] at hstate
    unfold Machine.stepEnd
    cases hm : m.state <;> rw [hm] at hstate <;> first | rfl | cases hstate
  obtain ⟨codes, htold, -⟩ := h.told
  rw [hend]
  exact ⟨⟨_, (htold.report .eofInTag).congr (output_goto _ _)⟩,
    (text_goto _ _).trans (m.text_report .eofInTag), congrArg Course.state (course_goto _ _)⟩

end At

/-! ## (2) What becomes of a tag -/

namespace ReadsBody

variable {attributes : List Attribute} {body? : Option TagBody}

theorem of_leads (h : m.Leads k) (hk : k.ReadsBody o attributes body?) :
    m.ReadsBody o attributes body? := by
  obtain ⟨k', hleads, hread⟩ := hk
  exact ⟨k', h.trans hleads, hread⟩

theorem of_goes {q : Spot} (h : p.Goes q) (hm : m.At o p)
    (hq : ∀ k : Machine, k.At o q → k.ReadsBody o attributes body?) : m.ReadsBody o attributes body? := by
  obtain ⟨k, hleads, hk⟩ := h o m hm
  exact of_leads hleads (hq k hk)

/-- **The end of the input.** -/
theorem of_nil (h : m.At o p) (hrest : p.rest = []) (hstate : p.state.insideTag = true) :
    m.ReadsBody o attributes none :=
  ⟨_, Leads.single (step_of_end h.ended h.reference (h.pending.trans hrest) h.finished),
    h.stepEnd hstate⟩

/-- **The end of a tag.** -/
theorem of_emitTag {c : Char} {s : List Char} {selfClosing : Bool} (h : m.At o p) (hrest : p.rest = c :: s)
    (hchar : m.stepChar c = some k.emitTag) {q : Spot}
    (hk : k.At { o with selfClosing } q) :
    m.ReadsBody o (q.closed ++ q.current.toList) (some ⟨[], selfClosing⟩) := by
  refine ⟨_, Leads.single ((h.step_eq hrest).trans hchar), ?_⟩
  show k.emitTag.TagRead o ⟨q.closed ++ q.current.toList ++ [], selfClosing⟩
  rw [List.append_nil]
  exact hk.emitTag

end ReadsBody

end Machine

/-- **An attribute may begin**, or the tag end, in a state and in front of a text. -/
def State.Between (state : State) (rest : List Char) : Prop :=
  match state with
  | .beforeAttributeName | .afterAttributeValueQuoted => True
  | .afterAttributeName => (rest.dropWhile Ascii.isSpace).head? ≠ some '='
  | .attributeName =>
    (rest.dropWhile Ascii.isSpace).head? ≠ some '=' ∧ ∀ c ∈ rest.head?, endsTagName c = true
  | .attributeValue .unquoted => ∀ c ∈ rest.head?, endsValue .unquoted c = true
  | _ => False

theorem State.between_beforeAttributeName (rest : List Char) :
    State.Between .beforeAttributeName rest := trivial

namespace Machine

open Attribute

variable {o : TagStart} {state : State} {s : List Char} {closed : List Attribute}
  {current : Option Attribute} {m : Machine}

theorem insideTag_of_between {rest : List Char} (h : state.Between rest) : state.insideTag = true := by
  cases state <;> first | rfl | exact h.elim

/-- White space between attributes. -/
theorem goes_space {c : Char} (h : state.Between (c :: s)) (hc : Ascii.isSpace c = true) :
    ∃ next : State, next.Between s ∧
      Spot.Goes ⟨state, c :: s, closed, current⟩ ⟨next, s, closed, current⟩ := by
  have hdrop : (c :: s).dropWhile Ascii.isSpace = s.dropWhile Ascii.isSpace :=
    List.dropWhile_cons_of_pos hc
  cases state with
  | beforeAttributeName =>
    refine ⟨.beforeAttributeName, trivial, Spot.goes_of_stepChar rfl fun o m hm =>
      ⟨m.stepBeforeAttributeName c, by rw [stepChar, hm.state], ?_⟩⟩
    simp only [stepBeforeAttributeName, hc, if_true]
    exact hm.advance
  | attributeName =>
    have h' : (s.dropWhile Ascii.isSpace).head? ≠ some '=' := hdrop ▸ h.1
    refine ⟨.afterAttributeName, h', Spot.goes_of_stepChar rfl fun o m hm =>
      ⟨m.stepAttributeName c, by rw [stepChar, hm.state], ?_⟩⟩
    simp only [stepAttributeName, hc, if_true]
    exact hm.advance.goto _
  | afterAttributeName =>
    have h' : (s.dropWhile Ascii.isSpace).head? ≠ some '=' := hdrop ▸ h
    refine ⟨.afterAttributeName, h', Spot.goes_of_stepChar rfl fun o m hm =>
      ⟨m.stepAfterAttributeName c, by rw [stepChar, hm.state], ?_⟩⟩
    simp only [stepAfterAttributeName, hc, if_true]
    exact hm.advance
  | attributeValue kind =>
    cases kind with
    | unquoted =>
      refine ⟨.beforeAttributeName, trivial, Spot.goes_of_stepChar rfl fun o m hm =>
        ⟨m.stepAttributeValue .unquoted c, by rw [stepChar, hm.state], ?_⟩⟩
      simp only [stepAttributeValue, closesValue, hc]
      exact hm.advance.goto _
    | _ => exact h.elim
  | afterAttributeValueQuoted =>
    refine ⟨.beforeAttributeName, trivial, Spot.goes_of_stepChar rfl fun o m hm =>
      ⟨m.stepAfterAttributeValueQuoted c, by rw [stepChar, hm.state], ?_⟩⟩
    simp only [stepAfterAttributeValueQuoted, hc, if_true]
    exact hm.advance.goto _
  | _ => exact h.elim

/-- `/` between attributes. -/
theorem goes_solidus (h : state.Between ('/' :: s)) :
    Spot.Goes ⟨state, '/' :: s, closed, current⟩ ⟨.selfClosingStartTag, s, closed, current⟩ := by
  refine Spot.goes_of_stepChar rfl fun o m hm => ?_
  have hmoved : (m.advance.goto .selfClosingStartTag).At o ⟨.selfClosingStartTag, s, closed, current⟩ :=
    hm.advance.goto _
  refine ⟨_, ?_, hmoved⟩
  have hstate := hm.state
  cases state with
  | attributeValue kind =>
    cases kind with
    | unquoted => exact absurd (h '/' rfl) (by decide)
    | _ => exact h.elim
  | beforeAttributeName | attributeName | afterAttributeName | afterAttributeValueQuoted =>
    rw [stepChar, hstate]
    rfl
  | _ => exact h.elim

/-- `>` between attributes. -/
theorem stepChar_bracket (hm : m.At o ⟨state, '>' :: s, closed, current⟩) (h : state.Between ('>' :: s)) :
    m.stepChar '>' = some m.advance.emitTag := by
  have hstate := hm.state
  cases state with
  | attributeValue kind =>
    cases kind with
    | unquoted =>
      rw [stepChar, hstate]
      rfl
    | _ => exact h.elim
  | beforeAttributeName | attributeName | afterAttributeName | afterAttributeValueQuoted =>
    rw [stepChar, hstate]
    rfl
  | _ => exact h.elim

/-! ## (3) Attributes -/

theorem toLower_of_isOddInName {c : Char} (h : isOddInName c = true) : c.toLower = c := by
  simp only [isOddInName, Bool.or_eq_true, decide_eq_true_eq] at h
  rcases h with (rfl | rfl) | rfl <;> rfl

/-- **An attribute begins.** -/
theorem At.beginAttribute {rest : List Char} (hm : m.At o ⟨state, rest, closed, current⟩) (c : Char) :
    (m.beginAttribute c).At o ⟨.attributeName, rest, closed ++ current.toList,
      some { name := String.singleton (mend c).toLower }⟩ := by
  refine At.goto (p := ⟨state, rest, closed ++ current.toList,
    some { name := String.singleton (mend c).toLower }⟩) ?_ .attributeName
  split
  · rename_i hnull
    rw [mend, if_pos hnull]
    exact (hm.report rfl).openAttribute _
  · rename_i hnull
    rw [mend_of_ne hnull]
    split
    · rename_i hequals
      rw [hequals]
      exact (hm.report rfl).openAttribute '='
    · split
      · rename_i hodd
        rw [toLower_of_isOddInName hodd]
        exact (hm.report rfl).openAttribute c
      · exact hm.openAttribute _

/-- **The first character of an attribute.** -/
theorem goes_first {c : Char} (h : state.Between (c :: s)) (hc : endsTagName c = false) :
    Spot.Goes ⟨state, c :: s, closed, current⟩ ⟨.attributeName, s, closed ++ current.toList,
      some { name := String.singleton (mend c).toLower }⟩ := by
  obtain ⟨⟨hspace, hsolidus⟩, hbracket⟩ : (Ascii.isSpace c = false ∧ c ≠ '/') ∧ c ≠ '>' := by
    simpa [endsTagName] using hc
  have hbefore : Spot.Goes ⟨.beforeAttributeName, c :: s, closed, current⟩ ⟨.attributeName, s,
      closed ++ current.toList, some { name := String.singleton (mend c).toLower }⟩ := by
    refine Spot.goes_of_stepChar rfl fun o m hm =>
      ⟨m.stepBeforeAttributeName c, by rw [stepChar, hm.state], ?_⟩
    simp only [stepBeforeAttributeName, hspace, hsolidus, hbracket, if_false, Bool.false_eq_true]
    exact hm.advance.beginAttribute c
  cases state with
  | beforeAttributeName => exact hbefore
  | attributeName => exact absurd (h.2 c rfl) (by simp [hc])
  | afterAttributeName =>
    refine Spot.goes_of_stepChar rfl fun o m hm =>
      ⟨m.stepAfterAttributeName c, by rw [stepChar, hm.state], ?_⟩
    have hequals : c ≠ '=' := by
      rintro rfl
      exact h rfl
    simp only [stepAfterAttributeName, hspace, hsolidus, hbracket, hequals, if_false, Bool.false_eq_true]
    exact hm.advance.beginAttribute c
  | attributeValue kind =>
    cases kind with
    | unquoted => exact absurd (h c rfl) (by simp [endsValue, closesValue, hspace, hbracket])
    | _ => exact h.elim
  | afterAttributeValueQuoted =>
    refine Spot.Goes.trans (Spot.goes_of_stepChar rfl fun o m hm =>
      ⟨m.stepAfterAttributeValueQuoted c, by rw [stepChar, hm.state], ?_⟩) hbefore
    simp only [stepAfterAttributeValueQuoted, hspace, hsolidus, hbracket, if_false, Bool.false_eq_true]
    exact (hm.report rfl).goto _
  | _ => exact h.elim

variable {a : Attribute}

/-- **The name of an attribute** goes on up to a character that ends it. -/
theorem goes_name {name tail : List Char} (hname : ∀ c ∈ name, endsAttributeName c = false) :
    Spot.Goes ⟨.attributeName, name ++ tail, closed, some a⟩ ⟨.attributeName, tail, closed,
      some { a with name := a.name ++ String.ofList (name.map fun c => (mend c).toLower) }⟩ := by
  induction name generalizing a with
  | nil =>
    rw [List.map_nil, String.ofList_nil, String.append_empty]
    exact Spot.Goes.refl _
  | cons c name ih =>
    rw [List.forall_mem_cons] at hname
    have hfirst : Spot.Goes ⟨.attributeName, c :: (name ++ tail), closed, some a⟩
        ⟨.attributeName, name ++ tail, closed,
          some { a with name := a.name.push (mend c).toLower }⟩ := by
      refine Spot.goes_of_stepChar rfl fun o m hm =>
        ⟨m.stepAttributeName c, by rw [stepChar, hm.state], ?_⟩
      obtain ⟨⟨⟨hspace, hsolidus⟩, hbracket⟩, hequals⟩ :
          ((Ascii.isSpace c = false ∧ c ≠ '/') ∧ c ≠ '>') ∧ c ≠ '=' := by
        simpa [endsAttributeName, endsTagName] using hname.1
      have hput {k : Machine} (hk : k.At o ⟨.attributeName, name ++ tail, closed, some a⟩) (d : Char) :
          (k.putAttributeName d).At o
            ⟨.attributeName, name ++ tail, closed, some { a with name := a.name.push d }⟩ :=
        hk.mapAttribute fun a => { a with name := a.name.push d }
      simp only [stepAttributeName, hspace, hsolidus, hbracket, hequals, if_false, Bool.false_eq_true]
      split
      · rename_i hnull
        rw [mend, if_pos hnull]
        exact hput (hm.advance.report rfl) _
      · rename_i hnull
        rw [mend_of_ne hnull]
        split
        · rename_i hodd
          rw [toLower_of_isOddInName hodd]
          exact hput (hm.advance.report rfl) _
        · exact hput hm.advance _
    have hothers := @ih { a with name := a.name.push (mend c).toLower } hname.2
    rw [String.push_eq_append, String.append_assoc, ← String.ofList_cons,
      ← String.push_eq_append] at hothers
    exact hfirst.trans hothers

/-- **Behind the name** white space and `=` lead to the value. -/
theorem goes_equals {t : List Char} (hdrop : s.dropWhile Ascii.isSpace = '=' :: t) :
    Spot.Goes ⟨.attributeName, s, closed, current⟩ ⟨.beforeAttributeValue, t, closed, current⟩ := by
  have hafter (s : List Char) (hdrop : s.dropWhile Ascii.isSpace = '=' :: t) :
      Spot.Goes ⟨.afterAttributeName, s, closed, current⟩ ⟨.beforeAttributeValue, t, closed, current⟩ := by
    induction s with
    | nil => cases hdrop
    | cons c s ih =>
      by_cases hc : Ascii.isSpace c = true
      · rw [List.dropWhile_cons_of_pos hc] at hdrop
        refine Spot.Goes.trans (Spot.goes_of_stepChar rfl fun o m hm =>
          ⟨m.stepAfterAttributeName c, by rw [stepChar, hm.state], ?_⟩) (ih hdrop)
        simp only [stepAfterAttributeName, hc, if_true]
        exact hm.advance
      · rw [List.dropWhile_cons_of_neg hc] at hdrop
        obtain ⟨rfl, rfl⟩ := List.cons.inj hdrop
        exact Spot.goes_of_stepChar rfl fun o m hm =>
          ⟨m.stepAfterAttributeName '=', by rw [stepChar, hm.state], hm.advance.goto _⟩
  cases s with
  | nil => cases hdrop
  | cons c s =>
    by_cases hc : Ascii.isSpace c = true
    · rw [List.dropWhile_cons_of_pos hc] at hdrop
      refine Spot.Goes.trans (Spot.goes_of_stepChar rfl fun o m hm =>
        ⟨m.stepAttributeName c, by rw [stepChar, hm.state], ?_⟩) (hafter s hdrop)
      simp only [stepAttributeName, hc, if_true]
      exact hm.advance.goto _
    · rw [List.dropWhile_cons_of_neg hc] at hdrop
      obtain ⟨rfl, rfl⟩ := List.cons.inj hdrop
      exact Spot.goes_of_stepChar rfl fun o m hm =>
        ⟨m.stepAttributeName '=', by rw [stepChar, hm.state], hm.advance.goto _⟩

/-- **Behind `=`** white space is skipped. -/
theorem goes_beforeValue (s : List Char) : Spot.Goes ⟨.beforeAttributeValue, s, closed, current⟩
    ⟨.beforeAttributeValue, s.dropWhile Ascii.isSpace, closed, current⟩ := by
  induction s with
  | nil => exact Spot.Goes.refl _
  | cons c s ih =>
    by_cases hc : Ascii.isSpace c = true
    · rw [List.dropWhile_cons_of_pos hc]
      refine Spot.Goes.trans (Spot.goes_of_stepChar rfl fun o m hm =>
        ⟨m.stepBeforeAttributeValue c, by rw [stepChar, hm.state], ?_⟩) ih
      simp only [stepBeforeAttributeValue, hc, if_true]
      exact hm.advance
    · rw [List.dropWhile_cons_of_neg hc]
      exact Spot.Goes.refl _

/-- **A value begins.** -/
theorem goes_opening {c : Char} (hspace : Ascii.isSpace c = false) (hbracket : c ≠ '>') :
    Spot.Goes ⟨.beforeAttributeValue, c :: s, closed, current⟩
      ⟨.attributeValue (QuoteKind.ofChar c),
        if QuoteKind.ofChar c = .unquoted then c :: s else s, closed, current⟩ := by
  refine Spot.goes_of_stepChar rfl fun o m hm =>
    ⟨m.stepBeforeAttributeValue c, by rw [stepChar, hm.state], ?_⟩
  simp only [stepBeforeAttributeValue, hspace, hbracket, if_false, Bool.false_eq_true]
  unfold QuoteKind.ofChar
  split
  · exact hm.advance.goto _
  · split
    · exact hm.advance.goto _
    · exact hm.goto _

/-- **A quote ends a value.** -/
theorem goes_quote {kind : QuoteKind} {c : Char} (hc : closesValue kind c = true) :
    Spot.Goes ⟨.attributeValue kind, c :: s, closed, current⟩
      ⟨.afterAttributeValueQuoted, s, closed, current⟩ := by
  refine Spot.goes_of_stepChar rfl fun o m hm =>
    ⟨m.stepAttributeValue kind c, by rw [stepChar, hm.state], ?_⟩
  simp only [stepAttributeValue, hc, if_true]
  exact hm.advance.goto _

/-- A value up to what ends it. -/
theorem goes_span (kind : QuoteKind) (name : String) (text : List Char) :
    Spot.Goes ⟨.attributeValue kind, text, closed, some { name }⟩
      ⟨.attributeValue kind, text.dropWhile (!endsValue kind ·), closed,
        some ⟨name, String.ofList (Reference.decode (text.takeWhile (!endsValue kind ·)))⟩⟩ := by
  have hvalue := @Spot.goes_value kind (text.takeWhile (!endsValue kind ·))
    (text.dropWhile (!endsValue kind ·)) closed { name }
    (fun c hc => by simpa using List.mem_takeWhile_imp hc) (fun c hc => ?_)
  · rwa [List.takeWhile_append_dropWhile, String.empty_append] at hvalue
  · simpa using Reference.eq_false_of_mem_dropWhile hc

/-- **Behind an attribute** what becomes of the tag is what is scanned there. -/
def ReadsBehind (o : TagStart) (closed : List Attribute) (a : Attribute) (rest : List Char) : Prop :=
  ∀ (state : State) (k : Machine), state.Between rest → k.At o ⟨state, rest, closed, some a⟩ →
    k.ReadsBody o (closed ++ [a]) (TagBody.scan rest)

/-- **A value without quotes.** -/
theorem readsBody_unquoted {name : String}
    (hm : m.At o ⟨.attributeValue .unquoted, s, closed, some { name }⟩) {value : String}
    (hvalue : value = String.ofList (Reference.decode (s.takeWhile (!endsValue .unquoted ·))))
    (hnext : ReadsBehind o closed ⟨name, value⟩ (s.dropWhile (!endsValue .unquoted ·))) :
    m.ReadsBody o (closed ++ [⟨name, value⟩]) (TagBody.scan (s.dropWhile (!endsValue .unquoted ·))) := by
  subst hvalue
  refine ReadsBody.of_goes (goes_span .unquoted name s) hm fun k hk => hnext _ k (fun c hc => ?_) hk
  simpa using Reference.eq_false_of_mem_dropWhile hc

/-- **A value in quotes**, which may not be closed. -/
theorem readsBody_quoted {name : String} {kind : QuoteKind} (hkind : kind ≠ .unquoted)
    (hm : m.At o ⟨.attributeValue kind, s, closed, some { name }⟩) {value : String}
    (hvalue : value = String.ofList (Reference.decode (s.takeWhile (!endsValue kind ·))))
    (hnext : ReadsBehind o closed ⟨name, value⟩ (s.dropWhile (!endsValue kind ·)).tail) :
    m.ReadsBody o (closed ++ [⟨name, value⟩])
      (TagBody.scan (s.dropWhile (!endsValue kind ·)).tail) := by
  subst hvalue
  have hspan := @goes_span closed kind name s
  cases hrest : s.dropWhile (!endsValue kind ·) with
  | nil =>
    rw [hrest] at hspan
    rw [List.tail_nil, TagBody.scan_nil]
    exact ReadsBody.of_goes hspan hm fun k hk => ReadsBody.of_nil hk rfl rfl
  | cons q t =>
    have hcloses : closesValue kind q = true := by
      have hq : q ∈ (s.dropWhile (!endsValue kind ·)).head? := by
        rw [hrest]
        rfl
      simpa [endsValue, hkind] using Reference.eq_false_of_mem_dropWhile hq
    rw [hrest] at hspan hnext
    exact ReadsBody.of_goes (hspan.trans (goes_quote hcloses)) hm fun k hk =>
      hnext .afterAttributeValueQuoted k trivial hk

/-- **The value of an attribute**: what becomes of the tag is what does from behind the value on. -/
theorem readsBody_value {name : String} (hspace : ∀ c ∈ s.head?, Ascii.isSpace c = false)
    (hm : m.At o ⟨.beforeAttributeValue, s, closed, some { name }⟩) (ho : o.selfClosing = false)
    {value : String} (hvalue : value = String.ofList (Reference.decode (readValue s).1))
    (hnext : ReadsBehind o closed ⟨name, value⟩ (readValue s).2) :
    m.ReadsBody o (closed ++ [⟨name, value⟩]) (TagBody.scan (readValue s).2) := by
  cases s with
  | nil =>
    rw [readValue, TagBody.scan_nil]
    exact ReadsBody.of_nil hm rfl rfl
  | cons c s =>
    by_cases hbracket : c = '>'
    · -- the tag ends before the value
      subst hbracket hvalue
      have hread : readValue ('>' :: s) = ([], '>' :: s) := rfl
      have hkept : (m.advance.report .missingAttributeValue).At { o with selfClosing := false }
          ⟨.beforeAttributeValue, s, closed, some { name }⟩ := by
        rw [← ho]
        exact hm.advance.report rfl
      rw [hread, TagBody.scan_bracket]
      exact ReadsBody.of_emitTag hm rfl (by rw [stepChar, hm.state]; rfl) hkept
    · have hopened := @goes_opening s closed (some { name }) c (hspace c rfl) hbracket
      by_cases hunquoted : QuoteKind.ofChar c = .unquoted
      · rw [readValue_unquoted hunquoted] at hvalue hnext ⊢
        rw [hunquoted] at hopened
        exact ReadsBody.of_goes hopened hm fun k hk => readsBody_unquoted hk hvalue hnext
      · rw [readValue_quoted hunquoted] at hvalue hnext ⊢
        rw [if_neg hunquoted] at hopened
        exact ReadsBody.of_goes hopened hm fun k hk => readsBody_quoted hunquoted hk hvalue hnext

/-- **An attribute behind its first character**: what becomes of the tag is what does from behind the
attribute on. -/
theorem readsBody_attribute {c : Char} (hm : m.At o ⟨.attributeName, s, closed,
      some { name := String.singleton (mend c).toLower }⟩) (ho : o.selfClosing = false)
    (hnext : ReadsBehind o closed (read c s).1 (read c s).2) :
    m.ReadsBody o (closed ++ [(read c s).1]) (TagBody.scan (read c s).2) := by
  let taken := s.takeWhile (!endsAttributeName ·)
  let behind := s.dropWhile (!endsAttributeName ·)
  let name := String.ofList ((c :: taken).map fun c => (mend c).toLower)
  have hnamed : Spot.Goes ⟨.attributeName, s, closed, some { name := String.singleton (mend c).toLower }⟩
      ⟨.attributeName, behind, closed, some { name }⟩ := by
    have hgoes := @goes_name closed { name := String.singleton (mend c).toLower } taken behind
      fun d hd => by simpa using List.mem_takeWhile_imp hd
    rwa [List.takeWhile_append_dropWhile, ← String.ofList_cons] at hgoes
  by_cases hequals : ∃ t, behind.dropWhile Ascii.isSpace = '=' :: t
  · obtain ⟨t, ht⟩ := hequals
    have hread : read c s = (⟨name,
        String.ofList (Reference.decode (readValue (t.dropWhile Ascii.isSpace)).1)⟩,
          (readValue (t.dropWhile Ascii.isSpace)).2) := by
      unfold Attribute.read
      simp only
      rw [ht]
      rfl
    rw [hread] at hnext ⊢
    refine ReadsBody.of_goes (hnamed.trans ((goes_equals ht).trans (goes_beforeValue t))) hm fun k hk =>
      readsBody_value (fun d hd => Reference.eq_false_of_mem_dropWhile hd) hk ho rfl hnext
  · have hread : read c s = ({ name }, behind) := by
      unfold Attribute.read
      simp only
      split
      · rename_i t ht
        exact absurd ⟨t, ht⟩ hequals
      · rfl
    rw [hread] at hnext ⊢
    refine ReadsBody.of_goes hnamed hm fun k hk => hnext .attributeName k ⟨fun hhead => ?_, ?_⟩ hk
    · obtain ⟨t, ht⟩ := List.head?_eq_some_iff.mp hhead
      exact hequals ⟨t, ht⟩
    · intro d hd
      obtain ⟨t, ht⟩ := List.head?_eq_some_iff.mp hd
      have hends : endsTagName d = true ∨ d = '=' := by
        simpa [endsAttributeName, or_iff_not_imp_left] using Reference.eq_false_of_mem_dropWhile hd
      refine hends.resolve_right ?_
      rintro rfl
      have hbehind : behind = '=' :: t := ht
      exact hequals ⟨t, by rw [hbehind]; rfl⟩

/-! ## (4) Whole tags -/

/-- One attribute more in front. -/
theorem ReadsBody.cons {attributes : List Attribute} {body? : Option TagBody}
    (h : m.ReadsBody o (attributes ++ [a]) body?) :
    m.ReadsBody o attributes
      (body?.map fun body => { body with attributes := a :: body.attributes }) := by
  obtain ⟨k, hleads, hread⟩ := h
  refine ⟨k, hleads, ?_⟩
  cases body? with
  | none => exact hread
  | some body =>
    show k.TagRead o ⟨attributes ++ (a :: body.attributes), body.selfClosing⟩
    rw [List.append_cons]
    exact hread

/-- **Behind `/`.** -/
theorem readsBody_solidus (hm : m.At o ⟨.selfClosingStartTag, s, closed, current⟩)
    (hnext : ∀ k : Machine, k.At o ⟨.beforeAttributeName, s, closed, current⟩ →
      k.ReadsBody o (closed ++ current.toList) (TagBody.scan s)) :
    m.ReadsBody o (closed ++ current.toList) (TagBody.scan ('/' :: s)) := by
  cases s with
  | nil =>
    rw [TagBody.scan_solidus (by simp), TagBody.scan_nil]
    exact ReadsBody.of_nil hm rfl rfl
  | cons c s =>
    by_cases hbracket : c = '>'
    · subst hbracket
      rw [TagBody.scan_solidus_bracket]
      exact ReadsBody.of_emitTag hm rfl (by rw [stepChar, hm.state]; rfl) hm.advance.markSelfClosing
    · rw [TagBody.scan_solidus (by simpa using hbracket)]
      refine ReadsBody.of_goes (Spot.goes_of_stepChar rfl fun o m hm =>
        ⟨m.stepSelfClosingStartTag c, by rw [stepChar, hm.state], ?_⟩) hm hnext
      simp only [stepSelfClosingStartTag, hbracket, if_false]
      exact (hm.report rfl).goto _

/-- **What is read is what is scanned.** -/
theorem readsBody (h : state.Between s) (hm : m.At o ⟨state, s, closed, current⟩)
    (ho : o.selfClosing = false) : m.ReadsBody o (closed ++ current.toList) (TagBody.scan s) := by
  -- an attribute takes several characters at once
  induction hlength : s.length using Nat.strong_induction_on generalizing state s closed current m with
  | _ n ih =>
    cases s with
    | nil =>
      rw [TagBody.scan_nil]
      exact ReadsBody.of_nil hm rfl (insideTag_of_between h)
    | cons c s =>
      have hshorter : s.length < n := by
        rw [← hlength]
        exact Nat.lt_succ_self _
      by_cases hbracket : c = '>'
      · subst hbracket
        have hkept : m.advance.At { o with selfClosing := false } ⟨state, s, closed, current⟩ := by
          rw [← ho]
          exact hm.advance
        rw [TagBody.scan_bracket]
        exact ReadsBody.of_emitTag hm rfl (stepChar_bracket hm h) hkept
      by_cases hsolidus : c = '/'
      · subst hsolidus
        exact ReadsBody.of_goes (goes_solidus h) hm fun k hk => readsBody_solidus hk fun k' hk' =>
          ih _ hshorter (State.between_beforeAttributeName s) hk' rfl
      by_cases hspace : Ascii.isSpace c = true
      · obtain ⟨next, hnext, hgoes⟩ := @goes_space state s closed current c h hspace
        rw [TagBody.scan_space hspace]
        exact ReadsBody.of_goes hgoes hm fun k hk => ih _ hshorter hnext hk rfl
      · have hc : endsTagName c = false := by simp [endsTagName, hbracket, hsolidus, hspace]
        rw [TagBody.scan_attribute hc]
        refine ReadsBody.cons (ReadsBody.of_goes (goes_first h hc) hm fun k hk =>
          readsBody_attribute hk ho fun state k' hstate hk' => ?_)
        have hless := (Attribute.length_read_le c s).trans_lt hshorter
        exact ih _ hless hstate hk' rfl

end Machine

end HtmlStream

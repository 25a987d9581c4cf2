import HtmlStream.Proofs.Clean.Texts
import HtmlStream.Proofs.Machine.Emission

/-! # Clean machines

Everything the machine has under construction is free of U+0000 and, where it is a name, normalised, and
so is everything it has queued. A U+0000 in text is queued as a token of its own behind its report; no
other token can be told to have met one. Each action keeps a machine clean if what it adds is.

* **`Token.Clean`**, **`CleanQueue`**: tokens and queues with nothing in them that should not be.
* **`Clean`**: machines. The name of the tag under construction is a name only between the step that
  opens the tag and the one that queues it, so that it is asked for by a flag.
* **`Clean.report`**, **`Clean.emitTag`**, …: what actions ask for and keep. -/

namespace HtmlStream

/-! ## (1) Tokens -/

/-- **A clean attribute.** -/
structure Attribute.Clean (a : Attribute) : Prop where
  /-- The name is one. -/
  name : IsAttributeName a.name
  /-- The value has no U+0000. -/
  value : NullFree a.value

/-- **Clean attributes** of a tag, of which no two have one name. -/
structure CleanAttributes (attributes : List Attribute) : Prop where
  /-- Each is clean. -/
  clean : ∀ a ∈ attributes, a.Clean
  /-- Their names differ. -/
  distinct : (attributes.map Attribute.name).Nodup

theorem cleanAttributes_nil : CleanAttributes [] := ⟨by simp, by simp⟩

/-- An attribute of a new name is added. -/
theorem CleanAttributes.concat {attributes : List Attribute} (h : CleanAttributes attributes)
    {a : Attribute} (ha : a.Clean) (hnew : ∀ b ∈ attributes, b.name ≠ a.name) :
    CleanAttributes (attributes ++ [a]) where
  clean := by
    intro b hb
    rcases List.mem_append.mp hb with hb | hb
    · exact h.clean b hb
    · rw [List.mem_singleton.mp hb]
      exact ha
  distinct := by
    rw [List.map_append, List.nodup_append]
    refine ⟨h.distinct, by simp, ?_⟩
    intro name hname other hother heq
    obtain ⟨b, hb, rfl⟩ := List.mem_map.mp hname
    rw [List.map_singleton, List.mem_singleton] at hother
    exact hnew b hb (heq.trans hother)

/-- **A clean document type.** -/
structure Doctype.Clean (d : Doctype) : Prop where
  /-- The characters of the name. -/
  name : ∀ c ∈ (d.name.getD "").toList, isDoctypeNameChar c = true
  /-- The public identifier has no U+0000. -/
  publicId : NullFree (d.publicId.getD "")
  /-- Neither has the system identifier. -/
  systemId : NullFree (d.systemId.getD "")

theorem cleanDoctype_empty : Doctype.Clean {} := ⟨by simp, nullFree_empty, nullFree_empty⟩

/-- **A clean token**: one that nobody can tell from it that a U+0000 was met. -/
def Token.Clean : Token → Prop
  | .doctype d => d.Clean
  | .tag t => IsTagName t.name ∧ CleanAttributes t.attributes.toList
  | .comment text | .characters text => NullFree text
  | .nullCharacter => False
  | .endOfInput | .error .. => True

/-- **A clean queue** with `n` tokens for a U+0000 in it, each right behind its report. -/
inductive CleanQueue : Nat → List Token → Prop
  /-- Nothing is queued. -/
  | nil : CleanQueue 0 []
  /-- A clean token. -/
  | token {n : Nat} {q : List Token} {t : Token} (h : CleanQueue n q) (ht : t.Clean) :
    CleanQueue n (q ++ [t])
  /-- The report of a U+0000 and the token for it. -/
  | null {n : Nat} {q : List Token} {e : ParseError} {state : State} (h : CleanQueue n q)
    (he : e.code = .unexpectedNullCharacter) :
    CleanQueue (n + 1) (q ++ [.error e state, .nullCharacter])

/-! ## (2) Machines -/

/-- **A clean machine** that has queued `n` tokens for a U+0000; `named` says that the tag under
construction has its name. -/
structure Machine.Clean (n : Nat) (named : Bool) (m : Machine) : Prop where
  /-- The queue. -/
  queue : CleanQueue n m.queue.toList
  /-- The text held back. -/
  text : NullFree m.text
  /-- The reference under construction. -/
  reference : ∀ r, m.reference = some r → NullFree r.raw
  /-- The name of the tag. -/
  name : named = true → IsTagName m.tag.name
  /-- The attributes of the tag. -/
  attributes : CleanAttributes m.tag.attributes.toList
  /-- The attribute under construction. -/
  current : ∀ a, m.currentAttribute = some a → a.Clean
  /-- The comment under construction. -/
  comment : NullFree m.comment
  /-- The document type under construction. -/
  doctype : m.doctype.Clean
  /-- The letters of a possible end tag. -/
  letters : NullFree m.letters

namespace Machine

variable {n : Nat} {named : Bool} {m : Machine}

theorem clean_start (config : Config) : (start config).Clean 0 false where
  queue := CleanQueue.nil
  text := nullFree_empty
  reference := by simp [start]
  name := by simp
  attributes := cleanAttributes_nil
  current := by simp [start]
  comment := nullFree_empty
  doctype := cleanDoctype_empty
  letters := nullFree_empty

namespace Clean

/-! ### Moving -/

/-- Nobody has to know of the name. -/
theorem anonymous (h : m.Clean n named) : m.Clean n false := { h with name := by simp }

/-- A machine that is clean with the name of its tag is clean anyway. -/
theorem of_named (h : m.Clean n true) : m.Clean n named := { h with name := fun _ => h.name rfl }

theorem goto (h : m.Clean n named) (next : State) : (m.goto next).Clean n named := by
  unfold Machine.goto
  split
  · exact h
  · exact { h with }

theorem advance (h : m.Clean n named) : m.advance.Clean n named := { h with }

theorem skip (h : m.Clean n named) (count : Nat) : (m.skip count).Clean n named := { h with }

/-! ### Text and tokens -/

theorem putChar (h : m.Clean n named) {c : Char} (hc : c ≠ '\x00') : (m.putChar c).Clean n named :=
  { h with text := h.text.push hc }

theorem putText (h : m.Clean n named) {s : String} (hs : NullFree s) :
    (m.putText s).Clean n named :=
  { h with text := h.text.append hs }

/-- What queueing a token changes. -/
theorem emit_eq (m : Machine) (t : Token) :
    m.emit t = { m with text := "", queue := (m.emit t).queue, tokens := (m.emit t).tokens } := by
  unfold Machine.emit flush
  split
  · rename_i htext
    have hempty : m.text = "" := by simpa using htext
    rw [enqueue, ← hempty]
  · rfl

/-- The text held back is queued in front of what follows it. -/
theorem queue_heldBack (h : m.Clean n named) : CleanQueue n (m.queue.toList ++ m.heldBack) := by
  unfold heldBack textTokens
  split
  · rw [List.append_nil]
    exact h.queue
  · exact h.queue.token h.text

theorem emit_of_queue (h : m.Clean n named) {n' : Nat} {t : Token}
    (hqueue : CleanQueue n' (m.emit t).queue.toList) : (m.emit t).Clean n' named := by
  rw [emit_eq]
  exact { h with queue := hqueue, text := nullFree_empty }

theorem emit (h : m.Clean n named) {t : Token} (ht : t.Clean) : (m.emit t).Clean n named := by
  refine h.emit_of_queue ?_
  rw [toList_queue_emit, ← List.append_assoc]
  exact h.queue_heldBack.token ht

theorem report (h : m.Clean n named) (code : ErrorCode) : (m.report code).Clean n named :=
  Clean.emit (m := { m with errors := m.errors + 1 }) { h with } trivial

/-- **A U+0000 in text** is queued behind its report. -/
theorem emitNull (h : m.Clean n named) :
    ((m.report .unexpectedNullCharacter).emit .nullCharacter).Clean (n + 1) named := by
  refine (h.report .unexpectedNullCharacter).emit_of_queue ?_
  -- no text is held back between the two
  have htext : (m.report .unexpectedNullCharacter).text = "" := by
    rw [Machine.report, emit_eq]
  have hheld : (m.report .unexpectedNullCharacter).heldBack = [] := by
    rw [heldBack, htext]
    rfl
  rw [toList_queue_emit, hheld, Machine.report, toList_queue_emit, List.nil_append,
    ← List.append_assoc, List.append_assoc]
  exact (queue_heldBack h).null rfl

theorem emitEnd (h : m.Clean n named) : m.emitEnd.Clean n named :=
  { h.emit (t := .endOfInput) trivial with }

/-! ### Tags -/

theorem openTag (h : m.Clean n named) (kind : TagKind) {c : Char} (hc : c.isAlpha = true) :
    (m.openTag kind c.toLower).Clean n true :=
  { h with
    name := fun _ => isTagName_singleton (by rw [Char.isLower_toLower_eq_isAlpha, hc])
    attributes := cleanAttributes_nil
    current := by simp [Machine.openTag] }

theorem putTagName (h : m.Clean n true) {c : Char} (hc : isNameChar c = true) :
    (m.putTagName c).Clean n true :=
  { h with name := fun _ => (h.name rfl).push hc }

theorem dropAttribute (h : m.Clean n named) : m.dropAttribute.Clean n named :=
  { h with current := by simp [Machine.dropAttribute] }

/-- Of two attributes of one name the first is kept. -/
theorem closeAttribute (h : m.Clean n named) : m.closeAttribute.Clean n named := by
  unfold Machine.closeAttribute
  split
  · exact h
  · rename_i a ha
    split
    · exact h.dropAttribute.report _
    · rename_i hnew
      refine { h.dropAttribute with attributes := ?_ }
      show CleanAttributes (m.tag.attributes.push a).toList
      rw [Array.toList_push]
      refine h.attributes.concat (h.current a ha) ?_
      intro b hb heq
      exact hnew (Array.any_eq_true'.mpr ⟨b, by simpa using hb, by simpa using heq⟩)

theorem openAttribute (h : m.Clean n named) {c : Char} (hc : isNameChar c = true) :
    (m.openAttribute c).Clean n named := by
  refine { h.closeAttribute with current := ?_ }
  intro a ha
  cases ha
  exact ⟨isAttributeName_singleton hc, nullFree_empty⟩

/-- What keeps the attribute under construction clean. -/
theorem mapAttribute (h : m.Clean n named) {f : Attribute → Attribute}
    (hf : ∀ a, a.Clean → (f a).Clean) :
    { m with currentAttribute := m.currentAttribute.map f }.Clean n named := by
  refine { h with current := ?_ }
  intro b hb
  obtain ⟨a, ha, rfl⟩ := Option.map_eq_some_iff.mp hb
  exact hf a (h.current a ha)

theorem putAttributeName (h : m.Clean n named) {c : Char} (hc : isNameChar c = true)
    (heq : c ≠ '=') : (m.putAttributeName c).Clean n named :=
  h.mapAttribute fun _ ha => ⟨ha.name.push hc heq, ha.value⟩

theorem putAttributeValue (h : m.Clean n named) {c : Char} (hc : c ≠ '\x00') :
    (m.putAttributeValue c).Clean n named :=
  h.mapAttribute fun _ ha => ⟨ha.name, ha.value.push hc⟩

theorem putAttributeText (h : m.Clean n named) {s : String} (hs : NullFree s) :
    (m.putAttributeText s).Clean n named :=
  h.mapAttribute fun _ ha => ⟨ha.name, ha.value.append hs⟩

theorem markSelfClosing (h : m.Clean n named) : m.markSelfClosing.Clean n named := { h with }

theorem resetTag (h : m.Clean n named) : m.resetTag.Clean n false :=
  { h with name := by simp, attributes := cleanAttributes_nil }

theorem reportTag (h : m.Clean n named) (t : Tag) : (m.reportTag t).Clean n named := by
  unfold Machine.reportTag
  cases t.kind with
  | opening => exact { h with }
  | closing =>
    have hattributes : (if t.attributes.isEmpty then m
        else m.report .endTagWithAttributes).Clean n named := by
      split
      · exact h
      · exact h.report _
    show (if t.selfClosing then _ else _ : Machine).Clean n named
    split
    · exact hattributes.report _
    · exact hattributes

/-- **A tag that is queued** has its name and distinct attributes. -/
theorem emitTag (h : m.Clean n true) : m.emitTag.Clean n false := by
  have hclosed := h.closeAttribute
  exact ((hclosed.resetTag.reportTag _).emit (t := .tag m.closeAttribute.tag)
    ⟨hclosed.name rfl, hclosed.attributes⟩).goto .data

theorem putLetter (h : m.Clean n named) {c : Char} (hc : c ≠ '\x00') :
    (m.putLetter c).Clean n named :=
  { h with letters := h.letters.push hc }

theorem clearLetters (h : m.Clean n named) : m.clearLetters.Clean n named :=
  { h with letters := nullFree_empty }

/-! ### Comments and document types -/

theorem putComment (h : m.Clean n named) {c : Char} (hc : c ≠ '\x00') :
    (m.putComment c).Clean n named :=
  { h with comment := h.comment.push hc }

theorem putCommentText (h : m.Clean n named) {s : String} (hs : NullFree s) :
    (m.putCommentText s).Clean n named :=
  { h with comment := h.comment.append hs }

theorem openComment (h : m.Clean n named) {s : String} (hs : NullFree s) :
    (m.openComment s).Clean n named :=
  { h with comment := hs }

theorem emitComment (h : m.Clean n named) : m.emitComment.Clean n named :=
  ((h.openComment nullFree_empty).emit (t := .comment m.comment) h.comment).goto .data

theorem putDoctypeName (h : m.Clean n named) {c : Char} (hc : isDoctypeNameChar c = true) :
    (m.putDoctypeName c).Clean n named := by
  refine { h with doctype := { h.doctype with name := ?_ } }
  intro d hd
  have hpush : d ∈ ((m.doctype.name.getD "").push c).toList := hd
  rw [String.toList_push, List.mem_append, List.mem_singleton] at hpush
  rcases hpush with hd | rfl
  · exact h.doctype.name d hd
  · exact hc

theorem openIdentifier (h : m.Clean n named) (kind : IdentifierKind) :
    (m.openIdentifier kind).Clean n named := by
  cases kind with
  | publicId => exact { h with doctype := { h.doctype with publicId := nullFree_empty } }
  | systemId => exact { h with doctype := { h.doctype with systemId := nullFree_empty } }

theorem putIdentifier (h : m.Clean n named) {c : Char} (hc : c ≠ '\x00') (kind : IdentifierKind) :
    (m.putIdentifier c kind).Clean n named := by
  cases kind with
  | publicId =>
    exact { h with doctype := { h.doctype with publicId := h.doctype.publicId.push hc } }
  | systemId =>
    exact { h with doctype := { h.doctype with systemId := h.doctype.systemId.push hc } }

theorem resetDoctype (h : m.Clean n named) : m.resetDoctype.Clean n named :=
  { h with doctype := cleanDoctype_empty }

theorem forceQuirks (h : m.Clean n named) : m.forceQuirks.Clean n named :=
  { h with doctype := { h.doctype with } }

theorem emitDoctype (h : m.Clean n named) : m.emitDoctype.Clean n named :=
  (h.resetDoctype.emit (t := .doctype m.doctype) h.doctype).goto .data

/-! ### References -/

theorem beginReference (h : m.Clean n named) : m.beginReference.Clean n named := by
  refine { h with reference := ?_ }
  intro r hr
  cases hr
  exact nullFree_empty

theorem keepReference (h : m.Clean n named) {r : Reference} (hr : NullFree r.raw) :
    (m.keepReference r).Clean n named := by
  refine { h with reference := ?_ }
  intro r' hr'
  cases hr'
  exact hr

theorem closeReference (h : m.Clean n named) (r : Reference) {s : String} (hs : NullFree s) :
    (m.closeReference r s).Clean n named := by
  have hclosed : { m with reference := none }.Clean n named := { h with reference := by simp }
  unfold Machine.closeReference
  show (if r.inAttribute then _ else _ : Machine).Clean n named
  split
  · exact hclosed.putAttributeText hs
  · exact hclosed.putText hs

theorem reportNumber (h : m.Clean n named) (number : Nat) : (m.reportNumber number).Clean n named := by
  unfold Machine.reportNumber
  split
  · exact h.report _
  · exact h.report _
  · exact h.report _
  · exact h.report _
  · exact h.report _
  · exact h

end Clean

end Machine

end HtmlStream

import HtmlStream.Proofs.Machine.Emission

/-! # Poses

What a machine has in its hands: its place in the markup, the characters it has yet to read, the tokens
it has queued and those under construction. Counters and what is remembered between tags are left out,
so that a pose between two tokens is given by what is behind it and what is in front of it.

* **`Pose`** and **`Machine.pose`**.
* **`pose_goto`, `pose_emit`, …**: what each action does to the pose.
* **`Pose.Leads`**: every machine in one pose leads to one in another.
* **`leads_of_stepChar`**, **`leads_goto`**, **`leads_of_stepReference`**: how a single step leads.
* **`leads_letters`**: how steps that read one letter each lead. -/

namespace HtmlStream

/-- What a machine has in its hands. -/
structure Pose where
  /-- Its place in the markup. -/
  state : State
  /-- The characters it has yet to read. -/
  rest : List Char
  /-- The tokens queued. -/
  done : List Token
  /-- The text held back. -/
  held : String
  /-- The character reference under construction. -/
  reference : Option Reference := none
  /-- The tag under construction. -/
  tag : Tag := { kind := .opening }
  /-- The attribute under construction. -/
  current : Option Attribute := none
  /-- The comment under construction. -/
  comment : String := ""
  /-- The document type under construction. -/
  doctype : Doctype := {}
  /-- Errors queued. -/
  errors : Nat := 0

/-- The tag with its last attribute. -/
def Tag.add (t : Tag) : Option Attribute → Tag
  | none => t
  | some a => { t with attributes := t.attributes.push a }

namespace Machine

/-- The pose of a machine. -/
def pose (m : Machine) : Pose where
  state := m.state
  rest := m.input.pending
  done := m.queue.toList
  held := m.text
  reference := m.reference
  tag := m.tag
  current := m.currentAttribute
  comment := m.comment
  doctype := m.doctype
  errors := m.errors

variable (m : Machine)

/-! ## (1) Moving, text and tokens -/

@[simp] theorem pose_goto (next : State) : (m.goto next).pose = { m.pose with state := next } := by
  unfold goto
  split
  · rename_i h
    rw [← h]
    rfl
  · rfl

@[simp] theorem pose_advance : m.advance.pose = { m.pose with rest := m.pose.rest.tail } := rfl

@[simp] theorem pose_skip (n : Nat) :
    (m.skip n).pose = { m.pose with rest := m.pose.rest.drop n } := rfl

@[simp] theorem pose_putChar (c : Char) :
    (m.putChar c).pose = { m.pose with held := m.pose.held.push c } := rfl

@[simp] theorem pose_putText (t : String) :
    (m.putText t).pose = { m.pose with held := m.pose.held ++ t } := rfl

/-- **A token that is not text** is queued behind the text held back. -/
@[simp] theorem pose_emit (t : Token) :
    (m.emit t).pose
      = { m.pose with done := m.pose.done ++ (textTokens m.pose.held ++ [t]), held := "" } := by
  have hqueue := m.toList_queue_emit t
  unfold emit flush at hqueue ⊢
  by_cases h : m.text = ""
  · rw [if_pos (by simp [h])] at hqueue ⊢
    simp only [pose, enqueue, Pose.mk.injEq, true_and, and_true]
    exact ⟨hqueue, h⟩
  · rw [if_neg (by simpa using h)] at hqueue ⊢
    simp only [pose, enqueue, Pose.mk.injEq, true_and, and_true]
    exact hqueue

/-! ## (2) Tags -/

@[simp] theorem pose_openTag (kind : TagKind) (c : Char) :
    (m.openTag kind c).pose
      = { m.pose with tag := { kind, name := String.singleton c }, current := none } := rfl

@[simp] theorem pose_putTagName (c : Char) :
    (m.putTagName c).pose
      = { m.pose with tag := { m.pose.tag with name := m.pose.tag.name.push c } } := rfl

/-- **An attribute with a new name** is added to the tag. -/
theorem pose_closeAttribute
    (h : ∀ a ∈ m.pose.current, a.name ∉ m.pose.tag.attributes.toList.map (·.name)) :
    m.closeAttribute.pose
      = { m.pose with tag := m.pose.tag.add m.pose.current, current := none } := by
  unfold closeAttribute
  cases hattribute : m.currentAttribute with
  | none =>
    simp [pose, hattribute, Tag.add]
  | some a =>
    have hnew := h a hattribute
    have hany : ¬m.tag.attributes.any (·.name == a.name) = true := by
      intro hany
      obtain ⟨b, hb, hname⟩ := Array.any_eq_true'.mp hany
      exact hnew (List.mem_map.mpr ⟨b, Array.mem_toList_iff.mpr hb, beq_iff_eq.mp hname⟩)
    simp [hany, pose, hattribute, Tag.add, dropAttribute]

@[simp] theorem pose_putAttributeName (c : Char) :
    (m.putAttributeName c).pose
      = { m.pose with
          current := m.pose.current.map fun a => { a with name := a.name.push c } } := rfl

@[simp] theorem pose_putAttributeValue (c : Char) :
    (m.putAttributeValue c).pose
      = { m.pose with
          current := m.pose.current.map fun a => { a with value := a.value.push c } } := rfl

@[simp] theorem pose_putAttributeText (t : String) :
    (m.putAttributeText t).pose
      = { m.pose with
          current := m.pose.current.map fun a => { a with value := a.value ++ t } } := rfl

@[simp] theorem pose_markSelfClosing :
    m.markSelfClosing.pose = { m.pose with tag := { m.pose.tag with selfClosing := true } } := rfl

/-! ## (3) Comments and document types -/

@[simp] theorem pose_putComment (c : Char) :
    (m.putComment c).pose = { m.pose with comment := m.pose.comment.push c } := rfl

@[simp] theorem pose_putCommentText (t : String) :
    (m.putCommentText t).pose = { m.pose with comment := m.pose.comment ++ t } := rfl

@[simp] theorem pose_openComment (t : String) :
    (m.openComment t).pose = { m.pose with comment := t } := rfl

@[simp] theorem pose_putDoctypeName (c : Char) :
    (m.putDoctypeName c).pose
      = { m.pose with
          doctype := { m.pose.doctype with
            name := some ((m.pose.doctype.name.getD "").push c) } } := rfl

@[simp] theorem pose_resetDoctype : m.resetDoctype.pose = { m.pose with doctype := {} } := rfl

/-! ## (4) Character references -/

@[simp] theorem pose_beginReference :
    m.beginReference.pose
      = { m.pose with
          reference := some { inAttribute := m.pose.state.isAttributeValue } } := rfl

@[simp] theorem pose_keepReference (r : Reference) :
    (m.keepReference r).pose = { m.pose with reference := some r } := rfl

end Machine

/-! ## (5) From pose to pose -/

namespace Pose

/-- **One pose leads to another**: every machine in the first that has not ended leads to one in the
second. -/
def Leads (p q : Pose) : Prop :=
  ∀ m : Machine, m.ended = false → m.pose = p → ∃ k, m.Leads k ∧ k.ended = false ∧ k.pose = q

variable {p q r : Pose}

theorem Leads.refl (p : Pose) : p.Leads p := by
  intro m hended hm
  exact ⟨m, Relation.ReflTransGen.refl, hended, hm⟩

theorem Leads.trans (h : p.Leads q) (h' : q.Leads r) : p.Leads r := by
  intro m hended hm
  obtain ⟨k, hk, hended, hpose⟩ := h m hended hm
  obtain ⟨k', hk', hended, hpose⟩ := h' k hended hpose
  exact ⟨k', hk.trans hk', hended, hpose⟩

instance : Trans Leads Leads Leads := ⟨Leads.trans⟩

/-- **A step in a state** leads from pose to pose. -/
theorem leads_of_stepChar {c : Char} {cs : List Char} (hreference : p.reference = none)
    (hrest : p.rest = c :: cs)
    (h : ∀ m : Machine, m.state = p.state → m.pose = p → ∃ k, m.stepChar c = some k ∧ k.pose = q) :
    p.Leads q := by
  intro m hended hm
  obtain ⟨k, hchar, hk⟩ := h m (congrArg state hm) hm
  have hstep : Machine.step .byChar m = some k := by
    rw [Machine.step_of_char hended ((congrArg reference hm).trans hreference)
      ((congrArg rest hm).trans hrest), Machine.stepAt_byChar, hchar]
  -- only a step at the end of the input ends a machine
  refine ⟨k, Machine.Leads.single hstep, ?_, hk⟩
  rw [(Machine.adds_stepChar m c hchar).1, hended]

/-- A step that reads a character and goes to another state. -/
theorem leads_goto {c : Char} {cs : List Char} {next : State} (hreference : p.reference = none)
    (hrest : p.rest = c :: cs)
    (h : ∀ m : Machine, m.state = p.state → m.stepChar c = some (m.advance.goto next)) :
    p.Leads { p with state := next, rest := cs } := by
  refine leads_of_stepChar hreference hrest ?_
  intro m hm hpose
  refine ⟨m.advance.goto next, h m hm, ?_⟩
  rw [Machine.pose_goto, Machine.pose_advance, hpose, hrest, List.tail_cons]

/-- **A step of a reference** leads from pose to pose. -/
theorem leads_of_stepReference {ref : Reference} {c : Char} {cs : List Char}
    (hreference : p.reference = some ref) (hrest : p.rest = c :: cs)
    (h : ∀ m : Machine, m.pose = p → (m.stepReference ref (some c)).pose = q) : p.Leads q := by
  intro m hended hm
  have hstep : Machine.step .byChar m = some (m.stepReference ref (some c)) := by
    have hpending : m.input.pending = c :: cs := (congrArg rest hm).trans hrest
    have href : m.reference = some ref := (congrArg reference hm).trans hreference
    rw [Machine.step, if_neg (by simp [hended]), href, hpending]
  refine ⟨m.stepReference ref (some c), Machine.Leads.single hstep, ?_, h m hm⟩
  rw [(Machine.adds_stepReference m ref (some c)).1, hended]

/-- **Letters that are read one by one** are read in a row: `f rest s` is the pose in front of `rest`
in which `s` has been read. -/
theorem leads_letters {f : List Char → String → Pose} {isLetter : Char → Bool}
    (hletter : ∀ c cs s, isLetter c = true → (f (c :: cs) s).Leads (f cs (s.push c)))
    {letters : List Char} (h : ∀ c ∈ letters, isLetter c = true) (cs : List Char) (s : String) :
    (f (letters ++ cs) s).Leads (f cs (s ++ String.ofList letters)) := by
  induction letters generalizing s with
  | nil =>
    rw [List.nil_append, String.ofList_nil, String.append_empty]
    exact Leads.refl _
  | cons c letters ih =>
    rw [List.forall_mem_cons] at h
    have hothers := ih h.2 (s.push c)
    -- `s.push c` with the others behind it is `s` with all the letters behind it
    rw [String.push_eq_append, String.append_assoc, ← String.ofList_cons,
      ← String.push_eq_append] at hothers
    exact (hletter c (letters ++ cs) s h.1).trans hothers

end Pose

end HtmlStream

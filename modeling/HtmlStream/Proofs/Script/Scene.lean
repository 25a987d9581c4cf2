import HtmlStream.Proofs.Chunking
import HtmlStream.Proofs.Script.Standard

/-! # Machines and readers in script data

What a machine has in its hands in script data is a scene, and so is what a reader of the standard has
seen. A machine follows a reader that reads if both are in one scene, and agrees with one that has
stopped if it is where the reader's outcome puts it.

* **`Place.state`**: the state of the machine for each state of the standard.
* **`Machine.scene`** and **`Reader.scene`**, with one equation for each action.
* **`Follows`**, **`Agrees`** and **`Matches`**. -/

namespace HtmlStream

open Script

/-! ## (1) Scenes -/

/-- The state of the machine for a state of the standard. -/
def Script.Place.state : Place → State
  | .data => .rawData .scriptData
  | .lessThanSign => .rawLessThanSign .scriptData
  | .endTagOpen => .rawEndTagOpen .scriptData
  | .endTagName => .rawEndTagName .scriptData
  | .escapeStart => .scriptDataEscapeStart .escaped
  | .escapeStartDash => .scriptDataEscapeStartDash
  | .escaped => .rawData (.scriptDataEscaped .escaped)
  | .escapedDash => .scriptDataEscapedDash .escaped
  | .escapedDashDash => .scriptDataEscapedDashDash .escaped
  | .escapedLessThanSign => .rawLessThanSign (.scriptDataEscaped .escaped)
  | .escapedEndTagOpen => .rawEndTagOpen (.scriptDataEscaped .escaped)
  | .escapedEndTagName => .rawEndTagName (.scriptDataEscaped .escaped)
  | .doubleEscapeStart => .scriptDataEscapeStart .doubleEscaped
  | .doubleEscaped => .rawData (.scriptDataEscaped .doubleEscaped)
  | .doubleEscapedDash => .scriptDataEscapedDash .doubleEscaped
  | .doubleEscapedDashDash => .scriptDataEscapedDashDash .doubleEscaped
  | .doubleEscapedLessThanSign => .rawLessThanSign (.scriptDataEscaped .doubleEscaped)
  | .doubleEscapeEnd => .scriptDataDoubleEscapeEnd

/-- The end tag of a name. -/
def Script.endTagOf (name : String) : Tag := { kind := .closing, name }

/-- What a machine has in its hands while it is in script data. -/
structure Scene where
  /-- Its place in the markup. -/
  state : State
  /-- The characters it has yet to read. -/
  rest : List Char
  /-- Characters read. -/
  consumed : Nat
  /-- The tokens queued. -/
  queued : List Token
  /-- The text held back. -/
  held : String
  /-- The letters of a possible end tag, or of a possible `script`. -/
  letters : String
  /-- The tag under construction. -/
  tag : Tag
  /-- The attribute under construction. -/
  current : Option Attribute := none
  /-- The character reference under construction. -/
  reference : Option Reference := none
  /-- The name of the last start tag. -/
  last : Option String
  /-- No more bytes will come. -/
  finished : Bool := true
  /-- The end of the input has been queued. -/
  ended : Bool := false

namespace Machine

/-- The scene of a machine. -/
def scene (m : Machine) : Scene where
  state := m.state
  rest := m.input.pending
  consumed := m.input.consumed
  queued := m.queue.toList
  held := m.text
  letters := m.letters
  tag := m.tag
  current := m.currentAttribute
  reference := m.reference
  last := m.lastStartTag
  finished := m.input.finished
  ended := m.ended

variable (m : Machine)

@[simp] theorem scene_goto (next : State) :
    (m.goto next).scene = { m.scene with state := next } := by
  unfold goto
  split
  · rename_i h
    rw [← h]
    rfl
  · rfl

@[simp] theorem scene_advance :
    m.advance.scene = { m.scene with rest := m.scene.rest.tail,
                                     consumed := m.scene.consumed + 1 } := rfl

@[simp] theorem scene_putChar (c : Char) :
    (m.putChar c).scene = { m.scene with held := m.scene.held.push c } := rfl

@[simp] theorem scene_putText (s : String) :
    (m.putText s).scene = { m.scene with held := m.scene.held ++ s } := rfl

@[simp] theorem scene_clearLetters : m.clearLetters.scene = { m.scene with letters := "" } := rfl

@[simp] theorem scene_putLetter (c : Char) :
    (m.putLetter c).scene = { m.scene with letters := m.scene.letters.push c } := rfl

@[simp] theorem scene_openTag (c : Char) :
    (m.openTag .closing c).scene
      = { m.scene with tag := endTagOf (String.singleton c), current := none } := rfl

@[simp] theorem scene_putTagName (c : Char) :
    (m.putTagName c).scene
      = { m.scene with tag := { m.scene.tag with name := m.scene.tag.name.push c } } := rfl

/-- **A token that is not text** is queued behind the text held back. -/
@[simp] theorem scene_emit (t : Token) :
    (m.emit t).scene = { m.scene with
      queued := m.scene.queued ++ (textTokens m.scene.held ++ [t]), held := "" } := by
  have hqueue := m.toList_queue_emit t
  unfold emit flush at hqueue ⊢
  by_cases h : m.text = ""
  · rw [if_pos (by simp [h])] at hqueue ⊢
    simp only [scene, enqueue, Scene.mk.injEq, true_and, and_true]
    exact ⟨hqueue, h⟩
  · rw [if_neg (by simpa using h)] at hqueue ⊢
    simp only [scene, enqueue, Scene.mk.injEq, true_and, and_true]
    exact hqueue

@[simp] theorem scene_report (code : ErrorCode) :
    (m.report code).scene = { m.scene with
      queued := m.scene.queued ++
        (textTokens m.scene.held ++ [.error ⟨code, m.scene.consumed⟩ m.scene.state]),
      held := "" } :=
  scene_emit { m with errors := m.errors + 1 } _

@[simp] theorem scene_emitEnd :
    m.emitEnd.scene = { m.scene with
      queued := m.scene.queued ++ (textTokens m.scene.held ++ [.endOfInput]), held := "",
      ended := true } := by
  have hemit := m.scene_emit .endOfInput
  have hended : m.emitEnd.scene = { (m.emit .endOfInput).scene with ended := true } := rfl
  rw [hended, hemit]

@[simp] theorem scene_putBackEndTag (kind : RawKind) :
    (m.putBackEndTag kind).scene = { m.scene with
      state := .rawData kind, held := m.scene.held ++ ("</" ++ m.scene.letters),
      letters := "" } := by
  rw [putBackEndTag, scene_goto, scene_putText, scene_clearLetters]
  rfl

/-- **An end tag without attributes** is queued with no error. -/
theorem scene_emitTag {name : String} (hcurrent : m.scene.current = none)
    (htag : m.scene.tag = endTagOf name) :
    m.emitTag.scene = { m.scene with
      state := .data,
      queued := m.scene.queued ++ (textTokens m.scene.held ++ [.tag (endTagOf name)]), held := "",
      tag := { kind := .opening } } := by
  have hclose : m.closeAttribute = m := by
    unfold closeAttribute
    rw [show m.currentAttribute = none from hcurrent]
  have hreport : m.resetTag.reportTag (endTagOf name) = m.resetTag := rfl
  rw [emitTag, hclose, show m.tag = endTagOf name from htag, hreport, scene_goto, scene_emit]
  rfl

end Machine

/-! ## (2) What a reader amounts to -/

namespace Script

/-- Characters are text held back; an error is queued behind it. -/
def Event.put : List Token × String → Event → List Token × String
  | (queued, held), .char c => (queued, held.push c)
  | (queued, held), .error code position place =>
    (queued ++ (textTokens held ++ [.error ⟨code, position⟩ place.state]), "")

namespace Reader

/-- The tokens that the events of a reader amount to, and the text behind the last of them. -/
def tokens (w : Reader) : List Token × String := w.events.foldl Event.put ([], "")

/-- The scene of a machine that has seen what a reader has. -/
@[simps] def scene (w : Reader) (last : Option String) (letters : String) (tag : Tag) : Scene where
  state := w.place.state
  rest := w.rest
  consumed := w.consumed
  queued := w.tokens.1
  held := w.tokens.2
  letters := letters
  tag := tag
  last := last

variable (w : Reader) (last : Option String) (letters : String) (tag : Tag)

@[simp] theorem scene_consume :
    w.consume.scene last letters tag = { w.scene last letters tag with
      rest := (w.scene last letters tag).rest.tail,
      consumed := (w.scene last letters tag).consumed + 1 } := rfl

@[simp] theorem scene_switchTo (next : Place) :
    (w.switchTo next).scene last letters tag
      = { w.scene last letters tag with state := next.state } := rfl

@[simp] theorem scene_emit (c : Char) :
    (w.emit c).scene last letters tag = { w.scene last letters tag with
      held := (w.scene last letters tag).held.push c } := by
  simp [scene, emit, tokens, Event.put]

@[simp] theorem scene_emitText (s : String) :
    (w.emitText s).scene last letters tag = { w.scene last letters tag with
      held := (w.scene last letters tag).held ++ s } := by
  -- induction on the characters, each of which is put behind the text held back
  have hput : ∀ (cs : List Char) (before : List Token × String),
      (cs.map Event.char).foldl Event.put before
        = (before.1, before.2 ++ String.ofList cs) := by
    intro cs
    induction cs with
    | nil => simp
    | cons c cs ih =>
      intro before
      rw [List.map_cons, List.foldl_cons, ih, Event.put, String.push_eq_append, String.append_assoc,
        ← String.ofList_cons]
  simp [scene, emitText, tokens, hput]

@[simp] theorem scene_error (code : ErrorCode) :
    (w.error code).scene last letters tag = { w.scene last letters tag with
      queued := (w.scene last letters tag).queued ++
        (textTokens (w.scene last letters tag).held ++
          [.error ⟨code, (w.scene last letters tag).consumed⟩ (w.scene last letters tag).state]),
      held := "" } := by
  simp [scene, error, tokens, Event.put]

@[simp] theorem scene_clearBuffer :
    w.clearBuffer.scene last letters tag = w.scene last letters tag := rfl

@[simp] theorem scene_putBuffer (c : Char) :
    (w.putBuffer c).scene last letters tag = w.scene last letters tag := rfl

@[simp] theorem scene_createEndTag :
    w.createEndTag.scene last letters tag = w.scene last letters tag := rfl

@[simp] theorem scene_putName (c : Char) :
    (w.putName c).scene last letters tag = w.scene last letters tag := rfl

@[simp] theorem name_consume : w.consume.name = w.name := rfl

@[simp] theorem name_stop (o : Outcome) : (w.stop o).name = w.name := rfl

@[simp] theorem scene_stop (o : Outcome) :
    (w.stop o).scene last letters tag = w.scene last letters tag := rfl

end Reader

/-- Whether the temporary buffer has a meaning in a state. -/
def Place.buffers : Place → Bool
  | .endTagOpen | .endTagName | .escapedEndTagOpen | .escapedEndTagName | .doubleEscapeStart
  | .doubleEscapeEnd => true
  | _ => false

/-- Whether a state reads the name of an end tag. -/
def Place.names : Place → Bool
  | .endTagName | .escapedEndTagName => true
  | _ => false

theorem Place.buffers_of_names {p : Place} (h : p.names = true) : p.buffers = true := by
  cases p <;> simp_all [names, buffers]

/-- **A machine follows a reader** that reads: it is in the scene of the reader, with the same letters
where the reader uses its buffer and the same tag where it reads a name. -/
structure Follows (last : Option String) (w : Reader) (m : Machine) : Prop where
  /-- The reader reads. -/
  reading : w.outcome = none
  /-- The machine is in its scene. -/
  scene : ∃ letters tag, m.scene = w.scene last letters tag ∧
    (w.place.buffers = true → letters = w.buffer) ∧ (w.place.names = true → tag = endTagOf w.name)

variable {last : Option String} {w : Reader} {m : Machine}

/-- Where the buffer has no meaning the scene is all there is to it. -/
theorem Follows.of_scene (letters : String) (tag : Tag) (hreading : w.outcome = none)
    (hscene : m.scene = w.scene last letters tag) (hplace : w.place.buffers = false) :
    Follows last w m := by
  refine ⟨hreading, letters, tag, hscene, ?_, ?_⟩
  · intro hbuffers
    rw [hplace] at hbuffers
    cases hbuffers
  · intro hnames
    rw [Place.buffers_of_names hnames] at hplace
    cases hplace

/-- **Where a machine is when the reader has stopped**, with an end tag of a name. At the end of the file
it has ended. Behind the name of an appropriate end tag it goes on with the tag. Behind the `>` of one it
has queued it. -/
def Outcome.scene (name : String) (s : Scene) : Outcome → Scene
  | .endOfFile =>
    { s with queued := s.queued ++ (textTokens s.held ++ [.endOfInput]), held := "", ended := true }
  | .beforeAttributeName => { s with state := .beforeAttributeName, tag := endTagOf name }
  | .selfClosingStartTag => { s with state := .selfClosingStartTag, tag := endTagOf name }
  | .endTag =>
    { s with
      state := .data,
      queued := s.queued ++ (textTokens s.held ++ [.tag (endTagOf name)]), held := "" }

/-- **A machine agrees with a reader** that has stopped. -/
def Agrees (last : Option String) (w : Reader) (m : Machine) : Prop :=
  ∃ o letters tag, w.outcome = some o ∧ m.scene = o.scene w.name (w.scene last letters tag)

/-- **A machine matches a reader**: it follows while the reader reads and agrees once it has stopped. -/
def Matches (last : Option String) (w : Reader) (m : Machine) : Prop :=
  Follows last w m ∨ Agrees last w m

end Script

end HtmlStream

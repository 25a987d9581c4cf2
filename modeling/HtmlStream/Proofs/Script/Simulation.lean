import HtmlStream.Proofs.Machine.Halting
import HtmlStream.Proofs.Script.Scene

/-! # Script data refines the standard

The machine reads script data in states that share their steps and take what is special as a
parameter. Step by step it does what the eighteen states of the standard do: it keeps the same text,
reports the same errors at the same places, and recognises the same end tag behind the same character.

* **`Follows.read`, `Follows.take`, …**: what both do keeps a machine following a reader.
* **`follows_data`, …, `matches_endTagName`**: the states, one by one, at a character; `matches_end`: at
  the end of the file.
* **`exists_joins`**: a step of the machine is matched by steps of the reader.
* **`exists_leads`**: a machine that follows a reader comes to agree with it.
* **`tokenize_scriptData`**: whole inputs. -/

namespace HtmlStream

open Script StateTransition

namespace Script

variable {last : Option String} {w : Reader} {m : Machine}

/-! ## (1) The tests of the machine, one by one -/

section

variable (m : Machine) (c : Char)

theorem stepRawData_scriptData :
    m.stepRawData .scriptData c
      = if c = '<' then m.advance.goto (.rawLessThanSign .scriptData)
        else if c = '\x00' then m.advance.replaceNull
        else m.advance.putChar c := by
  unfold Machine.stepRawData
  split <;> simp_all

theorem stepRawData_escaped (kind : EscapeKind) :
    m.stepRawData (.scriptDataEscaped kind) c
      = if c = '-' then (m.advance.putChar '-').goto (.scriptDataEscapedDash kind)
        else if c = '<' then m.advance.escapedLessThan kind
        else if c = '\x00' then m.advance.replaceNull
        else m.advance.putChar c := by
  unfold Machine.stepRawData
  split <;> simp_all

theorem stepRawLessThanSign_scriptData :
    m.stepRawLessThanSign .scriptData c
      = if c = '/' then m.advance.clearLetters.goto (.rawEndTagOpen .scriptData)
        else if c = '!' then (m.advance.putText "<!").goto (.scriptDataEscapeStart .escaped)
        else (m.putChar '<').goto (.rawData .scriptData) := by
  unfold Machine.stepRawLessThanSign
  split <;> simp_all

theorem stepRawLessThanSign_escaped :
    m.stepRawLessThanSign (.scriptDataEscaped .escaped) c
      = if c = '/' then
          m.advance.clearLetters.goto (.rawEndTagOpen (.scriptDataEscaped .escaped))
        else if c.isAlpha then
          (m.clearLetters.putChar '<').goto (.scriptDataEscapeStart .doubleEscaped)
        else (m.putChar '<').goto (.rawData (.scriptDataEscaped .escaped)) := by
  unfold Machine.stepRawLessThanSign
  split <;> simp_all

theorem stepRawLessThanSign_doubleEscaped :
    m.stepRawLessThanSign (.scriptDataEscaped .doubleEscaped) c
      = if c = '/' then (m.advance.clearLetters.putChar '/').goto .scriptDataDoubleEscapeEnd
        else m.goto (.rawData (.scriptDataEscaped .doubleEscaped)) := by
  unfold Machine.stepRawLessThanSign
  split <;> simp_all

theorem stepEscapedDash_eq (kind : EscapeKind) :
    m.stepEscapedDash kind c
      = if c = '-' then (m.advance.putChar '-').goto (.scriptDataEscapedDashDash kind)
        else if c = '<' then m.advance.escapedLessThan kind
        else if c = '\x00' then
          m.advance.replaceNull.goto (.rawData (.scriptDataEscaped kind))
        else (m.advance.putChar c).goto (.rawData (.scriptDataEscaped kind)) := by
  unfold Machine.stepEscapedDash Machine.afterDashes
  split
  · simp_all
  · split <;> simp_all

theorem stepEscapedDashDash_eq (kind : EscapeKind) :
    m.stepEscapedDashDash kind c
      = if c = '-' then m.advance.putChar '-'
        else if c = '<' then m.advance.escapedLessThan kind
        else if c = '>' then (m.advance.putChar '>').goto (.rawData .scriptData)
        else if c = '\x00' then
          m.advance.replaceNull.goto (.rawData (.scriptDataEscaped kind))
        else (m.advance.putChar c).goto (.rawData (.scriptDataEscaped kind)) := by
  unfold Machine.stepEscapedDashDash Machine.afterDashes
  split
  · simp_all
  · simp_all
  · split <;> simp_all

end

/-! ## (2) What both do -/

/-- Alternatives that both decide by the same test are related one by one. -/
theorem ite_both {r : Reader → Machine → Prop} {p : Prop} [Decidable p] {w w' : Reader}
    {m m' : Machine} (hpos : p → r w m) (hneg : ¬p → r w' m') :
    r (if p then w else w') (if p then m else m') := by
  split
  · exact hpos ‹p›
  · exact hneg ‹¬p›

namespace Follows

/-- Where the machine and the reader are in one scene. -/
theorem exists_scene (h : Follows last w m) :
    ∃ letters tag, m.scene = w.scene last letters tag := by
  obtain ⟨letters, tag, hscene, -⟩ := h.scene
  exact ⟨letters, tag, hscene⟩

variable (h : Follows last w m) {p : Place} (hp : p.buffers = false)
include h

section

include hp

/-- Both switch to a state and leave the character unread. -/
theorem leave : Follows last (w.switchTo p) (m.goto p.state) := by
  obtain ⟨letters, tag, hscene⟩ := h.exists_scene
  exact .of_scene letters tag h.reading (by simp [hscene]) hp

/-- Both read a character that is markup. -/
theorem read : Follows last (w.consume.switchTo p) (m.advance.goto p.state) := by
  obtain ⟨letters, tag, hscene⟩ := h.exists_scene
  exact .of_scene letters tag h.reading (by simp [hscene]) hp

/-- Both read a character and keep it as text. -/
theorem take (c : Char) :
    Follows last ((w.consume.switchTo p).emit c) ((m.advance.putChar c).goto p.state) := by
  obtain ⟨letters, tag, hscene⟩ := h.exists_scene
  exact .of_scene letters tag h.reading (by simp [hscene]) hp

/-- Both read a U+0000 and keep it as U+FFFD. -/
theorem takeNull :
    Follows last (((w.consume.error .unexpectedNullCharacter).switchTo p).emit '\uFFFD')
      (m.advance.replaceNull.goto p.state) := by
  obtain ⟨letters, tag, hscene⟩ := h.exists_scene
  exact .of_scene letters tag h.reading (by simp [Machine.replaceNull, hscene]) hp

/-- Both put a `<` back as text. -/
theorem putBack : Follows last ((w.emit '<').switchTo p) ((m.putChar '<').goto p.state) := by
  obtain ⟨letters, tag, hscene⟩ := h.exists_scene
  exact .of_scene letters tag h.reading (by simp [hscene]) hp

/-- Both put a `</` back as text. -/
theorem putBackEnd : Follows last ((w.emitText "</").switchTo p) ((m.putText "</").goto p.state) := by
  obtain ⟨letters, tag, hscene⟩ := h.exists_scene
  exact .of_scene letters tag h.reading (by simp [hscene]) hp

end

section

variable (hplace : w.place.buffers = false)
include hplace

/-- Both read a character, keep it as text and stay where they are. -/
theorem keep (c : Char) : Follows last (w.consume.emit c) (m.advance.putChar c) := by
  obtain ⟨letters, tag, hscene⟩ := h.exists_scene
  exact .of_scene letters tag h.reading (by simp [hscene]) hplace

/-- Both read a U+0000, keep it as U+FFFD and stay where they are. -/
theorem keepNull :
    Follows last ((w.consume.error .unexpectedNullCharacter).emit '\uFFFD')
      m.advance.replaceNull := by
  obtain ⟨letters, tag, hscene⟩ := h.exists_scene
  exact .of_scene letters tag h.reading (by simp [Machine.replaceNull, hscene]) hplace

end

/-- Both read the `/` of a possible end tag and forget the letters of the last one. -/
theorem openEnd (hp : p.names = false) :
    Follows last (w.consume.clearBuffer.switchTo p) (m.advance.clearLetters.goto p.state) := by
  obtain ⟨letters, tag, hscene⟩ := h.exists_scene
  refine ⟨h.reading, "", tag, by simp [hscene], fun _ => rfl, ?_⟩
  intro hnames
  rw [Reader.switchTo, hp] at hnames
  cases hnames

end Follows

/-! ## (3) States of text -/

section

variable (h : Follows last w m)
include h

theorem follows_data (hplace : w.place = .data) (c : Char) :
    Follows last (w.inData (some c)) (m.stepRawData .scriptData c) := by
  have hquiet : w.place.buffers = false := congrArg Place.buffers hplace
  rw [Reader.inData, stepRawData_scriptData]
  refine ite_both ?_ fun _ => ite_both ?_ ?_
  · intro _
    exact h.read (p := .lessThanSign) rfl
  · intro _
    exact h.keepNull hquiet
  · intro _
    exact h.keep hquiet c

theorem follows_escaped (hplace : w.place = .escaped) (c : Char) :
    Follows last (w.inEscaped (some c)) (m.stepRawData (.scriptDataEscaped .escaped) c) := by
  have hquiet : w.place.buffers = false := congrArg Place.buffers hplace
  rw [Reader.inEscaped, stepRawData_escaped]
  refine ite_both ?_ fun _ => ite_both ?_ fun _ => ite_both ?_ ?_
  · intro _
    exact h.take (p := .escapedDash) rfl '-'
  · intro _
    exact h.read (p := .escapedLessThanSign) rfl
  · intro _
    exact h.keepNull hquiet
  · intro _
    exact h.keep hquiet c

theorem follows_doubleEscaped (hplace : w.place = .doubleEscaped) (c : Char) :
    Follows last (w.inDoubleEscaped (some c))
      (m.stepRawData (.scriptDataEscaped .doubleEscaped) c) := by
  have hquiet : w.place.buffers = false := congrArg Place.buffers hplace
  rw [Reader.inDoubleEscaped, stepRawData_escaped]
  refine ite_both ?_ fun _ => ite_both ?_ fun _ => ite_both ?_ ?_
  · intro _
    exact h.take (p := .doubleEscapedDash) rfl '-'
  · -- here the `<` is text at once
    intro _
    exact h.take (p := .doubleEscapedLessThanSign) rfl '<'
  · intro _
    exact h.keepNull hquiet
  · intro _
    exact h.keep hquiet c

theorem follows_escapedDash (c : Char) :
    Follows last (w.inEscapedDash (some c)) (m.stepEscapedDash .escaped c) := by
  rw [Reader.inEscapedDash, stepEscapedDash_eq]
  refine ite_both ?_ fun _ => ite_both ?_ fun _ => ite_both ?_ ?_
  · intro _
    exact h.take (p := .escapedDashDash) rfl '-'
  · intro _
    exact h.read (p := .escapedLessThanSign) rfl
  · intro _
    exact h.takeNull (p := .escaped) rfl
  · intro _
    exact h.take (p := .escaped) rfl c

theorem follows_doubleEscapedDash (c : Char) :
    Follows last (w.inDoubleEscapedDash (some c)) (m.stepEscapedDash .doubleEscaped c) := by
  rw [Reader.inDoubleEscapedDash, stepEscapedDash_eq]
  refine ite_both ?_ fun _ => ite_both ?_ fun _ => ite_both ?_ ?_
  · intro _
    exact h.take (p := .doubleEscapedDashDash) rfl '-'
  · intro _
    exact h.take (p := .doubleEscapedLessThanSign) rfl '<'
  · intro _
    exact h.takeNull (p := .doubleEscaped) rfl
  · intro _
    exact h.take (p := .doubleEscaped) rfl c

theorem follows_escapedDashDash (hplace : w.place = .escapedDashDash) (c : Char) :
    Follows last (w.inEscapedDashDash (some c)) (m.stepEscapedDashDash .escaped c) := by
  rw [Reader.inEscapedDashDash, stepEscapedDashDash_eq]
  refine ite_both ?_ fun _ => ite_both ?_ fun _ => ite_both ?_ fun _ => ite_both ?_ ?_
  · intro _
    exact h.keep (congrArg Place.buffers hplace) '-'
  · intro _
    exact h.read (p := .escapedLessThanSign) rfl
  · intro _
    exact h.take (p := .data) rfl '>'
  · intro _
    exact h.takeNull (p := .escaped) rfl
  · intro _
    exact h.take (p := .escaped) rfl c

theorem follows_doubleEscapedDashDash (hplace : w.place = .doubleEscapedDashDash) (c : Char) :
    Follows last (w.inDoubleEscapedDashDash (some c)) (m.stepEscapedDashDash .doubleEscaped c) := by
  rw [Reader.inDoubleEscapedDashDash, stepEscapedDashDash_eq]
  refine ite_both ?_ fun _ => ite_both ?_ fun _ => ite_both ?_ fun _ => ite_both ?_ ?_
  · intro _
    exact h.keep (congrArg Place.buffers hplace) '-'
  · intro _
    exact h.take (p := .doubleEscapedLessThanSign) rfl '<'
  · intro _
    exact h.take (p := .data) rfl '>'
  · intro _
    exact h.takeNull (p := .doubleEscaped) rfl
  · intro _
    exact h.take (p := .doubleEscaped) rfl c

/-! ## (4) States behind `<` and `<!` -/

theorem follows_lessThanSign (c : Char) :
    Follows last (w.inLessThanSign (some c)) (m.stepRawLessThanSign .scriptData c) := by
  simp only [Reader.inLessThanSign, stepRawLessThanSign_scriptData, Option.some.injEq]
  refine ite_both ?_ fun _ => ite_both ?_ ?_
  · intro _
    exact h.openEnd (p := .endTagOpen) rfl
  · intro _
    obtain ⟨letters, tag, hscene⟩ := h.exists_scene
    exact .of_scene letters tag h.reading (by simp [hscene, Place.state]) rfl
  · intro _
    exact h.putBack (p := .data) rfl

theorem follows_escapedLessThanSign (c : Char) :
    Follows last (w.inEscapedLessThanSign (some c))
      (m.stepRawLessThanSign (.scriptDataEscaped .escaped) c) := by
  simp only [Reader.inEscapedLessThanSign, stepRawLessThanSign_escaped, Option.some.injEq,
    Option.any_some]
  refine ite_both ?_ fun _ => ite_both ?_ ?_
  · intro _
    exact h.openEnd (p := .escapedEndTagOpen) rfl
  · intro _
    obtain ⟨letters, tag, hscene⟩ := h.exists_scene
    exact ⟨h.reading, "", tag, by simp [hscene, Place.state], fun _ => rfl, nofun⟩
  · intro _
    exact h.putBack (p := .escaped) rfl

theorem follows_doubleEscapedLessThanSign (c : Char) :
    Follows last (w.inDoubleEscapedLessThanSign (some c))
      (m.stepRawLessThanSign (.scriptDataEscaped .doubleEscaped) c) := by
  simp only [Reader.inDoubleEscapedLessThanSign, stepRawLessThanSign_doubleEscaped,
    Option.some.injEq]
  refine ite_both ?_ ?_
  · intro _
    obtain ⟨letters, tag, hscene⟩ := h.exists_scene
    exact ⟨h.reading, "", tag, by simp [hscene, Place.state], fun _ => rfl, nofun⟩
  · intro _
    exact h.leave (p := .doubleEscaped) rfl

theorem follows_escapeStart (c : Char) :
    Follows last (w.inEscapeStart (some c)) (m.stepEscapeStart .escaped c) := by
  simp only [Reader.inEscapeStart, Machine.stepEscapeStart, Machine.escapeDash, Option.some.injEq]
  refine ite_both ?_ ?_
  · intro _
    exact h.take (p := .escapeStartDash) rfl '-'
  · intro _
    exact h.leave (p := .data) rfl

theorem follows_escapeStartDash (c : Char) :
    Follows last (w.inEscapeStartDash (some c)) (m.stepEscapeStartDash c) := by
  simp only [Reader.inEscapeStartDash, Machine.stepEscapeStartDash, Machine.escapeDash,
    Option.some.injEq]
  refine ite_both ?_ ?_
  · intro _
    exact h.take (p := .escapedDashDash) rfl '-'
  · intro _
    exact h.leave (p := .data) rfl

end

/-! ## (5) States that spell `script` -/

/-- The state in which escaped text of a kind goes on. -/
def Place.text : EscapeKind → Place
  | .escaped => .escaped
  | .doubleEscaped => .doubleEscaped

theorem Place.state_text (kind : EscapeKind) :
    (text kind).state = .rawData (.scriptDataEscaped kind) := by
  cases kind <;> rfl

theorem Place.buffers_text (kind : EscapeKind) : (text kind).buffers = false := by
  cases kind <;> rfl

section

variable (h : Follows last w m)
include h

/-- **The letters of a possible nested `script`**, or of its end tag: text goes on as one kind if the
buffer spells it, and as the other if not. -/
theorem follows_boundary (hbuffers : w.place.buffers = true) (hnames : w.place.names = false)
    (onScript otherwise : EscapeKind) (c : Char) :
    Follows last
      (if Ascii.isSpace c ∨ c = '/' ∨ c = '>' then
        (w.consume.switchTo
          (if w.buffer = "script" then .text onScript else .text otherwise)).emit c
      else if c.isAlpha then (w.consume.putBuffer c.toLower).emit c
      else w.switchTo (.text otherwise))
      (m.escapeBoundary c onScript otherwise) := by
  obtain ⟨letters, tag, hscene, hbuffer, -⟩ := h.scene
  have hletters : m.letters = w.buffer := by
    rw [← hbuffer hbuffers]
    exact congrArg Scene.letters hscene
  have hends : (Ascii.isSpace c || decide (c = '/') || decide (c = '>')) = true
      ↔ (Ascii.isSpace c = true ∨ c = '/' ∨ c = '>') := by
    simp [or_assoc]
  have hleave := h.leave (Place.buffers_text otherwise)
  rw [Place.state_text] at hleave
  simp only [Machine.escapeBoundary, hends, hletters]
  refine ite_both ?_ fun _ => ite_both ?_ fun _ => hleave
  · intro _
    have htake := h.take (Place.buffers_text (if w.buffer = "script" then onScript else otherwise)) c
    rw [Place.state_text, apply_ite Place.text] at htake
    exact htake
  · -- both add a letter, and stay
    intro _
    refine ⟨h.reading, letters.push c.toLower, tag, by simp [hscene], ?_, ?_⟩
    · intro _
      exact congrArg (String.push · c.toLower) (hbuffer hbuffers)
    · intro h
      rw [show ((w.consume.putBuffer c.toLower).emit c).place = w.place from rfl, hnames] at h
      cases h

theorem follows_doubleEscapeStart (hplace : w.place = .doubleEscapeStart) (c : Char) :
    Follows last (w.inDoubleEscapeStart (some c)) (m.stepEscapeStart .doubleEscaped c) :=
  follows_boundary h (congrArg Place.buffers hplace) (congrArg Place.names hplace)
    .doubleEscaped .escaped c

theorem follows_doubleEscapeEnd (hplace : w.place = .doubleEscapeEnd) (c : Char) :
    Follows last (w.inDoubleEscapeEnd (some c)) (m.stepDoubleEscapeEnd c) :=
  follows_boundary h (congrArg Place.buffers hplace) (congrArg Place.names hplace)
    .escaped .doubleEscaped c

end

/-! ## (6) Possible end tags -/

/-- **The states of a possible end tag** in a kind of script data: `name` reads its name, and text goes
on in `back`. -/
structure EndTag (kind : RawKind) (name back : Place) : Prop where
  /-- The state of the machine that reads the name. -/
  state_name : name.state = .rawEndTagName kind
  /-- It has a name to read. -/
  names_name : name.names = true
  /-- The state of the machine that text goes on in. -/
  state_back : back.state = .rawData kind
  /-- Text uses no buffer. -/
  buffers_back : back.buffers = false
  /-- The rules of the name. -/
  rule_name : ∀ {last : Option String} {w : Reader}, w.place = name →
    ∀ next, w.rule last next = w.inEndTagName last back next

theorem endTag_data : EndTag .scriptData .endTagName .data where
  state_name := rfl
  names_name := rfl
  state_back := rfl
  buffers_back := rfl
  rule_name hplace next := by rw [Reader.rule, hplace]

theorem endTag_escaped : EndTag (.scriptDataEscaped .escaped) .escapedEndTagName .escaped where
  state_name := rfl
  names_name := rfl
  state_back := rfl
  buffers_back := rfl
  rule_name hplace next := by rw [Reader.rule, hplace]

section

variable {kind : RawKind} {name back : Place} (hkind : EndTag kind name back) (h : Follows last w m)
include hkind h

/-- What is no letter ends a possible end tag before it begins. -/
theorem follows_endTagOpen {c : Char} (hc : c.isAlpha = false) :
    Follows last (w.inEndTagOpen name back (some c)) (m.stepRawEndTagOpen kind c) := by
  have hback := h.putBackEnd hkind.buffers_back
  rw [hkind.state_back] at hback
  rw [Reader.inEndTagOpen, if_neg (by simp [hc]), Machine.stepRawEndTagOpen, if_neg (by simp [hc])]
  exact hback

/-- Where the machine reads the first letter, the reader begins a name and has the letter reconsumed
there. -/
theorem follows_endTagOpen_of_alpha (hbuffers : w.place.buffers = true) {c : Char}
    (hc : c.isAlpha = true) :
    Follows last (((w.createEndTag.switchTo name).consume.putName c.toLower).putBuffer c)
      (m.stepRawEndTagOpen kind c) := by
  obtain ⟨letters, tag, hscene, hbuffer, -⟩ := h.scene
  rw [Machine.stepRawEndTagOpen, if_pos hc]
  refine ⟨h.reading, letters.push c, endTagOf ("".push c.toLower), ?_, ?_, fun _ => rfl⟩
  · simp [hscene, hkind.state_name]
  · intro _
    exact congrArg (String.push · c) (hbuffer hbuffers)

/-- **A name that ends no script** is put back with its `</`, in its own letters. -/
theorem follows_putBack (hbuffers : w.place.buffers = true) :
    Follows last (((w.emitText "</").emitText w.buffer).switchTo back) (m.putBackEndTag kind) := by
  obtain ⟨letters, tag, hscene, hbuffer, -⟩ := h.scene
  refine .of_scene "" tag h.reading ?_ hkind.buffers_back
  simp [hscene, hkind.state_back, hbuffer hbuffers, String.append_assoc]

theorem follows_end_endTagName (hbuffers : w.place.buffers = true) :
    Follows last (w.inEndTagName last back none) (m.putBackEndTag kind) := by
  have hnone : w.inEndTagName last back none
      = ((w.emitText "</").emitText w.buffer).switchTo back := by
    simp [Reader.inEndTagName]
  rw [hnone]
  exact follows_putBack hkind h hbuffers

/-- **The name of a possible end tag.** Only the name of the last start tag is recognised, and only where
it ends. -/
theorem matches_endTagName (hplace : w.place = name) (c : Char) :
    Matches last (w.inEndTagName last back (some c)) (m.stepRawEndTagName kind c) := by
  obtain ⟨letters, tag, hscene, hbuffer, htag⟩ := h.scene
  have hnames : w.place.names = true := hplace ▸ hkind.names_name
  have hbuffers := Place.buffers_of_names hnames
  obtain rfl := htag hnames
  have happropriate : m.isAppropriateEndTag = decide (last = some w.name) := by
    rw [Machine.isAppropriateEndTag, show m.lastStartTag = last from congrArg Scene.last hscene,
      show m.tag = endTagOf w.name from congrArg Scene.tag hscene]
    rfl
  simp only [Reader.inEndTagName, Machine.stepRawEndTagName, happropriate, Bool.and_eq_true,
    decide_eq_true_eq, Option.any_some, Option.some.injEq]
  refine ite_both ?_ fun _ => ite_both ?_ fun _ => ite_both ?_ fun _ => ite_both ?_ ?_
  · intro _
    exact .inr ⟨.beforeAttributeName, "", endTagOf w.name, rfl, by simp [hscene, Outcome.scene]⟩
  · intro _
    exact .inr ⟨.selfClosingStartTag, "", endTagOf w.name, rfl, by simp [hscene, Outcome.scene]⟩
  · intro _
    have htag : m.advance.clearLetters.scene.tag = endTagOf w.name := by simp [hscene]
    refine .inr ⟨.endTag, "", { kind := .opening }, rfl, ?_⟩
    rw [Machine.scene_emitTag _ (by simp [hscene]) htag]
    simp [hscene, Outcome.scene]
  · -- one more letter of the name, kept in its own case as well
    intro _
    refine .inl ⟨h.reading, letters.push c, endTagOf (w.name.push c.toLower), ?_, ?_, fun _ => rfl⟩
    · simp [hscene, endTagOf]
    · intro _
      exact congrArg (String.push · c) (hbuffer hbuffers)
  · intro _
    exact .inl (follows_putBack hkind h hbuffers)

end

/-! ## (7) The end of the file -/

section

variable (h : Follows last w m)
include h

/-- Text that may end here ends. -/
theorem Follows.agrees_end : Agrees last (w.stop .endOfFile) m.emitEnd := by
  obtain ⟨letters, tag, hscene⟩ := h.exists_scene
  exact ⟨.endOfFile, letters, tag, rfl, by simp [hscene, Outcome.scene]⟩

/-- Escaped text ends with an error. -/
theorem Follows.agrees_end_escaped :
    Agrees last ((w.error .eofInScriptHtmlCommentLikeText).stop .endOfFile)
      (m.report .eofInScriptHtmlCommentLikeText).emitEnd := by
  obtain ⟨letters, tag, hscene⟩ := h.exists_scene
  exact ⟨.endOfFile, letters, tag, rfl, by simp [hscene, Outcome.scene]⟩

theorem Follows.state : m.state = w.place.state := by
  obtain ⟨letters, tag, hscene⟩ := h.exists_scene
  exact congrArg Scene.state hscene

/-- **The end of the file**, in each state of the standard. Text ends there; the other states put back what
they hold and leave it to text. -/
theorem matches_end : Matches last (w.rule last none) m.stepEnd := by
  unfold Machine.stepEnd Reader.rule
  rw [h.state]
  cases hplace : w.place with
  | data => exact .inr h.agrees_end
  | lessThanSign => exact .inl (h.putBack (p := .data) rfl)
  | endTagOpen => exact .inl (h.putBackEnd (p := .data) rfl)
  | endTagName => exact .inl (follows_end_endTagName endTag_data h (congrArg Place.buffers hplace))
  | escapeStart => exact .inl (h.leave (p := .data) rfl)
  | escapeStartDash => exact .inl (h.leave (p := .data) rfl)
  | escaped => exact .inr h.agrees_end_escaped
  | escapedDash => exact .inr h.agrees_end_escaped
  | escapedDashDash => exact .inr h.agrees_end_escaped
  | escapedLessThanSign => exact .inl (h.putBack (p := .escaped) rfl)
  | escapedEndTagOpen => exact .inl (h.putBackEnd (p := .escaped) rfl)
  | escapedEndTagName =>
    exact .inl (follows_end_endTagName endTag_escaped h (congrArg Place.buffers hplace))
  | doubleEscapeStart => exact .inl (h.leave (p := .escaped) rfl)
  | doubleEscaped => exact .inr h.agrees_end_escaped
  | doubleEscapedDash => exact .inr h.agrees_end_escaped
  | doubleEscapedDashDash => exact .inr h.agrees_end_escaped
  | doubleEscapedLessThanSign => exact .inl (h.leave (p := .doubleEscaped) rfl)
  | doubleEscapeEnd => exact .inl (h.leave (p := .doubleEscaped) rfl)

end

/-! ## (8) Steps -/

/-- **The reader joins a machine**: reading on, it comes to match it. -/
def Joins (last : Option String) (w : Reader) (m : Machine) : Prop :=
  ∃ w', Reaches (Reader.step last) w w' ∧ Matches last w' m

/-- The rules of the present state are a step. -/
theorem step_of_reading (h : w.outcome = none) :
    Reader.step last w = some (w.rule last w.rest.head?) := by
  rw [Reader.step, h]

theorem joins_of_rule (h : w.outcome = none) (hm : Matches last (w.rule last w.rest.head?) m) :
    Joins last w m :=
  ⟨_, .single (step_of_reading h), hm⟩

/-- A letter ends no name. -/
theorem inEndTagName_of_alpha {c : Char} (hc : c.isAlpha = true) (back : Place) (w : Reader) :
    w.inEndTagName last back (some c) = (w.consume.putName c.toLower).putBuffer c := by
  have hspace : Ascii.isSpace c = false := by
    rw [Bool.eq_false_iff]
    intro h
    simp only [Ascii.isSpace, Bool.or_eq_true, decide_eq_true_eq] at h
    rcases h with ((rfl | rfl) | rfl) | rfl <;> exact absurd hc (by decide)
  have hslash : c ≠ '/' := by
    rintro rfl
    exact absurd hc (by decide)
  have hgreater : c ≠ '>' := by
    rintro rfl
    exact absurd hc (by decide)
  simp [Reader.inEndTagName, hspace, hslash, hgreater, hc]

section

variable (h : Follows last w m)
include h

/-- Behind `</` the machine reads the first letter of a name in one step and the reader in two. -/
theorem joins_stepRawEndTagOpen {kind : RawKind} {name back : Place} (hkind : EndTag kind name back)
    (hbuffers : w.place.buffers = true) {c : Char} (hc : w.rest.head? = some c)
    (hrule : w.rule last (some c) = w.inEndTagOpen name back (some c)) :
    Joins last w (m.stepRawEndTagOpen kind c) := by
  cases halpha : c.isAlpha with
  | false =>
    refine joins_of_rule h.reading (.inl ?_)
    rw [hc, hrule]
    exact follows_endTagOpen hkind h halpha
  | true =>
    -- the first step begins the name, and the second reads the letter
    let begun := w.createEndTag.switchTo name
    have hbegin : Reader.step last w = some begun := by
      rw [step_of_reading h.reading, hc, hrule, Reader.inEndTagOpen, if_pos (by simpa using halpha)]
    have hletter : begun.rule last begun.rest.head?
        = (begun.consume.putName c.toLower).putBuffer c := by
      rw [show begun.rest.head? = some c from hc, hkind.rule_name rfl, inEndTagName_of_alpha halpha]
    have hfollows := follows_endTagOpen_of_alpha hkind h hbuffers halpha
    obtain ⟨w', hreaches, hmatches⟩ :=
      joins_of_rule (w := begun) h.reading (.inl (hletter ▸ hfollows))
    exact ⟨w', hreaches.head hbegin, hmatches⟩

/-- **A character**, in each state of the standard but those behind `</`. -/
theorem matches_stepChar (hopen : w.place ≠ .endTagOpen) (hopen' : w.place ≠ .escapedEndTagOpen)
    (c : Char) : ∃ m', m.stepChar c = some m' ∧ Matches last (w.rule last (some c)) m' := by
  unfold Machine.stepChar Reader.rule
  rw [h.state]
  cases hplace : w.place with
  | data => exact ⟨_, rfl, .inl (follows_data h hplace c)⟩
  | lessThanSign => exact ⟨_, rfl, .inl (follows_lessThanSign h c)⟩
  | endTagOpen => exact absurd hplace hopen
  | endTagName => exact ⟨_, rfl, matches_endTagName endTag_data h hplace c⟩
  | escapeStart => exact ⟨_, rfl, .inl (follows_escapeStart h c)⟩
  | escapeStartDash => exact ⟨_, rfl, .inl (follows_escapeStartDash h c)⟩
  | escaped => exact ⟨_, rfl, .inl (follows_escaped h hplace c)⟩
  | escapedDash => exact ⟨_, rfl, .inl (follows_escapedDash h c)⟩
  | escapedDashDash => exact ⟨_, rfl, .inl (follows_escapedDashDash h hplace c)⟩
  | escapedLessThanSign => exact ⟨_, rfl, .inl (follows_escapedLessThanSign h c)⟩
  | escapedEndTagOpen => exact absurd hplace hopen'
  | escapedEndTagName => exact ⟨_, rfl, matches_endTagName endTag_escaped h hplace c⟩
  | doubleEscapeStart => exact ⟨_, rfl, .inl (follows_doubleEscapeStart h hplace c)⟩
  | doubleEscaped => exact ⟨_, rfl, .inl (follows_doubleEscaped h hplace c)⟩
  | doubleEscapedDash => exact ⟨_, rfl, .inl (follows_doubleEscapedDash h c)⟩
  | doubleEscapedDashDash => exact ⟨_, rfl, .inl (follows_doubleEscapedDashDash h hplace c)⟩
  | doubleEscapedLessThanSign => exact ⟨_, rfl, .inl (follows_doubleEscapedLessThanSign h c)⟩
  | doubleEscapeEnd => exact ⟨_, rfl, .inl (follows_doubleEscapeEnd h hplace c)⟩

theorem joins_stepChar {c : Char} (hc : w.rest.head? = some c) :
    ∃ m', m.stepChar c = some m' ∧ Joins last w m' := by
  by_cases hopen : w.place = .endTagOpen
  · refine ⟨m.stepRawEndTagOpen .scriptData c, ?_, ?_⟩
    · rw [Machine.stepChar, h.state, hopen]
      rfl
    · exact joins_stepRawEndTagOpen h endTag_data (congrArg Place.buffers hopen) hc
        (by rw [Reader.rule, hopen])
  by_cases hopen' : w.place = .escapedEndTagOpen
  · refine ⟨m.stepRawEndTagOpen (.scriptDataEscaped .escaped) c, ?_, ?_⟩
    · rw [Machine.stepChar, h.state, hopen']
      rfl
    · exact joins_stepRawEndTagOpen h endTag_escaped (congrArg Place.buffers hopen') hc
        (by rw [Reader.rule, hopen'])
  obtain ⟨m', hstep, hmatches⟩ := matches_stepChar h hopen hopen' c
  exact ⟨m', hstep, joins_of_rule h.reading (hc ▸ hmatches)⟩

/-- **One step of the machine** is matched by steps of the reader. -/
theorem exists_joins : ∃ m', Machine.step .byChar m = some m' ∧ Joins last w m' := by
  obtain ⟨letters, tag, hscene⟩ := h.exists_scene
  have hended : m.ended = false := congrArg Scene.ended hscene
  have href : m.reference = none := congrArg Scene.reference hscene
  have hpending : m.input.pending = w.rest := congrArg Scene.rest hscene
  have hfinished : m.input.finished = true := congrArg Scene.finished hscene
  cases hrest : w.rest with
  | nil =>
    rw [hrest] at hpending
    refine ⟨m.stepEnd, ?_, joins_of_rule h.reading ?_⟩
    · simp [Machine.step, hended, href, hpending, hfinished]
    · rw [hrest]
      exact matches_end h
  | cons c rest =>
    rw [hrest] at hpending
    rw [Machine.step_of_char hended href hpending, Machine.stepAt_byChar]
    exact joins_stepChar h (by rw [hrest]; rfl)

end

/-! ## (9) Runs -/

theorem Agrees.step_eq_none (h : Agrees last w m) : Reader.step last w = none := by
  obtain ⟨o, -, -, houtcome, -⟩ := h
  rw [Reader.step, houtcome]

/-- **A machine that follows a reader** agrees with it where the reader stops. -/
theorem exists_leads (h : Follows last w m) :
    ∃ w' k, w' ∈ eval (Reader.step last) w ∧ m.Leads k ∧ Agrees last w' k := by
  -- the machine makes steps while it follows, and it cannot make them for ever
  induction m using (Machine.wellFounded_step .byChar).induction generalizing w with
  | h m ih =>
    obtain ⟨m', hstep, w₁, hreaches, hmatches⟩ := exists_joins h
    rcases hmatches with hfollows | hagrees
    · obtain ⟨w', k, heval, hleads, hagrees⟩ := ih m' hstep hfollows
      rw [← reaches_eval hreaches] at heval
      exact ⟨w', k, heval, hleads.head hstep, hagrees⟩
    · exact ⟨w₁, m', mem_eval.mpr ⟨hreaches, hagrees.step_eq_none⟩, .single hstep, hagrees⟩

end Script

/-- **Script data refines the standard.** Of any input that begins in script data, and whatever the last
start tag is, the reader of the standard reads to an end. The machine comes to agree with it there: with
the same text, the same errors and the same end tag. The calls are those that have been queued by then
and those of the machine that goes on from there. -/
theorem tokenize_scriptData (surface : Surface) (config : Config) (chunks : List Bytes) :
    ∃ w k stats,
      w ∈ eval (Reader.step (config.lastStartTag.map Ascii.lower))
        { rest := normalizeNewlines (stripBom config.discardBom
            (Utf8.lossy chunks.flatten).toList) } ∧
      (Machine.whole { config with initialState := .scriptData } chunks.flatten).Leads k ∧
      Agrees (config.lastStartTag.map Ascii.lower) w k ∧
      k.queue.toList <+: k.run.queue.toList ∧
      tokenize surface { config with initialState := .scriptData } chunks
        = .ok (config.calls k.run.queue.toList, stats) := by
  have hfollows : Follows (config.lastStartTag.map Ascii.lower)
      { rest := normalizeNewlines (stripBom config.discardBom (Utf8.lossy chunks.flatten).toList) }
      (Machine.whole { config with initialState := .scriptData } chunks.flatten) := by
    refine .of_scene "" { kind := .opening } rfl ?_ rfl
    rw [← Machine.pending_whole { config with initialState := .scriptData }]
    rfl
  have htokenize := tokenize_eq surface { config with initialState := .scriptData } chunks
  obtain ⟨w, k, heval, hleads, hagrees⟩ := exists_leads hfollows
  rw [Machine.run_eq_of_leads hleads] at htokenize
  exact ⟨w, k, _, heval, hleads, hagrees, k.queue_prefix_run, htokenize⟩

/-- Of two end tags, the one of the nested script ends nothing. -/
example : (tokenize .borrowed { initialState := .scriptData, lastStartTag := some "script" }
      [Utf8.encode "<!--<script></script>--></script>"]).toOption.map Prod.fst
    = some [.chars "<!--<script></script>-->", .endTag "script", .eof] := by
  decide +kernel

end HtmlStream

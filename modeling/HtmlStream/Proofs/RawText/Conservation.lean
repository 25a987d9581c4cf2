import HtmlStream.Proofs.Script.Simulation

/-! # Raw text is kept

Where no end tag can end it, raw text is the whole rest of the input: a `<` and what follows it may be
withheld for a while, because an end tag or a nested script might begin there, but all of it comes back
as text, once and in its place. Only U+0000 is replaced, and only errors and the end of the input are
queued besides.

* **`mend`**: a U+0000 as U+FFFD.
* **`State.withheld?`**: the characters that a state of raw text withholds.
* **`Scene.Owes cs withheld`**: what has been said, what is withheld and what is yet to be read make up
  `cs`; one lemma for each action, each of which moves characters from one part to the next.
* **`Scene.Kept cs`**: the invariant; **`kept_stepChar`**, **`said_or_kept_stepEnd`**: every state obeys
  it.
* **`raw_text_kept`**: what is called for raw text that does not end. -/

namespace HtmlStream

open Script

/-! ## (1) What is said and what is withheld -/

/-- A U+0000 is kept as U+FFFD. -/
def mend (c : Char) : Char := if c = '\x00' then '\uFFFD' else c

theorem mend_of_ne {c : Char} (h : c ≠ '\x00') : mend c = c := if_neg h

/-- The text of a token. -/
def Token.said : Token → List Char
  | .characters text => text.toList
  | _ => []

/-- Tokens of raw text: text and errors. -/
def Token.isQuiet : Token → Bool
  | .characters _ | .error .. => true
  | _ => false

/-- The characters that a state of raw text withholds, `letters` being those of a possible end tag;
none for the states of other text. -/
def State.withheld? (letters : String) : State → Option (List Char)
  | .plaintext => some []
  | .rawData .rcdata | .rawLessThanSign .rcdata | .rawEndTagOpen .rcdata | .rawEndTagName .rcdata =>
    none
  | .rawData _ => some []
  -- double escaped text says its `<` at once
  | .rawLessThanSign (.scriptDataEscaped .doubleEscaped) => some []
  | .rawLessThanSign _ => some ['<']
  | .rawEndTagOpen _ => if letters = "" then some ['<', '/'] else none
  | .rawEndTagName _ => some ('<' :: '/' :: letters.toList)
  | .scriptDataEscapeStart _ | .scriptDataEscapeStartDash | .scriptDataEscapedDash _
  | .scriptDataEscapedDashDash _ | .scriptDataDoubleEscapeEnd => some []
  | _ => none

section

variable {kind : RawKind} (hkind : kind ≠ .rcdata)
include hkind

theorem withheld?_rawData (letters : String) :
    (State.rawData kind).withheld? letters = some [] := by
  cases kind with
  | rcdata => exact absurd rfl hkind
  | _ => rfl

theorem withheld?_rawEndTagOpen (letters : String) :
    (State.rawEndTagOpen kind).withheld? letters = if letters = "" then some ['<', '/'] else none := by
  cases kind with
  | rcdata => exact absurd rfl hkind
  | _ => rfl

theorem withheld?_rawEndTagName (letters : String) :
    (State.rawEndTagName kind).withheld? letters = some ('<' :: '/' :: letters.toList) := by
  cases kind with
  | rcdata => exact absurd rfl hkind
  | _ => rfl

end

namespace Scene

/-- All text that has been queued or held back. -/
def said (s : Scene) : List Char := s.queued.flatMap Token.said ++ s.held.toList

/-- **A scene owes `cs`**: that is what it has said, then what is withheld, then what it has yet to read,
mended. Only text and errors have been queued, and no reference is under construction. -/
structure Owes (cs withheld : List Char) (s : Scene) : Prop where
  /-- Nothing is lost. -/
  text : s.said ++ withheld ++ s.rest.map mend = cs
  /-- Text and errors are queued. -/
  quiet : ∀ t ∈ s.queued, t.isQuiet = true
  /-- No reference is under construction. -/
  reference : s.reference = none
  /-- More may come of it. -/
  ended : s.ended = false

/-- **The text is kept**: it is owed with what the state withholds, and no end tag ends it. -/
structure Kept (cs : List Char) (s : Scene) : Prop where
  /-- It is owed. -/
  owes : ∃ withheld, s.state.withheld? s.letters = some withheld ∧ s.Owes cs withheld
  /-- No end tag is appropriate. -/
  endless : s.state = .plaintext ∨ s.last = none

/-- **The text has been said**, and the end of the input queued behind it. -/
def Said (cs : List Char) (s : Scene) : Prop :=
  s.ended = true ∧ ∃ before, s.queued = before ++ [.endOfInput] ∧
    (∀ t ∈ before, t.isQuiet = true) ∧ before.flatMap Token.said = cs

/-! ## (2) Actions -/

theorem said_textTokens (s : String) : (textTokens s).flatMap Token.said = s.toList := by
  unfold textTokens
  split
  · rename_i h
    rw [h]
    rfl
  · simp [Token.said]

theorem isQuiet_of_mem_textTokens {s : String} {t : Token} (h : t ∈ textTokens s) :
    t.isQuiet = true := by
  unfold textTokens at h
  split at h
  · cases h
  · rw [List.mem_singleton.mp h]
    rfl

namespace Owes

variable {m : Machine} {cs withheld : List Char}

/-- Before the first character, all of the input is owed. -/
theorem of_fresh (hqueue : m.queue = #[]) (htext : m.text = "") (href : m.reference = none)
    (hended : m.ended = false) : m.scene.Owes (m.input.pending.map mend) [] := by
  have hqueued : m.scene.queued = [] := by rw [Machine.scene, hqueue]
  have hheld : m.scene.held = "" := htext
  refine ⟨?_, by simp [hqueued], href, hended⟩
  rw [said, hqueued, hheld]
  rfl

/-- A character that is read is withheld. -/
theorem advance {c : Char} {rest : List Char} (h : m.scene.Owes cs withheld)
    (hpending : m.input.pending = c :: rest) : m.advance.scene.Owes cs (withheld ++ [mend c]) := by
  obtain ⟨htext, hquiet, href, hended⟩ := h
  have hrest : m.scene.rest = c :: rest := hpending
  refine ⟨?_, hquiet, href, hended⟩
  rw [← htext, hrest]
  simp [said, hrest]

/-- What is withheld is put back from its front. -/
theorem putText {t : String} (h : m.scene.Owes cs (t.toList ++ withheld)) :
    (m.putText t).scene.Owes cs withheld := by
  obtain ⟨htext, hquiet, href, hended⟩ := h
  refine ⟨?_, hquiet, href, hended⟩
  rw [← htext]
  simp [said]

theorem putChar {c : Char} (h : m.scene.Owes cs (c :: withheld)) :
    (m.putChar c).scene.Owes cs withheld := by
  obtain ⟨htext, hquiet, href, hended⟩ := h
  refine ⟨?_, hquiet, href, hended⟩
  rw [← htext]
  simp [said]

theorem report (code : ErrorCode) (h : m.scene.Owes cs withheld) :
    (m.report code).scene.Owes cs withheld := by
  obtain ⟨htext, hquiet, href, hended⟩ := h
  rw [Machine.scene_report]
  refine ⟨?_, ?_, href, hended⟩
  · rw [← htext]
    simp [said, said_textTokens, Token.said]
  · simp only [List.mem_append, List.mem_singleton]
    rintro t (ht | ht | rfl)
    · exact hquiet t ht
    · exact isQuiet_of_mem_textTokens ht
    · rfl

theorem replaceNull (h : m.scene.Owes cs ('\uFFFD' :: withheld)) :
    m.replaceNull.scene.Owes cs withheld :=
  (h.report .unexpectedNullCharacter).putChar

theorem goto (next : State) (h : m.scene.Owes cs withheld) :
    (m.goto next).scene.Owes cs withheld := by
  rw [Machine.scene_goto]
  exact ⟨h.text, h.quiet, h.reference, h.ended⟩

theorem clearLetters (h : m.scene.Owes cs withheld) : m.clearLetters.scene.Owes cs withheld :=
  ⟨h.text, h.quiet, h.reference, h.ended⟩

theorem putLetter (c : Char) (h : m.scene.Owes cs withheld) :
    (m.putLetter c).scene.Owes cs withheld :=
  ⟨h.text, h.quiet, h.reference, h.ended⟩

theorem openTag (kind : TagKind) (c : Char) (h : m.scene.Owes cs withheld) :
    (m.openTag kind c).scene.Owes cs withheld :=
  ⟨h.text, h.quiet, h.reference, h.ended⟩

theorem putTagName (c : Char) (h : m.scene.Owes cs withheld) :
    (m.putTagName c).scene.Owes cs withheld :=
  ⟨h.text, h.quiet, h.reference, h.ended⟩

/-- **The end of the input**: what is owed has been said. -/
theorem emitEnd (h : m.scene.Owes cs []) (hpending : m.input.pending = []) :
    m.emitEnd.scene.Said cs := by
  obtain ⟨htext, hquiet, -, -⟩ := h
  have hrest : m.scene.rest = [] := hpending
  rw [Machine.scene_emitEnd]
  refine ⟨rfl, m.scene.queued ++ textTokens m.scene.held, by simp, ?_, ?_⟩
  · intro t ht
    rcases List.mem_append.mp ht with ht | ht
    · exact hquiet t ht
    · exact isQuiet_of_mem_textTokens ht
  · rw [← htext, hrest]
    simp [said, said_textTokens]

/-- In a state of raw text that withholds what is withheld, and without an end tag, text is kept. -/
theorem kept_goto {next : State} (h : m.scene.Owes cs withheld) (hlast : m.scene.last = none)
    (hnext : next.withheld? m.scene.letters = some withheld) : (m.goto next).scene.Kept cs :=
  ⟨⟨withheld, by simp [hnext], h.goto next⟩, .inr (by simp [hlast])⟩

theorem kept (h : m.scene.Owes cs withheld) (hlast : m.scene.last = none)
    (hstate : m.scene.state.withheld? m.scene.letters = some withheld) : m.scene.Kept cs :=
  ⟨⟨withheld, hstate, h⟩, .inr hlast⟩

end Owes

/-- What is owed is what the state withholds. -/
theorem Kept.owes_of {s : Scene} {cs withheld : List Char} {place : State} (h : s.Kept cs)
    (hstate : s.state = place) (hplace : place.withheld? s.letters = some withheld) :
    s.Owes cs withheld := by
  obtain ⟨withheld', hwithheld, howes⟩ := h.owes
  rw [hstate, hplace, Option.some.injEq] at hwithheld
  exact hwithheld ▸ howes

/-- Text in which references are read is not kept as it is. -/
theorem Kept.kind_ne_rcdata {s : Scene} {cs : List Char} {kind : RawKind} (h : s.Kept cs)
    (hstate : s.state = .rawData kind ∨ s.state = .rawLessThanSign kind ∨
      s.state = .rawEndTagOpen kind ∨ s.state = .rawEndTagName kind) : kind ≠ .rcdata := by
  rintro rfl
  obtain ⟨withheld, hwithheld, -⟩ := h.owes
  rcases hstate with hstate | hstate | hstate | hstate <;> rw [hstate] at hwithheld <;>
    cases hwithheld

/-- After `</`, the letters of an earlier possible end tag are forgotten. -/
theorem Kept.owes_rawEndTagOpen {s : Scene} {cs : List Char} {kind : RawKind} (h : s.Kept cs)
    (hkind : kind ≠ .rcdata) (hstate : s.state = .rawEndTagOpen kind) :
    s.letters = "" ∧ s.Owes cs ['<', '/'] := by
  have hopen := withheld?_rawEndTagOpen hkind s.letters
  by_cases hletters : s.letters = ""
  · rw [if_pos hletters] at hopen
    exact ⟨hletters, h.owes_of hstate hopen⟩
  · obtain ⟨withheld, hwithheld, -⟩ := h.owes
    rw [hstate, hopen, if_neg hletters] at hwithheld
    cases hwithheld

end Scene

/-! ## (3) States -/

namespace Machine

section

variable {m : Machine} {cs rest : List Char} {c : Char}

/-- **A character that is kept** where nothing is withheld. -/
theorem kept_keep (h : m.scene.Kept cs) {place : State} (hstate : m.scene.state = place)
    (hplace : place.withheld? m.scene.letters = some [])
    (hpending : m.input.pending = c :: rest) :
    (if c = '\x00' then m.advance.replaceNull else m.advance.putChar c).scene.Kept cs := by
  have hread := (h.owes_of hstate hplace).advance hpending
  split
  · rename_i hnull
    rw [hnull] at hread
    exact ⟨⟨[], by simpa [replaceNull, hstate] using hplace, hread.replaceNull⟩,
      by simpa [replaceNull] using h.endless⟩
  · rename_i hnull
    rw [mend_of_ne hnull] at hread
    exact ⟨⟨[], by simpa [hstate] using hplace, hread.putChar⟩, h.endless⟩

theorem stepPlaintext_eq (c : Char) : m.stepPlaintext c
    = if c = '\x00' then m.advance.replaceNull else m.advance.putChar c := by
  unfold stepPlaintext
  split <;> simp_all

theorem stepRawData_rawtext (c : Char) : m.stepRawData .rawtext c
    = if c = '<' then m.advance.goto (.rawLessThanSign .rawtext)
      else if c = '\x00' then m.advance.replaceNull
      else m.advance.putChar c := by
  unfold stepRawData
  split <;> simp_all

theorem stepRawLessThanSign_rawtext (c : Char) : m.stepRawLessThanSign .rawtext c
    = if c = '/' then m.advance.clearLetters.goto (.rawEndTagOpen .rawtext)
      else (m.putChar '<').goto (.rawData .rawtext) := by
  unfold stepRawLessThanSign
  split <;> simp_all

section

variable (h : m.scene.Owes cs []) (hlast : m.scene.last = none) {next : State}
include h hlast

/-- A character that is kept before another state goes on. -/
theorem kept_take (hc : c ≠ '\x00') (hpending : m.input.pending = c :: rest)
    (hnext : next.withheld? m.scene.letters = some []) :
    ((m.advance.putChar c).goto next).scene.Kept cs := by
  have hread := h.advance hpending
  rw [mend_of_ne hc] at hread
  exact hread.putChar.kept_goto hlast hnext

/-- A U+0000 that is kept before another state goes on. -/
theorem kept_takeNull (hpending : m.input.pending = '\x00' :: rest)
    (hnext : next.withheld? m.scene.letters = some []) :
    (m.advance.replaceNull.goto next).scene.Kept cs :=
  (h.advance hpending).replaceNull.kept_goto (by simpa [replaceNull] using hlast)
    (by simpa [replaceNull] using hnext)

/-- A character that is left unread. -/
theorem kept_leave (hnext : next.withheld? m.scene.letters = some []) :
    (m.goto next).scene.Kept cs :=
  h.kept_goto hlast hnext

/-- The `<` of escaped text: double escaped text says it at once. -/
theorem kept_escapedLessThan (hpending : m.input.pending = '<' :: rest) (kind : EscapeKind) :
    (m.advance.escapedLessThan kind).scene.Kept cs := by
  have hread := h.advance hpending
  cases kind with
  | escaped => exact hread.kept_goto hlast rfl
  | doubleEscaped => exact (Scene.Owes.putChar hread).kept_goto hlast rfl

/-- A dash in a state that counts dashes. -/
theorem kept_escapeDash (hpending : m.input.pending = c :: rest) {onDash otherwise : State}
    (hdash : onDash.withheld? m.scene.letters = some [])
    (hother : otherwise.withheld? m.scene.letters = some []) :
    (m.escapeDash c onDash otherwise).scene.Kept cs := by
  unfold escapeDash
  split
  · rename_i hc
    rw [hc] at hpending
    exact kept_take h hlast (by decide) hpending hdash
  · exact kept_leave h hlast hother

/-- The letters of a possible `script` are kept as they come. -/
theorem kept_escapeBoundary (hpending : m.input.pending = c :: rest)
    (hstate : ∀ letters, m.scene.state.withheld? letters = some []) (onScript otherwise : EscapeKind) :
    (m.escapeBoundary c onScript otherwise).scene.Kept cs := by
  unfold escapeBoundary
  split
  · rename_i hc
    have hnull : c ≠ '\x00' := by
      rintro rfl
      cases hc
    exact kept_take h hlast hnull hpending rfl
  · split
    · rename_i halpha
      have hread := h.advance hpending
      rw [mend_of_ne (by rintro rfl; cases halpha)] at hread
      exact (Scene.Owes.putChar (hread.putLetter c.toLower)).kept hlast (hstate _)
    · exact kept_leave h hlast rfl

end

/-- After `<`, which is withheld, a `/` is withheld too. -/
theorem kept_slash {kind : RawKind} (hkind : kind ≠ .rcdata) (h : m.scene.Owes cs ['<'])
    (hlast : m.scene.last = none) (hpending : m.input.pending = '/' :: rest) :
    (m.advance.clearLetters.goto (.rawEndTagOpen kind)).scene.Kept cs :=
  (h.advance hpending).clearLetters.kept_goto hlast (withheld?_rawEndTagOpen hkind _)

/-- A possible end tag that is none comes back in its own letters. -/
theorem kept_putBackEndTag {kind : RawKind} (hkind : kind ≠ .rcdata) (h : m.scene.Kept cs)
    (hlast : m.scene.last = none) (hstate : m.scene.state = .rawEndTagName kind) :
    (m.putBackEndTag kind).scene.Kept cs := by
  have howes := h.owes_of hstate (withheld?_rawEndTagName hkind _)
  have hletters : ("</" ++ m.letters).toList ++ [] = '<' :: '/' :: m.scene.letters.toList := by
    simp [scene]
  rw [← hletters] at howes
  exact (Scene.Owes.putText howes.clearLetters).kept_goto hlast (withheld?_rawData hkind _)

section

variable (h : m.scene.Kept cs) (hlast : m.scene.last = none)
  (hpending : m.input.pending = c :: rest)
include h hlast hpending

theorem kept_stepRawData_rawtext (hstate : m.scene.state = .rawData .rawtext) :
    (m.stepRawData .rawtext c).scene.Kept cs := by
  rw [stepRawData_rawtext]
  split
  · rename_i hc
    rw [hc] at hpending
    exact ((h.owes_of hstate rfl).advance hpending).kept_goto hlast rfl
  · exact kept_keep h hstate rfl hpending

theorem kept_stepRawData_scriptData (hstate : m.scene.state = .rawData .scriptData) :
    (m.stepRawData .scriptData c).scene.Kept cs := by
  rw [stepRawData_scriptData]
  split
  · rename_i hc
    rw [hc] at hpending
    exact ((h.owes_of hstate rfl).advance hpending).kept_goto hlast rfl
  · exact kept_keep h hstate rfl hpending

theorem kept_stepRawData_escaped {kind : EscapeKind}
    (hstate : m.scene.state = .rawData (.scriptDataEscaped kind)) :
    (m.stepRawData (.scriptDataEscaped kind) c).scene.Kept cs := by
  rw [stepRawData_escaped]
  split
  · rename_i hc
    rw [hc] at hpending
    exact kept_take (h.owes_of hstate rfl) hlast (by decide) hpending rfl
  · split
    · rename_i hc
      rw [hc] at hpending
      exact kept_escapedLessThan (h.owes_of hstate rfl) hlast hpending kind
    · exact kept_keep h hstate rfl hpending

/-- **After `<`**: what begins no end tag and no nested script puts it back. -/
theorem kept_stepRawLessThanSign {kind : RawKind} (hkind : kind ≠ .rcdata)
    (hstate : m.scene.state = .rawLessThanSign kind) :
    (m.stepRawLessThanSign kind c).scene.Kept cs := by
  cases kind with
  | rcdata => exact absurd rfl hkind
  | rawtext =>
    have howes : m.scene.Owes cs ['<'] := h.owes_of hstate rfl
    rw [stepRawLessThanSign_rawtext]
    split
    · rename_i hc
      rw [hc] at hpending
      exact kept_slash hkind howes hlast hpending
    · exact howes.putChar.kept_goto hlast rfl
  | scriptData =>
    have howes : m.scene.Owes cs ['<'] := h.owes_of hstate rfl
    rw [stepRawLessThanSign_scriptData]
    split
    · rename_i hc
      rw [hc] at hpending
      exact kept_slash hkind howes hlast hpending
    · split
      · rename_i hc
        rw [hc] at hpending
        exact (Scene.Owes.putText (t := "<!") (howes.advance hpending)).kept_goto hlast rfl
      · exact howes.putChar.kept_goto hlast rfl
  | scriptDataEscaped escape =>
    cases escape with
    | escaped =>
      have howes : m.scene.Owes cs ['<'] := h.owes_of hstate rfl
      rw [stepRawLessThanSign_escaped]
      split
      · rename_i hc
        rw [hc] at hpending
        exact kept_slash hkind howes hlast hpending
      · split
        · exact howes.clearLetters.putChar.kept_goto hlast rfl
        · exact howes.putChar.kept_goto hlast rfl
    | doubleEscaped =>
      -- here the `<` has been said, and the `/` is said at once
      have howes : m.scene.Owes cs [] := h.owes_of hstate rfl
      rw [stepRawLessThanSign_doubleEscaped]
      split
      · rename_i hc
        rw [hc] at hpending
        exact (Scene.Owes.putChar (howes.advance hpending).clearLetters).kept_goto hlast rfl
      · exact kept_leave howes hlast rfl

/-- **After `</`**: a letter begins the name of a possible end tag. -/
theorem kept_stepRawEndTagOpen {kind : RawKind} (hkind : kind ≠ .rcdata)
    (hstate : m.scene.state = .rawEndTagOpen kind) :
    (m.stepRawEndTagOpen kind c).scene.Kept cs := by
  obtain ⟨hletters, howes⟩ := h.owes_rawEndTagOpen hkind hstate
  unfold stepRawEndTagOpen
  split
  · rename_i halpha
    have hread := howes.advance hpending
    rw [mend_of_ne (by rintro rfl; cases halpha)] at hread
    refine ((hread.openTag .closing c.toLower).putLetter c).kept_goto hlast ?_
    rw [withheld?_rawEndTagName hkind]
    simp [hletters]
  · exact (Scene.Owes.putText (t := "</") howes).kept_goto hlast (withheld?_rawData hkind _)

/-- **The name of a possible end tag**: without a last start tag it is none, and all of it comes back. -/
theorem kept_stepRawEndTagName {kind : RawKind} (hkind : kind ≠ .rcdata)
    (hstate : m.scene.state = .rawEndTagName kind) :
    (m.stepRawEndTagName kind c).scene.Kept cs := by
  have hnone : m.isAppropriateEndTag = false := by
    rw [isAppropriateEndTag, show m.lastStartTag = none from hlast]
    rfl
  unfold stepRawEndTagName
  simp only [hnone, Bool.false_and, Bool.false_eq_true, if_false]
  split
  · rename_i halpha
    have hread := (h.owes_of hstate (withheld?_rawEndTagName hkind _)).advance hpending
    rw [mend_of_ne (by rintro rfl; cases halpha)] at hread
    refine ((hread.putTagName c.toLower).putLetter c).kept hlast ?_
    simp [hstate, withheld?_rawEndTagName hkind]
  · exact kept_putBackEndTag hkind h hlast hstate

/-! ### Script data inside `<!--` -/

theorem kept_stepEscapeStart {kind : EscapeKind}
    (hstate : m.scene.state = .scriptDataEscapeStart kind) :
    (m.stepEscapeStart kind c).scene.Kept cs := by
  have howes : m.scene.Owes cs [] := h.owes_of hstate rfl
  cases kind with
  | escaped => exact kept_escapeDash howes hlast hpending rfl rfl
  | doubleEscaped =>
    exact kept_escapeBoundary howes hlast hpending (fun _ => by rw [hstate]; rfl) _ _

theorem kept_stepEscapeStartDash (hstate : m.scene.state = .scriptDataEscapeStartDash) :
    (m.stepEscapeStartDash c).scene.Kept cs :=
  kept_escapeDash (h.owes_of hstate rfl) hlast hpending rfl rfl

theorem kept_stepEscapedDash {kind : EscapeKind}
    (hstate : m.scene.state = .scriptDataEscapedDash kind) :
    (m.stepEscapedDash kind c).scene.Kept cs := by
  have howes : m.scene.Owes cs [] := h.owes_of hstate rfl
  rw [stepEscapedDash_eq]
  split_ifs with hdash hlt hnull
  · rw [hdash] at hpending
    exact kept_take howes hlast (by decide) hpending rfl
  · rw [hlt] at hpending
    exact kept_escapedLessThan howes hlast hpending kind
  · rw [hnull] at hpending
    exact kept_takeNull howes hlast hpending rfl
  · exact kept_take howes hlast hnull hpending rfl

theorem kept_stepEscapedDashDash {kind : EscapeKind}
    (hstate : m.scene.state = .scriptDataEscapedDashDash kind) :
    (m.stepEscapedDashDash kind c).scene.Kept cs := by
  have howes : m.scene.Owes cs [] := h.owes_of hstate rfl
  rw [stepEscapedDashDash_eq]
  split_ifs with hdash hlt hgt hnull
  · rw [hdash] at hpending
    exact (Scene.Owes.putChar (howes.advance hpending)).kept hlast (by simp [hstate]; rfl)
  · rw [hlt] at hpending
    exact kept_escapedLessThan howes hlast hpending kind
  · rw [hgt] at hpending
    exact kept_take howes hlast (by decide) hpending rfl
  · rw [hnull] at hpending
    exact kept_takeNull howes hlast hpending rfl
  · exact kept_take howes hlast hnull hpending rfl

theorem kept_stepDoubleEscapeEnd (hstate : m.scene.state = .scriptDataDoubleEscapeEnd) :
    (m.stepDoubleEscapeEnd c).scene.Kept cs :=
  kept_escapeBoundary (h.owes_of hstate rfl) hlast hpending
    (fun _ => by rw [hstate]; rfl) _ _

end

/-! ### All of them -/

/-- **A character** keeps the text. -/
theorem kept_stepChar (h : m.scene.Kept cs) (hpending : m.input.pending = c :: rest) :
    ∃ m', m.stepChar c = some m' ∧ m'.scene.Kept cs := by
  obtain ⟨withheld, hwithheld, -⟩ := h.owes
  by_cases hplain : m.scene.state = .plaintext
  · refine ⟨m.stepPlaintext c, by rw [stepChar, show m.state = .plaintext from hplain], ?_⟩
    rw [stepPlaintext_eq]
    exact kept_keep h hplain rfl hpending
  have hlast := h.endless.resolve_left hplain
  unfold stepChar
  cases hstate : m.state with
  | rawData kind =>
    cases kind with
    | rcdata => exact absurd rfl (h.kind_ne_rcdata (.inl hstate))
    | rawtext => exact ⟨_, rfl, kept_stepRawData_rawtext h hlast hpending hstate⟩
    | scriptData => exact ⟨_, rfl, kept_stepRawData_scriptData h hlast hpending hstate⟩
    | scriptDataEscaped kind => exact ⟨_, rfl, kept_stepRawData_escaped h hlast hpending hstate⟩
  | scriptDataEscapeStart kind => exact ⟨_, rfl, kept_stepEscapeStart h hlast hpending hstate⟩
  | scriptDataEscapeStartDash =>
    exact ⟨_, rfl, kept_stepEscapeStartDash h hlast hpending hstate⟩
  | scriptDataEscapedDash kind => exact ⟨_, rfl, kept_stepEscapedDash h hlast hpending hstate⟩
  | scriptDataEscapedDashDash kind =>
    exact ⟨_, rfl, kept_stepEscapedDashDash h hlast hpending hstate⟩
  | scriptDataDoubleEscapeEnd => exact ⟨_, rfl, kept_stepDoubleEscapeEnd h hlast hpending hstate⟩
  | rawLessThanSign kind =>
    exact ⟨_, rfl, kept_stepRawLessThanSign h hlast hpending
      (h.kind_ne_rcdata (.inr (.inl hstate))) hstate⟩
  | rawEndTagOpen kind =>
    exact ⟨_, rfl, kept_stepRawEndTagOpen h hlast hpending
      (h.kind_ne_rcdata (.inr (.inr (.inl hstate)))) hstate⟩
  | rawEndTagName kind =>
    exact ⟨_, rfl, kept_stepRawEndTagName h hlast hpending
      (h.kind_ne_rcdata (.inr (.inr (.inr hstate)))) hstate⟩
  | plaintext => exact absurd hstate hplain
  | _ =>
    simp only [scene, hstate] at hwithheld
    cases hwithheld

/-- **The end of the input** brings back what is withheld, or ends text of which nothing is. -/
theorem said_or_kept_stepEnd (h : m.scene.Kept cs) (hpending : m.input.pending = []) :
    m.stepEnd.scene.Said cs ∨ m.stepEnd.scene.Kept cs := by
  obtain ⟨withheld, hwithheld, -⟩ := h.owes
  by_cases hplain : m.scene.state = .plaintext
  · rw [stepEnd, show m.state = .plaintext from hplain]
    exact .inl ((h.owes_of hplain rfl).emitEnd hpending)
  have hlast := h.endless.resolve_left hplain
  -- text outside of `<!--` ends in silence, and text inside with an error
  have hsilent (howes : m.scene.Owes cs []) : m.emitEnd.scene.Said cs := howes.emitEnd hpending
  have hescaped (howes : m.scene.Owes cs []) :
      (m.report .eofInScriptHtmlCommentLikeText).emitEnd.scene.Said cs :=
    (howes.report _).emitEnd (by rw [input_report]; exact hpending)
  unfold stepEnd
  cases hstate : m.state with
  | rawData kind =>
    have howes := h.owes_of hstate (withheld?_rawData (h.kind_ne_rcdata (.inl hstate)) _)
    cases kind with
    | scriptDataEscaped kind => exact .inl (hescaped howes)
    | _ => exact .inl (hsilent howes)
  | scriptDataEscapedDash kind => exact .inl (hescaped (h.owes_of hstate rfl))
  | scriptDataEscapedDashDash kind => exact .inl (hescaped (h.owes_of hstate rfl))
  | rawLessThanSign kind =>
    refine .inr ?_
    cases kind with
    | rcdata => exact absurd rfl (h.kind_ne_rcdata (.inr (.inl hstate)))
    | scriptDataEscaped kind =>
      cases kind with
      | escaped => exact (h.owes_of hstate rfl).putChar.kept_goto hlast rfl
      | doubleEscaped => exact kept_leave (h.owes_of hstate rfl) hlast rfl
    | _ => exact (h.owes_of hstate rfl).putChar.kept_goto hlast rfl
  | rawEndTagOpen kind =>
    have hkind := h.kind_ne_rcdata (.inr (.inr (.inl hstate)))
    have howes := (h.owes_rawEndTagOpen hkind hstate).2
    exact .inr ((Scene.Owes.putText (t := "</") howes).kept_goto hlast (withheld?_rawData hkind _))
  | rawEndTagName kind =>
    exact .inr (kept_putBackEndTag (h.kind_ne_rcdata (.inr (.inr (.inr hstate)))) h hlast hstate)
  | scriptDataEscapeStart kind =>
    refine .inr ?_
    cases kind <;> exact kept_leave (h.owes_of hstate rfl) hlast rfl
  | scriptDataEscapeStartDash => exact .inr (kept_leave (h.owes_of hstate rfl) hlast rfl)
  | scriptDataDoubleEscapeEnd => exact .inr (kept_leave (h.owes_of hstate rfl) hlast rfl)
  | plaintext => exact absurd hstate hplain
  | _ =>
    simp only [scene, hstate] at hwithheld
    cases hwithheld

/-! ## (4) Runs -/

/-- **A step** keeps the text or ends it. -/
theorem said_or_kept_step {m' : Machine} (h : m.scene.Kept cs) (hstep : step .byChar m = some m') :
    m'.scene.Said cs ∨ m'.scene.Kept cs := by
  obtain ⟨withheld, -, howes⟩ := h.owes
  have hended : m.ended = false := howes.ended
  have href : m.reference = none := howes.reference
  cases hpending : m.input.pending with
  | cons c rest =>
    rw [step_of_char hended href hpending, stepAt_byChar] at hstep
    obtain ⟨k, hk, hkept⟩ := kept_stepChar h hpending
    rw [hstep, Option.some.injEq] at hk
    exact .inr (hk ▸ hkept)
  | nil =>
    have hend : step .byChar m = if m.input.finished then some m.stepEnd else none := by
      rw [step, if_neg (by simp [hended]), href, hpending]
    rw [hend] at hstep
    split at hstep <;> cases hstep
    exact said_or_kept_stepEnd h hpending

/-- **A run** behind the last byte says the text. -/
theorem said_run (h : m.scene.Kept cs) (hfinished : m.input.finished = true) :
    m.run.scene.Said cs := by
  have hchain {k : Machine} (hleads : m.Leads k) : k.scene.Said cs ∨ k.scene.Kept cs := by
    induction hleads with
    | refl => exact .inr h
    | tail _ hstep ih =>
      rcases ih with hsaid | hkept
      · -- nothing follows the end of the input
        rw [step_of_ended hsaid.1] at hstep
        cases hstep
      · exact said_or_kept_step hkept hstep
  refine (hchain m.leads_run).resolve_right fun hkept => ?_
  obtain ⟨withheld, -, howes⟩ := hkept.owes
  have hended : m.run.ended = false := howes.ended
  rw [ended_run hfinished] at hended
  cases hended

end

end Machine

/-! ## (5) Sessions -/

/-- The text of a call. -/
def Callback.said : TextCallback → List Char
  | .chars text => text.toList
  | _ => []

/-- Text and errors are called as what they are. -/
theorem calls_of_quiet (config : Config) {tokens : List Token}
    (h : ∀ t ∈ tokens, t.isQuiet = true) :
    (∀ call ∈ config.calls tokens, call.kind = .chars ∨ call.kind = .error) ∧
      (config.calls tokens).flatMap Callback.said = tokens.flatMap Token.said := by
  have htoken (t : Token) (ht : t.isQuiet = true) :
      (∀ call ∈ t.callbacks config.exactErrors, call.kind = .chars ∨ call.kind = .error) ∧
        (t.callbacks config.exactErrors).flatMap Callback.said = t.said := by
    cases t with
    | characters text => exact ⟨by simp [Token.callbacks, Callback.kind],
        by simp [Token.callbacks, Callback.said, Token.said]⟩
    | error e state => exact ⟨by simp [Token.callbacks, Callback.kind], rfl⟩
    | _ => cases ht
  refine ⟨fun call hcall => ?_, ?_⟩
  · obtain ⟨t, ht, hcall⟩ := List.mem_flatMap.mp hcall
    exact (htoken t (h t ht)).1 call hcall
  · rw [Config.calls, List.flatMap_assoc]
    exact List.flatMap_congr fun t ht => (htoken t (h t ht)).2

/-- **Raw text is kept.** For plain text, and for the content of a text element or a script without a
last start tag, whatever the input: the calls are texts and errors and then the end of the input, and
the texts make up the whole input, decoded, with a line feed for every line end and with U+FFFD for
every U+0000. -/
theorem raw_text_kept (surface : Surface) {config : Config}
    (hkind : config.initialState = .plaintext ∨ config.lastStartTag = none ∧
      (config.initialState = .rawtext ∨ config.initialState = .scriptData)) (chunks : List Bytes) :
    ∃ calls stats, tokenize surface config chunks = .ok (calls ++ [.eof], stats) ∧
      (∀ call ∈ calls, call.kind = .chars ∨ call.kind = .error) ∧
      calls.flatMap Callback.said = (normalizeNewlines (stripBom config.discardBom
        (Utf8.lossy chunks.flatten).toList)).map mend := by
  have hkept : (Machine.whole config chunks.flatten).scene.Kept
      ((Machine.whole config chunks.flatten).input.pending.map mend) := by
    refine ⟨⟨[], ?_, Scene.Owes.of_fresh rfl rfl rfl rfl⟩, ?_⟩
    · show config.initialState.state.withheld? "" = some []
      rcases hkind with h | ⟨-, h | h⟩ <;> rw [h] <;> rfl
    · show config.initialState.state = .plaintext ∨ config.lastStartTag.map Ascii.lower = none
      rcases hkind with h | ⟨h, -⟩
      · exact .inl (by rw [h]; rfl)
      · exact .inr (by rw [h]; rfl)
  have hfinished : (Machine.whole config chunks.flatten).input.finished = true := rfl
  have hrun := Machine.said_run hkept hfinished
  rw [tokenize_eq, ← Machine.pending_whole]
  generalize (Machine.whole config chunks.flatten).run = k at hrun ⊢
  obtain ⟨-, before, hqueue, hquiet, hsaid⟩ := hrun
  obtain ⟨hkinds, htexts⟩ := calls_of_quiet config hquiet
  have hcalls : config.calls k.queue.toList = config.calls before ++ [.eof] := by
    rw [show k.queue.toList = before ++ [.endOfInput] from hqueue, Config.calls_append]
    rfl
  exact ⟨config.calls before, _, by rw [hcalls], hkinds, htexts.trans hsaid⟩

/-- A nested script that does not end, and a possible end tag that the input cuts short, on the surface
that shares its buffers. -/
theorem raw_text_kept_script :
    ∃ calls stats, tokenize .shared { initialState := .scriptData }
        [Utf8.encode "<!--<script></scr", Utf8.encode "ipt--\x00>\r\n</b"] = .ok (calls ++ [.eof], stats) ∧
      (∀ call ∈ calls, call.kind = .chars ∨ call.kind = .error) ∧
      calls.flatMap Callback.said = "<!--<script></script--\uFFFD>\n</b".toList := by
  let config : Config := { initialState := .scriptData }
  have hkind : config.initialState = .plaintext ∨ config.lastStartTag = none ∧
      (config.initialState = .rawtext ∨ config.initialState = .scriptData) := .inr ⟨rfl, .inr rfl⟩
  obtain ⟨calls, stats, htokenize, hkinds, hsaid⟩ := raw_text_kept .shared hkind
    [Utf8.encode "<!--<script></scr", Utf8.encode "ipt--\x00>\r\n</b"]
  exact ⟨calls, stats, htokenize, hkinds, hsaid.trans (by decide +kernel)⟩

end HtmlStream

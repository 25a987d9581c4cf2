import HtmlStream.Proofs.Machine.Past
import HtmlStream.Proofs.RawText.Search
import Mathlib

/-! # The end tag of raw text

Raw text ends at its first appropriate end tag. Up to there it is what it would be without a last start
tag; from there on the input is read like a document of its own that begins with the end tag, behind
what has been queued for the text.

* **`Machine.named`**: the machine behind the name of an end tag.
* **`leads_named_raw`**, **`leads_named_data`**: so the name is read in raw text and in a document.
* **`run_closed`**: a machine at the end tag of its text runs like one that begins there.
* **`BeginsEndTag n cs`**: an end tag of the name `n` is at the front of `cs`.
* **`raw_text_ends`**: the calls for raw text that may end. -/

namespace HtmlStream

open Script

namespace Machine

variable {m : Machine} {kind : RawKind} {letters tail : List Char} {c : Char}

/-! ## (1) The name of an end tag -/

/-- The machine that has read `</` and letters, in three moves to a state. -/
def named (m : Machine) (state : State) (letters : List Char) (kept : String) : Machine :=
  { m with
    state
    input := m.input.skip (letters.length + 2)
    tag := { kind := .closing, name := String.ofList (letters.map Char.toLower) }
    currentAttribute := none
    letters := kept
    transitions := m.transitions + 3 }

theorem pending_named {state : State} {kept : String}
    (hpending : m.input.pending = '<' :: '/' :: (letters ++ tail)) :
    (m.named state letters kept).input.pending = tail := by
  show m.input.pending.drop (letters.length + 2) = tail
  rw [hpending, List.drop_succ_cons, List.drop_succ_cons, List.drop_left]

/-- One letter more. -/
theorem putTagName_named (state : State) (letters : List Char) (kept : String) (c : Char) :
    (m.named state letters kept).advance.putTagName c.toLower
      = m.named state (letters ++ [c]) kept := by
  simp [named, advance, putTagName, Input.advance, Input.skip]
  omega

/-- A letter ends no name. -/
theorem endsTagName_of_isAlpha (h : c.isAlpha = true) : endsTagName c = false := by
  rw [Bool.eq_false_iff]
  intro hc
  simp only [endsTagName, Ascii.isSpace, Bool.or_eq_true, decide_eq_true_eq] at hc
  rcases hc with ((((hc | hc) | hc) | hc) | hc) | hc <;> subst hc <;> cases h

/-- **More letters**, if a state reads each of them as one letter more. -/
theorem leads_letters_named {state : State} {kept : List Char → String} {done more : List Char}
    (hended : m.ended = false) (href : m.reference = none)
    (hread : ∀ done c, c.isAlpha = true → (m.named state done (kept done)).stepChar c
      = some (m.named state (done ++ [c]) (kept (done ++ [c]))))
    (hmore : ∀ c ∈ more, c.isAlpha = true)
    (hpending : m.input.pending = '<' :: '/' :: (done ++ (more ++ tail))) :
    (m.named state done (kept done)).Leads (m.named state (done ++ more) (kept (done ++ more))) := by
  induction more generalizing done with
  | nil =>
    rw [List.append_nil]
    exact Relation.ReflTransGen.refl
  | cons c more ih =>
    have hstep : step .byChar (m.named state done (kept done))
        = some (m.named state (done ++ [c]) (kept (done ++ [c]))) := by
      rw [step_of_char (m := m.named state done (kept done)) hended href (pending_named hpending),
        stepAt_byChar]
      exact hread done c (hmore c List.mem_cons_self)
    have hrest := @ih (done ++ [c]) (fun d hd => hmore d (List.mem_cons_of_mem c hd))
      (by rw [hpending]; simp)
    rw [List.append_assoc] at hrest
    exact hrest.head hstep

theorem goto_of_ne {next : State} (h : m.state ≠ next) :
    m.goto next = { m with state := next, transitions := m.transitions + 1 } := if_neg h

/-- **In raw text**, the name of a possible end tag is read together with its letters. -/
theorem leads_named_raw (hkind : kind = .rawtext ∨ kind = .rcdata) (hended : m.ended = false)
    (href : m.reference = none) (hstate : m.state = .rawData kind) (hne : letters ≠ [])
    (hletters : ∀ l ∈ letters, l.isAlpha = true)
    (hpending : m.input.pending = '<' :: '/' :: (letters ++ tail)) :
    m.Leads (m.named (.rawEndTagName kind) letters (String.ofList letters)) := by
  obtain ⟨first, more, rfl⟩ := List.exists_cons_of_ne_nil hne
  have hfirst : first.isAlpha = true := hletters first List.mem_cons_self
  -- three moves, of which the last reads the first letter
  let k₁ : Machine := { m.advance with
    state := .rawLessThanSign kind, transitions := m.transitions + 1 }
  let k₂ : Machine := { k₁.advance.clearLetters with
    state := .rawEndTagOpen kind, transitions := m.transitions + 2 }
  have hlt : step .byChar m = some k₁ := by
    rw [step_of_char hended href hpending, stepAt_byChar, stepChar, hstate]
    show some (m.stepRawData kind '<') = some k₁
    rw [stepRawData_eq hkind, if_neg (by simp), if_pos rfl, goto_of_ne (by simp [advance, hstate])]
    rfl
  have hsolidus : step .byChar k₁ = some k₂ := by
    have hpending₁ : k₁.input.pending = '/' :: (first :: more ++ tail) := congrArg List.tail hpending
    rw [step_of_char (m := k₁) hended href hpending₁, stepAt_byChar]
    show some (k₁.stepRawLessThanSign kind '/') = some k₂
    rw [stepRawLessThanSign_eq hkind, if_pos rfl, goto_of_ne (by simp [k₁, advance, clearLetters])]
    rfl
  have hname : step .byChar k₂
      = some (m.named (.rawEndTagName kind) [first] (String.ofList [first])) := by
    have hpending₂ : k₂.input.pending = first :: (more ++ tail) :=
      congrArg (List.tail ∘ List.tail) hpending
    rw [step_of_char (m := k₂) hended href hpending₂, stepAt_byChar]
    show some (k₂.stepRawEndTagOpen kind first) = _
    rw [stepRawEndTagOpen, if_pos hfirst, goto_of_ne (by simp [k₂, openTag, putLetter, advance])]
    simp [named, k₂, k₁, advance, Input.advance, Input.skip, clearLetters, openTag, putLetter,
      hpending]
  have hread (done : List Char) (c : Char) (hc : c.isAlpha = true) :
      (m.named (.rawEndTagName kind) done (String.ofList done)).stepChar c
        = some (m.named (.rawEndTagName kind) (done ++ [c]) (String.ofList (done ++ [c]))) := by
    show some ((m.named (.rawEndTagName kind) done _).stepRawEndTagName kind c) = _
    have hkept : (String.ofList done).push c = String.ofList (done ++ [c]) := by
      rw [← String.toList_inj]
      simp
    rw [stepRawEndTagName_of_not (fun _ => endsTagName_of_isAlpha hc), if_pos hc, putTagName_named,
      ← hkept]
    rfl
  have hmore := @leads_letters_named m tail _ String.ofList [first] more hended href hread
    (fun c hc => hletters c (List.mem_cons_of_mem first hc)) hpending
  exact (Leads.single hlt).trans ((Leads.single hsolidus).trans ((Leads.single hname).trans hmore))

/-- **In a document**, the name of an end tag is read. -/
theorem leads_named_data (hended : m.ended = false) (href : m.reference = none)
    (hstate : m.state = .data) (hne : letters ≠ []) (hletters : ∀ l ∈ letters, l.isAlpha = true)
    (hpending : m.input.pending = '<' :: '/' :: (letters ++ tail)) :
    m.Leads (m.named .tagName letters m.letters) := by
  obtain ⟨first, more, rfl⟩ := List.exists_cons_of_ne_nil hne
  have hfirst : first.isAlpha = true := hletters first List.mem_cons_self
  let k₁ : Machine := { m.advance with state := .tagOpen, transitions := m.transitions + 1 }
  let k₂ : Machine := { k₁.advance with state := .endTagOpen, transitions := m.transitions + 2 }
  have hlt : step .byChar m = some k₁ := by
    rw [step_of_char hended href hpending, stepAt_byChar, stepChar, hstate]
    exact congrArg some (goto_of_ne (by simp [advance, hstate]))
  have hsolidus : step .byChar k₁ = some k₂ := by
    have hpending₁ : k₁.input.pending = '/' :: (first :: more ++ tail) := congrArg List.tail hpending
    rw [step_of_char (m := k₁) hended href hpending₁, stepAt_byChar]
    show some (k₁.stepTagOpen '/') = some k₂
    rw [stepTagOpen, if_neg (by decide), if_pos rfl, goto_of_ne (by simp [k₁, advance])]
    rfl
  have hname : step .byChar k₂ = some (m.named .tagName [first] m.letters) := by
    have hpending₂ : k₂.input.pending = first :: (more ++ tail) :=
      congrArg (List.tail ∘ List.tail) hpending
    rw [step_of_char (m := k₂) hended href hpending₂, stepAt_byChar]
    show some (k₂.stepEndTagOpen first) = _
    rw [stepEndTagOpen, if_pos hfirst, goto_of_ne (by simp [k₂, openTag, advance])]
    simp [named, k₂, k₁, advance, Input.advance, Input.skip, openTag, hpending]
  have hread (done : List Char) (c : Char) (hc : c.isAlpha = true) :
      (m.named .tagName done m.letters).stepChar c
        = some (m.named .tagName (done ++ [c]) m.letters) := by
    have hnot := endsTagName_of_isAlpha hc
    have hnull : c ≠ '\x00' := by
      rintro rfl
      cases hc
    simp only [endsTagName, Bool.or_eq_false_iff, decide_eq_false_iff_not] at hnot
    show some ((m.named .tagName done _).stepTagName c) = _
    simp only [stepTagName, hnot.1.1, hnot.1.2, hnot.2, hnull, if_false, Bool.false_eq_true,
      putTagName_named]
  have hmore := @leads_letters_named m tail _ (fun _ => m.letters) [first] more hended href hread
    (fun c hc => hletters c (List.mem_cons_of_mem first hc)) hpending
  exact (Leads.single hlt).trans ((Leads.single hsolidus).trans ((Leads.single hname).trans hmore))

/-! ## (2) The end of the name -/

/-- An end tag without attributes is queued with no error. -/
theorem emitTag_endTagOf {name : String} (hcurrent : m.currentAttribute = none)
    (htag : m.tag = endTagOf name) :
    m.emitTag = (m.resetTag.emit (.tag (endTagOf name))).goto .data := by
  have hclose : m.closeAttribute = m := by
    unfold closeAttribute
    rw [hcurrent]
  rw [emitTag, hclose, htag]
  rfl

/-- It is queued alike in all states of tags. -/
theorem emitTag_of_state {name : String} (hcurrent : m.currentAttribute = none)
    (htag : m.tag = endTagOf name) (hstate : m.state ≠ .data) :
    m.emitTag = { m with state := .tagName }.emitTag := by
  have hflush := flush_action m.resetTag (fun k => { k with state := .tagName }) rfl rfl
  have hemit : { m with state := .tagName }.resetTag.emit (.tag (endTagOf name))
      = { m.resetTag.emit (.tag (endTagOf name)) with state := .tagName } :=
    congrArg (enqueue · (.tag (endTagOf name))) hflush
  have hbefore : (m.resetTag.emit (.tag (endTagOf name))).state = m.state :=
    congrArg Course.state (m.resetTag.course_emit (.tag (endTagOf name)))
  rw [emitTag_endTagOf hcurrent htag,
    emitTag_endTagOf (m := { m with state := .tagName }) hcurrent htag, hemit,
    goto_of_ne (hbefore ▸ hstate), goto_of_ne (by simp)]

/-- **An appropriate end tag goes on as a tag**, whatever its letters. -/
theorem stepRawEndTagName_closed {kept : String} (hc : endsTagName c = true)
    (hlast : m.lastStartTag = some (String.ofList (letters.map Char.toLower))) :
    (m.named (.rawEndTagName kind) letters kept).stepRawEndTagName kind c
      = (m.named .tagName letters "").stepTagName c := by
  have happropriate : (m.named (.rawEndTagName kind) letters kept).isAppropriateEndTag = true :=
    decide_eq_true hlast
  simp only [endsTagName, Bool.or_eq_true, decide_eq_true_eq] at hc
  simp only [stepRawEndTagName, stepTagName, happropriate, Bool.true_and, decide_eq_true_eq]
  by_cases hspace : Ascii.isSpace c = true
  · rw [if_pos hspace, if_pos hspace, goto_of_ne (by simp [named, advance, clearLetters]),
      goto_of_ne (by simp [named, advance])]
    rfl
  · rw [if_neg hspace, if_neg hspace]
    by_cases hsolidus : c = '/'
    · rw [if_pos hsolidus, if_pos hsolidus, goto_of_ne (by simp [named, advance, clearLetters]),
        goto_of_ne (by simp [named, advance])]
      rfl
    · have hgt : c = '>' := (hc.resolve_left (not_or.mpr ⟨hspace, hsolidus⟩))
      rw [if_neg hsolidus, if_neg hsolidus, if_pos hgt, if_pos hgt]
      exact emitTag_of_state rfl rfl (by simp [named, advance, clearLetters])

/-! ## (3) The end tag -/

/-- What the machine has behind it once its text is queued. -/
def past (m : Machine) : Past :=
  ⟨m.flush.queue, m.input.consumed, m.transitions, m.flush.tokens, m.errors⟩

/-- A machine that reads what is still to be read as a document. -/
def afresh (m : Machine) : Machine where
  state := .data
  input := { m.input with consumed := 0 }
  lastStartTag := m.lastStartTag

/-- Behind the name, and with its text queued, the machine is one that began at the end tag. -/
theorem flush_named (hended : m.ended = false) (href : m.reference = none) (hcomment : m.comment = "")
    (hdoctype : m.doctype = {}) (letters : List Char) :
    (m.named .tagName letters "").flush
      = (m.afresh.named .tagName letters "").following m.past := by
  have hflush := m.flush_action (fun k => k.named .tagName letters "") rfl rfl
  rw [show (m.named .tagName letters "").flush = m.flush.named .tagName letters "" from hflush,
    flush_eq]
  simp [named, following, past, afresh, Input.skip, hended, href, hcomment, hdoctype]

/-- **A machine at the end tag of its text** runs like one that begins there, behind its text. -/
theorem run_closed (hkind : kind = .rawtext ∨ kind = .rcdata) (hstate : m.state = .rawData kind)
    (hended : m.ended = false) (href : m.reference = none) (hfinished : m.input.finished = true)
    (hcomment : m.comment = "") (hdoctype : m.doctype = {})
    (hcloses : ClosesRawText m.lastStartTag m.input.pending) :
    m.run = m.afresh.run.following m.past := by
  obtain ⟨letters, c, rest, hpending, hne, hletters, hlast, hc⟩ := hcloses
  have hraw := leads_named_raw hkind hended href hstate hne hletters hpending
  have hdata := leads_named_data (m := m.afresh) rfl rfl rfl hne hletters hpending
  -- at the end of the name the machine goes on as one in a tag of a document
  have htag : m.run = (m.named .tagName letters "").run := by
    let raw : Machine := m.named (.rawEndTagName kind) letters (String.ofList letters)
    let tag : Machine := m.named .tagName letters ""
    have hrest : raw.input.pending = c :: rest := pending_named hpending
    have hclose : step .byChar raw = some (tag.stepTagName c) := by
      rw [step_of_char (m := raw) hended href hrest, stepAt_byChar]
      exact congrArg some (stepRawEndTagName_closed hc hlast)
    have hgo : step .byChar tag = some (tag.stepTagName c) := by
      rw [step_of_char (m := tag) hended href hrest, stepAt_byChar]
      rfl
    rw [run_eq_of_leads (hraw.trans (Leads.single hclose)), run_eq_of_leads (Leads.single hgo)]
  have hinside : (m.named .tagName letters "").course.InsideTag :=
    ⟨rfl, by simp [course, named, href], hended⟩
  rw [htag, ← run_flush hinside hfinished, flush_named hended href hcomment hdoctype, run_following,
    run_eq_of_leads hdata]
  rfl

/-- **The text ends with the input**: what is held back is queued, and the end of the input. -/
theorem queue_run_atEnd (hkind : kind = .rawtext ∨ kind = .rcdata) (h : m.AtEnd kind)
    (hended : m.ended = false) (hfinished : m.input.finished = true) :
    m.run.queue.toList = m.queue.toList ++ (m.heldBack ++ [.endOfInput]) := by
  have hend : m.stepEnd = m.emitEnd := by
    unfold stepEnd
    rw [h.state]
    rcases hkind with rfl | rfl <;> rfl
  have hstep : step .byChar m = some m.emitEnd := by
    rw [step, if_neg (by simp [hended]), h.reference, h.pending, ← hend]
    simp [hfinished]
  rw [← eq_run_of_leads (Leads.single hstep) (step_of_ended rfl)]
  exact m.toList_queue_emit .endOfInput

end Machine

/-! ## (4) Names of raw text -/

/-- **An end tag of the name `n`** at the front: `</`, the name in letters of either case, and a
character that may stand behind a name. -/
def BeginsEndTag (n : String) (cs : List Char) : Prop :=
  ∃ name c rest, cs = '<' :: '/' :: (name ++ c :: rest) ∧
    name.map Char.toLower = n.toList.map Char.toLower ∧ endsTagName c = true

/-- Names that end raw text: letters of either case, and at least one. -/
def IsLetters (n : String) : Prop := n ≠ "" ∧ ∀ c ∈ n.toList, c.isAlpha = true

/-- What is behind an end tag plays no part. -/
theorem BeginsEndTag.append {n : String} {cs : List Char} (h : BeginsEndTag n cs) (behind : List Char) :
    BeginsEndTag n (cs ++ behind) := by
  obtain ⟨name, c, rest, rfl, hname, hc⟩ := h
  exact ⟨name, c, rest ++ behind, by simp, hname, hc⟩

theorem BeginsEndTag.length_pos {n : String} {cs : List Char} (h : BeginsEndTag n cs) :
    0 < cs.length := by
  obtain ⟨name, c, rest, rfl, -⟩ := h
  simp

/-- The front of a text is compared with the end tag. -/
theorem beginsEndTag_iff {n : String} {cs : List Char} : BeginsEndTag n cs ↔
    cs.take 2 = ['<', '/'] ∧
      ((cs.drop 2).take n.toList.length).map Char.toLower = n.toList.map Char.toLower ∧
      ((cs.drop 2).drop n.toList.length).head?.any endsTagName = true := by
  constructor
  · rintro ⟨name, c, rest, rfl, hname, hc⟩
    have hlength : n.toList.length = name.length := by
      rw [← List.length_map Char.toLower, ← hname, List.length_map]
    rw [hlength]
    exact ⟨rfl, by simpa using hname, by simpa using hc⟩
  · rintro ⟨hfront, hname, hends⟩
    have hcs : cs = '<' :: '/' :: cs.drop 2 := by
      rw [← List.take_append_drop 2 cs, hfront]
      simp
    obtain ⟨c, hc, hends⟩ := (Option.any_eq_true _ _).mp hends
    obtain ⟨rest, hrest⟩ := List.head?_eq_some_iff.mp hc
    refine ⟨(cs.drop 2).take n.toList.length, c, rest, ?_, hname, hends⟩
    rw [← hrest, List.take_append_drop]
    exact hcs

instance (n : String) (cs : List Char) : Decidable (BeginsEndTag n cs) :=
  decidable_of_iff' _ beginsEndTag_iff

/-- **The end tags that end raw text** are those of a last start tag of letters. -/
theorem closesRawText_iff {n : String} {cs : List Char} :
    ClosesRawText (some (Ascii.lower n)) cs ↔ IsLetters n ∧ BeginsEndTag n cs := by
  have hall {l l' : List Char} (h : l.map Char.toLower = l'.map Char.toLower)
      (hl : ∀ c ∈ l, c.isAlpha = true) : ∀ c ∈ l', c.isAlpha = true := by
    intro c hc
    have hmem : c.toLower ∈ l.map Char.toLower := h ▸ List.mem_map_of_mem hc
    obtain ⟨d, hd, hdc⟩ := List.mem_map.mp hmem
    rw [← Char.isAlpha_toLower_eq_isAlpha, ← hdc, Char.isAlpha_toLower_eq_isAlpha]
    exact hl d hd
  constructor
  · rintro ⟨letters, c, rest, rfl, hne, hletters, hlast, hc⟩
    have hname : n.toList.map Char.toLower = letters.map Char.toLower := by
      simpa [Ascii.lower, String.ofList_inj] using hlast
    refine ⟨⟨?_, hall hname.symm hletters⟩, letters, c, rest, rfl, hname.symm, hc⟩
    rintro rfl
    exact hne (List.map_eq_nil_iff.mp hname.symm)
  · rintro ⟨⟨hne, hletters⟩, name, c, rest, rfl, hname, hc⟩
    refine ⟨name, c, rest, rfl, ?_, hall hname.symm hletters, ?_, hc⟩
    · rintro rfl
      exact hne (by simpa using hname.symm)
    · rw [Ascii.lower, hname]

/-! ## (5) Sessions -/

/-- The characters that a session reads. -/
def Config.decoded (config : Config) (bs : Bytes) : List Char :=
  normalizeNewlines (stripBom config.discardBom (Utf8.lossy bs).toList)

/-- A session that takes its input as it is, and in which no end tag ends the text. -/
def Config.endless (config : Config) : Config :=
  { config with lastStartTag := none, discardBom := false }

/-- A session that takes its input as it is, as a document. -/
def Config.document (config : Config) : Config :=
  { config with initialState := .data, discardBom := false }

/-- **A session makes calls** and ends. -/
def Tokenizes (surface : Surface) (config : Config) (chunks : List Bytes) (calls : List TextCallback) :
    Prop :=
  ∃ stats, tokenize surface config chunks = .ok (calls, stats)

namespace Machine

/-- The machine that has characters to read, and nothing else. -/
def facing (config : Config) (cs : List Char) : Machine :=
  (start config).within (.ending cs)

theorem whole_eq (config : Config) (bs : Bytes) :
    whole config bs = facing config (config.decoded bs) := by
  have hdecoded : (start config).input.decoder.toShow bs = config.decoded bs := pending_whole config bs
  rw [whole, completed, hdecoded, facing, Surroundings.ending]

end Machine

theorem return_notMem_decoded (config : Config) (bs : Bytes) : '\r' ∉ config.decoded bs :=
  return_notMem_normalizeNewlines _

/-- What has been decoded is decoded as it is. -/
theorem decoded_encode {config : Config} (hbom : config.discardBom = false) {cs : List Char}
    (hcs : '\r' ∉ cs) : config.decoded (Utf8.encode (String.ofList cs)) = cs := by
  rw [Config.decoded, hbom, Utf8.lossy_encode, String.toList_ofList]
  cases cs with
  | nil => rfl
  | cons c cs => exact normalizeNewlines_of_notMem hcs

theorem tokenizes_iff {surface : Surface} {config : Config} {chunks : List Bytes}
    {calls : List TextCallback} : Tokenizes surface config chunks calls ↔ calls
      = config.calls (Machine.facing config (config.decoded chunks.flatten)).run.queue.toList := by
  rw [← Machine.whole_eq, Tokenizes, tokenize_eq]
  constructor
  · rintro ⟨stats, hstats⟩
    cases hstats
    rfl
  · rintro rfl
    exact ⟨_, rfl⟩

/-- Positions do not show in calls. -/
theorem calls_moved {config : Config} (hexact : config.exactErrors = false) (n : Nat)
    (tokens : List Token) : config.calls (tokens.map (Token.moved n)) = config.calls tokens := by
  have htoken (t : Token) : (t.moved n).callbacks false = t.callbacks false := by
    cases t <;> rfl
  rw [Config.calls, Config.calls, hexact, List.flatMap_map]
  exact List.flatMap_congr fun t _ => htoken t

namespace Machine

variable {config : Config} {y : List Char} {k : Machine}

/-- The machine that has `y` to read and waits for more, and in which no end tag ends the text. -/
def awaiting (config : Config) (y : List Char) : Machine :=
  (start config.endless).within ⟨#[], y, .idle, false⟩

theorem inRawText_awaiting (hstate : config.initialState.state = .rawData kind) (y : List Char) :
    (awaiting config y).scene.InRawText kind y := by
  refine ⟨⟨[], ?_, List.suffix_rfl⟩, by simp [awaiting, scene, within, start], ?_, rfl, rfl⟩
  · show Withholds kind config.initialState.state "" []
    rw [hstate]
    exact .text ""
  · rintro _ ⟨⟩

theorem awaiting_ending (config : Config) (y z : List Char) :
    (awaiting config y).within (.ending z) = facing config.endless (y ++ z) := by
  simp [awaiting, facing, Surroundings.ending, within, Input.within, start, Input.start]

/-- What a machine remembers at its start. -/
theorem awaiting_beside_ending (config : Config) (y z : List Char) :
    ((awaiting config y).beside ⟨config.lastStartTag.map Ascii.lower, "", {}⟩).within (.ending z)
      = facing config (y ++ z) := by
  simp [awaiting, facing, beside, Surroundings.ending, within, Input.within, start, Input.start,
    Config.endless]

/-- The input ends at the end of the text. -/
theorem queue_run_ending (hkind : kind = .rawtext ∨ kind = .rcdata) (h : k.AtEnd kind)
    (hended : k.ended = false) :
    (k.within (.ending [])).run.queue.toList = k.queue.toList ++ k.heldBack ++ [.endOfInput] := by
  have hend : (k.within (.ending [])).AtEnd kind := by
    refine ⟨h.state, h.reference, ?_⟩
    show k.input.pending ++ [] = []
    rw [h.pending, List.append_nil]
  rw [queue_run_atEnd hkind hend hended rfl]
  simp [Surroundings.ending, within, heldBack]

/-- **An end tag stands at the end of the text**, and is read as a document is. -/
theorem queue_run_closed (hkind : kind = .rawtext ∨ kind = .rcdata) (h : k.AtEnd kind)
    (hended : k.ended = false) (hcomment : k.comment = "") (hdoctype : k.doctype = {}) {z : List Char}
    (hz : ClosesRawText k.lastStartTag z) : ∃ n,
    (k.within (.ending z)).run.queue.toList = k.queue.toList ++ k.heldBack
      ++ (k.within (.ending z)).afresh.run.queue.toList.map (Token.moved n) := by
  have hpending : (k.within (.ending z)).input.pending = z := by
    show k.input.pending ++ z = z
    rw [h.pending, List.nil_append]
  have hclosed := run_closed (m := k.within (.ending z)) hkind h.state hended h.reference rfl
    hcomment hdoctype (hpending.symm ▸ hz)
  have hqueued : (k.within (.ending z)).past.queued.toList = k.queue.toList ++ k.heldBack := by
    show (k.within (.ending z)).flush.queue.toList = _
    rw [toList_queue_flush]
    simp [Surroundings.ending, within, heldBack]
  refine ⟨(k.within (.ending z)).past.consumed, ?_⟩
  rw [hclosed]
  simp [following, hqueued]

/-- A machine at the end of raw text, begun afresh, is one that starts as a document. -/
theorem afresh_ending (h : k.input.pending = [])
    (hlast : k.lastStartTag = config.lastStartTag.map Ascii.lower) (z : List Char) :
    (k.within (.ending z)).afresh = facing config.document z := by
  simp [afresh, Surroundings.ending, within, Input.within, h, hlast, facing, start, Input.start,
    Config.document, InitialState.state]

end Machine

/-- Text elements begin with raw text. -/
theorem exists_rawData {initial : InitialState} (h : initial = .rawtext ∨ initial = .rcdata) :
    ∃ kind : RawKind, (kind = .rawtext ∨ kind = .rcdata) ∧ initial.state = .rawData kind := by
  rcases h with rfl | rfl
  · exact ⟨.rawtext, .inl rfl, rfl⟩
  · exact ⟨.rcdata, .inr rfl, rfl⟩

/-- **What is queued for raw text**: whatever the last start tag, the same for text that no end tag ends;
and the same in front of an end tag that does, which is read as a document is. -/
theorem exists_text {config : Config}
    (hkind : config.initialState = .rawtext ∨ config.initialState = .rcdata) {y : List Char}
    (hopen : ∀ cs, cs <:+ y → ¬ClosesRawText (config.lastStartTag.map Ascii.lower) cs) :
    ∃ text, (∀ t ∈ text, t.isQuiet = true) ∧
      (Machine.facing config.endless y).run.queue.toList = text ++ [.endOfInput] ∧
      (Machine.facing config y).run.queue.toList = text ++ [.endOfInput] ∧
      ∀ z, ClosesRawText (config.lastStartTag.map Ascii.lower) z → ∃ n,
        (Machine.facing config (y ++ z)).run.queue.toList
          = text ++ (Machine.facing config.document z).run.queue.toList.map (Token.moved n) := by
  obtain ⟨kind, hraw, hstate⟩ := exists_rawData hkind
  let a : Aside := ⟨config.lastStartTag.map Ascii.lower, "", {}⟩
  obtain ⟨k, hk, hend, hleads⟩ := Machine.exists_end (a := a) hraw hopen
    (Machine.inRawText_awaiting hstate y) rfl
  have hended : k.ended = false := hk.ended
  have hbeside : (k.beside a).AtEnd kind := ⟨hend.state, hend.reference, hend.pending⟩
  obtain ⟨halone, hclosed⟩ := hleads (.ending []) rfl (by simp [Surroundings.ending])
  rw [Machine.awaiting_ending, List.append_nil] at halone
  rw [Machine.awaiting_beside_ending, List.append_nil] at hclosed
  refine ⟨k.queue.toList ++ k.heldBack, ?_, ?_, ?_, fun z hz => ?_⟩
  · intro t ht
    rcases List.mem_append.mp ht with ht | ht
    · exact hk.quiet t ht
    · exact Scene.isQuiet_of_mem_textTokens ht
  · rw [Machine.run_eq_of_leads halone]
    exact Machine.queue_run_ending hraw hend hended
  · rw [Machine.run_eq_of_leads hclosed]
    exact Machine.queue_run_ending hraw hbeside hended
  · have hhead : ∀ c ∈ (Surroundings.ending z).behind.head?, c = '<' := by
      obtain ⟨letters, c, rest, rfl, -⟩ := hz
      rintro _ ⟨⟩
      rfl
    have hreach := (hleads (.ending z) rfl hhead).2
    rw [Machine.awaiting_beside_ending] at hreach
    obtain ⟨n, hqueue⟩ := Machine.queue_run_closed hraw hbeside hended rfl rfl hz
    refine ⟨n, ?_⟩
    have hafresh := Machine.afresh_ending (k := k.beside a) hbeside.pending rfl z
    rw [Machine.run_eq_of_leads hreach, hqueue, hafresh]
    rfl

/-- **Text that no end tag ends** makes the calls that it makes without a last start tag. -/
theorem exists_tokenizes_open (surface : Surface) {config : Config}
    (hkind : config.initialState = .rawtext ∨ config.initialState = .rcdata) {chunks : List Bytes}
    {x : List Char} (hx : config.decoded chunks.flatten = x)
    (hopen : ∀ cs, cs <:+ x → ¬ClosesRawText (config.lastStartTag.map Ascii.lower) cs) :
    ∃ calls, Tokenizes surface config.endless [Utf8.encode (String.ofList x)] calls ∧
      Tokenizes surface config chunks calls ∧
      ∀ call ∈ calls, call.kind = .chars ∨ call.kind = .error ∨ call.kind = .eof := by
  have hreturn : '\r' ∉ x := hx ▸ return_notMem_decoded config chunks.flatten
  have hcalls : config.endless.calls = config.calls := rfl
  obtain ⟨text, hquiet, hendless, htext, -⟩ := exists_text hkind hopen
  refine ⟨config.calls (text ++ [.endOfInput]), tokenizes_iff.mpr ?_, tokenizes_iff.mpr ?_, ?_⟩
  · rw [List.flatten_singleton, decoded_encode rfl hreturn, hendless, hcalls]
  · rw [hx, htext]
  · rw [Config.calls_append]
    intro call hcall
    rcases List.mem_append.mp hcall with hcall | hcall
    · exact ((calls_of_quiet config hquiet).1 call hcall).imp id .inl
    · exact .inr (.inr (by rw [List.mem_singleton.mp hcall]; rfl))

/-- **Text in front of an end tag that ends it** makes the calls of a session of its own, and what begins
with the end tag those of another. -/
theorem exists_tokenizes_closed (surface : Surface) {config : Config}
    (hkind : config.initialState = .rawtext ∨ config.initialState = .rcdata)
    (hexact : config.exactErrors = false) {chunks : List Bytes} {y z : List Char}
    (hx : config.decoded chunks.flatten = y ++ z)
    (hopen : ∀ cs, cs <:+ y → ¬ClosesRawText (config.lastStartTag.map Ascii.lower) cs)
    (hz : ClosesRawText (config.lastStartTag.map Ascii.lower) z) : ∃ text rest,
    Tokenizes surface config.endless [Utf8.encode (String.ofList y)] (text ++ [.eof]) ∧
      Tokenizes surface config.document [Utf8.encode (String.ofList z)] rest ∧
      Tokenizes surface config chunks (text ++ rest) := by
  have hreturn : '\r' ∉ y ++ z := hx ▸ return_notMem_decoded config chunks.flatten
  have hcalls : config.endless.calls = config.calls := rfl
  obtain ⟨text, -, hendless, -, hclosed⟩ := exists_text hkind hopen
  obtain ⟨n, hclosed⟩ := hclosed z hz
  refine ⟨config.calls text, _, tokenizes_iff.mpr ?_, tokenizes_iff.mpr rfl, tokenizes_iff.mpr ?_⟩
  · rw [List.flatten_singleton, decoded_encode rfl (fun h => hreturn (List.mem_append_left z h)),
      hendless, hcalls, Config.calls_append]
    rfl
  · rw [hx, hclosed, Config.calls_append, calls_moved hexact, List.flatten_singleton,
      decoded_encode rfl (fun h => hreturn (List.mem_append_right y h))]
    rfl

/-- In front of the first end tag there is none. -/
theorem not_beginsEndTag_of_isLeast {n : String} {x : List Char} {p : Nat}
    (hp : IsLeast {p | BeginsEndTag n (x.drop p)} p) {cs : List Char} (hcs : cs <:+ x.take p) :
    ¬BeginsEndTag n cs := by
  obtain ⟨front, hfront⟩ := hcs
  intro hbegins
  have hfound : p ≤ front.length := by
    refine hp.2 ?_
    show BeginsEndTag n (x.drop front.length)
    rw [← List.take_append_drop p x, ← hfront, List.append_assoc, List.drop_left]
    exact hbegins.append _
  have hpos := hbegins.length_pos
  have hlength := List.length_take_le p x
  rw [← hfront, List.length_append] at hlength
  omega

/-- **Raw text ends at its first end tag.** For the content of a text element, let `x` be what the
session reads. If the last start tag is made of letters and its end tag begins somewhere in `x`, then,
errors without positions, the calls are those for the text in front of the first such place, less the
end of the input, and those for a document that begins there. If its end tag begins nowhere, or if there
is no last start tag made of letters, the text does not end: the calls are those without a last start
tag. -/
theorem raw_text_ends (surface : Surface) {config : Config}
    (hkind : config.initialState = .rawtext ∨ config.initialState = .rcdata) (chunks : List Bytes)
    {x : List Char} (hx : config.decoded chunks.flatten = x) :
    (∀ n, config.lastStartTag = some n → IsLetters n →
      (config.exactErrors = false → ∀ p, IsLeast {p | BeginsEndTag n (x.drop p)} p → ∃ text rest,
        Tokenizes surface config.endless [Utf8.encode (String.ofList (x.take p))] (text ++ [.eof]) ∧
        Tokenizes surface config.document [Utf8.encode (String.ofList (x.drop p))] rest ∧
        Tokenizes surface config chunks (text ++ rest)) ∧
      ((∀ p, ¬BeginsEndTag n (x.drop p)) → ∃ calls,
        Tokenizes surface config.endless [Utf8.encode (String.ofList x)] calls ∧
        Tokenizes surface config chunks calls)) ∧
    ((∀ n, config.lastStartTag = some n → ¬IsLetters n) → ∃ calls,
      Tokenizes surface config.endless [Utf8.encode (String.ofList x)] calls ∧
      Tokenizes surface config chunks calls ∧
      ∀ call ∈ calls, call.kind = .chars ∨ call.kind = .error ∨ call.kind = .eof) := by
  refine ⟨fun n hn hletters => ?_, fun hnone => exists_tokenizes_open surface hkind hx ?_⟩
  · have hcloses (cs : List Char) :
        ClosesRawText (config.lastStartTag.map Ascii.lower) cs ↔ BeginsEndTag n cs := by
      rw [hn, Option.map_some, closesRawText_iff, and_iff_right hletters]
    refine ⟨fun hexact p hp => ?_, fun hnever => ?_⟩
    · rw [← List.take_append_drop p x] at hx
      exact exists_tokenizes_closed surface hkind hexact hx
        (fun cs hcs => mt (hcloses cs).mp (not_beginsEndTag_of_isLeast hp hcs)) ((hcloses _).mpr hp.1)
    · obtain ⟨calls, hendless, hcalls, -⟩ := exists_tokenizes_open surface hkind hx (by
        rintro cs ⟨front, rfl⟩ hcs
        refine hnever front.length ?_
        rw [List.drop_left]
        exact (hcloses cs).mp hcs)
      exact ⟨calls, hendless, hcalls⟩
  · intro cs _ hcloses
    cases hlast : config.lastStartTag with
    | none =>
      obtain ⟨letters, c, rest, -, -, -, hsome, -⟩ := hcloses
      rw [hlast] at hsome
      cases hsome
    | some n =>
      rw [hlast, Option.map_some, closesRawText_iff] at hcloses
      exact hnone n hlast hcloses.1

/-- A possible end tag that is none, a reference that the end tag cuts short, and the end tag in letters
of either case, on the surface that shares its buffers. -/
theorem raw_text_ends_title :
    ∃ text rest,
      Tokenizes .shared { initialState := .rcdata, discardBom := false }
        [Utf8.encode "a</titlex>&am"] (text ++ [.eof]) ∧
      Tokenizes .shared { discardBom := false, lastStartTag := some "Title" }
        [Utf8.encode "</TITLE b>&am"] rest ∧
      Tokenizes .shared { initialState := .rcdata, lastStartTag := some "Title" }
        [Utf8.encode "a</titlex>&am</TI", Utf8.encode "TLE b>&am"] (text ++ rest) := by
  let config : Config := { initialState := .rcdata, lastStartTag := some "Title" }
  let x : List Char := "a</titlex>&am</TITLE b>&am".toList
  have hx : config.decoded [Utf8.encode "a</titlex>&am</TI", Utf8.encode "TLE b>&am"].flatten = x := by
    decide +kernel
  have hletters : IsLetters "Title" := ⟨by decide, List.all_eq_true.mp (by decide +kernel)⟩
  have hbefore : ∀ q < 13, ¬BeginsEndTag "Title" (x.drop q) := by decide +kernel
  have hbegins : BeginsEndTag "Title" (x.drop 13) := by decide +kernel
  have hfirst : IsLeast {p | BeginsEndTag "Title" (x.drop p)} 13 :=
    ⟨hbegins, fun q hq => not_lt.mp fun hlt => hbefore q hlt hq⟩
  have hfront : String.ofList (x.take 13) = "a</titlex>&am" := by decide +kernel
  have hbehind : String.ofList (x.drop 13) = "</TITLE b>&am" := by decide +kernel
  have hends := ((raw_text_ends .shared (.inr rfl) _ hx).1 "Title" rfl hletters).1 rfl 13 hfirst
  rw [hfront, hbehind] at hends
  exact hends

end HtmlStream

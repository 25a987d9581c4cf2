import HtmlStream.Proofs.References.Replacement
import HtmlStream.Proofs.RoundTrip

/-! # References with unknown names

`&` and letters that begin with no name of the table stay what they are, wherever references are read
and however many letters they are. A semicolon behind them says that a name was meant and makes it an
error, but only if it comes before as many letters as the longest name has characters: the search
gives up there, and a semicolon behind that is text like any other.

* **`Reference.Unknown`**: letters that begin with no name of the table.
* **`Machine.midName raw`**: the machine in a name of which `raw` has been read.
* **`Machine.keepLiteral s reported`**: the machine that has read `s` and kept it as it is written.
* **`leads_taken`**, **`leads_searched`**, **`leads_plain`**: letters of the name, the end of the search,
  letters behind it.
* **`contributes_literal`**: what is kept contributes itself to a session.
* **`unknown_reference_literal`**: what becomes of an unknown name in a session. -/

namespace HtmlStream

/-! ## (1) Names of the table -/

namespace Reference

/-- **Letters that begin with no name** of the table, nor do they with a semicolon behind them. Names
are filed under their first letters. -/
structure Unknown (letters : List Char) : Prop where
  /-- There is one. -/
  nonempty : letters ≠ []
  /-- They are letters and digits. -/
  isAlphanum : ∀ c ∈ letters, c.isAlphanum = true
  /-- No name is at their beginning. -/
  noName : ∀ c ∈ letters.head?, ∀ e ∈ startingWith c, ¬e.name <+: letters ++ [';']

/-- Every name filed under a letter is in the table. -/
theorem mem_entries {c : Char} {e : Entry} (h : e ∈ startingWith c) : e ∈ entries := by
  have hinitial : c ∈ initials := by
    unfold startingWith at h
    split at h <;> first | decide | cases h
  exact List.mem_flatMap.mpr ⟨c, hinitial, h⟩

variable {letters : List Char}

/-- Letters are unknown if no name of the whole table is at their beginning. -/
theorem Unknown.of_entries (hne : letters ≠ []) (hletters : ∀ c ∈ letters, c.isAlphanum = true)
    (h : ∀ e ∈ entries, ¬e.name <+: letters ++ [';']) : Unknown letters :=
  ⟨hne, hletters, fun _ _ e he => h e (mem_entries he)⟩

/-- **No name is found** in what unknown letters begin with. -/
theorem Unknown.longestMatch_eq_none (h : Unknown letters) {cs : List Char}
    (hcs : cs <+: letters ++ [';']) : longestMatch cs = none := by
  cases cs with
  | nil => rfl
  | cons c cs =>
    cases hmatch : longestMatch (c :: cs) with
    | none => rfl
    | some e =>
      obtain ⟨hmem, hprefix⟩ := mem_of_longestMatch hmatch
      have hhead : c ∈ letters.head? := by
        obtain ⟨first, others, rfl⟩ := List.exists_cons_of_ne_nil h.nonempty
        rw [List.cons_append, List.cons_prefix_cons] at hcs
        rw [hcs.1]
        rfl
      exact absurd ((List.isPrefixOf_iff_prefix.mp hprefix).trans hcs) (h.noName c hhead e hmem)

end Reference

/-! ## (2) What the machine does with them -/

/-- Whether character references are read in the state. -/
def State.takesReferences : State → Bool
  | .data | .rawData .rcdata | .attributeValue _ => true
  | _ => false

namespace Machine

/-- Reads `s` and keeps it as it is written; `reported` says whether it is an error. -/
def keepLiteral (m : Machine) (s : String) (reported : Bool) : Machine :=
  let m := m.skip s.length
  (if reported then m.report .unknownNamedCharacterReference else m).putHere s

/-- The reference of which the name `raw` has been read. -/
def naming (m : Machine) (raw : String) : Reference :=
  { inAttribute := m.state.isAttributeValue, phase := .named, raw }

/-- The reference and its `&`. -/
theorem length_ampersand (raw : String) : ("&" ++ raw).length = raw.length + 1 := by
  rw [String.length_append, Nat.add_comm]
  rfl

theorem ampersand_append (cs : List Char) : "&" ++ String.ofList cs = String.ofList ('&' :: cs) := by
  rw [String.ofList_cons]
  rfl

/-- In the name of a reference, of which `raw` has been read behind `&`. -/
def midName (m : Machine) (raw : String) : Machine :=
  (m.skip (raw.length + 1)).keepReference (m.naming raw)

variable {m : Machine}

theorem state_report (code : ErrorCode) : (m.report code).state = m.state :=
  congrArg Course.state (m.course_report code)

/-- **What is kept as it is written** is replaced by itself. -/
theorem replaces_keepLiteral {read rest : List Char} (hpending : m.input.pending = read ++ rest)
    (hattribute : m.state.isAttributeValue = true → ∃ a, m.currentAttribute = some a)
    (reported : Bool) :
    m.Replaces (m.keepLiteral (String.ofList read) reported) read
      (if reported then [⟨.unknownNamedCharacterReference, m.input.consumed + read.length⟩] else [])
      (String.ofList read) := by
  rw [keepLiteral, String.length_ofList]
  cases reported with
  | false => exact (Queues.refl _).putHere hpending hattribute _
  | true => exact ((Queues.refl _).reportAt _ _).putHere hpending hattribute _

/-! ## (3) Reading the name -/

/-- Characters that are plain wherever references are read. -/
def isPlain (c : Char) : Bool := c.isAlphanum || c = ';'

theorem ne_of_isPlain {c d : Char} (hc : isPlain c = true) (hd : isPlain d = false) : c ≠ d := by
  intro h
  rw [h, hd] at hc
  cases hc

theorem skip_zero : m.skip 0 = m := by
  simp [skip, Input.skip]

theorem skip_one : m.skip 1 = m.advance := by
  rw [skip, advance, Input.skip, Input.advance, List.drop_one]

/-- At `&` a reference begins. -/
theorem leads_ampersand {cs : List Char} (hended : m.ended = false) (href : m.reference = none)
    (hstate : m.state.takesReferences = true) (hpending : m.input.pending = '&' :: cs) :
    m.Leads m.advance.beginReference := by
  have hampersand : m.stepChar '&' = some m.advance.beginReference := by
    unfold State.takesReferences at hstate
    split at hstate
    · rename_i h
      rw [stepChar, h]
      rfl
    · rename_i h
      rw [stepChar, h]
      rfl
    · rename_i kind h
      rw [stepChar, h]
      cases kind <;> rfl
    · cases hstate
  refine Leads.single ?_
  rw [step_of_char hended href hpending, stepAt_byChar, hampersand]

/-- At `&` and a letter, a name begins. -/
theorem leads_opened {c : Char} {cs : List Char} (hended : m.ended = false)
    (href : m.reference = none) (hstate : m.state.takesReferences = true)
    (hpending : m.input.pending = '&' :: c :: cs) (hc : c.isAlphanum = true) :
    m.Leads (m.midName "") := by
  have hletter : step .byChar m.advance.beginReference = some (m.midName "") := by
    have hread : m.advance.beginReference.input.pending = c :: cs := by
      show m.input.pending.tail = c :: cs
      rw [hpending]
      rfl
    rw [step, if_neg (by simpa [beginReference, advance] using hended), hread]
    show some (m.advance.beginReference.stepOpened _ (some c)) = _
    -- the letter stays unread: it is the first one of the name
    unfold stepOpened
    split
    · rename_i h
      exact absurd (Option.some.inj h) (ne_of_isPlain (by simp [isPlain, hc]) rfl)
    · rename_i h
      rw [← Option.some.inj h, if_pos hc]
      show some (m.advance.keepReference _) = some ((m.skip 1).keepReference _)
      rw [skip_one]
      rfl
    · rename_i h
      cases h
  exact (leads_ampersand hended href hstate hpending).trans (Leads.single hletter)

/-- What a step in a name is. -/
theorem step_midName (hended : m.ended = false) (raw : String)
    (hmore : m.input.pending.drop (raw.length + 1) = [] → m.input.finished = true) :
    step .byChar (m.midName raw)
      = some ((m.midName raw).stepNamed (m.naming raw)
          (m.input.pending.drop (raw.length + 1)).head?) := by
  rw [step, if_neg (by simpa [midName, keepReference, skip] using hended)]
  have hpending : (m.midName raw).input.pending = m.input.pending.drop (raw.length + 1) := rfl
  rw [hpending]
  cases hrest : m.input.pending.drop (raw.length + 1) with
  | cons c cs => rfl
  | nil => exact if_pos (hmore hrest)

/-- **A letter of the name**, of which there is room for one more. -/
theorem leads_letter {raw : String} {c : Char} {cs : List Char} (hended : m.ended = false)
    (hrest : m.input.pending.drop (raw.length + 1) = c :: cs) (hc : c.isAlphanum = true)
    (hroom : raw.length < Reference.nameLimit) : (m.midName raw).Leads (m.midName (raw.push c)) := by
  have hadvance : (m.midName raw).advance.keepReference (m.naming (raw.push c))
      = m.midName (raw.push c) := by
    simp [midName, advance, keepReference, skip, Input.skip, Input.advance, Nat.add_assoc]
  refine Leads.single ?_
  rw [step_midName hended raw (by simp [hrest]), hrest, ← hadvance]
  exact congrArg some (if_pos (by simp [naming, hroom, hc]))

/-- **The letters of the name** are read up to the limit. -/
theorem leads_taken {letters cs : List Char} (hended : m.ended = false) (href : m.reference = none)
    (hstate : m.state.takesReferences = true) (hne : letters ≠ [])
    (hletters : ∀ c ∈ letters, c.isAlphanum = true)
    (hpending : m.input.pending = '&' :: (letters ++ cs)) {n : Nat} (hn : n ≤ letters.length)
    (hlimit : n ≤ Reference.nameLimit) : m.Leads (m.midName (String.ofList (letters.take n))) := by
  induction n with
  | zero =>
    obtain ⟨first, others, rfl⟩ := List.exists_cons_of_ne_nil hne
    rw [List.take_zero, String.ofList_nil]
    exact leads_opened hended href hstate hpending (hletters first List.mem_cons_self)
  | succ n ih =>
    have htaken : (String.ofList (letters.take n)).length = n := by
      rw [String.length_ofList, List.length_take_of_le (Nat.le_of_succ_le hn)]
    have hnext : m.input.pending.drop ((String.ofList (letters.take n)).length + 1)
        = letters[n] :: (letters.drop (n + 1) ++ cs) := by
      rw [htaken, hpending, List.drop_succ_cons, List.drop_append_of_le_length (by omega),
        List.drop_eq_getElem_cons hn, List.cons_append]
    have hletter := leads_letter hended hnext (hletters _ (List.getElem_mem hn)) (by omega)
    have hpush : (String.ofList (letters.take n)).push letters[n]
        = String.ofList (letters.take (n + 1)) := by
      rw [List.take_succ_eq_append_getElem hn, String.ofList_append, String.push_eq_append]
      rfl
    rw [hpush] at hletter
    exact (ih (by omega) (by omega)).trans hletter

/-! ## (4) The end of the name -/

theorem report_keepReference (k : Machine) (r : Reference) (code : ErrorCode) :
    (k.keepReference r).report code = (k.report code).keepReference r := by
  cases htext : k.text.isEmpty <;> simp [report, emit, flush, enqueue, keepReference, htext]

/-- Ending a reference forgets the one under construction. -/
theorem closeName_keepReference (k : Machine) (r r' : Reference) (next : Option Char) :
    (k.keepReference r).closeName r' next = k.closeName r' next := by
  have hclose (k : Machine) (s : String) :
      (k.keepReference r).closeReference r' s = k.closeReference r' s := rfl
  have hliteral (k : Machine) : (k.keepReference r).closeLiteral r' = k.closeLiteral r' := rfl
  unfold closeName
  simp only [report_keepReference, hclose, hliteral]

/-- Without one under construction, its text goes where the state is writing. -/
theorem closeReference_eq {k : Machine} (href : k.reference = none) {r : Reference}
    (hplace : r.inAttribute = k.state.isAttributeValue) (s : String) :
    k.closeReference r s = k.putHere s := by
  have hforget : { k with reference := none } = k := by rw [← href]
  rw [closeReference, hforget, putHere, hplace]

/-- Without a name in the table, only a semicolon at the end makes an error. -/
theorem closeName_of_unknown (href : m.reference = none) (raw : String) (next : Option Char)
    (h : Reference.longestMatch raw.toList = none) :
    (m.skip (raw.length + 1)).closeName (m.naming raw) next
      = m.keepLiteral ("&" ++ raw) (raw.toList.getLast? = some ';') := by
  have hcourse := (m.skip (raw.length + 1)).course_report .unknownNamedCharacterReference
  have hsearch : Reference.longestMatch (m.naming raw).raw.toList = none := h
  rw [closeName, keepLiteral, length_ampersand]
  simp only [hsearch]
  by_cases hlast : raw.toList.getLast? = some ';'
  · rw [if_pos (show (m.naming raw).raw.toList.getLast? = some ';' from hlast),
      if_pos (decide_eq_true hlast)]
    exact closeReference_eq ((congrArg Course.reference hcourse).trans href)
      (congrArg (·.state.isAttributeValue) hcourse).symm _
  · rw [if_neg (show ¬(m.naming raw).raw.toList.getLast? = some ';' from hlast),
      if_neg (by simpa using hlast)]
    exact closeReference_eq (k := m.skip (raw.length + 1)) href rfl _

/-- **The name ends** at a character that is neither letter nor semicolon, at the end of the input, or
at the limit. -/
theorem leads_closeName {raw : String} (hended : m.ended = false)
    (hmore : m.input.pending.drop (raw.length + 1) = [] → m.input.finished = true)
    (hend : raw.length < Reference.nameLimit →
      ∀ c ∈ (m.input.pending.drop (raw.length + 1)).head?, isPlain c = false) :
    (m.midName raw).Leads ((m.skip (raw.length + 1)).closeName (m.naming raw)
      (m.input.pending.drop (raw.length + 1)).head?) := by
  refine Leads.single ?_
  rw [step_midName hended raw hmore, ← closeName_keepReference _ (m.naming raw)]
  cases hnext : (m.input.pending.drop (raw.length + 1)).head? with
  | none => rfl
  | some c =>
    -- at the limit the character does not matter
    have hneither : ¬(raw.length < Reference.nameLimit && c.isAlphanum) = true ∧
        ¬(raw.length < Reference.nameLimit && c = ';') = true := by
      by_cases hroom : raw.length < Reference.nameLimit
      · have hc := hend hroom c hnext
        simpa [isPlain, hroom] using hc
      · simp [hroom]
    exact congrArg some ((if_neg hneither.1).trans (if_neg hneither.2))

/-- **The name ends with its semicolon**, if there is room for it. -/
theorem leads_closeName_semicolon {raw : String} {cs : List Char} (hended : m.ended = false)
    (hrest : m.input.pending.drop (raw.length + 1) = ';' :: cs)
    (hroom : raw.length < Reference.nameLimit) :
    (m.midName raw).Leads ((m.skip ((raw.push ';').length + 1)).closeName
      (m.naming (raw.push ';')) none) := by
  have hletter : (';' : Char).isAlphanum = false := by decide
  have hname : (m.midName raw).stepNamed (m.naming raw) (some ';')
      = (m.midName raw).advance.closeName (m.naming (raw.push ';')) none := by
    simp [stepNamed, naming, hroom, hletter]
  have hadvance : (m.midName raw).advance
      = (m.skip ((raw.push ';').length + 1)).keepReference (m.naming raw) := by
    rw [String.length_push]
    simp [midName, advance, keepReference, skip, Input.skip, Input.advance, Nat.add_assoc, naming]
  refine Leads.single ?_
  rw [step_midName hended raw (by simp [hrest]), hrest, List.head?_cons, hname, hadvance,
    closeName_keepReference]

/-- **Letters without a semicolon**: those up to the limit are searched for a name. -/
theorem leads_searched {letters cs : List Char} (hended : m.ended = false)
    (href : m.reference = none) (hstate : m.state.takesReferences = true) (hne : letters ≠ [])
    (hletters : ∀ c ∈ letters, c.isAlphanum = true)
    (hpending : m.input.pending = '&' :: (letters ++ cs)) (hmore : cs = [] → m.input.finished = true)
    {n : Nat} (hn : n = min letters.length Reference.nameLimit)
    (hend : letters.length < Reference.nameLimit → ∀ c ∈ cs.head?, isPlain c = false) :
    m.Leads ((m.skip (n + 1)).closeName (m.naming (String.ofList (letters.take n)))
      (letters.drop n ++ cs).head?) := by
  have htaken := leads_taken hended href hstate hne hletters hpending (n := n) (by omega) (by omega)
  have hlength : (String.ofList (letters.take n)).length = n := by
    rw [String.length_ofList, List.length_take_of_le (by omega)]
  have hrest : m.input.pending.drop (n + 1) = letters.drop n ++ cs := by
    rw [hpending, List.drop_succ_cons, List.drop_append_of_le_length (by omega)]
  have hmore' : m.input.pending.drop ((String.ofList (letters.take n)).length + 1) = [] →
      m.input.finished = true := by
    rw [hlength, hrest]
    exact fun h => hmore (List.append_eq_nil_iff.mp h).2
  have hclose := leads_closeName hended hmore' (by
    rw [hlength, hrest]
    intro hroom c hc
    rw [List.drop_eq_nil_of_le (by omega), List.nil_append] at hc
    exact hend (by omega) c hc)
  rw [hlength, hrest] at hclose
  exact htaken.trans hclose

/-- **Letters with a semicolon** are searched for a name together with it, if there is room. -/
theorem leads_searched_semicolon {letters cs : List Char} (hended : m.ended = false)
    (href : m.reference = none) (hstate : m.state.takesReferences = true) (hne : letters ≠ [])
    (hletters : ∀ c ∈ letters, c.isAlphanum = true)
    (hpending : m.input.pending = '&' :: (letters ++ ';' :: cs))
    (hroom : letters.length < Reference.nameLimit) :
    m.Leads ((m.skip ((letters ++ [';']).length + 1)).closeName
      (m.naming (String.ofList (letters ++ [';']))) none) := by
  have htaken := leads_taken hended href hstate hne hletters hpending le_rfl hroom.le
  rw [List.take_length] at htaken
  have hrest : m.input.pending.drop ((String.ofList letters).length + 1) = ';' :: cs := by
    rw [hpending, List.drop_succ_cons, String.length_ofList, List.drop_left]
  have hpush : (String.ofList letters).push ';' = String.ofList (letters ++ [';']) := by
    rw [String.push_eq_append, String.ofList_append]
    rfl
  have hclose := leads_closeName_semicolon hended hrest (by rwa [String.length_ofList])
  rw [hpush, String.length_ofList] at hclose
  exact htaken.trans hclose

/-! ## (5) Behind the limit -/

theorem course_putHere (s : String) : (m.putHere s).course = m.course := by
  unfold putHere
  split <;> rfl

/-- A plain character goes where the state is writing. -/
theorem stepChar_of_isPlain (hstate : m.state.takesReferences = true) {c : Char}
    (hc : isPlain c = true) : m.stepChar c = some (m.advance.putHere (String.singleton c)) := by
  have hne {d : Char} (hd : isPlain d = false) : c ≠ d := ne_of_isPlain hc hd
  have hput (h : m.state.isAttributeValue = false) :
      m.advance.putHere (String.singleton c) = m.advance.putChar c := by
    rw [putHere, if_neg (by simpa [advance] using h), putText, putChar, String.push_eq_append]
  unfold State.takesReferences at hstate
  split at hstate
  · rename_i h
    rw [hput (by rw [h]; rfl), stepChar, h]
    exact congrArg some (stepData_of_plain (hne rfl) (hne rfl) (hne rfl))
  · rename_i h
    rw [hput (by rw [h]; rfl), stepChar, h]
    exact congrArg some (stepRawData_of_plain (by simp [stopsRaw, hne (d := '<') rfl,
      hne (d := '&') rfl, hne (d := '\x00') rfl]))
  · rename_i kind h
    have hputValue : m.advance.putHere (String.singleton c) = m.advance.putAttributeValue c := by
      rw [putHere, if_pos (by simp [advance, h, State.isAttributeValue]), putAttributeText,
        putAttributeValue]
      simp only [String.push_eq_append]
    have hspace : Ascii.isSpace c = false := by
      simp [Ascii.isSpace, hne (d := '\t') rfl, hne (d := '\n') rfl, hne (d := '\x0c') rfl,
        hne (d := ' ') rfl]
    have hdouble : c ≠ Ascii.doubleQuote := hne rfl
    have hsingle : c ≠ Ascii.singleQuote := hne rfl
    have hcloses : closesValue kind c = false := by
      cases kind with
      | doubleQuoted => exact decide_eq_false hdouble
      | singleQuoted => exact decide_eq_false hsingle
      | unquoted => rfl
    have hodd : isOddUnquoted c = false := by
      simp [isOddUnquoted, isOddInName, hdouble, hsingle, hne (d := '<') rfl, hne (d := '=') rfl,
        show c ≠ Ascii.grave from hne rfl]
    rw [hputValue, stepChar, h]
    simp [stepAttributeValue, hcloses, hspace, hodd, hne (d := '>') rfl, hne (d := '&') rfl,
      hne (d := '\x00') rfl]
  · cases hstate

/-- Texts that are put one behind the other are put as one. -/
theorem putHere_advance_putHere (s t : String) :
    (m.putHere s).advance.putHere t = m.advance.putHere (s ++ t) := by
  by_cases hstate : m.state.isAttributeValue = true
  · simp [putHere, putAttributeText, advance, hstate, Function.comp_def, String.append_assoc]
  · simp [putHere, putText, advance, hstate, String.append_assoc]

/-- **Plain characters** go one after another where the state is writing. -/
theorem leads_putHere {s : String} {letters cs : List Char} (hended : m.ended = false)
    (href : m.reference = none) (hstate : m.state.takesReferences = true)
    (hletters : ∀ c ∈ letters, isPlain c = true) (hpending : m.input.pending = letters ++ cs) :
    (m.putHere s).Leads ((m.skip letters.length).putHere (s ++ String.ofList letters)) := by
  induction letters generalizing m s with
  | nil =>
    rw [List.length_nil, skip_zero, String.ofList_nil, String.append_empty]
    exact Relation.ReflTransGen.refl
  | cons c letters ih =>
    rw [List.forall_mem_cons] at hletters
    have hcourse := m.course_putHere s
    have hfirst : step .byChar (m.putHere s) = some (m.advance.putHere (s.push c)) := by
      have hread : (m.putHere s).input.pending = c :: (letters ++ cs) :=
        (congrArg (·.input.pending) hcourse).trans hpending
      rw [step_of_char ((congrArg Course.ended hcourse).trans hended)
        ((congrArg Course.reference hcourse).trans href) hread, stepAt_byChar,
        stepChar_of_isPlain ((congrArg (·.state.takesReferences) hcourse).trans hstate) hletters.1,
        putHere_advance_putHere, String.push_eq_append]
    have hothers := ih (m := m.advance) (s := s.push c) hended href hstate hletters.2 (by
      show m.input.pending.tail = letters ++ cs
      rw [hpending]
      rfl)
    have hskip : m.advance.skip letters.length = m.skip (c :: letters).length := by
      rw [← skip_one, skip_skip, Nat.add_comm, List.length_cons]
    have hpush : s.push c ++ String.ofList letters = s ++ String.ofList (c :: letters) := by
      rw [String.push_eq_append, String.ofList_cons, String.append_assoc]
    rw [hskip, hpush] at hothers
    exact (Leads.single hfirst).trans hothers

@[simp] theorem course_keepLiteral (m : Machine) (s : String) (reported : Bool) :
    (m.keepLiteral s reported).course = (m.skip s.length).course := by
  unfold keepLiteral
  cases reported with
  | false => exact course_putHere s
  | true => exact (course_putHere s).trans (course_report _ _)

/-- **Characters behind the limit** are plain. -/
theorem leads_plain {s : String} {letters cs : List Char} (hended : m.ended = false)
    (href : m.reference = none) (hstate : m.state.takesReferences = true)
    (hletters : ∀ c ∈ letters, isPlain c = true)
    (hrest : m.input.pending.drop s.length = letters ++ cs) :
    (m.keepLiteral s false).Leads (m.keepLiteral (s ++ String.ofList letters) false) := by
  have hplain := leads_putHere (m := m.skip s.length) (s := s) hended href hstate hletters hrest
  have hlength : s.length + letters.length = (s ++ String.ofList letters).length := by
    rw [String.length_append, String.length_ofList]
  rw [skip_skip, hlength] at hplain
  exact hplain

/-! ## (6) Unknown names -/

/-- **An unknown name that is not reported**: it is not closed, or its semicolon comes too late. -/
theorem leads_unreported {letters cs : List Char} (hended : m.ended = false)
    (href : m.reference = none) (hstate : m.state.takesReferences = true)
    (hunknown : Reference.Unknown letters) (hpending : m.input.pending = '&' :: (letters ++ cs))
    (hmore : cs = [] → m.input.finished = true)
    (hend : letters.length < Reference.nameLimit → ∀ c ∈ cs.head?, isPlain c = false) :
    m.Leads (m.keepLiteral ("&" ++ String.ofList letters) false) := by
  -- the letters up to the limit are read as a name, the others as plain characters
  have hsearched := leads_searched hended href hstate hunknown.nonempty hunknown.isAlphanum hpending
    hmore rfl hend
  generalize hn : min letters.length Reference.nameLimit = n at hsearched
  have hlength : (String.ofList (letters.take n)).length = n := by
    rw [String.length_ofList, List.length_take_of_le (by omega)]
  have hnone : Reference.longestMatch (String.ofList (letters.take n)).toList = none := by
    rw [String.toList_ofList]
    exact hunknown.longestMatch_eq_none ((List.take_prefix n letters).trans (List.prefix_append _ _))
  have hlast : ¬(String.ofList (letters.take n)).toList.getLast? = some ';' := by
    rw [String.toList_ofList]
    intro hlast
    have hmem := List.mem_of_mem_take (List.mem_of_getLast? hlast)
    exact absurd (hunknown.isAlphanum ';' hmem) (by decide)
  have hgaveUp := closeName_of_unknown href _ (letters.drop n ++ cs).head? hnone
  rw [hlength, decide_eq_false hlast] at hgaveUp
  rw [hgaveUp] at hsearched
  have hothers : ∀ c ∈ letters.drop n, isPlain c = true := fun c hc => by
    simp [isPlain, hunknown.isAlphanum c (List.mem_of_mem_drop hc)]
  have hbehind : m.input.pending.drop ("&" ++ String.ofList (letters.take n)).length
      = letters.drop n ++ cs := by
    rw [length_ampersand, hlength, hpending, List.drop_succ_cons,
      List.drop_append_of_le_length (by omega)]
  have hplain := leads_plain hended href hstate hothers hbehind
  have hwhole : "&" ++ String.ofList (letters.take n) ++ String.ofList (letters.drop n)
      = "&" ++ String.ofList letters := by
    rw [String.append_assoc, ← String.ofList_append, List.take_append_drop]
  rw [hwhole] at hplain
  exact hsearched.trans hplain

/-- **An unknown name with its semicolon.** -/
theorem leads_closed {letters cs : List Char} (hended : m.ended = false)
    (href : m.reference = none) (hstate : m.state.takesReferences = true)
    (hunknown : Reference.Unknown letters)
    (hpending : m.input.pending = '&' :: (letters ++ ';' :: cs)) :
    m.Leads (m.keepLiteral ("&" ++ String.ofList (letters ++ [';']))
      (letters.length < Reference.nameLimit)) := by
  by_cases hroom : letters.length < Reference.nameLimit
  · have hsearched := leads_searched_semicolon hended href hstate hunknown.nonempty
      hunknown.isAlphanum hpending hroom
    have hnone : Reference.longestMatch (String.ofList (letters ++ [';'])).toList = none := by
      rw [String.toList_ofList]
      exact hunknown.longestMatch_eq_none List.prefix_rfl
    have hclosed := closeName_of_unknown href _ none hnone
    rw [String.length_ofList, String.toList_ofList, List.getLast?_concat, decide_eq_true rfl]
      at hclosed
    rw [decide_eq_true hroom, ← hclosed]
    exact hsearched
  · have hliteral := leads_unreported hended href hstate hunknown hpending (by simp)
      (fun h => absurd h hroom)
    have hsemicolon : m.input.pending.drop ("&" ++ String.ofList letters).length = [';'] ++ cs := by
      rw [hpending, length_ampersand, String.length_ofList, List.drop_succ_cons, List.drop_left]
      rfl
    have hwhole : "&" ++ String.ofList letters ++ String.ofList [';']
        = "&" ++ String.ofList (letters ++ [';']) := by
      rw [String.append_assoc, String.ofList_append]
    have hplain := leads_plain hended href hstate (List.forall_mem_singleton.mpr rfl) hsemicolon
    rw [hwhole] at hplain
    rw [decide_eq_false hroom]
    exact hliteral.trans hplain

end Machine

/-! ## (7) Sessions -/

section

variable {config : Config} {bs : Bytes} {m : Machine} {read rest : List Char}

/-- **Characters that are kept** contribute themselves. -/
theorem contributes_literal (hreach : (Machine.whole config bs).Leads m)
    (hpending : m.input.pending = '&' :: read ++ rest) (reported : Bool)
    (hleads : m.Leads (m.keepLiteral ("&" ++ String.ofList read) reported)) :
    Contributes config bs m ('&' :: read)
      (if reported then [⟨.unknownNamedCharacterReference, m.input.consumed + (read.length + 1)⟩]
        else [])
      (String.ofList ('&' :: read)) := by
  rw [Machine.ampersand_append] at hleads
  exact contributes_of_leads hreach hleads
    (Machine.replaces_keepLiteral hpending (Machine.exists_currentAttribute hreach) reported)

variable (hreach : (Machine.whole config bs).Leads m) (hended : m.ended = false)
  (href : m.reference = none) (hstate : m.state.takesReferences = true) {letters : List Char}
  (hunknown : Reference.Unknown letters)
include hreach hended href hstate hunknown

/-- **With its semicolon** an unknown name is an error if it is short enough. -/
theorem contributes_closed (hpending : m.input.pending = '&' :: (letters ++ ';' :: rest)) :
    Contributes config bs m ('&' :: (letters ++ [';']))
      (if letters.length < Reference.nameLimit then
        [⟨.unknownNamedCharacterReference, m.input.consumed + (letters.length + 2)⟩] else [])
      (String.ofList ('&' :: (letters ++ [';']))) := by
  have hread : m.input.pending = '&' :: (letters ++ [';']) ++ rest := by
    rw [hpending, List.cons_append, List.append_assoc]
    rfl
  have hkept := contributes_literal hreach hread _
    (Machine.leads_closed hended href hstate hunknown hpending)
  simp only [decide_eq_true_eq, List.length_append] at hkept
  exact hkept

/-- **Without one** it is none. -/
theorem contributes_unclosed (hpending : m.input.pending = '&' :: (letters ++ rest))
    (hrest : ∀ c ∈ rest.head?, c.isAlphanum = false ∧ c ≠ ';') :
    Contributes config bs m ('&' :: letters) [] (String.ofList ('&' :: letters)) := by
  have hfinished : m.input.finished = true := (Machine.input_of_leads hreach).2
  refine contributes_literal hreach hpending false
    (Machine.leads_unreported hended href hstate hunknown hpending (fun _ => hfinished) ?_)
  intro _ c hc
  simpa [Machine.isPlain] using hrest c hc

end

/-- **Unknown names stay literal.** Wherever a session of any input reads character references, `&` and
letters that begin with no name of the table stay what they are, however many letters they are. Behind
fewer letters than the longest name has characters a semicolon makes them an error; behind as many or
more it does not, nor does any other character or the end of the input. If such a name is the end of the
text, the calls of the session are those of the text in front of it, of the error if there is one, of the
name and of the end. -/
theorem unknown_reference_literal {config : Config} {bs : Bytes} {m : Machine}
    (hreach : (Machine.whole config bs).Leads m) (hended : m.ended = false)
    (href : m.reference = none) (hstate : m.state.takesReferences = true) {letters : List Char}
    (hunknown : Reference.Unknown letters) (rest : List Char) :
    (m.input.pending = '&' :: (letters ++ ';' :: rest) →
      Contributes config bs m ('&' :: (letters ++ [';']))
        (if letters.length < Reference.nameLimit then
          [⟨.unknownNamedCharacterReference, m.input.consumed + (letters.length + 2)⟩] else [])
        (String.ofList ('&' :: (letters ++ [';'])))) ∧
    (m.input.pending = '&' :: (letters ++ rest) →
      (∀ c ∈ rest.head?, c.isAlphanum = false ∧ c ≠ ';') →
      Contributes config bs m ('&' :: letters) [] (String.ofList ('&' :: letters))) ∧
    (m.state = .data ∨ m.state = .rawData .rcdata → ∀ surface chunks, chunks.flatten = bs →
      (m.input.pending = '&' :: (letters ++ [';']) →
        ∃ stats, tokenize surface config chunks = .ok (config.calls
          (if letters.length < Reference.nameLimit then m.output ++
            [.error ⟨.unknownNamedCharacterReference, m.input.consumed + (letters.length + 2)⟩ m.state,
              .characters (String.ofList ('&' :: (letters ++ [';']))), .endOfInput]
          else m.queue.toList ++
            [.characters (m.text ++ String.ofList ('&' :: (letters ++ [';']))), .endOfInput]),
          stats)) ∧
      (m.input.pending = '&' :: letters →
        ∃ stats, tokenize surface config chunks = .ok (config.calls (m.queue.toList ++
          [.characters (m.text ++ String.ofList ('&' :: letters)), .endOfInput]), stats))) := by
  refine ⟨contributes_closed hreach hended href hstate hunknown,
    contributes_unclosed hreach hended href hstate hunknown, fun htext surface chunks hchunks => ?_⟩
  constructor
  · intro hpending
    have hcalls := (contributes_closed hreach hended href hstate hunknown hpending).calls_at_end
      hreach hended href htext hpending surface hchunks
    by_cases hroom : letters.length < Reference.nameLimit
    · simpa [hroom, textTokens] using hcalls
    · simpa [hroom, textTokens] using hcalls
  · intro hpending
    have hlast : m.input.pending = '&' :: (letters ++ []) := by rw [hpending, List.append_nil]
    have hcalls := (contributes_unclosed hreach hended href hstate hunknown hlast
      (by simp)).calls_at_end hreach hended href htext hpending surface hchunks
    simpa [textTokens] using hcalls

/-- As many letters as the longest name has characters, none of them the beginning of a name. -/
def longUnknown : List Char := List.replicate Reference.nameLimit 'z'

theorem unknown_longUnknown : Reference.Unknown longUnknown := by
  refine ⟨by decide, List.all_eq_true.mp (by decide), ?_⟩
  have hnone : (Reference.startingWith 'z').all
      (fun e => !e.name.isPrefixOf (longUnknown ++ [';'])) = true := by decide +kernel
  rintro c ⟨⟩ e he hprefix
  have hmatch := List.all_eq_true.mp hnone e he
  rw [List.isPrefixOf_iff_prefix.mpr hprefix] at hmatch
  cases hmatch

/-- The long name with a semicolon behind it, in an attribute value and as a whole input: the semicolon is
text. -/
theorem unknown_reference_literal_in_value :
    Reference.Unknown longUnknown ∧
      (∃ m, (Machine.whole {} (Utf8.encode ("<x y=&" ++ String.ofList longUnknown ++ ";>"))).Leads m ∧
        m.ended = false ∧ m.reference = none ∧ m.state.takesReferences = true ∧
        m.input.pending = '&' :: (longUnknown ++ ';' :: ['>']) ∧
        Contributes {} (Utf8.encode ("<x y=&" ++ String.ofList longUnknown ++ ";>")) m
          ('&' :: (longUnknown ++ [';'])) [] (String.ofList ('&' :: (longUnknown ++ [';'])))) ∧
      ∀ surface chunks, chunks.flatten = Utf8.encode ("&" ++ String.ofList longUnknown ++ ";") →
        ∃ stats, tokenize surface {} chunks
          = .ok ([.chars ("&" ++ String.ofList longUnknown ++ ";"), .eof], stats) := by
  refine ⟨unknown_longUnknown, ?_, fun surface chunks hchunks => ?_⟩
  · -- six steps lead to the value
    have hreach := Machine.leads_runFor .byChar 6
      (Machine.whole {} (Utf8.encode ("<x y=&" ++ String.ofList longUnknown ++ ";>")))
    have hpending : (Machine.runFor .byChar 6 (Machine.whole {}
        (Utf8.encode ("<x y=&" ++ String.ofList longUnknown ++ ";>")))).input.pending
        = '&' :: (longUnknown ++ ';' :: ['>']) := by decide +kernel
    refine ⟨_, hreach, by decide +kernel, by decide +kernel, by decide +kernel, hpending, ?_⟩
    exact (unknown_reference_literal hreach (by decide +kernel) (by decide +kernel)
      (by decide +kernel) unknown_longUnknown ['>']).1 hpending
  · have hcalls := (unknown_reference_literal
      (m := Machine.whole {} (Utf8.encode ("&" ++ String.ofList longUnknown ++ ";")))
      Relation.ReflTransGen.refl rfl rfl rfl unknown_longUnknown []).2.2 (.inl rfl) surface chunks
        hchunks
    exact hcalls.1 (by decide +kernel)

/-- **Not every unknown name is reported**: with as many letters as the longest name has characters,
the semicolon is no error. -/
theorem unreported_longUnknown :
    Reference.Unknown longUnknown ∧
      ∃ stats, tokenize .borrowed {} [Utf8.encode ("&" ++ String.ofList longUnknown ++ ";")]
        = .ok ([.chars ("&" ++ String.ofList longUnknown ++ ";"), .eof], stats) ∧
        stats.errors = 0 :=
  ⟨unknown_longUnknown, _, rfl, by decide +kernel⟩

end HtmlStream

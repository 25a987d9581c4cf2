import HtmlStream.Proofs.References.Table

/-! # Named references

Behind `&` and a letter the machine collects what may be a name, up to a limit, and only then searches
the table; what it collected too much is put back as text. Both are of no consequence: a reference
stands for the longest name that the whole rest of the input begins with, and reading goes on right
behind that name.

* **`Reference.Expands`**: whether a name is expanded where it stands; in an attribute value, a name
  without semicolon is not if a letter, a digit or `=` follows.
* **`Machine.expandName e seen`**: the machine that has read the name of `e` and put what it stands for
  in its place; **`Machine.keepLiteral`**: the one that keeps the letters as they are written.
* **`leads_searched`**: what is collected. **`closeName_of_expands`**, **`leads_expanded`**: what is
  put back is read as what it is.
* **`replaces_expandName`**: what is written in place of a name, and its error.
* **`longest_name_expands`**: what becomes of `&` and a letter in a session. -/

namespace HtmlStream

/-! ## (1) Where names are expanded -/

namespace Reference

/-- **Whether the name of `e` is expanded** at the beginning of `s`: it has its semicolon, or it stands
outside of attribute values, or what follows it does not go on with it. -/
def Expands (inValue : Bool) (s : List Char) (e : Entry) : Prop :=
  e.isClosed = true ∨ inValue = false ∨
    ∀ c ∈ (s.drop e.name.length).head?, c ≠ '=' ∧ c.isAlphanum = false

theorem continuesName_eq_false_iff {next : Option Char} :
    Machine.continuesName next = false ↔ ∀ c ∈ next, c ≠ '=' ∧ c.isAlphanum = false := by
  cases next <;> simp [Machine.continuesName]

instance (inValue : Bool) (s : List Char) (e : Entry) : Decidable (Expands inValue s e) :=
  decidable_of_iff (e.isClosed = true ∨ inValue = false ∨
      Machine.continuesName (s.drop e.name.length).head? = false)
    (or_congr_right (or_congr_right continuesName_eq_false_iff))

variable {s : List Char} {e : Entry}

theorem expands_iff_of_open (h : e.isClosed = false) (inValue : Bool) :
    Expands inValue s e ↔
      (inValue && Machine.continuesName (s.drop e.name.length).head?) = false := by
  rw [Expands, h, Bool.and_eq_false_iff, continuesName_eq_false_iff]
  simp

/-- What may be a name is plain text. -/
theorem isPlain_of_mem_nameRun {c : Char} (h : c ∈ nameRun s) : Machine.isPlain c = true := by
  rcases List.mem_append.mp h with hletter | hsemicolon
  · simp [Machine.isPlain, List.mem_takeWhile_imp hletter]
  · split at hsemicolon
    · rw [List.mem_singleton.mp hsemicolon]
      rfl
    · cases hsemicolon

/-- Where characters are passed over, the next one is no such character. -/
theorem eq_false_of_mem_dropWhile {p : Char → Bool} {s : List Char} {c : Char}
    (h : c ∈ (s.dropWhile p).head?) : p c = false := by
  have hnot := List.head?_dropWhile_not p s
  rw [Option.mem_def.mp h] at hnot
  simpa using hnot

/-- The letters a text begins with, and the rest. -/
theorem exists_letters (s : List Char) : ∃ letters tail, s = letters ++ tail ∧
    (∀ c ∈ letters, c.isAlphanum = true) ∧ ∀ c ∈ tail.head?, c.isAlphanum = false := by
  refine ⟨s.takeWhile Char.isAlphanum, s.dropWhile Char.isAlphanum,
    List.takeWhile_append_dropWhile.symm, fun c hc => List.mem_takeWhile_imp hc,
    fun c hc => eq_false_of_mem_dropWhile hc⟩

/-- **What is collected**: the letters and their semicolon, or as many letters as there is room for. -/
theorem collected_cases (s : List Char) : ∃ letters tail, s = letters ++ tail ∧
    (∀ c ∈ letters, c.isAlphanum = true) ∧ (∀ c ∈ tail.head?, c.isAlphanum = false) ∧
    ((∃ cs, tail = ';' :: cs ∧ letters.length < nameLimit ∧ nameRun s = letters ++ [';'] ∧
        collected s = letters ++ [';']) ∨
      (letters.length < nameLimit → ∀ c ∈ tail.head?, Machine.isPlain c = false) ∧
        collected s = letters.take (min letters.length nameLimit)) := by
  obtain ⟨letters, tail, rfl, hletters, htail⟩ := exists_letters s
  refine ⟨letters, tail, rfl, hletters, htail, ?_⟩
  by_cases hroom : letters.length < nameLimit
  · by_cases hplain : ∀ c ∈ tail.head?, Machine.isPlain c = false
    · refine .inr ⟨fun _ => hplain, ?_⟩
      rw [collected, nameRun_open hletters hplain, Nat.min_eq_left hroom.le, List.take_length,
        List.take_of_length_le hroom.le]
    · push Not at hplain
      obtain ⟨c, hc, hplain⟩ := hplain
      obtain ⟨cs, rfl⟩ := List.head?_eq_some_iff.mp hc
      have hsemicolon : c = ';' := by simpa [Machine.isPlain, htail c hc] using hplain
      rw [hsemicolon]
      have hrun := nameRun_closed hletters cs
      refine .inl ⟨cs, rfl, hroom, hrun, ?_⟩
      rw [collected, hrun, List.take_of_length_le (by rw [List.length_append]; exact hroom)]
  · refine .inr ⟨fun h => absurd h hroom, ?_⟩
    rw [collected, nameRun, takeWhile_letters hletters, List.append_assoc,
      List.take_append_of_le_length (Nat.le_of_not_lt hroom),
      Nat.min_eq_right (Nat.le_of_not_lt hroom)]

/-- A semicolon is collected last, so that nothing is left out. -/
theorem collected_eq_nameRun (h : (collected s).getLast? = some ';') : collected s = nameRun s := by
  obtain ⟨letters, tail, rfl, hletters, -, ⟨cs, rfl, -, hrun, hcollected⟩ | ⟨-, hcollected⟩⟩ :=
    collected_cases s
  · rw [hcollected, hrun]
  · rw [hcollected] at h
    exact absurd (hletters ';' (List.mem_of_mem_take (List.mem_of_getLast? h))) (by decide)

end Reference

namespace Machine

open Reference

/-! ## (2) Reading a name -/

/-- **Reads `&` and the name of `e`** and puts what it stands for in its place. Without a semicolon it
is an error, which is noticed `seen` characters on. -/
def expandName (m : Machine) (e : Entry) (seen : Nat) : Machine :=
  let read := m.skip (e.name.length + 1)
  (if e.isClosed then read
    else read.reportAt .missingSemicolonAfterCharacterReference
      (m.input.consumed + seen)).putHere e.expansion

variable {m : Machine} {s : List Char} {e : Entry}

@[simp] theorem course_reportAt (code : ErrorCode) (position : Nat) :
    (m.reportAt code position).course = m.course :=
  course_flush _

theorem skip_reportAt (code : ErrorCode) (position n : Nat) :
    (m.reportAt code position).skip n = (m.skip n).reportAt code position := by
  cases htext : m.text.isEmpty <;> simp [reportAt, emit, flush, enqueue, skip, htext]

/-- **What is collected behind `&`** is searched for a name, with the next character unless a semicolon
has ended it. -/
theorem leads_collected (hended : m.ended = false) (href : m.reference = none)
    (hstate : m.state.takesReferences = true) (hfinished : m.input.finished = true)
    (hpending : m.input.pending = '&' :: s) (hs : ∃ c ∈ s.head?, c.isAlphanum = true) :
    m.Leads ((m.skip ((collected s).length + 1)).closeName (m.naming (String.ofList (collected s)))
      (if (collected s).getLast? = some ';' then none
        else (s.drop (collected s).length).head?)) := by
  obtain ⟨letters, tail, rfl, hletters, htail, hcases⟩ := collected_cases s
  have hne : letters ≠ [] := by
    rintro rfl
    obtain ⟨c, hc, halpha⟩ := hs
    rw [htail c hc] at halpha
    cases halpha
  rcases hcases with ⟨cs, rfl, hroom, -, hcollected⟩ | ⟨hend, hcollected⟩
  · rw [hcollected, if_pos List.getLast?_concat]
    exact leads_searched_semicolon hended href hstate hne hletters hpending hroom
  · have hsearched := leads_searched hended href hstate hne hletters hpending (fun _ => hfinished)
      rfl hend
    generalize hn : min letters.length nameLimit = n at hsearched hcollected
    have hlast : ¬(letters.take n).getLast? = some ';' := fun h =>
      absurd (hletters ';' (List.mem_of_mem_take (List.mem_of_getLast? h))) (by decide)
    rw [hcollected, if_neg hlast, List.length_take_of_le (by omega),
      List.drop_append_of_le_length (by omega)]
    exact hsearched

/-! ## (3) A name that is found -/

/-- What is collected behind the name. -/
theorem drop_name_eq (hfront : e.name <+: collected s) :
    s.drop e.name.length
      = (collected s).drop e.name.length ++ s.drop (collected s).length := by
  obtain ⟨tail, htail⟩ := collected_begins s
  have hle := hfront.length_le
  generalize collected s = cs at *
  subst htail
  rw [List.drop_append_of_le_length hle, List.drop_left]

/-- **The character behind the name** is the one that decides, however much has been collected. -/
theorem head?_behind (hopen : e.isClosed = false) (hfront : e.name <+: collected s) :
    ((collected s).drop e.name.length).head?.or (if (collected s).getLast? = some ';' then none
      else (s.drop (collected s).length).head?) = (s.drop e.name.length).head? := by
  rw [drop_name_eq hfront]
  cases hrest : (collected s).drop e.name.length with
  | cons c rest => rfl
  | nil =>
    have hname : e.name = collected s :=
      hfront.eq_of_length_le (List.drop_eq_nil_iff.mp hrest)
    have hlast : ¬(collected s).getLast? = some ';' := by
      rw [← hname]
      exact of_decide_eq_false hopen
    rw [if_neg hlast]
    rfl

/-- The machine behind all that has been collected: the name of `e` is expanded and the rest of it is
text. -/
def expandCollected (m : Machine) (e : Entry) (cs : List Char) : Machine :=
  let read := m.skip (cs.length + 1)
  (if e.isClosed then read
    else read.report .missingSemicolonAfterCharacterReference).putHere
      (e.expansion ++ String.ofList (cs.drop e.name.length))

/-- What a name that is found comes to. -/
theorem closeName_of_found (href : m.reference = none) {cs : List Char}
    (hfound : longestMatch cs = some e) (next : Option Char) :
    (m.skip (cs.length + 1)).closeName (m.naming (String.ofList cs)) next
      = if e.isClosed || !(m.state.isAttributeValue &&
            continuesName ((cs.drop e.name.length).head?.or next)) then m.expandCollected e cs
        else m.keepLiteral ("&" ++ String.ofList cs) false := by
  have hraw : (m.naming (String.ofList cs)).raw.toList = cs := String.toList_ofList
  have hplace : (m.naming (String.ofList cs)).inAttribute = m.state.isAttributeValue := rfl
  have hcourse := (m.skip (cs.length + 1)).course_report .missingSemicolonAfterCharacterReference
  rw [closeName, hraw, expandCollected, keepLiteral, length_ampersand, String.length_ofList]
  simp only [hfound, hplace]
  cases hclosed : e.isClosed with
  | true => exact closeReference_eq (k := m.skip (cs.length + 1)) href rfl _
  | false =>
    cases m.state.isAttributeValue && continuesName ((cs.drop e.name.length).head?.or next) with
    | true => exact closeReference_eq (k := m.skip (cs.length + 1)) href rfl _
    | false =>
      exact closeReference_eq ((congrArg Course.reference hcourse).trans href)
        (congrArg (·.state.isAttributeValue) hcourse).symm _

/-- **Whether it is expanded** depends on what follows it in the input. -/
theorem closeName_of_longest (href : m.reference = none) (hlongest : IsLongestName s e) :
    (m.skip ((collected s).length + 1)).closeName (m.naming (String.ofList (collected s)))
      (if (collected s).getLast? = some ';' then none else (s.drop (collected s).length).head?)
      = if Expands m.state.isAttributeValue s e then m.expandCollected e (collected s)
        else m.keepLiteral ("&" ++ String.ofList (collected s)) false := by
  have hcollected := isLongestName_collected.mpr hlongest
  rw [closeName_of_found href (longestMatch_eq_some_iff.mpr hcollected)]
  cases hclosed : e.isClosed with
  | true => rw [if_pos (show Expands _ s e from .inl hclosed)]; rfl
  | false =>
    rw [head?_behind hclosed hcollected.isPrefix]
    refine if_congr ?_ rfl rfl
    rw [expands_iff_of_open hclosed, Bool.false_or, Bool.not_eq_true']

/-- Reading on behind the name comes to what has been collected and put back. -/
theorem leads_expandCollected (hended : m.ended = false) (href : m.reference = none)
    (hstate : m.state.takesReferences = true) (hpending : m.input.pending = '&' :: s)
    (hfront : e.name <+: collected s) :
    (m.expandName e ((collected s).length + 1)).Leads (m.expandCollected e (collected s)) := by
  have hle := hfront.length_le
  have hplain : ∀ c ∈ (collected s).drop e.name.length, isPlain c = true := fun c hc =>
    isPlain_of_mem_nameRun (List.mem_of_mem_take (List.mem_of_mem_drop hc))
  have hskip : (m.skip (e.name.length + 1)).skip ((collected s).drop e.name.length).length
      = m.skip ((collected s).length + 1) := by
    rw [skip_skip, List.length_drop]
    congr 1
    omega
  have hbehind : (m.skip (e.name.length + 1)).input.pending
      = (collected s).drop e.name.length ++ s.drop (collected s).length := by
    show m.input.pending.drop (e.name.length + 1) = _
    rw [hpending, List.drop_succ_cons, drop_name_eq hfront]
  unfold expandName expandCollected
  rw [← hskip]
  by_cases hclosed : e.isClosed = true
  · simp only [if_pos hclosed]
    exact leads_putHere (m := m.skip (e.name.length + 1)) hended href hstate hplain hbehind
  · simp only [if_neg hclosed]
    have hcourse := (m.skip (e.name.length + 1)).course_reportAt
      .missingSemicolonAfterCharacterReference (m.input.consumed + ((collected s).length + 1))
    have hput := leads_putHere (s := e.expansion) ((congrArg Course.ended hcourse).trans hended)
      ((congrArg Course.reference hcourse).trans href)
      ((congrArg (·.state.takesReferences) hcourse).trans hstate) hplain
      ((congrArg (·.input.pending) hcourse).trans hbehind)
    rw [skip_reportAt, hskip] at hput
    rw [hskip]
    exact hput

/-- **The name is replaced** by what it stands for. -/
theorem replaces_expandName {rest : List Char} (hpending : m.input.pending = '&' :: e.name ++ rest)
    (hattribute : m.state.isAttributeValue = true → ∃ a, m.currentAttribute = some a) (seen : Nat) :
    m.Replaces (m.expandName e seen) ('&' :: e.name)
      (if e.isClosed then []
        else [⟨.missingSemicolonAfterCharacterReference, m.input.consumed + seen⟩])
      e.expansion := by
  rw [expandName]
  cases e.isClosed with
  | true => exact (Queues.refl _).putHere hpending hattribute _
  | false => exact ((Queues.refl _).reportAt _ _).putHere hpending hattribute _

/-! ## (4) Letters that are kept -/

/-- Letters that have been collected and kept, and those behind them. -/
theorem leads_keepLiteral_nameRun (hended : m.ended = false) (href : m.reference = none)
    (hstate : m.state.takesReferences = true) (hpending : m.input.pending = '&' :: s)
    (reported : Bool) (hreported : reported = true → (collected s).getLast? = some ';') :
    (m.keepLiteral ("&" ++ String.ofList (collected s)) reported).Leads
      (m.keepLiteral ("&" ++ String.ofList (nameRun s)) reported) := by
  cases reported with
  | true =>
    rw [collected_eq_nameRun (hreported rfl)]
    exact Relation.ReflTransGen.refl
  | false =>
    obtain ⟨rest, hrest⟩ : collected s <+: nameRun s := List.take_prefix _ _
    obtain ⟨tail, htail⟩ := nameRun_begins s
    have hplain : ∀ c ∈ rest, isPlain c = true := fun c hc =>
      isPlain_of_mem_nameRun (hrest ▸ List.mem_append_right _ hc)
    have hwhole : s = collected s ++ (rest ++ tail) := by
      rw [← List.append_assoc, hrest, htail]
    have hbehind : m.input.pending.drop ("&" ++ String.ofList (collected s)).length
        = rest ++ tail := by
      rw [hpending, length_ampersand, String.length_ofList, List.drop_succ_cons]
      exact (congrArg (List.drop (collected s).length) hwhole).trans List.drop_left
    have hkept := leads_plain hended href hstate hplain hbehind
    have hrun : "&" ++ String.ofList (collected s) ++ String.ofList rest
        = "&" ++ String.ofList (nameRun s) := by
      rw [String.append_assoc, ← hrest, String.ofList_append]
    rw [hrun] at hkept
    exact hkept

end Machine

/-! ## (5) Sessions -/

/-- **The session of an input runs as a machine does**: it comes to the same end, and however the
input is cut and on either surface, the calls are those of that machine. -/
def RunsAs (config : Config) (bs : Bytes) (k : Machine) : Prop :=
  (Machine.whole config bs).run = k.run ∧
    ∀ surface chunks, chunks.flatten = bs → ∃ stats,
      tokenize surface config chunks = .ok (config.calls k.run.queue.toList, stats)

/-- It does if both lead to one machine. -/
theorem runsAs_of_leads {config : Config} {bs : Bytes} {k k' : Machine}
    (h : (Machine.whole config bs).Leads k') (hk : k.Leads k') : RunsAs config bs k := by
  have hrun : (Machine.whole config bs).run = k.run :=
    (Machine.run_eq_of_leads h).trans (Machine.run_eq_of_leads hk).symm
  refine ⟨hrun, ?_⟩
  rintro surface chunks rfl
  rw [← hrun]
  exact ⟨_, tokenize_eq surface config chunks⟩

open Reference in
/-- **Named references stand for the longest name.** Wherever a session of any input reads character
references, let `s` be all that follows `&`, beginning with a letter or a digit. If `s` begins with a
name of the table, the longest one is expanded and reading goes on right behind it, with one error if
it has no semicolon; except for a name without semicolon in an attribute value that a letter, a digit
or `=` follows. In that case, and if `s` begins with no name, the letters and their semicolon are kept
as they are written, and at most the semicolon makes an error, that of an unknown name. -/
theorem longest_name_expands {config : Config} {bs : Bytes} {m : Machine}
    (hreach : (Machine.whole config bs).Leads m) (hended : m.ended = false)
    (href : m.reference = none) (hstate : m.state.takesReferences = true) {s : List Char}
    (hpending : m.input.pending = '&' :: s) (hs : ∃ c ∈ s.head?, c.isAlphanum = true) :
    (∀ e, IsLongestName s e → Expands m.state.isAttributeValue s e →
      ∃! k, RunsAs config bs k ∧ m.Replaces k ('&' :: e.name)
        (if e.isClosed then [] else [⟨.missingSemicolonAfterCharacterReference,
          m.input.consumed + ((collected s).length + 1)⟩]) e.expansion) ∧
    (∀ e, IsLongestName s e → ¬Expands m.state.isAttributeValue s e →
      Contributes config bs m ('&' :: nameRun s) [] (String.ofList ('&' :: nameRun s))) ∧
    ((¬∃ e, IsLongestName s e) →
      Contributes config bs m ('&' :: nameRun s)
        (if (collected s).getLast? = some ';' then [⟨.unknownNamedCharacterReference,
          m.input.consumed + ((nameRun s).length + 1)⟩] else [])
        (String.ofList ('&' :: nameRun s))) := by
  have hfinished : m.input.finished = true := (Machine.input_of_leads hreach).2
  have hcollected := Machine.leads_collected hended href hstate hfinished hpending hs
  obtain ⟨tail, htail⟩ := nameRun_begins s
  have hkept : m.input.pending = '&' :: nameRun s ++ tail := by
    rw [hpending, List.cons_append, htail]
  refine ⟨fun e he hexpands => ?_, fun e he hexpands => ?_, fun hnone => ?_⟩
  · rw [Machine.closeName_of_longest href he, if_pos hexpands] at hcollected
    have hruns := runsAs_of_leads (hreach.trans hcollected) (Machine.leads_expandCollected hended href
      hstate hpending (isLongestName_collected.mpr he).isPrefix)
    obtain ⟨rest, hrest⟩ := he.isPrefix
    have hname : m.input.pending = '&' :: e.name ++ rest := by
      rw [hpending, List.cons_append, hrest]
    have hreplaces := Machine.replaces_expandName hname (Machine.exists_currentAttribute hreach)
      ((collected s).length + 1)
    exact ⟨_, ⟨hruns, hreplaces⟩, fun _ hother => hother.2.unique hreplaces⟩
  · rw [Machine.closeName_of_longest href he, if_neg hexpands] at hcollected
    exact contributes_literal hreach hkept false (hcollected.trans
      (Machine.leads_keepLiteral_nameRun hended href hstate hpending false (by simp)))
  · have hsearch : longestMatch (String.ofList (collected s)).toList = none := by
      rw [String.toList_ofList, longestMatch_eq_none_iff]
      rintro ⟨e, he⟩
      exact hnone ⟨e, isLongestName_collected.mp he⟩
    have hunknown := Machine.closeName_of_unknown href _
      (if (collected s).getLast? = some ';' then none else (s.drop (collected s).length).head?) hsearch
    rw [String.length_ofList, String.toList_ofList] at hunknown
    rw [hunknown] at hcollected
    have hliteral := contributes_literal hreach hkept _ (hcollected.trans
      (Machine.leads_keepLiteral_nameRun hended href hstate hpending _ of_decide_eq_true))
    simpa only [decide_eq_true_eq] using hliteral

open Reference in
/-- `&notit;` begins with two names, `not` without a semicolon the longer one: as text it is expanded,
in an attribute value it is not. The end of the input does not go on with it either. -/
theorem longest_name_expands_not :
    IsLongestName ['n', 'o', 't', 'i', 't', ';'] ⟨['n', 'o', 't'], "¬"⟩ ∧
      (∃! k, RunsAs {} (Utf8.encode "&notit;") k ∧
        (Machine.whole {} (Utf8.encode "&notit;")).Replaces k ['&', 'n', 'o', 't']
          [⟨.missingSemicolonAfterCharacterReference, 7⟩] "¬") ∧
      (∃ m, (Machine.whole {} (Utf8.encode "<x y=&notit;>")).Leads m ∧
        m.state = .attributeValue .unquoted ∧ m.input.pending = "&notit;>".toList ∧
        Contributes {} (Utf8.encode "<x y=&notit;>") m "&notit;".toList [] "&notit;") ∧
      ∀ surface chunks, chunks.flatten = Utf8.encode "&not" → ∃ stats,
        tokenize surface {} chunks = .ok
          ([.error "missing-semicolon-after-character-reference", .chars "¬", .eof], stats) := by
  have hlongest : IsLongestName ['n', 'o', 't', 'i', 't', ';'] ⟨['n', 'o', 't'], "¬"⟩ :=
    longestMatch_eq_some_iff.mp (by decide +kernel)
  have hlongest' : IsLongestName ['n', 'o', 't', 'i', 't', ';', '>'] ⟨['n', 'o', 't'], "¬"⟩ :=
    longestMatch_eq_some_iff.mp (by decide +kernel)
  have hstart : (Machine.whole {} (Utf8.encode "&notit;")).Leads
      (Machine.whole {} (Utf8.encode "&notit;")) := Relation.ReflTransGen.refl
  have htext := longest_name_expands hstart (by decide +kernel) (by decide +kernel)
    (by decide +kernel)
    (s := ['n', 'o', 't', 'i', 't', ';']) (by decide +kernel) ⟨'n', by decide +kernel, by decide⟩
  -- six steps lead to the value
  have hreach := Machine.leads_runFor .byChar 6 (Machine.whole {} (Utf8.encode "<x y=&notit;>"))
  have hvalue := longest_name_expands hreach (by decide +kernel) (by decide +kernel)
    (by decide +kernel) (s := ['n', 'o', 't', 'i', 't', ';', '>']) (by decide +kernel)
    ⟨'n', by decide +kernel, by decide⟩
  have hstate : (Machine.runFor .byChar 6 (Machine.whole {} (Utf8.encode "<x y=&notit;>"))).state
      = .attributeValue .unquoted := by decide +kernel
  refine ⟨hlongest, ?_, ⟨_, hreach, hstate, by decide +kernel, ?_⟩, ?_⟩
  · exact htext.1 _ hlongest (by decide +kernel)
  · exact hvalue.2.1 _ hlongest' (by rw [hstate]; decide +kernel)
  · intro surface chunks hchunks
    have hlast : IsLongestName ['n', 'o', 't'] ⟨['n', 'o', 't'], "¬"⟩ :=
      longestMatch_eq_some_iff.mp (by decide +kernel)
    have hpending : (Machine.whole {} (Utf8.encode "&not")).input.pending = '&' :: ['n', 'o', 't'] := by
      decide +kernel
    have hstart : (Machine.whole {} (Utf8.encode "&not")).Leads
        (Machine.whole {} (Utf8.encode "&not")) := Relation.ReflTransGen.refl
    have hwhole := longest_name_expands hstart rfl rfl rfl hpending ⟨'n', rfl, by decide⟩
    obtain ⟨k, ⟨hruns, hk⟩, -⟩ := hwhole.1 _ hlast (by decide +kernel)
    obtain ⟨stats, hcalls⟩ := hruns.2 surface chunks hchunks
    rw [hk.queue_run rfl rfl (.inl rfl) hpending rfl] at hcalls
    exact ⟨stats, hcalls⟩

end HtmlStream

import HtmlStream.Proofs.Clean.Texts
import HtmlStream.Proofs.Guarded.Decoding
import HtmlStream.Proofs.Machine.Runs

/-! # The machine on its text

A step of the machine looks at the character at the cursor, and perhaps at the bytes of a keyword behind
it, and moves the cursor by what it reads. Here these are done to the text and its bytes, with every
check; what is made of the characters is left to the machine. No check fails: a step reads what is at the
cursor, and each state reads in the way that its step expects.

* **`readState`**, **`readDoctype`**: what is done to the text in a state.
* **`splitResolved`**: the cut behind the name of a character reference.
* **`step`**, **`run`**, **`feed`**, **`finish`**: the machine with its text.
* **`step_stored`**: a step on the text is a step of the machine. **`feed_stored`**,
  **`finish_stored`**: so are whole runs. -/

namespace HtmlStream.Guarded

/-! ## (1) What is done to the text -/

/-- The character that ends runs of raw text besides `<` and U+0000. -/
def special : RawKind → Char
  | .rcdata => '&'
  | .scriptDataEscaped _ => '-'
  | .rawtext | .scriptData => '<'

/-- The characters that runs are searched for in a state, none if the state takes no runs. -/
def runStops? : State → Option (List Char)
  | .data => some ['<', '&', '\x00']
  | .plaintext => some ['\x00', '\x00', '\x00']
  | .rawData kind => some ['<', special kind, '\x00']
  | .comment => some ['-', '\x00', '\x00']
  | _ => none

/-- The states that the steps of document types are taken in. -/
def inDoctype : State → Bool
  | .doctype | .beforeDoctypeName | .doctypeName | .afterDoctypeName | .afterDoctypeKeyword _
  | .beforeDoctypeIdentifier _ | .doctypeIdentifierDoubleQuoted _
  | .doctypeIdentifierSingleQuoted _ | .afterDoctypeIdentifier _
  | .betweenDoctypePublicAndSystemIdentifiers | .bogusDoctype => true
  | _ => false

/-- The states that these steps tell apart behind a character. -/
def inDoctypeBehind : State → Bool
  | .doctype | .beforeDoctypeName | .doctypeName | .afterDoctypeKeyword _
  | .beforeDoctypeIdentifier _ | .doctypeIdentifierDoubleQuoted _
  | .doctypeIdentifierSingleQuoted _ | .afterDoctypeIdentifier .publicId
  | .afterDoctypeIdentifier .systemId | .betweenDoctypePublicAndSystemIdentifiers
  | .bogusDoctype => true
  | _ => false

/-- Reads in a state of document types. Behind the name a keyword may come; in any other state a character
is read first, and then the state is told. -/
def readDoctype (m : Machine) (c : Char) (b : ByteInput) : Except Fault ByteInput :=
  if m.state = .afterDoctypeName then
    if Ascii.isSpace c || c = '>' then b.advance c else b.readKeyword Machine.doctypeKeywords
  else do
    let behind ← b.next
    if inDoctypeBehind m.state then return behind else throw .unreachable

/-- Reads a run, or the character in front if the run is empty. -/
def readRun (stops : List Char) (b : ByteInput) : Except Fault ByteInput := do
  let (run, behind) ← b.takeUntil stops
  if run.isEmpty then behind.next else return behind

/-- Reads in a state at the character `c`. -/
def readState (m : Machine) (c : Char) (b : ByteInput) : Except Fault ByteInput :=
  match runStops? m.state with
  | some stops => readRun stops b
  | none =>
    if inDoctype m.state then readDoctype m c b
    else if m.state = .markupDeclarationOpen then b.readKeyword Machine.declarationKeywords
    else b.read (m.reading c)

/-- The name that a reference ends with at the character `next`, if it ends with a name. -/
def resolved? (r : Reference) (next : Option Char) : Option String :=
  match r.phase, next with
  | .named, some c =>
    if r.raw.length < Reference.nameLimit && c.isAlphanum then none
    else if r.raw.length < Reference.nameLimit && c = ';' then some (r.raw.push ';')
    else some r.raw
  | .named, none => some r.raw
  | _, _ => none

/-- Cuts a name behind the longest name in it that stands for a text. -/
def splitName (name : String) : Except Fault Unit :=
  match Reference.longestMatch name.toList with
  | some entry => do
    let _ ← cut name.toList (bytesOf entry.name).length
    return ()
  | none => .ok ()

/-- Cuts the name that a reference ends with. -/
def splitResolved (r : Reference) (next : Option Char) : Except Fault Unit :=
  match resolved? r next with
  | some name => splitName name
  | none => .ok ()

/-! ## (2) The machine with its text -/

/-- The machine with the input that the text amounts to. -/
def see (m : Machine) (b : ByteInput) : Except Fault Machine := do
  let input ← b.view
  return { m with input }

/-- A step of a reference. -/
def stepReference (m : Machine) (b : ByteInput) (r : Reference) (next : Option Char) :
    Except Fault (Option (Machine × ByteInput)) :=
  if next.isNone && !b.finished then .ok none
  else do
    let behind ← b.read (r.reading next)
    splitResolved r next
    return some (m.stepReference r next, behind)

/-- A step in a state. -/
def stepState (m : Machine) (b : ByteInput) (next : Option Char) :
    Except Fault (Option (Machine × ByteInput)) :=
  match next with
  | some c => do
    let behind ← readState m c b
    return (m.stepAt .byRun c).map (·, behind)
  | none => .ok (if b.finished then some (m.stepEnd, b) else none)

/-- One step of a machine that sees its input: none if it has ended or waits for more. -/
def stepSeen (m : Machine) (b : ByteInput) : Except Fault (Option (Machine × ByteInput)) :=
  if m.ended then .ok none
  else do
    let next ← b.peek
    match m.reference with
    | some r => stepReference m b r next
    | none => stepState m b next

/-- One step. The machine sees of its input what the text amounts to. -/
def step (m : Machine) (b : ByteInput) : Except Fault (Option (Machine × ByteInput)) := do
  let m ← see m b
  stepSeen m b

/-- Steps until there is none, which has to be so after `fuel` steps. -/
def runFor : Nat → Machine → ByteInput → Except Fault (Machine × ByteInput)
  | 0, _, _ => .error .endless
  | fuel + 1, m, b => do
    match ← step m b with
    | none => return (m, b)
    | some (m, b) => runFor fuel m b

/-- Runs the machine, and drops the text that was read. -/
def run (m : Machine) (b : ByteInput) : Except Fault (Machine × ByteInput) := do
  let m ← see m b
  let (m, b) ← runFor m.stepBound m b
  let b ← b.compact
  return (m, b)

/-- Takes a chunk. -/
def feed (m : Machine) (b : ByteInput) (chunk : Bytes) : Except Fault (Machine × ByteInput) := do
  let b ← b.push chunk
  run m b

/-- Takes the end of the input, which has to be queued. -/
def finish (m : Machine) (b : ByteInput) : Except Fault (Machine × ByteInput) := do
  let b ← b.finish
  let (m, b) ← run m b
  if m.ended then return (m, b) else throw .notEnded

/-! ## (3) Reading in a state -/

section

variable (m : Machine) (front : List Char) {c : Char}

theorem admits_of_eq {keyword : Keyword} (cs : List Char) (htext : keyword.text = String.ofList cs)
    (hcs : cs.all (Admits keyword ·) = true) : ∀ k ∈ keyword.text.toList, Admits keyword k := by
  rw [htext, String.toList_ofList]
  exact fun k hk => of_decide_eq_true (List.all_eq_true.mp hcs k hk)

theorem admits_declarationKeywords :
    ∀ keyword ∈ Machine.declarationKeywords, ∀ k ∈ keyword.text.toList, Admits keyword k := by
  rintro keyword hmem
  simp only [Machine.declarationKeywords, List.mem_cons, List.not_mem_nil, or_false] at hmem
  rcases hmem with rfl | rfl | rfl
  · exact admits_of_eq ['-', '-'] rfl (by decide)
  · exact admits_of_eq ['d', 'o', 'c', 't', 'y', 'p', 'e'] rfl (by decide)
  · exact admits_of_eq ['[', 'C', 'D', 'A', 'T', 'A', '['] rfl (by decide)

theorem admits_doctypeKeywords :
    ∀ keyword ∈ Machine.doctypeKeywords, ∀ k ∈ keyword.text.toList, Admits keyword k := by
  rintro keyword hmem
  simp only [Machine.doctypeKeywords, List.mem_cons, List.not_mem_nil, or_false] at hmem
  rcases hmem with rfl | rfl
  · exact admits_of_eq ['p', 'u', 'b', 'l', 'i', 'c'] rfl (by decide)
  · exact admits_of_eq ['s', 'y', 's', 't', 'e', 'm'] rfl (by decide)

/-- What a state reads is there. -/
theorem fits_reading (h : m.input.pending.head? = some c) : Fits m.input (m.reading c) := by
  cases hreading : m.reading c with
  | nothing => trivial
  | char d =>
    rw [Machine.eq_of_reading hreading]
    exact h
  | keyword n =>
    have hcharIf : ∀ {p : Bool} {d : Char}, Reading.charIf p d ≠ .keyword n := by
      rintro p d hcontra
      cases p <;> cases hcontra
    -- only two states look for keywords
    unfold Machine.reading at hreading
    split at hreading
    case h_13 =>
      rw [← hreading]
      exact fits_findKeyword m.input admits_declarationKeywords
    case h_14 =>
      split at hreading
      · cases hreading
      · rw [← hreading]
        exact fits_findKeyword m.input admits_doctypeKeywords
    case h_15 => cases hreading
    all_goals exact absurd hreading hcharIf

theorem ascii_runStops {s : State} {stops : List Char} (h : runStops? s = some stops) :
    ∀ d ∈ stops, d.utf8Size = 1 := by
  have hall : stops.all (·.utf8Size = 1) = true := by
    unfold runStops? at h
    split at h
    case h_3 kind =>
      cases h
      cases kind <;> rfl
    case h_5 => cases h
    all_goals
      cases h
      decide
  exact fun d hd => of_decide_eq_true (List.all_eq_true.mp hall d hd)

/-- **The characters that a run is searched for** are those that end it. -/
theorem runStop_eq (s : State) :
    Machine.runStop? s = (runStops? s).map fun stops => stops.contains := by
  cases s with
  | data | plaintext | comment =>
    refine congrArg some (funext fun d => ?_)
    simp [Bool.or_assoc]
  | rawData kind =>
    refine congrArg some (funext fun d => ?_)
    cases kind <;> simp [special, Machine.stopsRaw, Bool.or_assoc]
  | _ => rfl

/-- If there is no run to take, a character is read. -/
theorem reading_of_runStops {stops : List Char} (h : runStops? m.state = some stops) :
    m.reading c = .char c := by
  unfold runStops? at h
  unfold Machine.reading
  split at h
  case h_5 => cases h
  all_goals
    rename_i hstate
    rw [hstate]

/-- Behind a character, the steps of document types know the state. -/
theorem inDoctypeBehind_of_inDoctype {s : State} (h : inDoctype s = true)
    (hname : s ≠ .afterDoctypeName) : inDoctypeBehind s = true := by
  cases s with
  | afterDoctypeName => exact absurd rfl hname
  | afterDoctypeIdentifier kind => cases kind <;> rfl
  | _ => first | rfl | cases h

/-- A state of document types reads the character in front, but for the one behind the name. -/
theorem reading_of_inDoctype (h : inDoctype m.state = true) (hname : m.state ≠ .afterDoctypeName) :
    m.reading c = .char c := by
  unfold Machine.reading
  cases hstate : m.state with
  | afterDoctypeName => exact absurd hstate hname
  | _ => first | rfl | (rw [hstate] at h; cases h)

theorem readDoctype_stored (hc : m.input.pending.head? = some c) (h : inDoctype m.state = true) :
    ∃ front', readDoctype m c (stored front m.input)
      = .ok (stored front' (m.input.read (m.reading c))) := by
  unfold readDoctype
  split
  · rename_i hname
    have hreading : m.reading c = if Ascii.isSpace c || c = '>' then .char c
        else m.input.findKeyword Machine.doctypeKeywords := by
      rw [Machine.reading, hname]
    rw [hreading]
    split
    · exact ⟨front ++ [c], advance_stored front m.input hc⟩
    · rw [readKeyword_stored front m.input admits_doctypeKeywords]
      exact read_stored front m.input (fits_findKeyword m.input admits_doctypeKeywords)
  · rename_i hname
    refine ⟨front ++ [c], ?_⟩
    rw [reading_of_inDoctype m h hname, next_stored front m.input hc]
    show (if inDoctypeBehind m.state = true then _ else _) = _
    rw [if_pos (inDoctypeBehind_of_inDoctype h hname)]
    rfl

/-- **A run** is read as by the machine, or the character that it would begin with. -/
theorem readRun_stored {stops : List Char} (hstops : runStops? m.state = some stops)
    (hc : m.input.pending.head? = some c) :
    ∃ front' input, readRun stops (stored front m.input) = .ok (stored front' input) ∧
      ∀ k, m.stepAt .byRun c = some k → k.input = input := by
  have hahead : Machine.runAhead .byRun m = m.input.run stops.contains := by
    have hstop := runStop_eq m.state
    rw [hstops, Option.map_some] at hstop
    unfold Machine.runAhead
    rw [hstop]
  rw [readRun, takeUntil_stored front m.input (ascii_runStops hstops)]
  by_cases hempty : (m.input.run stops.contains).isEmpty = true
  · have hnil := List.isEmpty_iff.mp hempty
    refine ⟨front ++ [c], m.input.advance, ?_, ?_⟩
    · rw [hnil]
      show (stored (front ++ []) m.input).next = _
      rw [List.append_nil]
      exact next_stored front m.input hc
    · rintro k hk
      rw [Machine.stepAt, hahead] at hk
      simp only [hempty, if_true] at hk
      rw [m.input_stepChar_eq c hk, reading_of_runStops m hstops, Input.read_char]
  · refine ⟨front ++ m.input.run stops.contains, m.input.skip (m.input.run stops.contains).length,
      ?_, ?_⟩
    · show (if (m.input.run stops.contains).isEmpty = true then _ else _) = _
      rw [if_neg hempty]
      rfl
    · rintro k hk
      rw [Machine.stepAt, hahead] at hk
      simp only [hempty] at hk
      cases hk
      exact congrArg Course.input (Machine.course_putRun _ _)

/-- In a state that takes no runs, the machine reads what is read at the character in front. -/
theorem input_stepAt_of_runStops (hstops : runStops? m.state = none) {k : Machine}
    (h : m.stepAt .byRun c = some k) : k.input = m.input.read (m.reading c) := by
  have hahead : Machine.runAhead .byRun m = [] := by
    have hstop := runStop_eq m.state
    rw [hstops, Option.map_none] at hstop
    unfold Machine.runAhead
    rw [hstop]
  rw [Machine.stepAt, hahead] at h
  exact m.input_stepChar_eq c h

/-- **What a state reads**, of the text and in the machine: the input behind its step is the one that
is kept. -/
theorem readState_stored (hc : m.input.pending.head? = some c) :
    ∃ front' input, readState m c (stored front m.input) = .ok (stored front' input) ∧
      ∀ k, m.stepAt .byRun c = some k → k.input = input := by
  unfold readState
  cases hstops : runStops? m.state with
  | some stops => exact readRun_stored m front hstops hc
  | none =>
    have hinput : ∀ k, m.stepAt .byRun c = some k → k.input = m.input.read (m.reading c) :=
      fun k => input_stepAt_of_runStops m hstops
    by_cases hdoctype : inDoctype m.state = true
    · obtain ⟨front', hread⟩ := readDoctype_stored m front hc hdoctype
      exact ⟨front', _, (if_pos hdoctype).trans hread, hinput⟩
    · by_cases hopen : m.state = .markupDeclarationOpen
      · have hreading : m.reading c = m.input.findKeyword Machine.declarationKeywords := by
          rw [Machine.reading, hopen]
        obtain ⟨front', hread⟩ := read_stored front m.input
          (fits_findKeyword m.input admits_declarationKeywords)
        rw [← readKeyword_stored front m.input admits_declarationKeywords, ← hreading] at hread
        exact ⟨front', _, (if_neg hdoctype).trans ((if_pos hopen).trans hread), hinput⟩
      · obtain ⟨front', hread⟩ := read_stored front m.input (fits_reading m hc)
        exact ⟨front', _, (if_neg hdoctype).trans ((if_neg hopen).trans hread), hinput⟩

/-! ## (4) References -/

/-- **A name can be cut** behind the longest that it begins with. -/
theorem splitName_ok (name : String) : splitName name = .ok () := by
  unfold splitName
  split
  · rename_i entry hentry
    have hprefix : entry.name <+: name.toList := by
      cases hname : name.toList with
      | nil =>
        rw [hname] at hentry
        cases hentry
      | cons d ds =>
        rw [hname] at hentry
        exact List.isPrefixOf_iff_prefix.mp (Reference.mem_of_longestMatch hentry).2
    obtain ⟨rest, hrest⟩ := hprefix
    rw [← hrest, length_bytesOf, cut_append]
    rfl
  · rfl

theorem splitResolved_ok (r : Reference) (next : Option Char) : splitResolved r next = .ok () := by
  unfold splitResolved
  split
  · exact splitName_ok _
  · rfl

/-- What a reference reads is there. -/
theorem fits_referenceReading (i : Input) (r : Reference) : Fits i (r.reading i.pending.head?) := by
  cases hpending : i.pending.head? with
  | none => trivial
  | some d =>
    rcases r.reading_some d with hnothing | ⟨hchar, -⟩
    · rw [hnothing]
      trivial
    · rw [hchar]
      exact hpending

/-! ## (5) Steps and runs -/

theorem see_stored (i : Input) : see m (stored front i) = .ok { m with input := i } := by
  rw [see, view_stored]
  rfl

theorem stepReference_stored (r : Reference) : ∃ front',
    stepReference m (stored front m.input) r m.input.pending.head?
      = .ok (if m.input.pending.head?.isNone && !m.input.finished then none
        else some (m.stepReference r m.input.pending.head?,
          stored front' (m.stepReference r m.input.pending.head?).input)) := by
  obtain ⟨front', hread⟩ := read_stored front m.input (fits_referenceReading m.input r)
  refine ⟨front', ?_⟩
  rw [stepReference, hread, splitResolved_ok, m.input_stepReference_eq]
  show (if (m.input.pending.head?.isNone && !m.input.finished) = true then _ else _) = _
  split <;> rfl

theorem stepState_stored : ∃ front',
    stepState m (stored front m.input) m.input.pending.head?
      = .ok ((match m.input.pending.head? with
        | some c => m.stepAt .byRun c
        | none => if m.input.finished then some m.stepEnd else none).map
          fun k => (k, stored front' k.input)) := by
  unfold stepState
  cases hc : m.input.pending.head? with
  | some c =>
    obtain ⟨front', input, hread, hinput⟩ := readState_stored m front hc
    refine ⟨front', ?_⟩
    simp only [hread]
    show Except.ok ((m.stepAt .byRun c).map (·, stored front' input)) = _
    cases hstep : m.stepAt .byRun c with
    | none => rfl
    | some k =>
      rw [Option.map_some, Option.map_some, hinput k hstep]
  | none =>
    refine ⟨front, ?_⟩
    show Except.ok (if m.input.finished = true then some (m.stepEnd, stored front m.input) else _) = _
    rw [← m.input_stepEnd]
    cases m.stepEnd.input.finished <;> rfl

/-- **A step on the text** is a step of the machine, and leaves the cursor where characters meet. -/
theorem step_stored : ∃ front', step m (stored front m.input)
    = .ok ((Machine.step .byRun m).map fun k => (k, stored front' k.input)) := by
  have hseen : step m (stored front m.input) = stepSeen m (stored front m.input) := by
    rw [step, see_stored]
    rfl
  rw [hseen, stepSeen, Machine.step, peek_stored]
  by_cases hended : m.ended = true
  · refine ⟨front, ?_⟩
    rw [if_pos hended, if_pos hended]
    rfl
  · rw [if_neg hended, if_neg hended]
    cases m.reference with
    | some r =>
      obtain ⟨front', hstep⟩ := stepReference_stored m front r
      refine ⟨front', hstep.trans ?_⟩
      cases m.input.pending with
      | nil => cases m.input.finished <;> rfl
      | cons c rest => rfl
    | none =>
      obtain ⟨front', hstep⟩ := stepState_stored m front
      refine ⟨front', hstep.trans ?_⟩
      cases m.input.pending with
      | nil => cases m.input.finished <;> rfl
      | cons c rest => rfl

/-- **A run on the text** is a run of the machine. Its steps come to an end in time, since each lowers
the rank. -/
theorem runFor_stored {fuel : Nat} (h : m.course.rank < fuel) : ∃ front',
    runFor fuel m (stored front m.input)
      = .ok (Machine.runFor .byRun fuel m, stored front' (Machine.runFor .byRun fuel m).input) := by
  induction fuel generalizing m front with
  | zero => omega
  | succ fuel ih =>
    obtain ⟨front₁, hstep⟩ := step_stored m front
    rw [runFor, hstep, Machine.runFor]
    cases hnext : Machine.step .byRun m with
    | none => exact ⟨front, rfl⟩
    | some k =>
      have hlt := Machine.rank_step hnext
      obtain ⟨front₂, hrun⟩ := ih k front₁ (by omega)
      exact ⟨front₂, hrun⟩

theorem run_stored (i : Input) : run m (stored front i)
    = .ok ({ m with input := i }.run, stored [] { m with input := i }.run.input) := by
  obtain ⟨front', hrun⟩ :=
    runFor_stored { m with input := i } front (Machine.rank_lt_stepBound { m with input := i })
  rw [run, see_stored]
  show Except.bind (runFor _ { m with input := i } _) _ = _
  rw [hrun]
  show Except.bind (ByteInput.compact _) _ = _
  rw [compact_stored]
  rfl

/-- **A chunk** is taken as by the machine. -/
theorem feed_stored (hfinished : m.input.finished = false)
    (hheld : Utf8.Held m.input.decoder.carry) (chunk : Bytes) :
    feed m (stored front m.input) chunk
      = .ok (m.feed chunk, stored [] (m.feed chunk).input) := by
  rw [feed, push_stored front m.input hfinished hheld]
  exact run_stored m front (m.input.receive chunk)

/-- **The end of the input** is taken as by the machine, and queued. -/
theorem finish_machine (hheld : Utf8.Held m.input.decoder.carry) :
    finish m (stored front m.input) = .ok (m.finish, stored [] m.finish.input) := by
  rw [finish, finish_stored front m.input hheld]
  show Except.bind (run m (stored front m.input.finish)) _ = _
  have hended : m.finish.ended = true := Machine.ended_run (m := m.close) rfl
  rw [run_stored]
  show (if m.finish.ended = true then _ else _) = _
  rw [if_pos hended]
  rfl

/-- What is carried behind a chunk may be held. -/
theorem held_feed (hheld : Utf8.Held m.input.decoder.carry) (chunk : Bytes) :
    Utf8.Held (m.feed chunk).input.decoder.carry := by
  have hdecoder : (m.feed chunk).input.decoder = (m.receive chunk).input.decoder :=
    (Machine.input_of_leads (m.receive chunk).leads_run).1
  have hcarry := (m.input.decoder.bytes_eq #[] chunk).2
  rw [hdecoder]
  show Utf8.Held (m.input.decoder.bytes #[] chunk).2.carry
  rw [hcarry]
  exact Utf8.held_decodeBytes hheld chunk

end

end HtmlStream.Guarded

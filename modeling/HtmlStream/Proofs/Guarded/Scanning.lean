import HtmlStream.Proofs.Chunking
import HtmlStream.Proofs.Guarded.Session

/-! # Runs of plain characters leave no trace

In text, in raw text and in comments, all characters in front of the next one that counts are taken at
once. Where they end is found by a search through the bytes of the text, for other bytes in each state.
The steps of these states know what to do with every character on its own, too. So whatever part of the
run a search takes, all of it or nothing, the machine comes to the same end.

* **`Scan`**: a search, with what it has to keep to. **`Scan.bulk`**: through the bytes. **`Scan.off`**:
  no search at all.
* **`Scan.step`**, **`Scan.run`**: the machine with its text, for any scan.
* **`Scan.exists_step`**: each step is a chain of steps that take one character. **`Scan.run_stored`**:
  a run is that of the machine.
* **`Scan.runSession`**: a run and the delivery of what it queues.
* **`scan_leaves_no_trace`**: with and without a search, calls, counters, positions and states agree. -/

namespace HtmlStream

namespace Guarded

/-! ## (1) Scans -/

/-- **A search for the end of a run.** It may stop early, but it goes past no character that it is to
stop at. -/
structure Scan where
  /-- What it takes in front of the characters `stops`, and the text behind that. -/
  take : ByteInput → List Char → Except Fault (List Char × ByteInput)
  /-- Between two characters, it takes a front of what is left in which none of `stops` occurs. -/
  take_stored : ∀ {stops : List Char}, (∀ c ∈ stops, c.utf8Size = 1) → ∀ front i, ∃ run,
    run <+: i.pending ∧ (∀ c ∈ run, c ∉ stops) ∧
      take (stored front i) stops = .ok (run, stored (front ++ run) (i.skip run.length))

namespace Scan

/-- The search through the bytes, which takes all of the run. -/
def bulk : Scan where
  take := ByteInput.takeUntil
  take_stored := by
    intro stops hascii front i
    refine ⟨i.run stops.contains, List.takeWhile_prefix _, ?_, takeUntil_stored front i hascii⟩
    intro c hc
    simpa using List.mem_takeWhile_imp hc

example : (bulk.take (stored ['<'] { decoder := { discardBom := true }, pending := ['a', 'é', '&', 'b'] })
    ['<', '&', '\x00']).map (·.1) = .ok ['a', 'é'] := by decide

/-- No search: the run is always empty. -/
def off : Scan where
  take := fun b _ => .ok ([], b)
  take_stored := by
    intro stops _ front i
    refine ⟨[], List.nil_prefix, by simp, ?_⟩
    rw [List.append_nil]
    rfl

/-! ## (2) The machine with a scan -/

variable (scan : Scan)

/-- The step of the state at the character at the cursor, which is read. -/
def stepCharacter (m : Machine) (b : ByteInput) : Except Fault (Option (Machine × ByteInput)) := do
  match ← b.peek with
  | none => return none
  | some c =>
    let behind ← b.advance c
    return (m.stepChar c).map (·, behind)

/-- A step in a state that takes runs: the run is put where the state puts its characters. If it is
empty, one character is read. -/
def stepRun (stops : List Char) (m : Machine) (b : ByteInput) :
    Except Fault (Option (Machine × ByteInput)) := do
  let (run, behind) ← scan.take b stops
  if run.isEmpty then stepCharacter m behind
  else
    let m ← see m behind
    return some (m.putRun (String.ofList run), behind)

/-- A step in a state. Those that take no runs do not search. -/
def stepState (m : Machine) (b : ByteInput) (next : Option Char) :
    Except Fault (Option (Machine × ByteInput)) :=
  match next, runStops? m.state with
  | some _, some stops => scan.stepRun stops m b
  | _, _ => Guarded.stepState m b next

/-- One step of a machine that sees its input. -/
def stepSeen (m : Machine) (b : ByteInput) : Except Fault (Option (Machine × ByteInput)) :=
  if m.ended then .ok none
  else do
    let next ← b.peek
    match m.reference with
    | some r => stepReference m b r next
    | none => scan.stepState m b next

/-- One step: none if the machine has ended or waits for more. -/
def step (m : Machine) (b : ByteInput) : Except Fault (Option (Machine × ByteInput)) := do
  let m ← see m b
  scan.stepSeen m b

/-- Steps until there is none, which has to be so after `fuel` steps. -/
def runFor : Nat → Machine → ByteInput → Except Fault (Machine × ByteInput)
  | 0, _, _ => .error .endless
  | fuel + 1, m, b => do
    match ← scan.step m b with
    | none => return (m, b)
    | some (m, b) => runFor fuel m b

/-- Runs the machine, and drops the text that was read. -/
def run (m : Machine) (b : ByteInput) : Except Fault (Machine × ByteInput) := do
  let m ← see m b
  let (m, b) ← scan.runFor m.stepBound m b
  let b ← b.compact
  return (m, b)

/-- Runs the machine of a session, and delivers what is queued. -/
def runSession (s : AnySession) (b : ByteInput) :
    Except Fault (List TextCallback × AnySession × ByteInput) := do
  let (machine, b) ← scan.run s.session.machine b
  let (calls, s) ← deliverQueued (goOn s { s.session with machine })
  return (calls, s, b)

/-! ## (3) Steps -/

/-- **What a step comes to**: nothing where the machine makes no step, and otherwise a machine further on
that stands between two characters of its text. -/
def Advances (m : Machine) : Option (Machine × ByteInput) → Prop
  | none => Machine.step .byChar m = none
  | some (k, b) => m.Leads k ∧ k.course.rank < m.course.rank ∧ ∃ front, b = stored front k.input

section

variable (m : Machine) (front : List Char) {stops : List Char} {c : Char} {rest : List Char}

/-- A step of the machine advances it. -/
theorem advances_map {pace : Pace} (hstop : Machine.step pace m = none → Machine.step .byChar m = none)
    (front' : List Char) :
    Advances m ((Machine.step pace m).map fun k => (k, stored front' k.input)) := by
  cases hstep : Machine.step pace m with
  | none => exact hstop hstep
  | some k => exact ⟨Machine.leads_of_step hstep, Machine.rank_step hstep, front', rfl⟩

/-- A state that takes no runs does not search. -/
theorem stepState_of_runStops (hstops : runStops? m.state = none) (b : ByteInput)
    (next : Option Char) : scan.stepState m b next = Guarded.stepState m b next := by
  unfold stepState
  rw [hstops]
  cases next <;> rfl

/-- **Where no run is searched for** a step is that of the machine on its text. -/
theorem step_eq (h : m.ended = true ∨ m.reference ≠ none ∨ m.input.pending = [] ∨
      runStops? m.state = none) :
    scan.step m (stored front m.input) = Guarded.step m (stored front m.input) := by
  rw [step, Guarded.step, see_stored]
  show scan.stepSeen m _ = Guarded.stepSeen m _
  rw [stepSeen, Guarded.stepSeen, peek_stored]
  by_cases hended : m.ended = true
  · rw [if_pos hended, if_pos hended]
  · rw [if_neg hended, if_neg hended]
    -- a reference goes before the state, and only the state may search
    cases href : m.reference with
    | some r => rfl
    | none =>
      show scan.stepState m _ m.input.pending.head? = Guarded.stepState m _ m.input.pending.head?
      rcases (h.resolve_left hended).resolve_left (by simp [href]) with hpending | hstops
      · rw [hpending]
        rfl
      · exact stepState_of_runStops scan m hstops _ _

/-- **If nothing is taken**, the character in front goes through the step of its state. -/
theorem stepCharacter_stored (hended : m.ended = false) (href : m.reference = none)
    (hstops : runStops? m.state = some stops) (hpending : m.input.pending = c :: rest) :
    ∃ outcome, stepCharacter m (stored front m.input) = .ok outcome ∧ Advances m outcome := by
  have hhead : m.input.pending.head? = some c := by rw [hpending, List.head?_cons]
  have hstep : Machine.step .byChar m = m.stepChar c :=
    Machine.step_of_char hended href hpending
  refine ⟨(Machine.step .byChar m).map fun k => (k, stored (front ++ [c]) k.input), ?_,
    advances_map m (fun h => h) _⟩
  rw [stepCharacter, peek_stored, hhead, hstep]
  show Except.bind ((stored front m.input).advance c) _ = _
  rw [advance_stored front m.input hhead]
  show Except.ok ((m.stepChar c).map (·, stored (front ++ [c]) m.input.advance)) = _
  cases hk : m.stepChar c with
  | none => rfl
  | some k =>
    have hinput : k.input = m.input.advance := by
      rw [m.input_stepChar_eq c hk, reading_of_runStops m hstops, Input.read_char]
    rw [Option.map_some, Option.map_some, hinput]

/-- **What is taken of a run** is what the steps at its characters would have put. -/
theorem stepRun_stored (hended : m.ended = false) (href : m.reference = none)
    (hstops : runStops? m.state = some stops) (hpending : m.input.pending = c :: rest) :
    ∃ outcome, scan.stepRun stops m (stored front m.input) = .ok outcome ∧ Advances m outcome := by
  obtain ⟨run, ⟨left, hsplit⟩, hplain, htake⟩ :=
    scan.take_stored (ascii_runStops hstops) front m.input
  rw [stepRun, htake]
  cases run with
  | nil =>
    -- nothing was taken, so the cursor has not moved
    show ∃ outcome, stepCharacter m (stored (front ++ []) m.input) = .ok outcome ∧ _
    rw [List.append_nil]
    exact stepCharacter_stored m front hended href hstops hpending
  | cons d ds =>
    have hstop : Machine.runStop? m.state = some stops.contains := by
      rw [runStop_eq, hstops, Option.map_some]
    have hinput : ((m.skip (d :: ds).length).putRun (String.ofList (d :: ds))).input
        = m.input.skip (d :: ds).length := congrArg Course.input (Machine.course_putRun _ _)
    have hlength : (d :: ds).length ≤ m.input.pending.length := by
      rw [← hsplit, List.length_append]
      exact Nat.le_add_right _ _
    refine ⟨some ((m.skip (d :: ds).length).putRun (String.ofList (d :: ds)),
      stored (front ++ d :: ds) (m.input.skip (d :: ds).length)), ?_, ?_, ?_, ?_⟩
    · show Except.bind (see m _) _ = _
      rw [see_stored]
      rfl
    · -- none of these characters stops a run, so each has a step that puts it where the run goes
      refine Machine.leads_putRun hended href hstop hsplit.symm ?_
      intro e he
      simpa using hplain e he
    · exact Machine.rank_lt_of_skip hended (Nat.succ_pos _) hlength (by simp)
    · exact ⟨front ++ d :: ds, by rw [hinput]⟩

/-- **A step** is a chain of steps that take one character, whatever the scan takes. -/
theorem exists_step :
    ∃ outcome, scan.step m (stored front m.input) = .ok outcome ∧ Advances m outcome := by
  by_cases hplain : m.ended = true ∨ m.reference ≠ none ∨ m.input.pending = [] ∨
      runStops? m.state = none
  · obtain ⟨front', hstep⟩ := step_stored m front
    exact ⟨_, (step_eq scan m front hplain).trans hstep,
      advances_map m Machine.step_eq_none_of_byRun front'⟩
  · -- outside references, at a character, in a state that takes runs
    simp only [not_or, Bool.not_eq_true, not_not] at hplain
    obtain ⟨hended, href, hpending, hstops⟩ := hplain
    obtain ⟨stops, hstops⟩ := Option.ne_none_iff_exists'.mp hstops
    obtain ⟨c, rest, hpending⟩ := List.exists_cons_of_ne_nil hpending
    obtain ⟨outcome, hrun, hadvances⟩ := stepRun_stored scan m front hended href hstops hpending
    refine ⟨outcome, ?_, hadvances⟩
    have hstate : scan.stepState m (stored front m.input) (some c)
        = scan.stepRun stops m (stored front m.input) := by
      unfold stepState
      rw [hstops]
    rw [step, see_stored]
    show scan.stepSeen m _ = _
    rw [stepSeen, if_neg (by simp [hended]), peek_stored, href, hpending]
    exact hstate.trans hrun

/-! ## (4) Runs -/

/-- **Steps come to the end of the run**, in time because each lowers the rank. -/
theorem exists_runFor {fuel : Nat} (h : m.course.rank < fuel) : ∃ front',
    scan.runFor fuel m (stored front m.input) = .ok (m.run, stored front' m.run.input) := by
  -- induction on the fuel; a step lowers the rank, so the rest of the fuel still covers it
  induction fuel generalizing m front with
  | zero => omega
  | succ fuel ih =>
    obtain ⟨outcome, hstep, hadvances⟩ := exists_step scan m front
    rw [runFor, hstep]
    cases outcome with
    | none =>
      have hstop : m.run = m := (Machine.eq_run_of_leads Relation.ReflTransGen.refl hadvances).symm
      exact ⟨front, by rw [hstop]; rfl⟩
    | some further =>
      obtain ⟨k, b⟩ := further
      obtain ⟨hleads, hrank, front₁, rfl⟩ := hadvances
      obtain ⟨front₂, hrun⟩ := ih k front₁ (by omega)
      exact ⟨front₂, by rw [Machine.run_eq_of_leads hleads]; exact hrun⟩

/-- **A run is that of the machine**, whatever the scan is. -/
theorem run_stored (i : Input) : scan.run m (stored front i)
    = .ok ({ m with input := i }.run, stored [] { m with input := i }.run.input) := by
  obtain ⟨front', hrun⟩ :=
    exists_runFor scan { m with input := i } front (Machine.rank_lt_stepBound { m with input := i })
  rw [run, see_stored]
  show Except.bind (scan.runFor _ { m with input := i } _) _ = _
  rw [hrun]
  show Except.bind (ByteInput.compact _) _ = _
  rw [compact_stored]
  rfl

/-- **So is what is delivered behind it.** -/
theorem runSession_stored (s : AnySession) (i : Input) : scan.runSession s (stored front i)
    = (deliverQueued (goOn s
        { s.session with machine := { s.session.machine with input := i }.run })).map
      fun (calls, s') => (calls, s', stored [] { s.session.machine with input := i }.run.input) := by
  rw [runSession, run_stored]
  show Except.bind (deliverQueued _) _ = _
  cases deliverQueued _ <;> rfl

end

end Scan

/-- The calls that are delivered are those of the queue. -/
theorem calls_of_deliverPlainly {s s' : AnySession} {calls : List TextCallback}
    (h : deliverPlainly s = .ok (calls, s')) :
    calls = s.session.config.calls s.session.machine.queue.toList := by
  cases s with
  | borrowed s =>
    cases h
    rfl
  | shared s =>
    obtain ⟨delivered, store, hdeliver, hagree⟩ := SharedSession.deliver_ok s
    rw [deliverPlainly, hdeliver] at h
    cases h
    exact hagree.map_view

end Guarded

/-- **The search for runs leaves no trace.** Take a session on either surface with its machine in any
state, and any text in front of its cursor, more of which may come or not. If nothing is searched for, so
that each character goes through the step of its state, the session makes the same calls as with the
search, and comes to the same end: its state, what it has under construction, its counters, the position
in the text and what is left of it. Nothing fails, and both are the run of the machine. -/
theorem scan_leaves_no_trace (s : AnySession) (front : List Char) (i : Input) :
    ∃ calls s',
      Guarded.Scan.off.runSession s (Guarded.stored front i)
        = .ok (calls, s', Guarded.stored [] s'.session.machine.input) ∧
      Guarded.Scan.bulk.runSession s (Guarded.stored front i)
        = .ok (calls, s', Guarded.stored [] s'.session.machine.input) ∧
      calls = s.session.config.calls { s.session.machine with input := i }.run.queue.toList ∧
      s'.session
        = { s.session with machine := { s.session.machine with input := i }.run.drain.2 } := by
  obtain ⟨calls, s', hplain, hchecked, hsession⟩ := Guarded.exists_deliverQueued (Guarded.goOn s
    { s.session with machine := { s.session.machine with input := i }.run })
  have hcalls := Guarded.calls_of_deliverPlainly hplain
  rw [Guarded.session_goOn] at hsession hcalls
  have hrun (scan : Guarded.Scan) : scan.runSession s (Guarded.stored front i)
      = .ok (calls, s', Guarded.stored [] s'.session.machine.input) := by
    rw [Guarded.Scan.runSession_stored, hchecked, hsession]
    rfl
  exact ⟨calls, s', hrun .off, hrun .bulk, hcalls, hsession⟩

end HtmlStream

import HtmlStream.Proofs.Stream

/-! # A sink that checks its calls

A checker stands in front of a sink. It judges each call, changes what it remembers of the stream and
passes the call on; a call that breaks the contract makes it panic, and whoever catches that may go on
calling it. What it remembers is a counter and a flag. What it enforces is a grammar: single calls, start
tags with exactly the attributes they announce, and at most one end, with nothing behind it.

* **`Checker`**: what is remembered and what was passed on. **`Checker.perform`**: one call, which
  changes the checker step by step and may panic between two steps.
* **`Checker.run_perform`**: a call does what the contract says of it, and one that panics has changed
  nothing.
* **`Whole`**: the grammar. **`Begun`**: the beginnings of its streams.
* **`Standing`**: what the counter and the flag say of the calls accepted.
* **`Checker.Enforces`**: what a checker is to do. **`checker_enforces`**: it does that. -/

namespace HtmlStream

variable {N B : Type}

/-! ## (1) Checkers -/

/-- A checker in front of a sink, which hears names in `N` and payloads in `B`. -/
structure Checker (N B : Type) extends Contract where
  /-- What was passed on to the sink. -/
  forwarded : List (Callback N B) := []
  deriving DecidableEq, Repr

/-- Calls change the checker as they go. One that panics leaves it as it is at that point. -/
abbrev Checker.Operation (N B : Type) := EStateM Violation (Checker N B)

namespace Checker

/-- Judges and counts a call that is no attribute. -/
def beforeEvent (kind : CallbackKind) : Operation N B Unit := do
  let k ← get
  if k.sawEof then throw (.afterEof kind)
  if k.outstanding ≠ 0 then throw (.attributesOutstanding kind k.outstanding)
  modify fun k => { k with callbacks := k.callbacks + 1 }

/-- Judges and counts an attribute. -/
def beforeAttribute : Operation N B Unit := do
  let k ← get
  if k.sawEof then throw (.afterEof .tagAttr)
  if k.outstanding = 0 then throw .surplusAttribute
  modify fun k => { k with outstanding := k.outstanding - 1 }
  modify fun k => { k with callbacks := k.callbacks + 1 }

/-- Judges a start tag and remembers the attributes it announces. -/
def startTagDeclared (count : Nat) : Operation N B Unit := do
  beforeEvent .startTag
  modify fun k => { k with outstanding := count }

/-- Judges the end of the input and remembers it. -/
def eofSeen : Operation N B Unit := do
  beforeEvent .eof
  modify fun k => { k with sawEof := true }

/-- Judges a call. -/
def before : Callback N B → Operation N B Unit
  | .startTag _ _ count => startTagDeclared count
  | .tagAttr .. => beforeAttribute
  | .eof => eofSeen
  | call => beforeEvent call.kind

/-- Judges a call and passes it on. -/
def perform (call : Callback N B) : Operation N B Unit := do
  before call
  modify fun k => { k with forwarded := k.forwarded ++ [call] }

/-- A checker after calls. One that panics is passed over, and the next one finds what it has left. -/
def after (k : Checker N B) : List (Callback N B) → Checker N B
  | [] => k
  | call :: rest =>
    match (perform call).run k with
    | .ok _ next => next.after rest
    | .error _ next => next.after rest

/-- The calls that do not panic, in order. -/
def accepted (k : Checker N B) : List (Callback N B) → List (Callback N B)
  | [] => []
  | call :: rest =>
    match (perform call).run k with
    | .ok _ next => call :: next.accepted rest
    | .error _ next => next.accepted rest

/-- What the calls panic with that do, in order. -/
def panics (k : Checker N B) : List (Callback N B) → List Violation
  | [] => []
  | call :: rest =>
    match (perform call).run k with
    | .ok _ next => next.panics rest
    | .error v next => v :: next.panics rest

/-! ## (2) One call -/

variable (k : Checker N B)

/-- The checker behind a call that is accepted. -/
def passed (c : Contract) (call : Callback N B) : Checker N B where
  toContract := c
  forwarded := k.forwarded ++ [call]

/-- What judging a call comes to, when the contract judges it so. -/
def judged : Except Violation Contract → EStateM.Result Violation (Checker N B) Unit
  | .ok c => .ok () { k with toContract := c }
  | .error v => .error v k

theorem run_beforeEvent (kind : CallbackKind) : (beforeEvent kind).run k =
    if k.sawEof then .error (.afterEof kind) k
    else if k.outstanding ≠ 0 then .error (.attributesOutstanding kind k.outstanding) k
    else .ok () { k with callbacks := k.callbacks + 1 } := by
  rw [beforeEvent, EStateM.run_bind, EStateM.run_get]
  cases hend : k.sawEof with
  | true => simp [hend]
  | false => by_cases hcount : k.outstanding = 0 <;> simp [hend, hcount]

theorem run_beforeAttribute :
    (beforeAttribute (N := N) (B := B)).run k = k.judged k.acceptAttribute := by
  rw [beforeAttribute, EStateM.run_bind, EStateM.run_get, Contract.acceptAttribute]
  cases hend : k.sawEof with
  | true => simp [judged, hend]
  | false => by_cases hcount : k.outstanding = 0 <;> simp [judged, hend, hcount]

/-- **A call is judged as the contract judges it**, and one that panics has changed nothing. -/
theorem run_before (call : Callback N B) :
    (before call).run k = k.judged (k.toContract.accept call) := by
  -- no step behind a check can fail, so a call that panics has not come to its first change
  have hattribute := run_beforeAttribute k
  have hevent := run_beforeEvent k
  cases hend : k.sawEof with
  | true =>
    cases call <;>
      simp [before, startTagDeclared, eofSeen, hattribute, hevent, hend, Contract.accept,
        Contract.acceptOther, judged, Callback.kind]
  | false =>
    by_cases hcount : k.outstanding = 0 <;> cases call <;>
      simp [before, startTagDeclared, eofSeen, hattribute, hevent, hend, hcount, Contract.accept,
        Contract.acceptOther, judged, Callback.kind]

/-- **A call that the contract accepts is passed on.** -/
theorem run_perform_of_ok {call : Callback N B} {c : Contract}
    (h : k.toContract.accept call = .ok c) : (perform call).run k = .ok () (k.passed c call) := by
  rw [perform, EStateM.run_bind, run_before, h]
  rfl

/-- **A call that it refuses panics, and leaves the checker and the sink as they are.** -/
theorem run_perform_of_error {call : Callback N B} {v : Violation}
    (h : k.toContract.accept call = .error v) : (perform call).run k = .error v k := by
  rw [perform, EStateM.run_bind, run_before, h]
  rfl

theorem perform_cases (call : Callback N B) :
    (∃ c, k.toContract.accept call = .ok c ∧ (perform call).run k = .ok () (k.passed c call)) ∨
    ∃ v, k.toContract.accept call = .error v ∧ (perform call).run k = .error v k := by
  cases h : k.toContract.accept call with
  | ok c => exact .inl ⟨c, rfl, run_perform_of_ok k h⟩
  | error v => exact .inr ⟨v, rfl, run_perform_of_error k h⟩

/-! ## (3) Any calls -/

variable {k}

/-- **A checker remembers what the contract makes of the calls accepted alone.** -/
theorem check_accepted (calls : List (Callback N B)) :
    k.toContract.check (k.accepted calls) = .ok (k.after calls).toContract := by
  induction calls generalizing k with
  | nil => rfl
  | cons call rest ih =>
    obtain ⟨c, haccept, hrun⟩ | ⟨v, haccept, hrun⟩ := k.perform_cases call
    · rw [accepted, after, hrun, Contract.check, haccept]
      exact ih (k := k.passed c call)
    · rw [accepted, after, hrun]
      exact ih

/-- **The sink hears the calls accepted**, as they are and in order. -/
theorem forwarded_after (calls : List (Callback N B)) :
    (k.after calls).forwarded = k.forwarded ++ k.accepted calls := by
  induction calls generalizing k with
  | nil => exact (List.append_nil _).symm
  | cons call rest ih =>
    obtain ⟨c, -, hrun⟩ | ⟨v, -, hrun⟩ := k.perform_cases call
    · rw [after, accepted, hrun]
      simp only
      rw [ih, passed, List.append_assoc]
      rfl
    · rw [after, accepted, hrun]
      exact ih

theorem accepted_sublist (calls : List (Callback N B)) : (k.accepted calls).Sublist calls := by
  induction calls generalizing k with
  | nil => exact List.Sublist.slnil
  | cons call rest ih =>
    obtain ⟨c, -, hrun⟩ | ⟨v, -, hrun⟩ := k.perform_cases call
    · rw [accepted, hrun]
      exact ih.cons_cons call
    · rw [accepted, hrun]
      exact ih.cons call

/-- **No call panics just if the contract accepts them all.** -/
theorem panics_eq_nil_iff (calls : List (Callback N B)) :
    k.panics calls = [] ↔ ∃ c, k.toContract.check calls = .ok c := by
  induction calls generalizing k with
  | nil => simp [panics, Contract.check]
  | cons call rest ih =>
    obtain ⟨c, haccept, hrun⟩ | ⟨v, haccept, hrun⟩ := k.perform_cases call
    · rw [panics, hrun, Contract.check, haccept]
      exact ih (k := k.passed c call)
    · rw [panics, hrun, Contract.check, haccept]
      simp

end Checker

namespace Contract

/-- An accepted call is counted. -/
theorem callbacks_of_accept {c c' : Contract} {call : Callback N B} (h : c.accept call = .ok c') :
    c'.callbacks = c.callbacks + 1 := by
  cases call <;>
    · simp only [accept, acceptAttribute, acceptOther] at h
      split at h
      · cases h
      · split at h
        · cases h
        · cases h
          rfl

/-- **The contract counts the calls it accepts.** -/
theorem callbacks_of_check {c c' : Contract} {calls : List (Callback N B)}
    (h : c.check calls = .ok c') : c'.callbacks = c.callbacks + calls.length := by
  induction calls generalizing c with
  | nil =>
    cases h
    rfl
  | cons call rest ih =>
    rw [check] at h
    cases haccept : c.accept call with
    | error v => simp [haccept] at h
    | ok next =>
      rw [haccept] at h
      rw [ih h, callbacks_of_accept haccept, List.length_cons]
      omega

end Contract

/-! ## (4) The grammar -/

/-- **The streams of the grammar**: groups of calls, and at most one end, behind them. -/
def Whole (calls : List (Callback N B)) : Prop :=
  ∃ groups, Grouped groups ∧ .eof ∉ groups ∧ (calls = groups ∨ calls = groups ++ [.eof])

/-- The beginnings of its streams. -/
def Begun (calls : List (Callback N B)) : Prop := ∃ rest, Whole (calls ++ rest)

theorem Grouped.append {groups rest : List (Callback N B)} (h : Grouped groups)
    (hrest : Grouped rest) : Grouped (groups ++ rest) := by
  induction h with
  | nil => exact hrest
  | tag name selfClosing attributes _ ih =>
    rw [List.append_assoc, List.cons_append]
    exact Grouped.tag name selfClosing attributes ih
  | other hstart hattr _ ih => exact Grouped.other hstart hattr ih

/-- The contract accepts the streams of the grammar. -/
theorem Whole.check {calls : List (Callback N B)} (h : Whole calls) :
    ∃ c, Contract.check {} calls = .ok c := by
  obtain ⟨groups, hgroups, heof, rfl | rfl⟩ := h
  · exact ⟨_, Contract.check_of_grouped hgroups heof 0⟩
  · refine ⟨⟨0, true, 0 + groups.length + 1⟩, ?_⟩
    rw [Contract.check_append, Contract.check_of_grouped hgroups heof 0]
    rfl

/-- It accepts their beginnings with them. -/
theorem Begun.check {calls : List (Callback N B)} (h : Begun calls) :
    ∃ c, Contract.check {} calls = .ok c := by
  obtain ⟨rest, hwhole⟩ := h
  obtain ⟨c, hcheck⟩ := hwhole.check
  rw [Contract.check_append] at hcheck
  cases hcalls : Contract.check {} calls with
  | error v => simp [hcalls, Except.bind] at hcheck
  | ok c => exact ⟨c, rfl⟩

/-- **What the counter and the flag say of the calls accepted**: where in a stream of the grammar they
stop. -/
inductive Standing : Nat → Bool → List (Callback N B) → Prop
  /-- Between two groups. -/
  | between {groups : List (Callback N B)} (h : Grouped groups) (heof : .eof ∉ groups) :
    Standing 0 false groups
  /-- Behind some attributes of a start tag, with more to come. -/
  | within {groups : List (Callback N B)} (h : Grouped groups) (heof : .eof ∉ groups) (name : N)
    (selfClosing : Bool) (attributes : List (N × B)) (more : Nat) :
    Standing (more + 1) false (groups ++
      .startTag name selfClosing (attributes.length + (more + 1)) ::
        attributes.map fun a => .tagAttr a.1 a.2)
  /-- Behind the end. -/
  | ended {groups : List (Callback N B)} (h : Grouped groups) (heof : .eof ∉ groups) :
    Standing 0 true (groups ++ [.eof])

namespace Standing

/-- A start tag with all its attributes is one more group. -/
theorem tag {groups : List (Callback N B)} (h : Grouped groups) (heof : .eof ∉ groups) (name : N)
    (selfClosing : Bool) (attributes : List (N × B)) (count : Nat) :
    Standing count false (groups ++ .startTag name selfClosing (attributes.length + count) ::
      attributes.map fun a => .tagAttr a.1 a.2) := by
  cases count with
  | zero =>
    have hgroup := Grouped.tag name selfClosing attributes Grouped.nil
    rw [List.append_nil] at hgroup
    exact between (h.append hgroup) (by simp [heof])
  | succ more => exact within h heof name selfClosing attributes more

/-- **An accepted call goes on from where the calls before it stop.** -/
theorem snoc {c c' : Contract} {calls : List (Callback N B)} {call : Callback N B}
    (h : Standing c.outstanding c.sawEof calls) (haccept : c.accept call = .ok c') :
    Standing c'.outstanding c'.sawEof (calls ++ [call]) := by
  obtain ⟨outstanding, sawEof, callbacks⟩ := c
  cases h with
  | between h heof =>
    -- anything but an attribute may follow
    cases call with
    | tagAttr name value => simp [Contract.accept, Contract.acceptAttribute] at haccept
    | startTag name selfClosing count =>
      cases haccept
      simpa using tag h heof name selfClosing [] count
    | eof =>
      cases haccept
      exact ended h heof
    | _ =>
      cases haccept
      refine between (h.append (Grouped.other ?_ ?_ Grouped.nil)) ?_
      all_goals simp [Callback.kind, heof]
  | within h heof name' selfClosing attributes more =>
    -- nothing but an attribute may
    cases call with
    | tagAttr name value =>
      cases haccept
      have hnext := tag h heof name' selfClosing (attributes ++ [(name, value)]) more
      rw [List.length_append, List.length_singleton, Nat.add_assoc, Nat.add_comm 1 more,
        List.map_append] at hnext
      simpa using hnext
    | _ => simp [Contract.accept, Contract.acceptOther] at haccept
  | ended h heof =>
    cases call <;> simp [Contract.accept, Contract.acceptAttribute, Contract.acceptOther] at haccept

/-- **The calls accepted stand where the counter and the flag say.** -/
theorem of_check {c c' : Contract} {calls calls' : List (Callback N B)}
    (h : Standing c.outstanding c.sawEof calls) (hcheck : c.check calls' = .ok c') :
    Standing c'.outstanding c'.sawEof (calls ++ calls') := by
  induction calls' generalizing c calls with
  | nil =>
    cases hcheck
    rwa [List.append_nil]
  | cons call rest ih =>
    rw [Contract.check] at hcheck
    cases haccept : c.accept call with
    | error v => simp [haccept] at hcheck
    | ok next =>
      rw [haccept] at hcheck
      have hrest := ih (h.snoc haccept) hcheck
      rwa [List.append_assoc] at hrest

/-- **Wherever calls stop, a stream of the grammar goes on.** -/
theorem begun [Inhabited N] [Inhabited B] {outstanding : Nat} {sawEof : Bool}
    {calls : List (Callback N B)} (h : Standing outstanding sawEof calls) : Begun calls := by
  cases h with
  | between h heof => exact ⟨[], calls, h, heof, .inl (List.append_nil _)⟩
  | @within groups h heof name selfClosing attributes more =>
    -- the attributes to come, whatever they hold
    let missing : List (N × B) := List.replicate (more + 1) default
    have hgroup := Grouped.tag name selfClosing (attributes ++ missing) Grouped.nil
    have hlength : (attributes ++ missing).length = attributes.length + (more + 1) := by
      rw [List.length_append, List.length_replicate]
    rw [hlength, List.append_nil, List.map_append] at hgroup
    refine ⟨missing.map fun a => .tagAttr a.1 a.2, _, h.append hgroup, ?_, .inl ?_⟩
    · simp [heof]
    · simp
  | @ended groups h heof => exact ⟨[], groups, h, heof, .inr (List.append_nil _)⟩

end Standing

/-- **The contract accepts just the beginnings of the streams of the grammar.** -/
theorem begun_iff_check [Inhabited N] [Inhabited B] (calls : List (Callback N B)) :
    Begun calls ↔ ∃ c, Contract.check {} calls = .ok c := by
  constructor
  · exact Begun.check
  · rintro ⟨c, hcheck⟩
    have hnil : Standing (N := N) (B := B) ({} : Contract).outstanding ({} : Contract).sawEof [] :=
      Standing.between Grouped.nil (List.not_mem_nil)
    exact (hnil.of_check hcheck).begun

/-! ## (5) What a checker enforces -/

/-- **What a checker is to do** of any calls, those behind one that panics among them. -/
structure Checker.Enforces (calls : List (Callback N B)) : Prop where
  /-- No call panics just if the calls begin a stream of the grammar. -/
  sound : Checker.panics {} calls = [] ↔ Begun calls
  /-- After any calls, the next one panics just if it does not go on with those accepted before it. -/
  exact : ∀ call : Callback N B,
    (∃ v k, (Checker.perform call).run (Checker.after {} calls) = .error v k) ↔
      ¬ Begun (Checker.accepted {} calls ++ [call])
  /-- One that panics passes nothing on and leaves the counters and the flag as they are. -/
  untouched : ∀ (call : Callback N B) (v : Violation) (k : Checker N B),
    (Checker.perform call).run (Checker.after {} calls) = .error v k → k = Checker.after {} calls
  /-- The calls accepted begin a stream of the grammar. -/
  begun : Begun (Checker.accepted {} calls)
  /-- They are some of the calls, in order. -/
  sublist : (Checker.accepted {} calls).Sublist calls
  /-- They are what the sink hears. -/
  forwarded : (Checker.after {} calls).forwarded = Checker.accepted {} calls
  /-- They are counted. -/
  counted : (Checker.after {} calls).callbacks = (Checker.accepted {} calls).length

/-- **A checker enforces the grammar**, on either surface, whatever its calls are. -/
theorem checker_enforces [Inhabited N] [Inhabited B] (calls : List (Callback N B)) :
    Checker.Enforces calls := by
  have hcheck := Checker.check_accepted (k := {}) calls
  constructor
  case sound => rw [Checker.panics_eq_nil_iff, begun_iff_check]
  case exact =>
    intro call
    rw [begun_iff_check, Contract.check_append, hcheck]
    obtain ⟨c, haccept, hrun⟩ | ⟨v, haccept, hrun⟩ := (Checker.after {} calls).perform_cases call
    · simp [hrun, Except.bind, Contract.check, haccept]
    · simp [hrun, Except.bind, Contract.check, haccept]
  case untouched =>
    intro call v k herror
    obtain ⟨c, -, hrun⟩ | ⟨v', -, hrun⟩ := (Checker.after {} calls).perform_cases call
    · rw [hrun] at herror
      cases herror
    · rw [hrun] at herror
      cases herror
      rfl
  case begun => exact (begun_iff_check _).mpr ⟨_, hcheck⟩
  case sublist => exact Checker.accepted_sublist calls
  case forwarded => exact Checker.forwarded_after calls
  case counted => exact (Contract.callbacks_of_check hcheck).trans (Nat.zero_add _)

/-- A text between a start tag and its attribute panics, and the attribute is still accepted. -/
example : Checker.panics {} [.startTag "a" false 1, .chars "early", .tagAttr "href" "x", .eof,
    .comment "late"] = [.attributesOutstanding .chars 1, .afterEof .comment] := by decide

end HtmlStream

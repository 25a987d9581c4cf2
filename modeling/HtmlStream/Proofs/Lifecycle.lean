import HtmlStream.Proofs.Requests

/-! # The life cycle of a tokenizer

A tokenizer owns a session and the sink that hears its calls, and changes in place: it checks and
changes its phase, runs the machine and then dispatches what is queued. A call that fails on the way
would leave what had changed before. None does: behind the end a call fails before anything changes, and
in front of it no call fails. So calls that fail, like empty chunks, may as well not have been made, and what a
tokenizer does is what comes of the same requests to its session.

* **`Tokenizer`**: phase, session and what the sink has heard. **`Tokenizer.feed`**,
  **`Tokenizer.finish`**: its calls, which change it step by step and may fail between two steps.
* **`Tokenizer.run_perform_of_ended`**, **`Tokenizer.run_perform`**: what a call does behind the end and
  in front of it.
* **`Tokenizer.after`**, **`Tokenizer.accepted`**: a tokenizer after calls, and those of them that
  succeed.
* **`Tokenizer.KeepsLifecycle`**: what the life cycle is to be. **`tokenizer_keepsLifecycle`**: it is
  that. -/

namespace HtmlStream

open Guarded (goOn deliverPlainly)

/-! ## (1) Tokenizers -/

/-- The phases of a tokenizer. -/
inductive Tokenizer.Phase where
  /-- Nothing has been taken. -/
  | created
  /-- A chunk has been taken. -/
  | feeding
  /-- The end has been taken. -/
  | ended
  deriving DecidableEq, Repr

/-- A tokenizer on either surface. -/
structure Tokenizer where
  /-- Where it is in its life. -/
  phase : Tokenizer.Phase := .created
  /-- The session, with its machine and its counters. -/
  session : AnySession
  /-- What the sink has heard. -/
  heard : List TextCallback := []
  deriving DecidableEq, Repr

/-- Calls change the tokenizer as they go. One that fails leaves it as it is at that point. -/
abbrev Tokenizer.Operation := EStateM Failure Tokenizer

namespace Tokenizer

/-- A tokenizer before its first call. -/
def start (surface : Surface) (config : Config) : Tokenizer := { session := .start surface config }

/-- Whether the end has been taken. -/
def isEnded (t : Tokenizer) : Bool := t.phase = .ended

/-- Fails behind the end. -/
def refuseEnded (m : Misuse) : Operation Unit := do
  if (← get).phase = .ended then throw (.misuse m)

/-- Takes a chunk into the machine, and says whether there was anything to take. -/
def take (chunk : Bytes) : Operation Bool := do
  refuseEnded .feedAfterEnd
  if chunk.isEmpty then return false
  modify fun t => { t with phase := .feeding }
  modify fun t => { t with session := goOn t.session (t.session.session.push chunk) }
  return true

/-- Takes the end of the input into the machine. -/
def close : Operation Unit := do
  refuseEnded .endTwice
  modify fun t => { t with session := goOn t.session t.session.session.shut }
  modify fun t => { t with phase := .ended }

/-- Hands what is queued over to the sink. -/
def dispatch : Operation Unit := do
  let t ← get
  match deliverPlainly t.session with
  | .error f => throw f
  | .ok (calls, session) => set { t with session, heard := t.heard ++ calls }

/-- Takes a chunk. -/
def feed (chunk : Bytes) : Operation Unit := do
  if ← take chunk then dispatch

/-- Takes the end of the input. -/
def finish : Operation Unit := do
  close
  dispatch

/-- The call that makes a request. -/
def perform : Request → Operation Unit
  | .feed chunk => feed chunk
  | .finish => finish

/-- A tokenizer after calls. One that fails is passed over, and the next one finds what it has
left. -/
def after (t : Tokenizer) : List Request → Tokenizer
  | [] => t
  | r :: rest =>
    match (perform r).run t with
    | .ok _ next => next.after rest
    | .error _ next => next.after rest

/-- The calls among `requests` that succeed. -/
def accepted (t : Tokenizer) : List Request → List Request
  | [] => []
  | r :: rest =>
    match (perform r).run t with
    | .ok _ next => r :: next.accepted rest
    | .error _ next => next.accepted rest

end Tokenizer

/-! ## (2) One call -/

/-- What is wrong with a request behind the end. -/
def Request.misuse : Request → Misuse
  | .feed _ => .feedAfterEnd
  | .finish => .endTwice

/-- The phase behind a request. -/
def Request.phase : Request → Tokenizer.Phase → Tokenizer.Phase
  | .feed chunk, phase => if chunk.isEmpty then phase else .feeding
  | .finish, _ => .ended

/-- A session that goes on from where it is, is the same. -/
theorem Guarded.goOn_session (s : AnySession) : goOn s s.session = s := by
  cases s <;> rfl

namespace AnySession

variable {s : AnySession}

/-- Behind the end nothing comes of a request. -/
theorem serve_of_ended (h : s.session.ended = true) (r : Request) : s.serve r = ([], s) := by
  cases r with
  | feed chunk => rw [serve, answer, feed_of_ended h chunk]
  | finish => rw [serve, answer, finish_of_ended h]

/-- In front of the end an empty chunk changes nothing. -/
theorem serve_empty (h : s.session.ended = false) : s.serve (.feed []) = ([], s) := by
  have hfeed : s.feed [] = .ok ([], s) := by
    rw [Guarded.feed_eq, Session.take, if_neg (by simp [h])]
    simp only [List.isEmpty_nil, if_true, Guarded.goOn_session]
  rw [serve, answer, hfeed]

/-- A chunk goes into the machine, and what it queues is delivered. -/
theorem deliver_push (h : s.session.ended = false) {chunk : Bytes} (hchunk : chunk ≠ []) :
    deliverPlainly (goOn s (s.session.push chunk)) = .ok (s.serve (.feed chunk)) := by
  obtain ⟨calls, s', hdeliver, -, -⟩ :=
    Guarded.exists_deliverQueued (goOn s (s.session.push chunk))
  have hfeed : s.feed chunk = .ok (calls, s') := by
    rw [Guarded.feed_eq, Session.take, if_neg (by simp [h]), if_neg (by simpa using hchunk)]
    exact hdeliver
  rw [hdeliver, serve, answer, hfeed]

/-- So does the end. -/
theorem deliver_shut (h : s.session.ended = false) :
    deliverPlainly (goOn s s.session.shut) = .ok (s.serve .finish) := by
  obtain ⟨calls, s', hdeliver, -, -⟩ := Guarded.exists_deliverQueued (goOn s s.session.shut)
  have hfinish : s.finish = .ok (calls, s') := by
    rw [Guarded.finish_eq, Session.close, if_neg (by simp [h])]
    exact hdeliver
  rw [hdeliver, serve, answer, hfinish]

end AnySession

namespace Tokenizer

variable {t : Tokenizer}

/-- The tokenizer behind a call in front of the end. -/
def served (t : Tokenizer) (r : Request) : Tokenizer where
  phase := r.phase t.phase
  session := (t.session.serve r).2
  heard := t.heard ++ (t.session.serve r).1

theorem run_refuseEnded_of_ended (hphase : t.phase = .ended) (m : Misuse) :
    (refuseEnded m).run t = .error (.misuse m) t := by
  simp [refuseEnded, hphase]

theorem run_refuseEnded (hphase : t.phase ≠ .ended) (m : Misuse) :
    (refuseEnded m).run t = .ok () t := by
  simp [refuseEnded, hphase]

/-- **Behind the end a call fails** and has changed nothing. -/
theorem run_perform_of_ended (hphase : t.phase = .ended) (r : Request) :
    (perform r).run t = .error (.misuse r.misuse) t := by
  cases r with
  | feed chunk =>
    have htake : (take chunk).run t = .error (.misuse .feedAfterEnd) t := by
      rw [take, EStateM.run_bind, run_refuseEnded_of_ended hphase]
    rw [perform, feed, EStateM.run_bind, htake]
    rfl
  | finish =>
    have hclose : close.run t = .error (.misuse .endTwice) t := by
      rw [close, EStateM.run_bind, run_refuseEnded_of_ended hphase]
    rw [perform, finish, EStateM.run_bind, hclose]
    rfl

theorem run_dispatch {calls : List TextCallback} {session : AnySession}
    (hdeliver : deliverPlainly t.session = .ok (calls, session)) :
    dispatch.run t = .ok () { t with session, heard := t.heard ++ calls } := by
  rw [dispatch, EStateM.run_bind, EStateM.run_get]
  simp only [hdeliver]
  rfl

/-- **In front of it no call fails**, and what it does is what comes of the request to the session. -/
theorem run_perform (hphase : t.phase ≠ .ended) (hopen : t.session.session.ended = false)
    (r : Request) : (perform r).run t = .ok () (t.served r) := by
  cases r with
  | feed chunk =>
    by_cases hchunk : chunk = []
    · -- an empty chunk is not dispatched either
      have htake : (take chunk).run t = .ok false t := by
        rw [take, EStateM.run_bind, run_refuseEnded hphase]
        simp [hchunk]
      rw [perform, feed, EStateM.run_bind, htake, served, hchunk, AnySession.serve_empty hopen]
      simp [Request.phase]
    · have hempty : chunk.isEmpty = false := by simpa using hchunk
      have htake : (take chunk).run t = .ok true { t with
          phase := .feeding, session := goOn t.session (t.session.session.push chunk) } := by
        rw [take, EStateM.run_bind, run_refuseEnded hphase]
        simp [hempty]
      rw [perform, feed, EStateM.run_bind, htake, served]
      simp only [if_true, Request.phase, hempty]
      exact run_dispatch (AnySession.deliver_push hopen hchunk)
  | finish =>
    have hclose : close.run t = .ok () { t with
        phase := .ended, session := goOn t.session t.session.session.shut } := by
      rw [close, EStateM.run_bind, run_refuseEnded hphase]
      rfl
    rw [perform, finish, EStateM.run_bind, hclose]
    exact run_dispatch (AnySession.deliver_shut hopen)

/-! ## (3) Any calls -/

/-- A tokenizer and its session have ended together. -/
def Sound (t : Tokenizer) : Prop := t.phase = .ended ↔ t.session.session.ended = true

theorem sound_start (surface : Surface) (config : Config) : (start surface config).Sound := by
  cases surface <;> simp [Sound, start, AnySession.start, AnySession.session, SharedSession.start,
    Session.start]

/-- What a call does to a sound tokenizer. -/
theorem perform_cases (hsound : t.Sound) (r : Request) :
    (t.phase = .ended ∧ (perform r).run t = .error (.misuse r.misuse) t) ∨
    (t.phase ≠ .ended ∧ t.session.session.ended = false ∧
      (perform r).run t = .ok () (t.served r)) := by
  by_cases hphase : t.phase = .ended
  · exact .inl ⟨hphase, run_perform_of_ended hphase r⟩
  · have hopen : t.session.session.ended = false := by
      rw [← Bool.not_eq_true]
      exact fun hended => hphase (hsound.mpr hended)
    exact .inr ⟨hphase, hopen, run_perform hphase hopen r⟩

theorem phase_served (hphase : t.phase ≠ .ended) (r : Request) :
    (t.served r).phase = .ended ↔ r = .finish := by
  cases r with
  | feed chunk =>
    by_cases hchunk : chunk.isEmpty = true <;> simp [served, Request.phase, hchunk, hphase]
  | finish => simp [served, Request.phase]

theorem ended_served (hopen : t.session.session.ended = false) (r : Request) :
    (t.served r).session.session.ended = true ↔ r = .finish := by
  rw [served, (t.session.serve_eq r).2, Session.ended_serve]
  simp [hopen]

theorem sound_served (hphase : t.phase ≠ .ended) (hopen : t.session.session.ended = false)
    (r : Request) : (t.served r).Sound :=
  (phase_served hphase r).trans (ended_served hopen r).symm

theorem sound_after (hsound : t.Sound) (requests : List Request) : (t.after requests).Sound := by
  induction requests generalizing t with
  | nil => exact hsound
  | cons r rest ih =>
    obtain ⟨-, hrun⟩ | ⟨hphase, hopen, hrun⟩ := perform_cases hsound r
    · rw [after, hrun]
      exact ih hsound
    · rw [after, hrun]
      exact ih (sound_served hphase hopen r)

/-- **A tokenizer does what comes of the same requests to its session.** -/
theorem session_after (hsound : t.Sound) (requests : List Request) :
    (t.after requests).session = t.session.after requests ∧
      (t.after requests).heard
        = t.heard ++ (t.session.history requests).flatMap Prod.fst := by
  induction requests generalizing t with
  | nil => simp [after, AnySession.after, AnySession.history]
  | cons r rest ih =>
    obtain ⟨hphase, hrun⟩ | ⟨hphase, hopen, hrun⟩ := perform_cases hsound r
    · have hserve := AnySession.serve_of_ended (hsound.mp hphase) r
      rw [after, hrun, AnySession.after, AnySession.history, hserve]
      simpa using ih hsound
    · obtain ⟨hsession, hheard⟩ := ih (sound_served hphase hopen r)
      rw [after, hrun, AnySession.after, AnySession.history, List.flatMap_cons]
      exact ⟨hsession, hheard.trans (List.append_assoc t.heard _ _)⟩

/-- **The end is remembered.** -/
theorem phase_after (hsound : t.Sound) (requests : List Request) :
    (t.after requests).phase = .ended ↔ t.phase = .ended ∨ .finish ∈ requests := by
  calc (t.after requests).phase = .ended
      ↔ (t.after requests).session.session.ended = true := sound_after hsound requests
    _ ↔ t.session.session.ended = true ∨ .finish ∈ requests := by
        rw [(session_after hsound requests).1, AnySession.session_after, Session.ended_after]
    _ ↔ t.phase = .ended ∨ .finish ∈ requests := or_congr_left hsound.symm

/-- **Calls that fail and empty chunks leave no trace.** -/
theorem after_accepted (hsound : t.Sound) (requests : List Request) :
    t.after ((t.accepted requests).filter (· ≠ .feed [])) = t.after requests := by
  induction requests generalizing t with
  | nil => rfl
  | cons r rest ih =>
    obtain ⟨hphase, hrun⟩ | ⟨hphase, hopen, hrun⟩ := perform_cases hsound r
    · rw [accepted, after, hrun]
      exact ih hsound
    · have hrest := ih (sound_served hphase hopen r)
      rw [accepted, after, hrun]
      simp only
      by_cases hempty : r = .feed []
      · have hserved : t.served r = t := by
          rw [served, hempty, AnySession.serve_empty hopen]
          simp [Request.phase]
        rw [hserved] at hrest ⊢
        rw [List.filter_cons_of_neg (by simpa using hempty)]
        exact hrest
      · rw [List.filter_cons_of_pos (by simpa using hempty), after, hrun]
        exact hrest

end Tokenizer

/-! ## (4) The life cycle -/

/-- **What the life cycle of a tokenizer is to be**, after any calls of it. -/
structure Tokenizer.KeepsLifecycle (surface : Surface) (config : Config) (requests : List Request) :
    Prop where
  /-- It has ended once the end has been requested. -/
  ended : ((start surface config).after requests).isEnded = true ↔ .finish ∈ requests
  /-- Then a chunk, empty or not, is refused, and the tokenizer stays exactly as it was. -/
  feed : .finish ∈ requests → ∀ chunk, ∃ f,
    (Tokenizer.feed chunk).run ((start surface config).after requests)
      = .error f ((start surface config).after requests) ∧
    f.message = "feed called after end()"
  /-- So is a second end. -/
  finish : .finish ∈ requests → ∃ f,
    Tokenizer.finish.run ((start surface config).after requests)
      = .error f ((start surface config).after requests) ∧
    f.message = "end called twice"
  /-- Before that no call fails. -/
  succeeds : .finish ∉ requests → ∀ r, ∃ t,
    (perform r).run ((start surface config).after requests) = .ok () t
  /-- Without the calls that fail and without empty chunks the tokenizer would be the same, in what its
  sink has heard and in its counters. -/
  accepted : (start surface config).after
      (((start surface config).accepted requests).filter (· ≠ .feed []))
    = (start surface config).after requests
  /-- Its session is that after the same requests. -/
  session : ((start surface config).after requests).session
    = (AnySession.start surface config).after requests
  /-- Its sink has heard the calls that were made for them. -/
  heard : ((start surface config).after requests).heard
    = ((AnySession.start surface config).history requests).flatMap Prod.fst

/-- **The life cycle is kept**, on either surface, for any configuration and whatever is called. -/
theorem tokenizer_keepsLifecycle (surface : Surface) (config : Config) (requests : List Request) :
    Tokenizer.KeepsLifecycle surface config requests := by
  have hsound := Tokenizer.sound_start surface config
  have hphase : ((Tokenizer.start surface config).after requests).phase = .ended ↔
      .finish ∈ requests := by
    rw [Tokenizer.phase_after hsound requests]
    simp [Tokenizer.start]
  obtain ⟨hsession, hheard⟩ := Tokenizer.session_after hsound requests
  exact {
    ended := by
      rw [Tokenizer.isEnded, decide_eq_true_eq]
      exact hphase
    feed := fun hmem chunk =>
      ⟨_, Tokenizer.run_perform_of_ended (hphase.mpr hmem) (.feed chunk), rfl⟩
    finish := fun hmem => ⟨_, Tokenizer.run_perform_of_ended (hphase.mpr hmem) .finish, rfl⟩
    succeeds := by
      intro hmem r
      have hopen : ((Tokenizer.start surface config).after requests).phase ≠ .ended :=
        fun hended => hmem (hphase.mp hended)
      obtain ⟨hended, -⟩ | ⟨-, -, hrun⟩ :=
        Tokenizer.perform_cases (Tokenizer.sound_after hsound requests) r
      · exact absurd hended hopen
      · exact ⟨_, hrun⟩
    accepted := Tokenizer.after_accepted hsound requests
    session := hsession
    heard := hheard }

/-- A chunk and an end behind the end are not heard. -/
example : ((Tokenizer.start .borrowed {}).after [.feed [], .finish, .feed [0x61], .finish]).heard
    = [.eof] := by decide +kernel

end HtmlStream

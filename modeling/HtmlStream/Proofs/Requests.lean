import HtmlStream.Proofs.Chunking
import HtmlStream.Proofs.Guarded.Session
import HtmlStream.Proofs.Machine.Ledger

/-! # Sessions under any requests

Chunks and ends may be requested of a session in any order. The life cycle refuses some of these
requests; a request that is refused makes no call, and the session goes on as if it had not been made.
The machine is the same on either surface, and so is what it queues for a request.

* **`Request`**, **`AnySession.answer`**: what may be requested, and what comes of it.
* **`AnySession.after`**, **`AnySession.history`**: the session after requests, and what was delivered
  and counted on the way.
* **`Session.serve`**, **`Session.batches`**: the tokens that are delivered. `AnySession.history_eq`:
  the calls are those of the tokens.
* **`Session.Rests`**: the invariant between two requests. **`rests_after`**: it holds after any.
* **`records_after`**: all that is delivered is counted, errors in the order of their positions. -/

namespace HtmlStream

/-! ## (1) Requests -/

/-- What may be requested of a session. -/
inductive Request where
  /-- To take a chunk. -/
  | feed (chunk : Bytes)
  /-- To take the end of the input. -/
  | finish
  deriving DecidableEq, Repr

namespace AnySession

/-- What comes of a request: calls and the session that made them, or a failure. -/
def answer (s : AnySession) : Request → Except Failure (List TextCallback × AnySession)
  | .feed chunk => s.feed chunk
  | .finish => s.finish

/-- The calls of a request and the session after it. A request that fails makes none, and the session
goes on as it was. -/
def serve (s : AnySession) (r : Request) : List TextCallback × AnySession :=
  match s.answer r with
  | .ok served => served
  | .error _ => ([], s)

/-- The session after requests. -/
def after (s : AnySession) : List Request → AnySession
  | [] => s
  | r :: rest => (s.serve r).2.after rest

/-- The calls of each request, and the counters after it. -/
def history (s : AnySession) : List Request → List (List TextCallback × Stats)
  | [] => []
  | r :: rest => ((s.serve r).1, (s.serve r).2.session.stats) :: (s.serve r).2.history rest

theorem session_start (surface : Surface) (config : Config) :
    (start surface config).session = .start config := by
  cases surface <;> rfl

end AnySession

/-! ## (2) The tokens of a request -/

namespace Session

/-- The session with a chunk in its machine. -/
def push (s : Session) (chunk : Bytes) : Session :=
  { s with machine := s.machine.feed chunk, feeds := s.feeds + 1, bytes := s.bytes + chunk.length }

/-- The session with the end of the input in its machine. -/
def shut (s : Session) : Session := { s with machine := s.machine.finish, ended := true }

/-- The tokens that are delivered for a request, and the session after it. -/
def serve (s : Session) (r : Request) : List Token × Session :=
  if s.ended then ([], s)
  else
    match r with
    | .feed chunk => if chunk.isEmpty then ([], s) else (s.push chunk).drain
    | .finish => s.shut.drain

/-- The session after requests. -/
def after (s : Session) : List Request → Session
  | [] => s
  | r :: rest => (s.serve r).2.after rest

/-- The tokens that are delivered for each request, and the counters after it. -/
def batches (s : Session) : List Request → List (List Token × Stats)
  | [] => []
  | r :: rest => ((s.serve r).1, (s.serve r).2.stats) :: (s.serve r).2.batches rest

variable {s : Session}

/-- **What a request does**: nothing behind the end or for an empty chunk, and else a chunk or the end
goes into the machine and what it queues is delivered. -/
theorem serve_cases (s : Session) (r : Request) :
    ((s.ended = true ∨ r = .feed []) ∧ s.serve r = ([], s)) ∨
    (∃ chunk ≠ [], r = .feed chunk ∧ s.ended = false ∧ s.serve r = (s.push chunk).drain) ∨
    (r = .finish ∧ s.ended = false ∧ s.serve r = s.shut.drain) := by
  cases hended : s.ended with
  | true => exact .inl ⟨.inl rfl, by simp [serve, hended]⟩
  | false =>
    cases r with
    | feed chunk =>
      cases chunk with
      | nil => exact .inl ⟨.inr rfl, by simp [serve]⟩
      | cons b bs => exact .inr (.inl ⟨b :: bs, by simp, rfl, rfl, by simp [serve, hended]⟩)
    | finish => exact .inr (.inr ⟨rfl, rfl, by simp [serve, hended]⟩)

theorem serve_of_ended (h : s.ended = true) (r : Request) : s.serve r = ([], s) := by
  simp [serve, h]

/-- What was asked for stays. -/
theorem config_serve (s : Session) (r : Request) : (s.serve r).2.config = s.config := by
  obtain ⟨-, h⟩ | ⟨chunk, -, -, -, h⟩ | ⟨-, -, h⟩ := s.serve_cases r
  · rw [h]
  · rw [h]
    rfl
  · rw [h]
    rfl

theorem config_after (s : Session) (requests : List Request) :
    (s.after requests).config = s.config := by
  induction requests generalizing s with
  | nil => rfl
  | cons first rest ih => rw [after, ih, config_serve]

/-- The end is remembered. -/
theorem ended_serve (s : Session) (r : Request) :
    (s.serve r).2.ended = true ↔ s.ended = true ∨ r = .finish := by
  obtain ⟨hnothing, h⟩ | ⟨chunk, -, rfl, -, h⟩ | ⟨rfl, -, h⟩ := s.serve_cases r
  · rw [h]
    rcases hnothing with hended | rfl
    · simp [hended]
    · simp
  · rw [h]
    simp [push, drain]
  · rw [h]
    simp [shut, drain]

/-- **A session has ended once the end has been requested.** -/
theorem ended_after (s : Session) (requests : List Request) :
    (s.after requests).ended = true ↔ s.ended = true ∨ .finish ∈ requests := by
  induction requests generalizing s with
  | nil => simp [after]
  | cons r rest ih => rw [after, ih, ended_serve, List.mem_cons, or_assoc, @eq_comm _ r]

/-- A session after one more request. -/
theorem after_snoc (s : Session) (requests : List Request) (r : Request) :
    s.after (requests ++ [r]) = ((s.after requests).serve r).2 := by
  induction requests generalizing s with
  | nil => rfl
  | cons first rest ih => exact ih _

/-- What is delivered for one more request. -/
theorem batches_snoc (s : Session) (requests : List Request) (r : Request) :
    s.batches (requests ++ [r]) = s.batches requests ++
      [(((s.after requests).serve r).1, ((s.after requests).serve r).2.stats)] := by
  induction requests generalizing s with
  | nil => rfl
  | cons first rest ih => exact congrArg (_ :: ·) (ih _)

/-- A session that takes a chunk delivers what the chunk queues. -/
theorem feed_eq_serve (h : s.ended = false) (chunk : Bytes) : s.feed chunk
    = .ok (s.config.calls (s.serve (.feed chunk)).1, (s.serve (.feed chunk)).2) := by
  have hopen : ¬s.ended = true := by simp [h]
  rw [feed, take, if_neg hopen]
  by_cases hchunk : chunk.isEmpty = true
  · simp [serve, hchunk, Config.calls]
  · have hserve : s.serve (.feed chunk) = (s.push chunk).drain := by simp [serve, h, hchunk]
    rw [if_neg hchunk, hserve]
    rfl

theorem finish_eq_serve (h : s.ended = false) :
    s.finish = .ok (s.config.calls (s.serve .finish).1, (s.serve .finish).2) := by
  have hopen : ¬s.ended = true := by simp [h]
  have hserve : s.serve .finish = s.shut.drain := by simp [serve, h]
  rw [finish, close, if_neg hopen, hserve]
  rfl

end Session

namespace AnySession

variable {s : AnySession}

/-- Behind its end a session takes no chunk. -/
theorem feed_of_ended (h : s.session.ended = true) (chunk : Bytes) :
    s.feed chunk = .error (.misuse .feedAfterEnd) := by
  rw [Guarded.feed_eq, Session.take, if_pos h]

/-- It takes no second end. -/
theorem finish_of_ended (h : s.session.ended = true) :
    s.finish = .error (.misuse .endTwice) := by
  rw [Guarded.finish_eq, Session.close, if_pos h]

/-- **In front of the end each request is answered**, with the calls of the tokens that are delivered
for it. -/
theorem exists_answer (h : s.session.ended = false) (r : Request) : ∃ s',
    s.answer r = .ok (s.session.config.calls (s.session.serve r).1, s') ∧
      s'.session = (s.session.serve r).2 := by
  cases r with
  | feed chunk => exact feed_of_ok (Session.feed_eq_serve h chunk)
  | finish => exact finish_of_ok (Session.finish_eq_serve h)

/-- **A request on either surface** makes the calls of the tokens that are delivered for it. -/
theorem serve_eq (s : AnySession) (r : Request) :
    (s.serve r).1 = s.session.config.calls (s.session.serve r).1 ∧
      (s.serve r).2.session = (s.session.serve r).2 := by
  cases hended : s.session.ended with
  | true =>
    have hanswer : ∃ f, s.answer r = .error f := by
      cases r with
      | feed chunk => exact ⟨_, feed_of_ended hended chunk⟩
      | finish => exact ⟨_, finish_of_ended hended⟩
    obtain ⟨f, hanswer⟩ := hanswer
    rw [serve, hanswer, Session.serve_of_ended hended]
    exact ⟨rfl, rfl⟩
  | false =>
    obtain ⟨s', hanswer, hsession⟩ := exists_answer hended r
    rw [serve, hanswer]
    exact ⟨rfl, hsession⟩

/-- **The session after requests** is the same on either surface. -/
theorem session_after (s : AnySession) (requests : List Request) :
    (s.after requests).session = s.session.after requests := by
  induction requests generalizing s with
  | nil => rfl
  | cons r rest ih => rw [after, ih, (s.serve_eq r).2, Session.after]

/-- **While the end has not been requested** a session has not ended. -/
theorem ended_after_start (surface : Surface) (config : Config) {requests : List Request}
    (h : .finish ∉ requests) : ((start surface config).after requests).session.ended = false := by
  rw [session_after, session_start, ← Bool.not_eq_true, Session.ended_after]
  simp [h, Session.start]

/-- **A history** is that of the tokens that are delivered. -/
theorem history_eq (s : AnySession) (requests : List Request) : s.history requests
    = (s.session.batches requests).map fun (batch, stats) => (s.session.config.calls batch, stats) := by
  induction requests generalizing s with
  | nil => rfl
  | cons r rest ih =>
    obtain ⟨hcalls, hsession⟩ := s.serve_eq r
    rw [history, ih, hcalls, hsession, Session.config_serve, Session.batches, List.map_cons]

/-- All calls of a history are those of all tokens that are delivered. -/
theorem flatMap_history (s : AnySession) (requests : List Request) :
    (s.history requests).flatMap Prod.fst
      = s.session.config.calls ((s.session.batches requests).flatMap Prod.fst) := by
  rw [history_eq, Config.calls, List.flatMap_assoc, List.flatMap_map]
  rfl

end AnySession

/-! ## (3) Between two requests -/

/-- A machine that waits still does when its queue is taken away. -/
theorem Machine.step_drain {m : Machine} (h : step .byChar m = none) :
    step .byChar m.drain.2 = none := by
  cases hstep : step .byChar m.drain.2 with
  | none => rfl
  | some k =>
    -- a step without the queue would be one with it
    have hsuits : m.drain.2.Suits ⟨m.queue, [], m.input.decoder, m.input.finished⟩ :=
      fun hfinished => ⟨rfl, hfinished⟩
    have hm : m.drain.2.within ⟨m.queue, [], m.input.decoder, m.input.finished⟩ = m := by
      simp [drain, within, Input.within]
    have hmade := step_within hsuits hstep
    rw [hm, h] at hmade
    cases hmade

/-- Behind the end no bytes are carried over. -/
theorem Decoder.carry_finish (d : Decoder) : d.finish.2.carry = [] := by
  unfold finish
  split
  · rename_i hcarry
    exact List.isEmpty_iff.mp hcarry
  · rw [settle_carry]

namespace Session

/-- **The invariant between two requests**: the machine has delivered all it queued and waits for more
input, or it has read all of it and ended, together with the session. -/
structure Rests (s : Session) : Prop where
  /-- The machine makes no step. -/
  waits : Machine.step .byChar s.machine = none
  /-- All that was queued has been delivered. -/
  queue : s.machine.queue = #[]
  /-- What is carried over of the bytes is an unfinished sequence. -/
  held : Utf8.Held s.machine.input.decoder.carry
  /-- The machine has ended if the session has. -/
  machine : s.machine.ended = s.ended
  /-- So has the input. -/
  finished : s.machine.input.finished = s.ended
  /-- Behind the end nothing is left to be read. -/
  done : s.ended = true → s.machine.input.pending = [] ∧ s.machine.input.decoder.carry = []

theorem rests_start (config : Config) : (start config).Rests where
  waits := rfl
  queue := rfl
  held := .inl rfl
  machine := rfl
  finished := rfl
  done := nofun

variable {s : Session}

/-- A session at rest takes chunks until its end. -/
theorem Rests.open (h : s.Rests) (hended : s.ended = false) : s.Open where
  ended := hended
  machine := h.machine.trans hended
  finished := h.finished.trans hended
  queue := h.queue

/-- **A chunk** leaves the session at rest. -/
theorem rests_push (h : s.Rests) (hended : s.ended = false) (chunk : Bytes) :
    (s.push chunk).drain.2.Rests := by
  have hopen : (s.machine.receive chunk).input.finished = false := (h.open hended).finished
  have hruns := (s.machine.receive chunk).leads_run
  exact {
    waits := Machine.step_drain (Machine.step_eq_none_of_byRun (Machine.step_run _))
    queue := rfl
    held := Guarded.held_feed s.machine h.held chunk
    machine := (Machine.adds_of_leads hopen hruns).1.trans h.machine
    finished := (Machine.input_of_leads hruns).2.trans h.finished
    done := fun hdone => absurd (hended.symm.trans hdone) Bool.false_ne_true }

/-- **The end** leaves it at rest too, with nothing more to read. -/
theorem rests_shut (h : s.Rests) (hended : s.ended = false) : s.shut.drain.2.Rests := by
  have hfinish : s.machine.finish.ended = true :=
    Machine.ended_run (show s.machine.close.input.finished = true from rfl)
  have hruns : s.machine.close.Leads s.machine.finish := s.machine.close.leads_run
  have hcarry : s.machine.finish.input.decoder.carry = [] := by
    rw [show s.machine.finish.input.decoder = s.machine.close.input.decoder from
      (Machine.input_of_leads hruns).1]
    exact s.machine.input.decoder.carry_finish
  have hopen : s.machine.close.ended = false := (h.open hended).machine
  have hpending : s.machine.finish.input.pending = [] :=
    Machine.pending_of_leads hopen hruns hfinish
  exact {
    waits := Machine.step_drain (Machine.step_of_ended hfinish)
    queue := rfl
    held := .inl hcarry
    machine := hfinish
    finished := (Machine.input_of_leads hruns).2
    done := fun _ => ⟨hpending, hcarry⟩ }

/-- **Each request** leaves a session at rest. -/
theorem rests_serve (h : s.Rests) (r : Request) : (s.serve r).2.Rests := by
  obtain ⟨-, hserve⟩ | ⟨chunk, -, -, hended, hserve⟩ | ⟨-, hended, hserve⟩ := s.serve_cases r
  · rw [hserve]
    exact h
  · rw [hserve]
    exact rests_push h hended chunk
  · rw [hserve]
    exact rests_shut h hended

/-- **So do any requests.** -/
theorem rests_after (h : s.Rests) (requests : List Request) : (s.after requests).Rests := by
  induction requests generalizing s with
  | nil => exact h
  | cons r rest ih => exact ih (rests_serve h r)

/-! ## (4) Books -/

/-- The books of a session that has delivered tokens. -/
def books (s : Session) (delivered : List Token) : Ledger :=
  { s.machine.ledger with queue := delivered }

/-- **What is delivered for a request** is entered in the books. -/
theorem records_serve (h : s.Rests) (r : Request) (delivered : List Token) :
    (s.books delivered).Records ((s.serve r).2.books (delivered ++ (s.serve r).1))
      (s.serve r).1 := by
  obtain ⟨-, hserve⟩ | ⟨chunk, -, -, -, hserve⟩ | ⟨-, -, hserve⟩ := s.serve_cases r
  · rw [hserve]
    simpa using Ledger.Records.refl (s.books delivered)
  · rw [hserve]
    have hrun := Machine.records_run (show (s.machine.receive chunk).queue = #[] from h.queue)
    exact { hrun with queue := rfl }
  · rw [hserve]
    have hrun := Machine.records_run (show s.machine.close.queue = #[] from h.queue)
    exact { hrun with queue := rfl }

/-- **So is what is delivered for any requests.** -/
theorem records_after (h : s.Rests) (requests : List Request) (delivered : List Token) :
    (s.books delivered).Records
      ((s.after requests).books (delivered ++ (s.batches requests).flatMap Prod.fst))
      ((s.batches requests).flatMap Prod.fst) := by
  induction requests generalizing s delivered with
  | nil => simpa [after, batches] using Ledger.Records.refl (s.books delivered)
  | cons r rest ih =>
    have hrest := ih (rests_serve h r) (delivered ++ (s.serve r).1)
    rw [List.append_assoc] at hrest
    exact (records_serve h r delivered).trans hrest

end Session

end HtmlStream

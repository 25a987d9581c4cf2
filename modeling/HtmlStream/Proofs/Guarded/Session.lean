import HtmlStream.Proofs.Guarded.Delivery
import HtmlStream.Proofs.Guarded.Steps

/-! # No check fails in a session

A session takes chunks and then the end of the input. Here it is gone through with every check: those of
the text and of its bytes, of the machine on the text, of the windows that are handed over, and of the
life cycle. None of them fails, on either surface, whatever the input is and however it is cut, and the
calls and the counters are those of `tokenize`.

* **`take`**, **`close`**, **`deliverQueued`**: the calls of a session, checked.
* **`Guarded.tokenize`**: a whole input, checked.
* **`Stands`**: the invariant between two calls.
* **`tokenize_faultless`**: the checks pass. -/

namespace HtmlStream

namespace Guarded

/-! ## (1) The checked session -/

/-- Takes a chunk into the machine, and says whether there was anything to take. -/
def take (s : Session) (b : ByteInput) (chunk : Bytes) :
    Except Fault (Bool × Session × ByteInput) :=
  if s.ended then .error (.failure (.misuse .feedAfterEnd))
  else if chunk.isEmpty then .ok (false, s, b)
  else do
    let (machine, b) ← feed s.machine b chunk
    return (true, { s with machine, feeds := s.feeds + 1, bytes := s.bytes + chunk.length }, b)

/-- Takes the end of the input into the machine. -/
def close (s : Session) (b : ByteInput) : Except Fault Session :=
  if s.ended then .error (.failure (.misuse .endTwice))
  else do
    let (machine, _) ← finish s.machine b
    return { s with machine, ended := true }

/-- The session on a surface that goes on from `session`. -/
def goOn (s : AnySession) (session : Session) : AnySession :=
  match s with
  | .borrowed _ => .borrowed session
  | .shared s => .shared { s with session }

/-- Delivers what is queued. Only the shared surface cuts windows. -/
def deliverQueued (s : AnySession) : Except Fault (List TextCallback × AnySession) :=
  match s with
  | .borrowed s => .ok (s.deliver.1, .borrowed s.deliver.2)
  | .shared s =>
    let (queue, session) := s.session.drain
    if queue.isEmpty then .ok ([], .shared { s with session })
    else do
      let (calls, store) ← deliver s.store session.config.exactErrors queue
      return (calls.map store.view, .shared { session, store })

/-- Takes a chunk; the calls are given as texts. -/
def feedSession (s : AnySession) (b : ByteInput) (chunk : Bytes) :
    Except Fault (List TextCallback × AnySession × ByteInput) := do
  let (taken, session, b) ← take s.session b chunk
  if taken then
    let (calls, s) ← deliverQueued (goOn s session)
    return (calls, s, b)
  else return ([], goOn s session, b)

/-- Takes the end of the input; the calls are given as texts. -/
def finishSession (s : AnySession) (b : ByteInput) :
    Except Fault (List TextCallback × AnySession) := do
  let session ← close s.session b
  deliverQueued (goOn s session)

/-- Takes chunks and then the end of the input; the calls are appended to `calls`. -/
def drive (s : AnySession) (b : ByteInput) (calls : Array TextCallback) :
    List Bytes → Except Fault (Array TextCallback × Stats)
  | [] => do
    let (last, s) ← finishSession s b
    return (calls ++ last, s.session.stats)
  | chunk :: rest => do
    let (next, s, b) ← feedSession s b chunk
    drive s b (calls ++ next) rest

/-- The calls and the counters of an input that arrives in chunks. -/
def tokenize (surface : Surface) (config : Config) (chunks : List Bytes) :
    Except Fault (List TextCallback × Stats) := do
  let (calls, stats) ←
    drive (.start surface config) { decoder := { discardBom := config.discardBom } } #[] chunks
  return (calls.toList, stats)

/-! ## (2) Calls -/

/-- **Between two calls** neither the session nor its input has ended, and the text is that of the
machine, all that was read of it dropped. -/
structure Stands (s : Session) (b : ByteInput) : Prop where
  /-- The session has not ended. -/
  ended : s.ended = false
  /-- Neither has the input. -/
  finished : s.machine.input.finished = false
  /-- The carry is an unfinished sequence, if there is one. -/
  held : Utf8.Held s.machine.input.decoder.carry
  /-- The text is that of the machine. -/
  text : b = stored [] s.machine.input

theorem stands_start (config : Config) :
    Stands (.start config) { decoder := { discardBom := config.discardBom } } :=
  ⟨rfl, rfl, .inl rfl, rfl⟩

variable {s : Session} {b : ByteInput}

/-- **A chunk is taken.** -/
theorem exists_take (h : Stands s b) (chunk : Bytes) : ∃ taken s' b',
    s.take chunk = .ok (taken, s') ∧ take s b chunk = .ok (taken, s', b') ∧ Stands s' b' := by
  unfold Session.take take
  rw [h.ended, if_neg Bool.false_ne_true, if_neg Bool.false_ne_true]
  by_cases hchunk : chunk.isEmpty = true
  · rw [if_pos hchunk, if_pos hchunk]
    exact ⟨false, s, b, rfl, rfl, h⟩
  · rw [if_neg hchunk, if_neg hchunk, h.text, feed_stored s.machine [] h.finished h.held]
    refine ⟨true, _, _, rfl, rfl, rfl, ?_, held_feed s.machine h.held chunk, rfl⟩
    exact (Machine.input_of_leads (s.machine.receive chunk).leads_run).2.trans h.finished

/-- **The end is taken.** -/
theorem exists_close (h : Stands s b) : ∃ s', s.close = .ok s' ∧ close s b = .ok s' := by
  unfold Session.close close
  rw [h.ended, if_neg Bool.false_ne_true, if_neg Bool.false_ne_true, h.text,
    finish_machine s.machine [] h.held]
  exact ⟨_, rfl, rfl⟩

/-! ## (3) Delivery -/

/-- Delivers what is queued, without checks. -/
def deliverPlainly (s : AnySession) : Except Failure (List TextCallback × AnySession) :=
  match s with
  | .borrowed s => .ok (s.deliver.1, .borrowed s.deliver.2)
  | .shared s =>
    match s.deliver with
    | .error f => .error f
    | .ok (calls, s) => .ok (calls.map s.store.view, .shared s)

/-- A chunk is taken and what it queues is delivered, on either surface. -/
theorem feed_eq (s : AnySession) (chunk : Bytes) : s.feed chunk =
    match s.session.take chunk with
    | .error m => .error (.misuse m)
    | .ok (false, session) => .ok ([], goOn s session)
    | .ok (true, session) => deliverPlainly (goOn s session) := by
  cases s with
  | borrowed s =>
    simp only [AnySession.session, AnySession.feed, Session.feed]
    rcases s.take chunk with m | ⟨- | -, session⟩ <;> rfl
  | shared s =>
    simp only [AnySession.session, AnySession.feed, SharedSession.feed]
    rcases s.session.take chunk with m | ⟨- | -, session⟩ <;> rfl

theorem finish_eq (s : AnySession) : s.finish =
    match s.session.close with
    | .error m => .error (.misuse m)
    | .ok session => deliverPlainly (goOn s session) := by
  cases s with
  | borrowed s =>
    simp only [AnySession.session, AnySession.finish, Session.finish]
    rcases s.close with m | session <;> rfl
  | shared s =>
    simp only [AnySession.session, AnySession.finish, SharedSession.finish]
    rcases s.session.close with m | session <;> rfl

/-- **What is queued is delivered**, and the session goes on without it. -/
theorem exists_deliverQueued (s : AnySession) : ∃ calls s',
    deliverPlainly s = .ok (calls, s') ∧ deliverQueued s = .ok (calls, s') ∧
      s'.session = s.session.drain.2 := by
  cases s with
  | borrowed s => exact ⟨_, _, rfl, rfl, rfl⟩
  | shared s =>
    unfold deliverPlainly deliverQueued SharedSession.deliver
    by_cases hqueue : s.session.drain.1.isEmpty = true
    · simp only [hqueue, if_true]
      exact ⟨_, _, rfl, rfl, rfl⟩
    · obtain ⟨⟨delivered, store⟩, hplain, hchecked⟩ :=
        exists_deliver s.store s.session.drain.2.config.exactErrors s.session.drain.1
      simp only [hqueue, hplain, hchecked]
      exact ⟨_, _, rfl, rfl, rfl⟩

/-! ## (4) Whole inputs -/

theorem session_goOn (s : AnySession) (session : Session) : (goOn s session).session = session := by
  cases s <;> rfl

/-- Delivery leaves the input alone. -/
theorem Stands.drain (h : Stands s b) : Stands s.drain.2 b := ⟨h.ended, h.finished, h.held, h.text⟩

/-- **A chunk passes all checks**, and the next one may come. -/
theorem exists_feedSession {s : AnySession} (h : Stands s.session b) (chunk : Bytes) :
    ∃ calls s' b', s.feed chunk = .ok (calls, s') ∧ feedSession s b chunk = .ok (calls, s', b') ∧
      Stands s'.session b' := by
  obtain ⟨taken, session, b', hplain, hchecked, hstands⟩ := exists_take h chunk
  rw [feed_eq, hplain, feedSession, hchecked]
  cases taken with
  | false =>
    refine ⟨[], goOn s session, b', rfl, rfl, ?_⟩
    rw [session_goOn]
    exact hstands
  | true =>
    obtain ⟨calls, s', hplain', hchecked', hsession⟩ := exists_deliverQueued (goOn s session)
    refine ⟨calls, s', b', hplain', ?_, ?_⟩
    · show Except.bind (deliverQueued (goOn s session)) _ = _
      rw [hchecked']
      rfl
    · rw [hsession, session_goOn]
      exact hstands.drain

/-- **The end passes all checks.** -/
theorem exists_finishSession {s : AnySession} (h : Stands s.session b) :
    ∃ calls s', s.finish = .ok (calls, s') ∧ finishSession s b = .ok (calls, s') := by
  obtain ⟨session, hplain, hchecked⟩ := exists_close h
  obtain ⟨calls, s', hplain', hchecked', -⟩ := exists_deliverQueued (goOn s session)
  rw [finish_eq, hplain, finishSession, hchecked]
  exact ⟨calls, s', hplain', hchecked'⟩

/-- **Whatever is still to come** passes all checks. -/
theorem exists_drive {s : AnySession} (h : Stands s.session b) (calls : Array TextCallback)
    (chunks : List Bytes) :
    ∃ r, s.drive calls chunks = .ok r ∧ drive s b calls chunks = .ok r := by
  -- induction on the chunks; the invariant holds again behind each
  induction chunks generalizing s b calls with
  | nil =>
    obtain ⟨last, s', hplain, hchecked⟩ := exists_finishSession h
    rw [AnySession.drive, drive, hplain, hchecked]
    exact ⟨_, rfl, rfl⟩
  | cons chunk rest ih =>
    obtain ⟨next, s', b', hplain, hchecked, hstands⟩ := exists_feedSession h chunk
    obtain ⟨r, hrest, hrest'⟩ := ih hstands (calls ++ next)
    rw [AnySession.drive, drive, hplain, hchecked]
    exact ⟨r, hrest, hrest'⟩

end Guarded

/-- **No check fails.** For any configuration, any bytes and any way of cutting them into chunks, a session
of the chunks and one end passes every check on either surface: the cursor stands between two characters
whenever the text is cut there, only the character at the cursor is read, what is cut out of bytes and of
names lies inside them, the steps of document types meet no other state, no loop goes on without end, no
window is cut outside its buffer or differs from its payload, nothing comes behind the end, and the end is
queued. The outcome is that of the session without checks. -/
theorem tokenize_faultless (surface : Surface) (config : Config) (chunks : List Bytes) :
    ∃ outcome, tokenize surface config chunks = .ok outcome ∧
      Guarded.tokenize surface config chunks = .ok outcome := by
  have hstands : Guarded.Stands (AnySession.start surface config).session
      { decoder := { discardBom := config.discardBom } } := by
    cases surface <;> exact Guarded.stands_start config
  obtain ⟨⟨calls, stats⟩, hplain, hchecked⟩ := Guarded.exists_drive hstands #[] chunks
  rw [tokenize, Guarded.tokenize, hplain, hchecked]
  exact ⟨(calls.toList, stats), rfl, rfl⟩

end HtmlStream

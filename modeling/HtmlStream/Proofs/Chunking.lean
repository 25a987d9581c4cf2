import HtmlStream.Proofs.Decoding
import HtmlStream.Proofs.Machine.Emission
import HtmlStream.Proofs.Surfaces

/-! # Chunks leave no trace

However its input is cut into chunks, a session hands over the calls of one run of the machine over the
whole input. The surfaces differ in what they hand over and not in what it says.

* **`Machine.completed`**: the machine with all its input in front of it. `leads_feed`: a machine with
  all its input runs through each machine that has taken a part of it.
* **`AnySession.transcript`**: what a session hands over, call by call of the session.
* **`transcript_eq`**: the transcript is one run of the machine, cut after each chunk.
* **`tokenize_eq`**: so are the calls and counters of `tokenize`, on either surface.
* **`tokenize_of_flatten_eq`**: two ways of cutting one input differ in the count of chunks alone. -/

namespace HtmlStream

/-! ## (1) One run for all chunks -/

/-- The decoder of an input that needs no more decoding. -/
def Decoder.idle : Decoder := { discardBom := false }

namespace Machine

variable {m : Machine}

/-- The machine with all its input in front of it: the bytes `bs` have come and then the end. -/
def completed (m : Machine) (bs : Bytes) : Machine :=
  m.within ⟨#[], m.input.decoder.toShow bs, .idle, true⟩

/-- The machine behind queued tokens, at the end of its input. -/
def behind (m : Machine) (before : Array Token) : Machine := m.within ⟨before, [], .idle, true⟩

/-- Surroundings that add nothing at the end of the input do not change where a run ends. -/
theorem run_within {s : Surroundings} (hs : m.Suits s) (hfinished : m.input.finished = true) :
    (m.within s).run = m.run.within s := by
  refine (eq_run_of_leads (leads_within hs m.leads_run) ?_).symm
  exact step_of_ended (ended_run hfinished)

theorem run_behind (hfinished : m.input.finished = true) (before : Array Token) :
    (m.behind before).run = m.run.behind before :=
  run_within (fun _ => ⟨rfl, rfl⟩) hfinished

theorem behind_behind (m : Machine) (before before' : Array Token) :
    (m.behind before').behind before = m.behind (before ++ before') := by
  simp [behind, within, Input.within]

/-- Bytes that come are bytes that have come. -/
theorem completed_receive (m : Machine) (chunk bs : Bytes) :
    (m.receive chunk).completed bs = m.completed (chunk ++ bs) := by
  have hread := m.input.toRead_receive chunk bs
  unfold Input.toRead at hread
  simp only [completed, receive, within, Input.within, hread]
  rfl

/-- **A machine with all its input** leads to each that has taken a part of it. -/
theorem leads_feed (hfinished : m.input.finished = false) (chunk bs : Bytes) :
    (m.completed (chunk ++ bs)).Leads ((m.feed chunk).completed bs) := by
  -- the run over the chunk alone is also a run with all that comes behind it in place
  have hrun := (m.receive chunk).leads_run
  have hsuits : (m.receive chunk).Suits
      ⟨#[], (m.receive chunk).input.decoder.toShow bs, .idle, true⟩ :=
    fun h => absurd (hfinished.symm.trans h) Bool.false_ne_true
  have hdecoder : (m.feed chunk).input.decoder = (m.receive chunk).input.decoder :=
    (input_of_leads hrun).1
  rw [← completed_receive, completed, completed, hdecoder]
  exact leads_within hsuits hrun

/-- The end of the input brings what was still to be read. -/
theorem run_completed_nil (m : Machine) : (m.completed []).run = m.finish.behind #[] := by
  have hclose : m.completed [] = m.close.behind #[] := by
    have hread := m.input.pending_finish
    unfold Input.toRead at hread
    simp only [completed, behind, close, within, Input.within, hread, List.append_nil]
    rfl
  rw [hclose, run_behind rfl, finish]

/-- What has been handed over stands before the rest. -/
theorem completed_drain (m : Machine) (bs : Bytes) :
    m.completed bs = (m.drain.2.completed bs).behind m.queue := by
  simp [completed, behind, drain, within, Input.within]

end Machine

/-! ## (2) Sessions on the borrowed surface -/

/-- The calls of tokens. -/
def Config.calls (config : Config) (tokens : List Token) : List TextCallback :=
  tokens.flatMap (Token.callbacks config.exactErrors)

theorem Config.calls_append (config : Config) (q q' : List Token) :
    config.calls (q ++ q') = config.calls q ++ config.calls q' := List.flatMap_append

theorem Config.calls_flatten (config : Config) (batches : List (List Token)) :
    config.calls batches.flatten = (batches.map config.calls).flatten := by
  induction batches with
  | nil => rfl
  | cons batch rest ih =>
    rw [List.flatten_cons, calls_append, ih, List.map_cons, List.flatten_cons]

namespace Session

/-- A session that takes chunks: it has delivered all it has queued, and neither it nor its input has
ended. -/
structure Open (s : Session) : Prop where
  /-- The session has not ended. -/
  ended : s.ended = false
  /-- Neither has the machine. -/
  machine : s.machine.ended = false
  /-- Neither has the input. -/
  finished : s.machine.input.finished = false
  /-- All that was queued has been delivered. -/
  queue : s.machine.queue = #[]

theorem open_start (config : Config) : (start config).Open := ⟨rfl, rfl, rfl, rfl⟩

variable {s : Session}

/-- What a chunk queues. -/
theorem spaced_feed (h : s.Open) (chunk : Bytes) :
    Spaced (s.machine.feed chunk).queue.toList ∧
      Token.endOfInput ∉ (s.machine.feed chunk).queue.toList := by
  have hopen : (s.machine.receive chunk).input.finished = false := h.finished
  obtain ⟨-, added, hqueue, hspaced⟩ :=
    Machine.adds_of_leads hopen (s.machine.receive chunk).leads_run
  have hempty : (s.machine.receive chunk).queue = #[] := h.queue
  rw [Machine.feed, hqueue, hempty]
  exact hspaced

/-- **A session takes a chunk**: it hands over what the chunk queues and goes on taking chunks, and
what is queued behind it is what a machine with all its input queues. -/
theorem feed_of_open (h : s.Open) (chunk : Bytes) : ∃ queued s',
    s.feed chunk = .ok (s.config.calls queued, s') ∧
      (Spaced queued ∧ Token.endOfInput ∉ queued) ∧ s'.Open ∧ s'.config = s.config ∧
      s'.feeds = s.feeds + (if chunk.isEmpty then 0 else 1) ∧
      s'.bytes = s.bytes + chunk.length ∧
      ∀ bs, (s.machine.completed (chunk ++ bs)).run
        = (s'.machine.completed bs).run.behind queued.toArray := by
  by_cases hchunk : chunk.isEmpty = true
  · -- an empty chunk is not counted and changes nothing
    have hnil : chunk = [] := List.isEmpty_iff.mp hchunk
    refine ⟨[], s, ?_, ⟨.nil, by simp⟩, h, rfl, by rw [if_pos hchunk]; rfl, by rw [hnil]; rfl, ?_⟩
    · rw [feed, take, if_neg (by simp [h.ended]), if_pos hchunk]
      rfl
    · intro bs
      have hbehind : (s.machine.completed bs).behind #[] = s.machine.completed bs := by
        simp [Machine.completed, Machine.behind, Machine.within, Input.within]
      rw [hnil, List.nil_append, ← Machine.run_behind rfl, hbehind]
  · have hrun := (s.machine.receive chunk).leads_run
    have hadds := Machine.adds_of_leads
      (show (s.machine.receive chunk).input.finished = false from h.finished) hrun
    refine ⟨(s.machine.feed chunk).queue.toList,
      { s with machine := (s.machine.feed chunk).drain.2, feeds := s.feeds + 1,
               bytes := s.bytes + chunk.length },
      ?_, spaced_feed h chunk,
      ⟨h.ended, hadds.1.trans h.machine, (Machine.input_of_leads hrun).2.trans h.finished, rfl⟩,
      rfl, by rw [if_neg hchunk], rfl, ?_⟩
    · rw [feed, take, if_neg (by simp [h.ended]), if_neg hchunk]
      rfl
    · intro bs
      rw [Machine.run_eq_of_leads (Machine.leads_feed h.finished chunk bs),
        Machine.completed_drain, Machine.run_behind rfl]

theorem finish_of_open (h : s.Open) :
    s.finish = .ok (s.config.calls s.machine.finish.queue.toList,
      { s with machine := s.machine.finish.drain.2, ended := true }) := by
  rw [finish, close, h.ended]
  rfl

/-- What the end queues: spaced tokens, the last of which is the end of the input. -/
theorem spaced_finish (h : s.Open) : ∃ queued,
    s.machine.finish.queue.toList = queued ++ [.endOfInput] ∧ Spaced (queued ++ [.endOfInput]) ∧
      Token.endOfInput ∉ queued := by
  have hopen : s.machine.close.ended = false := h.machine
  have hended : s.machine.close.run.ended = true :=
    Machine.ended_run (show s.machine.close.input.finished = true from rfl)
  obtain ⟨-, queued, hqueue, hspaced⟩ :=
    Machine.ends_of_leads hopen s.machine.close.leads_run hended
  have hempty : s.machine.close.queue = #[] := h.queue
  refine ⟨queued, ?_, hspaced⟩
  rw [Machine.finish, hqueue, hempty]
  rfl

end Session

/-! ## (3) Either surface -/

namespace AnySession

variable {s : AnySession}

/-- **The surfaces say the same**: a chunk is delivered as it would be on the borrowed surface. -/
theorem feed_of_ok {chunk : Bytes} {batch : List TextCallback} {session : Session}
    (h : s.session.feed chunk = .ok (batch, session)) :
    ∃ s', s.feed chunk = .ok (batch, s') ∧ s'.session = session := by
  cases s with
  | borrowed s =>
    refine ⟨.borrowed session, ?_, rfl⟩
    rw [feed, show s.feed chunk = .ok (batch, session) from h]
  | shared s =>
    obtain ⟨delivered, store, hfeed, hagree⟩ := SharedSession.feed_of_ok h
    refine ⟨.shared ⟨session, store⟩, ?_, rfl⟩
    rw [feed, hfeed]
    simp only [hagree.map_view]

theorem finish_of_ok {batch : List TextCallback} {session : Session}
    (h : s.session.finish = .ok (batch, session)) :
    ∃ s', s.finish = .ok (batch, s') ∧ s'.session = session := by
  cases s with
  | borrowed s =>
    refine ⟨.borrowed session, ?_, rfl⟩
    rw [finish, show s.finish = .ok (batch, session) from h]
  | shared s =>
    obtain ⟨delivered, store, hfinish, hagree⟩ := SharedSession.finish_of_ok h
    refine ⟨.shared ⟨session, store⟩, ?_, rfl⟩
    rw [finish, hfinish]
    simp only [hagree.map_view]

/-- What a session hands over for each chunk and for the end, and its counters behind the end. -/
def transcript (s : AnySession) :
    List Bytes → Except Failure (List (List TextCallback) × List TextCallback × Stats)
  | [] => do
    let (last, s) ← s.finish
    return ([], last, s.session.stats)
  | chunk :: rest => do
    let (next, s) ← s.feed chunk
    let (fed, last, stats) ← s.transcript rest
    return (next :: fed, last, stats)

/-- The counters of a session that has read its input to the end `last`. -/
def countersAt (s : Session) (chunks : List Bytes) (last : Machine) : Stats where
  feeds := s.feeds + (chunks.filter (!·.isEmpty)).length
  bytes := s.bytes + chunks.flatten.length
  chars := last.input.consumed
  transitions := last.transitions
  tokens := last.tokens
  errors := last.errors

/-- **A transcript is one run of the machine** over the whole input, cut after each chunk. -/
theorem transcript_eq (h : s.session.Open) (chunks : List Bytes) :
    ∃ (fed : List (List Token)) (last : Machine),
      s.transcript chunks = .ok (fed.map s.session.config.calls,
        s.session.config.calls last.queue.toList, countersAt s.session chunks last) ∧
      (s.session.machine.completed chunks.flatten).run = last.behind fed.flatten.toArray ∧
      (∀ batch ∈ fed, Spaced batch ∧ Token.endOfInput ∉ batch) ∧
      ∃ queued, last.queue.toList = queued ++ [.endOfInput] ∧
        Spaced (queued ++ [.endOfInput]) ∧ Token.endOfInput ∉ queued := by
  -- induction on the chunks; each leaves an open session whose rest is the rest of the one run
  induction chunks generalizing s with
  | nil =>
    obtain ⟨s', hfinish, hsession⟩ := finish_of_ok (Session.finish_of_open h)
    refine ⟨[], s.session.machine.finish, ?_, s.session.machine.run_completed_nil, by simp,
      Session.spaced_finish h⟩
    rw [transcript, hfinish]
    simp only [List.map_nil, List.flatten_nil, List.filter_nil, countersAt]
    show Except.ok ([], _, s'.session.stats) = _
    rw [hsession]
    rfl
  | cons chunk rest ih =>
    obtain ⟨queued, session, hfeed, hqueued, hopen, hconfig, hfeeds, hbytes, hcompleted⟩ :=
      Session.feed_of_open h chunk
    obtain ⟨s', hfeed', hsession⟩ := feed_of_ok hfeed
    obtain ⟨fed, last, htranscript, hrun, hspaced, hlast⟩ := @ih s' (hsession ▸ hopen)
    rw [hsession] at htranscript hrun
    refine ⟨queued :: fed, last, ?_, ?_, ?_, hlast⟩
    · -- what this chunk adds to the counters is already in `session`
      have hcounters : countersAt session rest last
          = countersAt s.session (chunk :: rest) last := by
        unfold countersAt
        rw [hfeeds, hbytes, List.flatten_cons, List.length_append, List.filter_cons]
        cases chunk.isEmpty <;> simp <;> omega
      rw [transcript, hfeed']
      show (do
        let (fed, last, stats) ← s'.transcript rest
        return (s.session.config.calls queued :: fed, last, stats)) = _
      rw [htranscript, hconfig, hcounters]
      rfl
    · -- the queue of this chunk stands before those of the rest
      rw [List.flatten_cons, hcompleted, hrun, Machine.behind_behind, List.flatten_cons]
      simp
    · rw [List.forall_mem_cons]
      exact ⟨hqueued, hspaced⟩

/-- Driving a session appends what its transcript hands over. -/
theorem drive_eq (s : AnySession) (calls : Array TextCallback) (chunks : List Bytes) :
    s.drive calls chunks = (s.transcript chunks).map
      fun (fed, last, stats) => (calls ++ (fed.flatten ++ last), stats) := by
  induction chunks generalizing s calls with
  | nil =>
    rw [drive, transcript]
    cases s.finish <;> rfl
  | cons chunk rest ih =>
    rw [drive, transcript]
    cases s.feed chunk with
    | error f => rfl
    | ok result =>
      obtain ⟨next, s'⟩ := result
      -- `drive` collects from the left and the transcript from the right
      show s'.drive (calls ++ next) rest = Except.map _ (do
        let (fed, last, stats) ← s'.transcript rest
        return (next :: fed, last, stats))
      rw [ih]
      cases s'.transcript rest with
      | error f => rfl
      | ok result =>
        obtain ⟨fed, last, stats⟩ := result
        have hassoc : calls ++ next ++ (fed.flatten ++ last)
            = calls ++ ((next :: fed).flatten ++ last) := by
          rw [← Array.toList_inj]
          simp
        exact congrArg (fun all => Except.ok (all, stats)) hassoc

end AnySession

/-! ## (4) Whole inputs -/

namespace Machine

/-- The machine in front of a whole input, decoded. -/
def whole (config : Config) (bytes : Bytes) : Machine := (start config).completed bytes

/-- What it reads is the whole input, decoded. -/
theorem pending_whole (config : Config) (bytes : Bytes) :
    (whole config bytes).input.pending
      = normalizeNewlines (stripBom config.discardBom (Utf8.lossy bytes).toList) :=
  Input.toRead_start config.discardBom bytes

end Machine

/-- The counters of an input of which `feeds` chunks were taken. -/
def Stats.ofRun (feeds : Nat) (bytes : Bytes) (last : Machine) : Stats where
  feeds := feeds
  bytes := bytes.length
  chars := last.input.consumed
  transitions := last.transitions
  tokens := last.tokens
  errors := last.errors

/-- The calls of an input are those handed over for its chunks and for its end. -/
theorem tokenize_of_transcript {surface : Surface} {config : Config} {chunks : List Bytes}
    {fed : List (List TextCallback)} {last : List TextCallback} {stats : Stats}
    (h : (AnySession.start surface config).transcript chunks = .ok (fed, last, stats)) :
    tokenize surface config chunks = .ok (fed.flatten ++ last, stats) := by
  have hempty : ((#[] : Array TextCallback) ++ (fed.flatten ++ last)).toList
      = fed.flatten ++ last := by simp
  rw [tokenize, AnySession.drive_eq, h]
  exact congrArg (fun calls => Except.ok (calls, stats)) hempty

/-- **The calls and counters of an input** are those of one run of the machine over the whole of it,
however it is cut and on either surface. -/
theorem tokenize_eq (surface : Surface) (config : Config) (chunks : List Bytes) :
    tokenize surface config chunks
      = .ok (config.calls (Machine.whole config chunks.flatten).run.queue.toList,
          .ofRun (chunks.filter (!·.isEmpty)).length chunks.flatten
            (Machine.whole config chunks.flatten).run) := by
  have hopen : (AnySession.start surface config).session.Open := by
    cases surface <;> exact Session.open_start config
  have hsession : (AnySession.start surface config).session = Session.start config := by
    cases surface <;> rfl
  obtain ⟨fed, last, htranscript, hrun, -, -⟩ := AnySession.transcript_eq hopen chunks
  rw [hsession] at htranscript hrun
  have hwhole : (Machine.whole config chunks.flatten).run = last.behind fed.flatten.toArray := hrun
  have hcalls : config.calls (last.behind fed.flatten.toArray).queue.toList
      = (fed.map config.calls).flatten ++ config.calls last.queue.toList := by
    have hqueue : (last.behind fed.flatten.toArray).queue.toList
        = fed.flatten ++ last.queue.toList := by
      simp [Machine.behind, Machine.within]
    rw [hqueue, Config.calls_append, Config.calls_flatten]
  have hcounters : AnySession.countersAt (Session.start config) chunks last
      = .ofRun (chunks.filter (!·.isEmpty)).length chunks.flatten
          (last.behind fed.flatten.toArray) := by
    unfold AnySession.countersAt Stats.ofRun
    rw [show (Session.start config).feeds = 0 from rfl,
      show (Session.start config).bytes = 0 from rfl, Nat.zero_add, Nat.zero_add]
    rfl
  rw [tokenize_of_transcript htranscript, hwhole, hcalls, ← hcounters]
  rfl

/-- **Chunk transparency.** Two ways of cutting one input into chunks give the same calls, error
messages included, and the same counters apart from the count of chunks. -/
theorem tokenize_of_flatten_eq (surface : Surface) (config : Config) {xs ys : List Bytes}
    (h : xs.flatten = ys.flatten) : ∃ calls stats feeds,
      tokenize surface config xs = .ok (calls, stats) ∧
      tokenize surface config ys = .ok (calls, { stats with feeds }) := by
  rw [tokenize_eq, tokenize_eq, h]
  exact ⟨_, _, _, rfl, rfl⟩

/-- A byte order mark and a CR LF pair, each cut in two. -/
theorem tokenize_of_cut_mark :
    [[0xEF], [0xBB, 0xBF, 0x0D], [], [0x0A]].flatten
        = [([0xEF, 0xBB, 0xBF, 0x0D, 0x0A] : Bytes)].flatten ∧
      ∃ calls stats feeds,
        tokenize .shared {} [[0xEF], [0xBB, 0xBF, 0x0D], [], [0x0A]] = .ok (calls, stats) ∧
        tokenize .shared {} [[0xEF, 0xBB, 0xBF, 0x0D, 0x0A]] = .ok (calls, { stats with feeds }) :=
  ⟨by decide, tokenize_of_flatten_eq .shared {} (by decide)⟩

end HtmlStream

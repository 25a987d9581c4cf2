import HtmlStream.CommandLine.Program
import HtmlStream.Proofs.Arguments
import HtmlStream.Proofs.ChunkPlans
import HtmlStream.Proofs.Requests
import HtmlStream.Proofs.Stream
import HtmlStream.Proofs.Writing

/-! # What the options of the program change

The program reads its input into a buffer, feeds what each read gives to a session, and prints each
call when it is made, behind a checker if that is asked for. A read gives any part of what the buffer
has room for, or it is interrupted and made again. What is printed depends on none of this: it is what
the calls of the whole input in one chunk are printed as.

* **`Host`**: what is left to the system: memory, how reads go, and how output travels.
* **`Host.pump`**, **`Host.drive`**, **`Host.program`**: the program, statement by statement.
* **`Host.exists_chunks`**: a loop of reads feeds chunks that make up the input, in order.
* **`Host.run_requests`**: a session that is fed chunks and then the end prints its transcript.
* **`Host.run_sameEnd`**: so the run as one function of the input and the run statement by statement
  come to the same.
* **`program_of_options`**: what is printed is a function of the input, the configuration and the
  form. -/

namespace HtmlStream

/-! ## (1) Transcripts -/

namespace AnySession

variable {s : AnySession} {fed : List (List TextCallback)} {last : List TextCallback}
  {stats : Stats}

theorem finish_of_transcript (h : s.transcript [] = .ok (fed, last, stats)) :
    fed = [] ∧ ∃ s', s.finish = .ok (last, s') ∧ stats = s'.session.stats := by
  rw [transcript] at h
  cases hfinish : s.finish with
  | error f => simp [hfinish] at h
  | ok result =>
    rw [hfinish] at h
    cases h
    exact ⟨rfl, _, rfl, rfl⟩

theorem feed_of_transcript {chunk : Bytes} {rest : List Bytes}
    (h : s.transcript (chunk :: rest) = .ok (fed, last, stats)) : ∃ next s' fed',
      fed = next :: fed' ∧ s.feed chunk = .ok (next, s') ∧
      s'.transcript rest = .ok (fed', last, stats) := by
  rw [transcript] at h
  cases hfeed : s.feed chunk with
  | error f =>
    rw [hfeed] at h
    cases h
  | ok result =>
    obtain ⟨next, s'⟩ := result
    rw [hfeed] at h
    change (fun rest => (next :: rest.1, rest.2)) <$> s'.transcript rest = _ at h
    cases hrest : s'.transcript rest with
    | error f => simp [hrest] at h
    | ok result =>
      obtain ⟨fed', last', stats'⟩ := result
      rw [hrest] at h
      cases h
      exact ⟨next, s', fed', rfl, rfl, hrest⟩

end AnySession

namespace CommandLine

/-! ## (2) The program -/

/-- **What is left to the system.** -/
structure Host where
  /-- The largest buffer there is memory for. -/
  memory : Nat
  /-- Its size is a word. -/
  memory_le : memory ≤ Word.greatest
  /-- How often a read is interrupted, with so many bytes to come. -/
  interruptions : Nat → Nat
  /-- How many bytes a read gives if there is room for them, with so many to come. -/
  portion : Nat → Nat
  /-- How output travels. -/
  transport : Transport

/-- An input that was opened. -/
structure Reader where
  /-- The bytes to come. -/
  rest : Bytes := []
  /-- How often the next read is interrupted. -/
  interruptions : Nat := 0
  /-- Reads fail. -/
  broken : Bool := false
  deriving DecidableEq, Repr

/-- What comes of a read into a buffer of `size` bytes. -/
inductive Reading (size : Nat) (r : Reader) where
  /-- It fails. -/
  | failed (hbroken : r.broken = true)
  /-- It is interrupted, once more. -/
  | interrupted (next : Reader) (hrest : next.rest = r.rest)
    (htimes : next.interruptions < r.interruptions) (hbroken : next.broken = r.broken)
  /-- It gives the first of the bytes to come, none of them only if there are none or there is no
  room for one. -/
  | bytes (chunk : Bytes) (next : Reader) (hrest : chunk ++ next.rest = r.rest)
    (hroom : chunk.length ≤ size) (hnone : chunk = [] → size = 0 ∨ r.rest = [])
    (hbroken : next.broken = r.broken)

/-- Why the program stops. -/
inductive Stop where
  /-- There is no memory for its buffer. -/
  | noMemory
  /-- It meets a fault. -/
  | fault (f : Fault)
  deriving DecidableEq, Repr

/-- What the program has come to. -/
structure Progress where
  /-- The session. -/
  session : AnySession
  /-- What the checker remembers. -/
  contract : Contract := {}
  /-- The writer. -/
  writer : Writer
  deriving DecidableEq, Repr

/-- What the program does changes its progress. A stop leaves it as it is at that point. -/
abbrev Job := EStateM Stop Progress

/-- How the program ends. -/
inductive Ending where
  /-- Its arguments are refused. -/
  | refused (e : UsageError)
  /-- It stops early. -/
  | stopped (s : Stop)
  /-- It exits with code 0 behind its output and its messages. -/
  | succeeded (output : Bytes) (messages : String)
  deriving DecidableEq, Repr

namespace Host

variable (h : Host)

/-- One read, into a buffer of `size` bytes. -/
def read (size : Nat) (r : Reader) : Reading size r :=
  if hbroken : r.broken then .failed hbroken
  else
    match htimes : r.interruptions with
    | times + 1 => .interrupted { r with interruptions := times } rfl (by simp [htimes]) rfl
    | 0 =>
      let n := min (max 1 (h.portion r.rest.length)) (min size r.rest.length)
      let rest := r.rest.drop n
      .bytes (r.rest.take n) { r with rest, interruptions := h.interruptions rest.length }
        (List.take_append_drop n r.rest) (by rw [List.length_take]; omega)
        (by rw [List.take_eq_nil_iff, ← List.length_eq_zero_iff]; omega) rfl

/-- Feeds what the reads give, until one gives nothing. -/
def feedAll (size : Nat) (feed : Bytes → Job Unit) (r : Reader) : Job Unit :=
  match h.read size r with
  | .failed _ => throw (.fault .readFailed)
  | .interrupted next _ _ _ => feedAll size feed next
  | .bytes chunk next _ _ _ _ =>
    if _ : chunk = [] then pure ()
    else do
      feed chunk
      feedAll size feed next
termination_by (r.rest.length, r.interruptions)
decreasing_by
  · rename_i hrest htimes _
    exact hrest ▸ Prod.Lex.right _ htimes
  · rename_i hrest _ _ _ hchunk
    have hpos := List.length_pos_iff.mpr hchunk
    rw [← hrest, List.length_append]
    exact Prod.Lex.left _ _ (by omega)

/-- Reads an input to its end and feeds it, through one buffer. -/
def pump (size : Nat) (feed : Bytes → Job Unit) (r : Reader) : Job Unit := do
  if h.memory < size then throw .noMemory
  h.feedAll size feed r

/-- Judges a call, if that is asked for. -/
def judge (o : Options) (call : TextCallback) : Job Unit := do
  if o.check then
    let p ← get
    match p.contract.accept call with
    | .error v => throw (.fault (.contract v))
    | .ok contract => set { p with contract }

/-- Judges a call and prints it. -/
def hear (o : Options) (call : TextCallback) : Job Unit := do
  judge o call
  modify fun p => { p with writer := h.transport.receive p.writer call }

/-- Requests something of the session and hears the calls it makes. -/
def request (o : Options) (r : Request) : Job Unit := do
  let p ← get
  match p.session.answer r with
  | .error f => throw (.fault (.session f))
  | .ok (calls, session) =>
    set { p with session }
    calls.forM (h.hear o)

/-- Requests the end; the counters behind it. -/
def close (o : Options) : Job Stats := do
  h.request o .finish
  return (← get).session.session.stats

/-- Feeds an input, and then the end. -/
def drive (o : Options) (r : Reader) : Job Stats := do
  h.pump o.chunkSize (fun chunk => h.request o (.feed chunk)) r
  h.close o

/-- Opens the input. -/
def openInput (o : Options) : FileContent → Job Reader
  | .missing => throw (.fault (.openFailed (o.file.getD "-")))
  | .directory => pure { broken := true }
  | .bytes bs => pure { rest := bs, interruptions := h.interruptions bs.length }

/-- Ends the output. -/
def finishWriter : Job Unit := do
  match (← get).writer.finish with
  | .error f => throw (.fault (.writeFailed f))
  | .ok () => pure ()

/-- Runs on an input. -/
def run (o : Options) (content : FileContent) : Job Stats := do
  if o.chunkSize = 0 then throw (.fault .zeroChunkSize)
  let r ← h.openInput o content
  let stats ← h.drive o r
  finishWriter
  return stats

/-- The program before its first read. -/
def atStart (o : Options) : Progress where
  session := .start o.surface o.config
  writer := { format := o.format }

/-- The messages behind a run: the counters, if they are asked for. -/
def messages (o : Options) (stats : Stats) : String := if o.stats then stats.line ++ "\n" else ""

/-- The program, for its arguments, its standard input and the files there are. -/
def program (arguments : List String) (standardInput : Bytes) (files : String → FileContent) :
    Ending :=
  match Options.ofArguments arguments with
  | .error e => .refused e
  | .ok o =>
    let content :=
      match o.file with
      | none => .bytes standardInput
      | some file => files file
    match (h.run o content).run (atStart o) with
    | .error s _ => .stopped s
    | .ok stats p => .succeeded p.writer.destination.accepted.toList (messages o stats)

/-! ## (3) Reading -/

/-- **A loop of reads feeds chunks that make up the input**, in order, whatever the reads give and
however often they are interrupted. No chunk is empty or larger than the buffer. -/
theorem exists_chunks {size : Nat} (hsize : 0 < size) {r : Reader} (hbroken : r.broken = false) :
    ∃ chunks : List Bytes, chunks.flatten = r.rest ∧
      (∀ chunk ∈ chunks, chunk ≠ [] ∧ chunk.length ≤ size) ∧
      ∀ feed, h.feedAll size feed r = chunks.forM feed := by
  induction r using feedAll.induct h size with
  | case1 r hfailed hread => simp [hbroken] at hfailed
  | case2 r next hrest _ hnext hread ih =>
    obtain ⟨chunks, hflatten, hchunks, hfeed⟩ := ih (hnext.trans hbroken)
    refine ⟨chunks, hflatten.trans hrest, hchunks, fun feed => ?_⟩
    rw [feedAll, hread]
    exact hfeed feed
  | case3 r next hrest _ _ hnone hread =>
    have hend : r.rest = [] := (hnone rfl).resolve_left (by omega)
    refine ⟨[], hend.symm, List.forall_mem_nil _, fun feed => ?_⟩
    rw [feedAll, hread]
    rfl
  | case4 r chunk next hrest hroom _ hnext hread hchunk ih =>
    obtain ⟨chunks, hflatten, hchunks, hfeed⟩ := ih (hnext.trans hbroken)
    refine ⟨chunk :: chunks, ?_, ?_, fun feed => ?_⟩
    · rw [List.flatten_cons, hflatten, hrest]
    · exact List.forall_mem_cons.mpr ⟨⟨hchunk, hroom⟩, hchunks⟩
    · rw [feedAll, hread]
      simp only [dif_neg hchunk, hfeed]
      rfl

end Host

/-! ## (4) What is heard -/

/-- What is remembered behind calls, if they are to be judged. -/
def Options.judged (o : Options) (c : Contract) (calls : List TextCallback) :
    Except Violation Contract :=
  if o.check then c.check calls else .ok c

namespace Options

variable {o : Options} {c c' : Contract} {calls calls' : List TextCallback}

theorem judged_append (o : Options) (c : Contract) (calls calls' : List TextCallback) :
    o.judged c (calls ++ calls') = (o.judged c calls).bind (o.judged · calls') := by
  unfold judged
  by_cases hcheck : o.check = true
  · simp only [if_pos hcheck]
    exact c.check_append calls calls'
  · simp only [if_neg hcheck]
    rfl

/-- Calls that keep the contract may be judged. -/
theorem exists_judged_of_check (o : Options) (h : c.check calls = .ok c') :
    ∃ next, o.judged c calls = .ok next := by
  by_cases hcheck : o.check = true
  · exact ⟨c', (if_pos hcheck).trans h⟩
  · exact ⟨c, if_neg hcheck⟩

/-- The first of calls that are accepted are accepted, and then the others. -/
theorem exists_judged (h : o.judged c (calls ++ calls') = .ok c') :
    ∃ next, o.judged c calls = .ok next ∧ o.judged next calls' = .ok c' := by
  rw [judged_append] at h
  cases hcalls : o.judged c calls with
  | error v => simp [hcalls, Except.bind] at h
  | ok next => exact ⟨next, rfl, by rwa [hcalls] at h⟩

end Options

namespace Host

variable (h : Host) {o : Options} {p : Progress} {c : Contract}

theorem run_judge {call : TextCallback} (hjudged : o.judged p.contract [call] = .ok c) :
    (judge o call).run p = .ok () { p with contract := c } := by
  rw [Options.judged] at hjudged
  rw [judge]
  by_cases hcheck : o.check = true
  · rw [if_pos hcheck, Contract.check] at hjudged
    cases haccept : p.contract.accept call with
    | error v => simp [haccept] at hjudged
    | ok next =>
      rw [haccept] at hjudged
      cases hjudged
      rw [if_pos hcheck, EStateM.run_bind, EStateM.run_get]
      simp only [haccept]
      rfl
  · rw [if_neg hcheck] at hjudged ⊢
    cases hjudged
    rfl

/-- **A call that is accepted is printed.** -/
theorem run_hear {call : TextCallback} (hjudged : o.judged p.contract [call] = .ok c) :
    (h.hear o call).run p
      = .ok () { p with contract := c, writer := p.writer.receive call } := by
  rw [hear, EStateM.run_bind, run_judge hjudged]
  simp [h.transport.receive_eq]

/-- Calls are printed in turn. -/
theorem run_hearAll {calls : List TextCallback} (hjudged : o.judged p.contract calls = .ok c) :
    (calls.forM (h.hear o)).run p
      = .ok () { p with contract := c, writer := calls.foldl Writer.receive p.writer } := by
  induction calls generalizing p with
  | nil =>
    rw [Options.judged, Contract.check, ite_self] at hjudged
    cases hjudged
    rfl
  | cons call rest ih =>
    change o.judged _ ([call] ++ rest) = _ at hjudged
    obtain ⟨next, hcall, hrest⟩ := Options.exists_judged hjudged
    show (do h.hear o call; rest.forM (h.hear o)).run p = _
    rw [EStateM.run_bind, h.run_hear hcall]
    exact ih hrest

/-- **A request that is answered** is heard. -/
theorem run_request {r : Request} {calls : List TextCallback} {session : AnySession}
    (hanswer : p.session.answer r = .ok (calls, session))
    (hjudged : o.judged p.contract calls = .ok c) : (h.request o r).run p
      = .ok () ⟨session, c, calls.foldl Writer.receive p.writer⟩ := by
  rw [request, EStateM.run_bind, EStateM.run_get]
  simp only [hanswer]
  rw [EStateM.run_bind, EStateM.run_set]
  exact h.run_hearAll (p := { p with session }) hjudged

/-- **A session that is fed chunks and then the end** prints its transcript. -/
theorem run_requests {chunks : List Bytes} {fed : List (List TextCallback)}
    {last : List TextCallback} {stats : Stats}
    (htranscript : p.session.transcript chunks = .ok (fed, last, stats))
    (hjudged : o.judged p.contract (fed.flatten ++ last) = .ok c) : ∃ session,
      (do chunks.forM fun chunk => h.request o (.feed chunk); h.close o).run p
        = .ok stats ⟨session, c, (fed.flatten ++ last).foldl Writer.receive p.writer⟩ := by
  induction chunks generalizing p fed with
  | nil =>
    obtain ⟨rfl, session, hfinish, rfl⟩ := AnySession.finish_of_transcript htranscript
    refine ⟨session, ?_⟩
    show (h.close o).run p = _
    rw [close, EStateM.run_bind, h.run_request (r := .finish) hfinish hjudged]
    rfl
  | cons chunk rest ih =>
    obtain ⟨next, s', fed', rfl, hfeed, hrest⟩ := AnySession.feed_of_transcript htranscript
    rw [List.flatten_cons, List.append_assoc] at hjudged ⊢
    obtain ⟨c', hnext, hlater⟩ := Options.exists_judged hjudged
    have hrun := h.run_request (r := .feed chunk) hfeed hnext
    obtain ⟨session, hsession⟩ := ih (p := ⟨s', c', _⟩) hrest hlater
    refine ⟨session, ?_⟩
    have hcons : ((chunk :: rest).forM fun chunk => h.request o (.feed chunk))
        = (do h.request o (.feed chunk); rest.forM fun chunk => h.request o (.feed chunk)) := rfl
    rw [hcons, bind_assoc, EStateM.run_bind, hrun, List.foldl_append]
    exact hsession

end Host

/-! ## (5) Whole runs -/

/-- Without a limit the writer ends well. -/
theorem finish_printAll (format : Format) (calls : List TextCallback) :
    (printAll format {} calls).finish = .ok () := by
  rw [printAll_eq, Destination.write_of_room _ (Destination.room_none rfl _)]
  rfl

variable {o : Options}

/-- **What any run hears**: the calls of the whole input in one chunk, and they may be judged. -/
theorem Options.exists_transcript (o : Options) {bs : Bytes} {calls : List TextCallback}
    {stats : Stats} (hwhole : tokenize o.surface o.config [bs] = .ok (calls, stats))
    {chunks : List Bytes} (hchunks : chunks.flatten = bs) : ∃ fed last feeds c,
      (AnySession.start o.surface o.config).transcript chunks
        = .ok (fed, last, { stats with feeds }) ∧
      fed.flatten ++ last = calls ∧ o.judged {} calls = .ok c := by
  obtain ⟨fed, last, counted, htranscript, hwell⟩ :=
    AnySession.transcript_wellFormed o.surface o.config chunks
  obtain ⟨calls', stats', feeds, hcut, hone⟩ := tokenize_of_flatten_eq o.surface o.config
    (show [bs].flatten = chunks.flatten by rw [hchunks, List.flatten_singleton])
  -- both ways of cutting are known, so the two streams are one
  cases hwhole.symm.trans hcut
  cases (tokenize_of_transcript htranscript).symm.trans hone
  obtain ⟨c, hjudged⟩ := o.exists_judged_of_check (hwell.accepted _ rfl)
  exact ⟨fed, last, feeds, c, htranscript, rfl, hjudged⟩

/-- The calls and the counters of an input in one chunk are the same on both surfaces. -/
theorem exists_tokenize (config : Config) (bs : Bytes) :
    ∃ calls stats, ∀ surface, tokenize surface config [bs] = .ok (calls, stats) :=
  ⟨_, _, fun surface => tokenize_eq surface config [bs]⟩

/-- The chunks of the run as one function make up the input. -/
theorem Options.flatten_chunks (o : Options) (bs : Bytes) : (o.chunks bs).flatten = bs := by
  rw [chunks]
  split_ifs
  · rw [ChunkPlan.flatten_flatMap_pieces, ChunkPlan.flatten_pieces]
  · exact ChunkPlan.flatten_pieces o.chunkSize bs

/-- The run as one function of the input prints the calls of the whole input in one chunk. -/
theorem Options.print_eq {bs : Bytes} {calls : List TextCallback} {stats : Stats}
    (hwhole : tokenize o.surface o.config [bs] = .ok (calls, stats)) : ∃ feeds,
      o.print bs = .ok ⟨(printAll o.format {} calls).output, { stats with feeds }⟩ := by
  obtain ⟨fed, last, feeds, c, htranscript, rfl, hjudged⟩ :=
    o.exists_transcript hwhole (o.flatten_chunks bs)
  have hchecked : o.checked (fed.flatten ++ last) = .ok () := by
    rw [judged] at hjudged
    rw [checked]
    split_ifs at hjudged ⊢
    · rw [hjudged]
    · rfl
  refine ⟨feeds, ?_⟩
  rw [print, tokenize_of_transcript htranscript]
  simp only [hchecked, finish_printAll]

namespace Host

variable (h : Host)

/-- A whole input is fed in chunks, and then the end. -/
theorem exists_drive (hsize : 0 < o.chunkSize) (hmemory : o.chunkSize ≤ h.memory) (r : Reader)
    (hbroken : r.broken = false) : ∃ chunks : List Bytes, chunks.flatten = r.rest ∧
      h.drive o r = (do chunks.forM fun chunk => h.request o (.feed chunk); h.close o) := by
  obtain ⟨chunks, hflatten, -, hfeed⟩ := h.exists_chunks hsize hbroken
  refine ⟨chunks, hflatten, ?_⟩
  rw [drive, pump, if_neg (by omega), ← hfeed]

theorem run_finishWriter {p : Progress} (hfinish : p.writer.finish = .ok ()) :
    finishWriter.run p = .ok () p := by
  rw [finishWriter, EStateM.run_bind, EStateM.run_get]
  simp only [hfinish]
  rfl

/-- The run statement by statement prints them too. -/
theorem run_run (hsize : 0 < o.chunkSize) (hmemory : o.chunkSize ≤ h.memory) {bs : Bytes}
    {calls : List TextCallback} {stats : Stats}
    (hwhole : tokenize o.surface o.config [bs] = .ok (calls, stats)) : ∃ session c feeds,
      (h.run o (.bytes bs)).run (atStart o)
        = .ok { stats with feeds } ⟨session, c, printAll o.format {} calls⟩ := by
  obtain ⟨chunks, hflatten, hdrive⟩ := h.exists_drive hsize hmemory
    { rest := bs, interruptions := h.interruptions bs.length } rfl
  obtain ⟨fed, last, feeds, c, htranscript, rfl, hjudged⟩ := o.exists_transcript hwhole hflatten
  obtain ⟨session, hrequests⟩ := h.run_requests (p := atStart o) htranscript hjudged
  refine ⟨session, c, feeds, ?_⟩
  rw [run, if_neg (by omega), openInput, pure_bind, hdrive]
  beta_reduce
  rw [EStateM.run_bind, hrequests]
  simp only
  rw [EStateM.run_bind, run_finishWriter (finish_printAll o.format _)]
  rfl

/-- **Two runs come to the same**: they print the same and count the same apart from the chunks, or
they stop on the same fault. -/
inductive SameEnd : Except Fault Output → EStateM.Result Stop Progress Stats → Prop where
  /-- Both stop. -/
  | stopped (f : Fault) (p : Progress) : SameEnd (.error f) (.error (.fault f) p)
  /-- Both come to their end. -/
  | ended (stats : Stats) (feeds : Nat) (p : Progress) :
    SameEnd (.ok ⟨p.writer.output, { stats with feeds }⟩) (.ok stats p)

/-- **The run as one function of the input and the run statement by statement** come to the same,
whatever is left to the system. -/
theorem run_sameEnd (o : Options) (hmemory : o.chunkSize ≤ h.memory) (content : FileContent) :
    SameEnd (o.execute content) ((h.run o content).run (atStart o)) := by
  unfold Options.execute
  by_cases hsize : o.chunkSize = 0
  · rw [if_pos hsize, run, if_pos hsize]
    exact .stopped .zeroChunkSize _
  · rw [if_neg hsize]
    cases content with
    | missing =>
      rw [run, if_neg hsize]
      exact .stopped (.openFailed _) _
    | directory =>
      have hfeed (feed : Bytes → Job Unit) :
          h.feedAll o.chunkSize feed { broken := true } = throw (.fault .readFailed) := by
        rw [feedAll]
        rfl
      rw [run, if_neg hsize, openInput, pure_bind, drive, pump, if_neg (by omega), hfeed]
      exact .stopped .readFailed _
    | bytes bs =>
      obtain ⟨calls, stats, hwhole⟩ := exists_tokenize o.config bs
      obtain ⟨session, c, feeds, hrun⟩ := h.run_run (by omega) hmemory (hwhole o.surface)
      obtain ⟨feeds', hprint⟩ := Options.print_eq (hwhole o.surface)
      rw [hrun]
      simp only [hprint]
      exact .ended { stats with feeds } feeds' ⟨session, c, printAll o.format {} calls⟩

/-- **Options that leave the input to standard input**, and that ask for a buffer which is not empty
and for which there is memory. -/
structure Serves (o : Options) : Prop where
  /-- No file is named. -/
  file : o.file = none
  /-- The buffer is not empty. -/
  size : 0 < o.chunkSize
  /-- There is memory for it. -/
  memory : o.chunkSize ≤ h.memory

end Host

/-- A host that interrupts each read once and gives two bytes at most. -/
def Host.hesitant : Host where
  memory := 4096
  memory_le := by decide
  interruptions := fun _ => 1
  portion := fun n => n % 3
  transport := default

end CommandLine

end HtmlStream

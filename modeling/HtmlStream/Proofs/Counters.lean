import HtmlStream.Proofs.Requests
import HtmlStream.Proofs.Machine.Reading

/-! # Counters

After any requests the counters of a session tell what was requested of it and what its sink has heard:
the chunks and bytes taken, the errors, and the calls that are no attributes. Characters are counted
when they are read, one, a keyword or a run at a time; behind the end each of them has been read once.

* **`Input.size_nextReading_le`**: what a step reads is there. **`counted_leads`**: so what is read and
  what is left to be read are together always as many.
* **`Input.total`**: the characters of an input, given what is still to come of it.
* **`Request.chunks`**: the chunks that are taken.
* **`counters_after`**: the counters of chunks, bytes and characters.
* **`Stats.Tells`**: what the counters tell. **`stats_tell`**: they do, after any requests. -/

namespace HtmlStream

/-! ## (1) Characters -/

/-- The number of characters that are read. -/
def Reading.size : Reading → Nat
  | .nothing => 0
  | .char _ => 1
  | .keyword n => n

theorem Reading.size_charIf_le (p : Bool) (c : Char) : (charIf p c).size ≤ 1 := by
  cases p <;> simp [charIf, size]

namespace Input

/-- The characters read and those that have arrived and are left to be read. -/
def counted (i : Input) : Nat := i.consumed + i.pending.length

/-- What is read is counted, if it is there. -/
theorem counted_read {i : Input} {reading : Reading} (h : reading.size ≤ i.pending.length) :
    (i.read reading).counted = i.counted := by
  cases reading with
  | nothing => rfl
  | char c =>
    have hsize : 1 ≤ i.pending.length := h
    simp only [counted, read, advance, List.length_tail]
    omega
  | keyword n =>
    have hsize : n ≤ i.pending.length := h
    simp only [counted, read, skip, List.length_drop]
    omega

/-- A keyword that is found is there. -/
theorem size_findKeyword_le (i : Input) (keywords : List Keyword) :
    (i.findKeyword keywords).size ≤ i.pending.length := by
  induction keywords with
  | nil => exact Nat.zero_le _
  | cons keyword rest ih =>
    rw [findKeyword]
    split
    · rename_i hfound
      exact Lookahead.length_le_of_found hfound
    · exact Nat.zero_le _
    · exact ih

end Input

namespace Machine

variable {m k : Machine}

/-- What a state reads is there. -/
theorem size_reading_le (m : Machine) (c : Char) (h : m.input.pending ≠ []) :
    (m.reading c).size ≤ m.input.pending.length := by
  have hone : 1 ≤ m.input.pending.length := List.length_pos_iff.mpr h
  unfold reading
  -- only two states read keywords, and each other at most the character in front
  split
  case h_13 => exact m.input.size_findKeyword_le declarationKeywords
  case h_14 =>
    split
    · exact hone
    · exact m.input.size_findKeyword_le doctypeKeywords
  case h_15 => exact hone
  all_goals exact (Reading.size_charIf_le _ _).trans hone

/-- **What a step reads is there.** -/
theorem size_nextReading_le (m : Machine) : m.nextReading.size ≤ m.input.pending.length := by
  cases href : m.reference with
  | none =>
    cases hpending : m.input.pending with
    | nil => simp [nextReading, href, hpending, Reading.size]
    | cons c rest =>
      have hreading : m.nextReading = m.reading c := by simp [nextReading, href, hpending]
      rw [hreading, ← hpending]
      exact m.size_reading_le c (by simp [hpending])
  | some r =>
    have hreading : m.nextReading = r.reading m.input.pending.head? := by simp [nextReading, href]
    rw [hreading]
    cases hpending : m.input.pending with
    | nil => exact Nat.le_refl 0
    | cons c rest =>
      -- a reference reads at most the character in front
      rcases r.reading_some c with hnothing | ⟨hchar, -⟩
      · rw [List.head?_cons, hnothing]
        exact Nat.zero_le _
      · rw [List.head?_cons, hchar]
        simp [Reading.size]

/-- **Steps lose no character**: each is left to be read or has been read. -/
theorem counted_leads (h : m.Leads k) : k.input.counted = m.input.counted := by
  induction h with
  | refl => rfl
  | @tail k k' _ hstep ih =>
    rw [input_step_eq hstep, Input.counted_read k.size_nextReading_le, ih]

end Machine

/-- **The characters of an input**, if the bytes `bs` and then the end come: those read, and those still
to be read. -/
def Input.total (i : Input) (bs : Bytes) : Nat := i.consumed + (i.toRead bs).length

theorem Input.total_eq (i : Input) (bs : Bytes) :
    i.total bs = i.counted + (i.decoder.toShow bs).length := by
  simp only [total, counted, toRead, List.length_append, Nat.add_assoc]

/-! ## (2) Requests -/

/-- The chunks that are taken: those in front of the first end. -/
def Request.chunks : List Request → List Bytes
  | [] => []
  | .feed chunk :: rest => chunk :: chunks rest
  | .finish :: _ => []

namespace Session

variable {s : Session}

/-- **A chunk** moves characters from what is to come to what has arrived. -/
theorem total_push (s : Session) (chunk bs : Bytes) :
    (s.push chunk).machine.input.total bs = s.machine.input.total (chunk ++ bs) := by
  have hruns : (s.machine.receive chunk).Leads (s.push chunk).machine :=
    (s.machine.receive chunk).leads_run
  calc (s.push chunk).machine.input.total bs
      = (s.machine.input.receive chunk).total bs := by
        rw [Input.total_eq, Machine.counted_leads hruns, (Machine.input_of_leads hruns).1,
          Input.total_eq]
        rfl
    _ = s.machine.input.total (chunk ++ bs) := by
        rw [Input.total, Input.toRead_receive]
        rfl

/-- **Behind the end** all characters have been read. -/
theorem consumed_shut (h : s.Rests) (hended : s.ended = false) :
    s.shut.machine.input.consumed = s.machine.input.total [] := by
  have hruns : s.machine.close.Leads s.shut.machine := s.machine.close.leads_run
  have hdone : s.shut.machine.input.pending = [] := ((rests_shut h hended).done rfl).1
  calc s.shut.machine.input.consumed
      = s.shut.machine.input.counted := by rw [Input.counted, hdone, List.length_nil, Nat.add_zero]
    _ = s.machine.input.finish.counted := Machine.counted_leads hruns
    _ = s.machine.input.total [] := by
        rw [Input.counted, Input.pending_finish]
        rfl

/-- Behind its end nothing changes a session. -/
theorem after_of_ended (h : s.ended = true) (requests : List Request) : s.after requests = s := by
  induction requests with
  | nil => rfl
  | cons r rest ih => rw [after, serve_of_ended h, ih]

/-- **What is counted of requests**: the chunks taken, empty ones apart, their bytes, and behind the end
their characters. -/
theorem counters_after (h : s.Rests) (hended : s.ended = false) (requests : List Request) :
    (s.after requests).feeds
        = s.feeds + ((Request.chunks requests).filter (!·.isEmpty)).length ∧
      (s.after requests).bytes = s.bytes + (Request.chunks requests).flatten.length ∧
      (.finish ∈ requests → (s.after requests).machine.input.consumed
        = s.machine.input.total (Request.chunks requests).flatten) := by
  -- induction on the requests; behind the first end nothing is counted any more
  induction requests generalizing s with
  | nil => exact ⟨rfl, rfl, by simp⟩
  | cons r rest ih =>
    obtain ⟨hnothing, hserve⟩ | ⟨chunk, hchunk, rfl, -, hserve⟩ | ⟨rfl, -, hserve⟩ :=
      s.serve_cases r
    · have hempty : r = .feed [] := hnothing.resolve_left (by simp [hended])
      rw [after, hserve, hempty]
      obtain ⟨hfeeds, hbytes, hchars⟩ := ih h hended
      exact ⟨hfeeds, hbytes, fun hmem => hchars (by simpa using hmem)⟩
    · rw [after, hserve]
      obtain ⟨hfeeds, hbytes, hchars⟩ := ih (rests_push h hended chunk) hended
      refine ⟨?_, ?_, ?_⟩
      · rw [hfeeds, Request.chunks, List.filter_cons_of_pos (by simpa using hchunk),
          List.length_cons]
        show s.feeds + 1 + _ = _
        omega
      · rw [hbytes, Request.chunks, List.flatten_cons, List.length_append]
        exact Nat.add_assoc s.bytes chunk.length _
      · intro hmem
        rw [hchars (by simpa using hmem), Request.chunks, List.flatten_cons]
        exact s.total_push chunk _
    · have hshut : s.shut.drain.2.ended = true := rfl
      rw [after, hserve, after_of_ended hshut]
      exact ⟨rfl, rfl, fun _ => consumed_shut h hended⟩

end Session

/-! ## (3) Calls -/

/-- Attributes do not count where no attribute does. -/
theorem countP_attributes {p : TextCallback → Bool} (hp : ∀ name value, p (.tagAttr name value) = false)
    (attributes : List Attribute) :
    (attributes.map fun a => (.tagAttr a.name a.value : TextCallback)).countP p = 0 := by
  simp [List.countP_eq_zero, hp]

/-- **A token is one call that is no attribute**, with those of its attributes. -/
theorem Token.countP_ne_tagAttr (exact : Bool) (t : Token) :
    (t.callbacks exact).countP (·.kind ≠ .tagAttr) = 1 := by
  cases t with
  | tag t =>
    rw [callbacks, Tag.callbacks]
    cases t.kind with
    | opening =>
      rw [List.countP_cons, countP_attributes fun name value => rfl]
      rfl
    | closing => rfl
  | _ => rfl

/-- It is one error, or none. -/
theorem Token.countP_error (exact : Bool) (t : Token) :
    (t.callbacks exact).countP (·.kind = .error) = (sites [t]).length := by
  cases t with
  | tag t =>
    rw [callbacks, Tag.callbacks]
    cases t.kind with
    | opening =>
      rw [List.countP_cons, countP_attributes fun name value => rfl]
      rfl
    | closing => rfl
  | _ => rfl

namespace Config

theorem calls_cons (config : Config) (t : Token) (rest : List Token) :
    config.calls (t :: rest) = t.callbacks config.exactErrors ++ config.calls rest :=
  List.flatMap_cons

theorem countP_ne_tagAttr (config : Config) (tokens : List Token) :
    (config.calls tokens).countP (·.kind ≠ .tagAttr) = tokens.length := by
  induction tokens with
  | nil => rfl
  | cons t rest ih =>
    rw [calls_cons, List.countP_append, t.countP_ne_tagAttr, ih, List.length_cons, Nat.add_comm]

theorem countP_error (config : Config) (tokens : List Token) :
    (config.calls tokens).countP (·.kind = .error) = (sites tokens).length := by
  induction tokens with
  | nil => rfl
  | cons t rest ih =>
    rw [calls_cons, List.countP_append, t.countP_error, ih, ← List.length_append, ← sites_append]
    rfl

end Config

/-! ## (4) What the counters tell -/

/-- **What the counters tell** of requests and the calls that were made for them. -/
structure Stats.Tells (stats : Stats) (config : Config) (requests : List Request)
    (calls : List TextCallback) : Prop where
  /-- The chunks taken, empty ones apart. -/
  feeds : stats.feeds = ((Request.chunks requests).filter (!·.isEmpty)).length
  /-- The bytes taken. -/
  bytes : stats.bytes = (Request.chunks requests).flatten.length
  /-- The errors. -/
  errors : stats.errors = calls.countP (·.kind = .error)
  /-- The calls that are no attributes. -/
  tokens : stats.tokens = calls.countP (·.kind ≠ .tagAttr)
  /-- Behind the end, the characters of the whole input: decoded, without its byte order mark if that is
  dropped, and with its newlines normalized. -/
  chars : .finish ∈ requests → stats.chars = (normalizeNewlines (stripBom config.discardBom
    (Utf8.lossy (Request.chunks requests).flatten).toList)).length

/-- **The counters tell what was requested and what was heard**, after any requests on either
surface. -/
theorem stats_tell (surface : Surface) (config : Config) (requests : List Request) :
    ((AnySession.start surface config).after requests).session.stats.Tells config requests
      (((AnySession.start surface config).history requests).flatMap Prod.fst) := by
  have hrests := Session.rests_start config
  obtain ⟨hfeeds, hbytes, hchars⟩ := Session.counters_after hrests rfl requests
  have hbooks := Session.records_after hrests requests []
  rw [AnySession.session_after, AnySession.flatMap_history, AnySession.session_start]
  exact {
    feeds := hfeeds.trans (Nat.zero_add _)
    bytes := hbytes.trans (Nat.zero_add _)
    errors := by
      rw [Config.countP_error]
      exact hbooks.errors.trans (Nat.zero_add _)
    tokens := by
      rw [Config.countP_ne_tagAttr]
      exact hbooks.tokens.trans (Nat.zero_add _)
    chars := by
      intro hmem
      rw [← Input.toRead_start]
      exact (hchars hmem).trans (Nat.zero_add _) }

end HtmlStream

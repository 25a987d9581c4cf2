import HtmlStream.Proofs.Counters
import HtmlStream.Proofs.Lines.Words

/-! # The calls that are heard

Whatever is requested of a session, the tokens it delivers are those that one run of the machine queues
first for the bytes it has taken. So the calls that a sink hears are as clean as those of a whole input.

* **`Session.delivered_isPrefix`**: the tokens delivered begin those of the whole input.
* **`Hearing`**: what is requested of a tokenizer, and the calls that are heard.
* **`Hearing.fitsLine`**: each call that is heard fits in a line. -/

namespace HtmlStream

/-! ## (1) What is delivered -/

/-- The tokens that are delivered for requests. -/
def Session.delivered (s : Session) (requests : List Request) : List Token :=
  (s.batches requests).flatMap Prod.fst

theorem Machine.queue_behind (m : Machine) (before : Array Token) :
    (m.behind before).queue.toList = before.toList ++ m.queue.toList := by
  simp [behind, within]

namespace Session

variable {s : Session}

theorem delivered_cons (s : Session) (r : Request) (rest : List Request) :
    s.delivered (r :: rest) = (s.serve r).1 ++ (s.serve r).2.delivered rest := by
  rw [delivered, batches, List.flatMap_cons, ← delivered]

theorem delivered_of_ended (h : s.ended = true) (requests : List Request) :
    s.delivered requests = [] := by
  induction requests with
  | nil => rfl
  | cons r rest ih => rw [delivered_cons, serve_of_ended h, ih, List.append_nil]

/-- The whole input is queued as what a chunk queues and what is queued behind it. -/
theorem queue_push (h : s.Rests) (hended : s.ended = false) (chunk bs : Bytes) :
    (s.machine.completed (chunk ++ bs)).run.queue.toList = (s.push chunk).drain.1
      ++ ((s.push chunk).drain.2.machine.completed bs).run.queue.toList := by
  rw [Machine.run_eq_of_leads (Machine.leads_feed (h.open hended).finished chunk bs),
    Machine.completed_drain, Machine.run_behind rfl, Machine.queue_behind]
  rfl

theorem queue_shut (s : Session) :
    (s.machine.completed []).run.queue.toList = s.shut.drain.1 := by
  rw [Machine.run_completed_nil, Machine.queue_behind]
  rfl

/-- **The tokens that are delivered** are the first of those of the whole input. -/
theorem delivered_isPrefix (h : s.Rests) (hended : s.ended = false) (requests : List Request) :
    s.delivered requests
      <+: (s.machine.completed (Request.chunks requests).flatten).run.queue.toList := by
  -- induction on the requests; nothing is delivered behind the first end
  induction requests generalizing s with
  | nil => exact List.nil_prefix
  | cons r rest ih =>
    obtain ⟨hnothing, hserve⟩ | ⟨chunk, -, rfl, -, hserve⟩ | ⟨rfl, -, hserve⟩ := s.serve_cases r
    · have hempty : r = .feed [] := hnothing.resolve_left (by simp [hended])
      rw [delivered_cons, hserve, hempty]
      exact ih h hended
    · rw [delivered_cons, hserve, Request.chunks, List.flatten_cons, queue_push h hended,
        List.prefix_append_right_inj]
      exact ih (rests_push h hended chunk) hended
    · have hshut : s.shut.drain.2.ended = true := rfl
      rw [delivered_cons, hserve, delivered_of_ended hshut, List.append_nil, Request.chunks,
        List.flatten_nil, queue_shut]

end Session

/-! ## (2) What is heard -/

/-- **What is requested of a tokenizer**, on which surface and for which configuration. -/
structure Hearing where
  /-- The surface. -/
  surface : Surface
  /-- What is asked for. -/
  config : Config
  /-- What is requested. -/
  requests : List Request
  deriving DecidableEq, Repr

namespace Hearing

/-- The calls that are heard. -/
def calls (h : Hearing) : List TextCallback :=
  ((AnySession.start h.surface h.config).history h.requests).flatMap Prod.fst

/-- The bytes that are taken. -/
def input (h : Hearing) : Bytes := (Request.chunks h.requests).flatten

/-- The tokens that are delivered. -/
def tokens (h : Hearing) : List Token := (Session.start h.config).delivered h.requests

variable (h : Hearing)

theorem calls_eq : h.calls = h.config.calls h.tokens := by
  rw [calls, AnySession.flatMap_history, AnySession.session_start, tokens, Session.delivered]
  rfl

/-- **The tokens that are delivered** are among those of the whole input. -/
theorem tokens_subset : h.tokens ⊆ (Machine.whole h.config h.input).run.queue.toList :=
  (Session.delivered_isPrefix (Session.rests_start h.config) rfl h.requests).subset

/-- **Each call that is heard fits in a line.** -/
theorem fitsLine {call : TextCallback} (hcall : call ∈ h.calls) : call.FitsLine := by
  rw [calls_eq] at hcall
  obtain ⟨t, ht, hcall⟩ := List.mem_flatMap.mp hcall
  have hclean := (Machine.cleanQueue_whole h.config h.input).clean_of_mem (h.tokens_subset ht)
  exact t.fitsLine_callbacks h.config.exactErrors hclean hcall

end Hearing

end HtmlStream

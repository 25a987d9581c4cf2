import HtmlStream.Proofs.Machine.Construction

/-! # What references are replaced by

A character reference is replaced where it stands: its characters are read, and what it stands for is put
behind the text held back or behind the value of the attribute, wherever the state is writing. What is wrong
with it is queued as errors, which makes the text held back queued in front of them. Nothing else happens.

* **`Machine.Queues m k errors`**: errors are queued; one lemma for each action that queues some.
* **`Machine.Replaces m k read errors written`**: all that happens between `m` in front of a reference and
  `k` behind it. **`Replaces.unique`**: nothing of `k` is left open.
* **`Queues.putHere`**: what is put where the state is writing, behind errors, replaces what is read.
* **`exists_currentAttribute`**: in the value of an attribute, there is an attribute to put it into.
* **`GoesThrough`**, **`Contributes`**: what becomes of a reference in a session.
  **`Contributes.calls_at_end`**: the calls, if it is the end of the text. -/

namespace HtmlStream

namespace Machine

/-! ## (1) Errors -/

/-- **Errors are queued** on the way from `m` to `k`, behind the text held back, and nothing else happens. -/
structure Queues (m k : Machine) (errors : List ParseError) : Prop where
  /-- They are put out behind all that was. -/
  output : k.output = m.output ++ errors.map (Token.error · m.state)
  /-- Without an error, the text is still held back. -/
  text : k.text = if errors = [] then m.text else ""
  /-- Tokens are counted. -/
  tokens : k.tokens + m.queue.size = m.tokens + k.queue.size
  /-- So are errors, and all else stays. -/
  others : k = { m with
    queue := k.queue, text := k.text, tokens := k.tokens, errors := m.errors + errors.length }

/-- Queues an error at a position. -/
def reportAt (m : Machine) (code : ErrorCode) (position : Nat) : Machine :=
  { m with errors := m.errors + 1 }.emit (.error ⟨code, position⟩ m.state)

/-- A token is counted, and so is the text in front of it. -/
theorem tokens_emit (m : Machine) (t : Token) :
    (m.emit t).tokens + m.queue.size = m.tokens + (m.emit t).queue.size := by
  cases htext : m.text.isEmpty <;> simp [emit, flush, enqueue, htext] <;> omega

/-- Queueing a token changes nothing but the queue, the text and the count. -/
theorem emit_others (m : Machine) (t : Token) : m.emit t = { m with
    queue := (m.emit t).queue, text := (m.emit t).text, tokens := (m.emit t).tokens } := by
  cases htext : m.text.isEmpty <;> simp [emit, flush, enqueue, htext]

variable {m k k' : Machine} {errors : List ParseError}

theorem Queues.refl (m : Machine) : m.Queues m [] := ⟨by simp, rfl, rfl, rfl⟩

theorem Queues.state_eq (h : m.Queues k errors) : k.state = m.state := by rw [h.others]

theorem Queues.input_eq (h : m.Queues k errors) : k.input = m.input := by rw [h.others]

theorem Queues.currentAttribute_eq (h : m.Queues k errors) :
    k.currentAttribute = m.currentAttribute := by rw [h.others]

/-- **One more error.** -/
theorem Queues.reportAt (h : m.Queues k errors) (code : ErrorCode) (position : Nat) :
    m.Queues (k.reportAt code position) (errors ++ [⟨code, position⟩]) := by
  constructor
  case output =>
    rw [Machine.reportAt, output_emit, h.state_eq, List.map_append, ← List.append_assoc, ← h.output]
    rfl
  case text =>
    rw [if_neg (by simp)]
    exact text_emit _ _
  case tokens =>
    have hcounted := tokens_emit { k with errors := k.errors + 1 } (.error ⟨code, position⟩ k.state)
    have hbefore := h.tokens
    simp only [Machine.reportAt] at hcounted ⊢
    omega
  case others =>
    have hothers := emit_others { k with errors := k.errors + 1 } (.error ⟨code, position⟩ k.state)
    rw [← Machine.reportAt] at hothers
    -- the error is added to what `k` has; what `k` has besides is what `m` has
    generalize k.reportAt code position = k' at hothers ⊢
    rw [hothers, h.others, List.length_append]
    rfl

/-- An error at the present position, if there is one. -/
theorem Queues.fault (h : m.Queues k errors) (fault : Option ErrorCode) :
    m.Queues (match fault with
      | none => k
      | some code => k.report code) (errors ++ fault.toList.map (⟨·, m.input.consumed⟩)) := by
  cases fault with
  | none =>
    rw [Option.toList_none, List.map_nil, List.append_nil]
    exact h
  | some code =>
    rw [← h.input_eq]
    exact h.reportAt code k.input.consumed

/-- **Without an error nothing is queued**, and with one, the text held back is as well. -/
theorem Queues.queue (h : m.Queues k errors) : k.queue.toList
    = if errors = [] then m.queue.toList else m.output ++ errors.map (Token.error · m.state) := by
  have houtput := h.output
  rw [Machine.output, heldBack, h.text] at houtput
  split_ifs at houtput ⊢ with hnone
  · rw [hnone, List.map_nil, List.append_nil, Machine.output] at houtput
    exact List.append_cancel_right houtput
  · rw [← houtput]
    exact (List.append_nil _).symm

/-! ## (2) The reference is replaced -/

/-- Puts a text where the state is writing: into the value of the attribute or to the text held
back. -/
def putHere (m : Machine) (s : String) : Machine :=
  if m.state.isAttributeValue then m.putAttributeText s else m.putText s

/-- **A reference is replaced.** Between `m` and `k` the characters `read` are read, `errors` are queued and
`written` is put where the state is writing, and nothing else happens. -/
structure Replaces (m k : Machine) (read : List Char) (errors : List ParseError) (written : String) :
    Prop where
  /-- What is read; reading goes on right behind it. -/
  pending : m.input.pending = read ++ k.input.pending
  /-- The errors stand behind all that was put out. Without one, nothing is queued. -/
  queue : k.queue.toList
    = if errors = [] then m.queue.toList else m.output ++ errors.map (Token.error · m.state)
  /-- In text, what is written is held back, behind what was, unless an error has made that queued. -/
  inText : m.state.isAttributeValue = false →
    k.text = (if errors = [] then m.text else "") ++ written ∧ k.currentAttribute = m.currentAttribute
  /-- In the value of an attribute, it is added to that value. -/
  inValue : m.state.isAttributeValue = true → k.text = (if errors = [] then m.text else "") ∧
    ∃ a, m.currentAttribute = some a ∧
      k.currentAttribute = some { a with value := a.value ++ written }
  /-- Tokens are counted. -/
  tokens : k.tokens + m.queue.size = m.tokens + k.queue.size
  /-- So are characters and errors, and all else stays. -/
  others : k = { m with
    input := { m.input with
      pending := k.input.pending, consumed := m.input.consumed + read.length }
    queue := k.queue, text := k.text, currentAttribute := k.currentAttribute
    tokens := k.tokens, errors := m.errors + errors.length }

section

variable {read rest : List Char} {written : String}

/-- **All of the machine behind it is determined.** -/
theorem Replaces.unique (h : m.Replaces k read errors written)
    (h' : m.Replaces k' read errors written) : k = k' := by
  have hpending : k.input.pending = k'.input.pending :=
    List.append_cancel_left (h.pending.symm.trans h'.pending)
  have hqueue : k.queue = k'.queue := Array.toList_inj.mp (h.queue.trans h'.queue.symm)
  have htokens : k.tokens = k'.tokens := by
    have hk := h.tokens
    have hk' := h'.tokens
    rw [hqueue] at hk
    omega
  have hplace : k.text = k'.text ∧ k.currentAttribute = k'.currentAttribute := by
    cases hvalue : m.state.isAttributeValue with
    | false =>
      obtain ⟨htext, hcurrent⟩ := h.inText hvalue
      obtain ⟨htext', hcurrent'⟩ := h'.inText hvalue
      exact ⟨htext.trans htext'.symm, hcurrent.trans hcurrent'.symm⟩
    | true =>
      obtain ⟨htext, a, ha, hcurrent⟩ := h.inValue hvalue
      obtain ⟨htext', a', ha', hcurrent'⟩ := h'.inValue hvalue
      rw [← Option.some.inj (ha.symm.trans ha')] at hcurrent'
      exact ⟨htext.trans htext'.symm, hcurrent.trans hcurrent'.symm⟩
  rw [h.others, h'.others, hpending, hqueue, htokens, hplace.1, hplace.2]

/-- **It is replaced** by what is put where the state is writing, behind the errors. In the value of an
attribute, there has to be an attribute. -/
theorem Queues.putHere (hpending : m.input.pending = read ++ rest)
    (h : (m.skip read.length).Queues k errors)
    (hattribute : m.state.isAttributeValue = true → ∃ a, m.currentAttribute = some a)
    (written : String) : m.Replaces (k.putHere written) read errors written := by
  have hread : m.input.pending = read ++ k.input.pending := by
    rw [hpending, h.input_eq]
    show read ++ rest = read ++ m.input.pending.drop read.length
    rw [hpending, List.drop_left]
  -- where it is put depends on the state; the state is the same in front of the errors and behind them
  cases hvalue : m.state.isAttributeValue with
  | false =>
    rw [Machine.putHere, if_neg (by simp [h.state_eq, skip, hvalue])]
    constructor
    case pending => exact hread
    case queue => exact h.queue
    case inText => exact fun _ => ⟨congrArg (· ++ written) h.text, h.currentAttribute_eq⟩
    case inValue => exact fun htrue => absurd (hvalue.symm.trans htrue) (by decide)
    case tokens => exact h.tokens
    case others =>
      rw [h.others]
      rfl
  | true =>
    obtain ⟨a, ha⟩ := hattribute hvalue
    have hk : k.currentAttribute = some a := h.currentAttribute_eq.trans ha
    rw [Machine.putHere, if_pos (by rw [h.state_eq]; exact hvalue)]
    constructor
    case pending => exact hread
    case queue => exact h.queue
    case inText => exact fun hfalse => absurd (hfalse.symm.trans hvalue) (by decide)
    case inValue =>
      refine fun _ => ⟨h.text, a, ha, ?_⟩
      rw [putAttributeText, hk]
      rfl
    case tokens => exact h.tokens
    case others =>
      rw [h.others]
      rfl

end

/-! ## (3) In the run of an input -/

/-- **In the value of an attribute, there is an attribute** that it belongs to. -/
theorem exists_currentAttribute {config : Config} {bs : Bytes} (hreach : (whole config bs).Leads m)
    (hvalue : m.state.isAttributeValue = true) : ∃ a, m.currentAttribute = some a := by
  have hholds : m.state.holdsAttribute = true := by
    generalize m.state = state at hvalue
    cases state with
    | attributeValue => rfl
    | _ => cases hvalue
  have hsound : (whole config bs).construction.Sound := sound_start config
  obtain ⟨a, ha, -⟩ := (sound_leads hsound hreach).1.hasAttribute hholds
  exact ⟨a, ha⟩

/-- In text, the end of the input is queued at once. -/
theorem run_at_end (hended : m.ended = false) (href : m.reference = none)
    (hstate : m.state = .data ∨ m.state = .rawData .rcdata) (hpending : m.input.pending = [])
    (hfinished : m.input.finished = true) : m.run = m.emitEnd := by
  have hend : step .byChar m = some m.emitEnd := by
    rw [step_of_end hended href hpending hfinished]
    rcases hstate with h | h <;> rw [stepEnd, h]
  exact (eq_run_of_leads (Leads.single hend) (step_of_ended rfl)).symm

/-- **A reference at the end of the text**: what it is replaced by is queued as one with the text in front of
it, behind the errors, and then the end of the input. -/
theorem Replaces.queue_run {read : List Char} {written : String} (h : m.Replaces k read errors written)
    (hended : m.ended = false) (href : m.reference = none)
    (hstate : m.state = .data ∨ m.state = .rawData .rcdata) (hpending : m.input.pending = read)
    (hfinished : m.input.finished = true) : k.run.queue.toList
      = (if errors = [] then m.queue.toList ++ textTokens (m.text ++ written)
          else m.output ++ errors.map (Token.error · m.state) ++ textTokens written)
        ++ [.endOfInput] := by
  have hplain : m.state.isAttributeValue = false := by
    rcases hstate with hstate | hstate <;> rw [hstate] <;> rfl
  have hrest : k.input.pending = [] := by
    have hread := h.pending
    rw [hpending] at hread
    exact List.append_right_eq_self.mp hread.symm
  have hk : k.ended = false ∧ k.reference = none ∧ k.state = m.state ∧ k.input.finished = true := by
    rw [h.others]
    exact ⟨hended, href, rfl, hfinished⟩
  obtain ⟨hended', href', hstate', hfinished'⟩ := hk
  rw [run_at_end hended' href' (by rwa [hstate']) hrest hfinished']
  show (k.emit .endOfInput).queue.toList = _
  rw [toList_queue_emit, heldBack, h.queue, (h.inText hplain).1, ← List.append_assoc]
  split_ifs
  · rfl
  · rw [String.empty_append]

end Machine

/-! ## (4) Sessions -/

/-- **The session of an input goes through a machine**: its run leads to it, and however the input is
cut and on either surface, the calls are those of the run from there. -/
def GoesThrough (config : Config) (bs : Bytes) (m : Machine) : Prop :=
  (Machine.whole config bs).Leads m ∧
    ∀ surface chunks, chunks.flatten = bs → ∃ stats,
      tokenize surface config chunks = .ok (config.calls m.run.queue.toList, stats)

theorem goesThrough_of_leads {config : Config} {bs : Bytes} {m : Machine}
    (h : (Machine.whole config bs).Leads m) : GoesThrough config bs m := by
  refine ⟨h, ?_⟩
  rintro surface chunks rfl
  rw [← Machine.run_eq_of_leads h]
  exact ⟨_, tokenize_eq surface config chunks⟩

/-- **What a reference contributes** to the session of an input that reads `read` at the machine `m`: `errors`
are queued, `written` is put where the state is writing, and the session goes on right behind it. There is one
machine only with which it does. -/
def Contributes (config : Config) (bs : Bytes) (m : Machine) (read : List Char)
    (errors : List ParseError) (written : String) : Prop :=
  ∃! k, GoesThrough config bs k ∧ m.Replaces k read errors written

variable {config : Config} {bs : Bytes} {m k : Machine} {read : List Char}
  {errors : List ParseError} {written : String}

theorem contributes_of_leads (hreach : (Machine.whole config bs).Leads m) (hleads : m.Leads k)
    (h : m.Replaces k read errors written) : Contributes config bs m read errors written :=
  ⟨k, ⟨goesThrough_of_leads (hreach.trans hleads), h⟩, fun _ hother => hother.2.unique h⟩

/-- **At the end of the text** its calls are known: those of the text in front of it and what is written in
its place, with the errors between them, and that of the end of the input. -/
theorem Contributes.calls_at_end (h : Contributes config bs m read errors written)
    (hreach : (Machine.whole config bs).Leads m) (hended : m.ended = false)
    (href : m.reference = none) (hstate : m.state = .data ∨ m.state = .rawData .rcdata)
    (hpending : m.input.pending = read) (surface : Surface) {chunks : List Bytes}
    (hchunks : chunks.flatten = bs) :
    ∃ stats, tokenize surface config chunks = .ok (config.calls
      ((if errors = [] then m.queue.toList ++ textTokens (m.text ++ written)
          else m.output ++ errors.map (Token.error · m.state) ++ textTokens written)
        ++ [.endOfInput]), stats) := by
  obtain ⟨k, ⟨hthrough, hk⟩, -⟩ := h
  obtain ⟨stats, hcalls⟩ := hthrough.2 surface chunks hchunks
  have hfinished : m.input.finished = true := (Machine.input_of_leads hreach).2
  rw [hk.queue_run hended href hstate hpending hfinished] at hcalls
  exact ⟨stats, hcalls⟩

end HtmlStream

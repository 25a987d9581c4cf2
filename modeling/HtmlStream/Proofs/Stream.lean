import HtmlStream.Contract
import HtmlStream.Proofs.Chunking
import Mathlib.Data.List.Chain

/-! # The calls of a session are well formed

A session hands over groups of calls, text that is not empty and that no other text follows, and the
end of the input once, last, and only for the end of the input. So the ordering contract of sinks is
kept, whatever the configuration, the input, the chunks and the surface are.

* **`Grouped`**: each start tag is followed by the attributes it announces, and there are no others.
* **`WellFormed`**: all of it, of the calls for the chunks and of those for the end.
* **`check_of_grouped`**: the contract accepts grouped calls.
* **`AnySession.transcript_wellFormed`**: every session is well formed. -/

namespace HtmlStream

/-! ## (1) Groups -/

/-- **Each start tag is followed by exactly the attributes it announces**, and no attribute stands
anywhere else. -/
inductive Grouped {N B : Type} : List (Callback N B) → Prop
  /-- No calls. -/
  | nil : Grouped []
  /-- A start tag and its attributes. -/
  | tag (name : N) (selfClosing : Bool) (attributes : List (N × B)) {rest : List (Callback N B)}
    (h : Grouped rest) :
    Grouped (.startTag name selfClosing attributes.length ::
      (attributes.map fun a => .tagAttr a.1 a.2) ++ rest)
  /-- A call that is neither. -/
  | other {call : Callback N B} {rest : List (Callback N B)} (hstart : call.kind ≠ .startTag)
    (hattr : call.kind ≠ .tagAttr) (h : Grouped rest) : Grouped (call :: rest)

/-- The calls of a token are groups. -/
theorem grouped_callbacks_append (exact : Bool) (t : Token) {rest : List TextCallback}
    (h : Grouped rest) : Grouped (t.callbacks exact ++ rest) := by
  cases t with
  | tag t =>
    rw [Token.callbacks, Tag.callbacks]
    cases t.kind with
    | opening =>
      -- the count announced is that of the attributes called
      have hgroup := Grouped.tag t.name t.selfClosing
        (t.attributes.toList.map fun a => (a.name, a.value)) h
      rw [List.length_map, Array.length_toList, List.map_map] at hgroup
      exact hgroup
    | closing => exact Grouped.other (by simp [Callback.kind]) (by simp [Callback.kind]) h
  | _ => exact Grouped.other (by simp [Callback.kind]) (by simp [Callback.kind]) h

theorem grouped_calls (config : Config) (tokens : List Token) : Grouped (config.calls tokens) := by
  induction tokens with
  | nil => exact Grouped.nil
  | cons t rest ih => exact grouped_callbacks_append config.exactErrors t ih

/-! ## (2) Text and the end -/

/-- Two calls that are not both text. -/
def Apart {N B : Type} (call next : Callback N B) : Prop :=
  call.kind = .chars → next.kind ≠ .chars

theorem kind_ne_chars {exact : Bool} {t : Token} (ht : t.isText = false) {call : TextCallback}
    (h : call ∈ t.callbacks exact) : call.kind ≠ .chars := by
  cases t with
  | characters text => simp [Token.isText] at ht
  | tag t =>
    rw [Token.callbacks, Tag.callbacks] at h
    cases hkind : t.kind with
    | opening =>
      rw [hkind] at h
      rcases List.mem_cons.mp h with rfl | h
      · simp [Callback.kind]
      · obtain ⟨a, -, rfl⟩ := List.mem_map.mp h
        simp [Callback.kind]
    | closing =>
      rw [hkind] at h
      simp only [List.mem_singleton] at h
      simp [h, Callback.kind]
  | _ =>
    simp only [Token.callbacks, List.mem_singleton] at h
    simp [h, Callback.kind]

theorem callbacks_ne_nil (exact : Bool) (t : Token) : t.callbacks exact ≠ [] := by
  cases t with
  | tag t =>
    rw [Token.callbacks, Tag.callbacks]
    cases t.kind <;> simp
  | _ => simp [Token.callbacks]

/-- Calls that are no text keep text apart. -/
theorem isChain_append {calls rest : List TextCallback} (h : ∀ call ∈ calls, call.kind ≠ .chars)
    (hrest : rest.IsChain Apart) : (calls ++ rest).IsChain Apart := by
  induction calls with
  | nil => exact hrest
  | cons call calls ih =>
    rw [List.forall_mem_cons] at h
    rw [List.cons_append, List.isChain_cons]
    exact ⟨fun next _ hcall => absurd hcall h.1, ih h.2⟩

/-- **Spaced tokens keep text apart.** -/
theorem isChain_calls (config : Config) {tokens : List Token} (h : Spaced tokens) :
    (config.calls tokens).IsChain Apart := by
  induction h with
  | nil => exact List.IsChain.nil
  | other ht _ ih => exact isChain_append (fun call hcall => kind_ne_chars ht hcall) ih
  | @text s t rest _ ht _ ih =>
    have hrest : (t.callbacks config.exactErrors ++ config.calls rest).IsChain Apart :=
      isChain_append (fun call hcall => kind_ne_chars ht hcall) ih
    refine List.isChain_cons.mpr ⟨?_, hrest⟩
    intro next hnext _
    -- what is next is the first call of the token behind the text, and that token is no text
    obtain ⟨first, calls, hcalls⟩ := List.exists_cons_of_ne_nil
      (callbacks_ne_nil config.exactErrors t)
    have hfirst : next = first := by
      change next ∈ (t.callbacks config.exactErrors ++ config.calls rest).head? at hnext
      rw [hcalls] at hnext
      simpa using hnext.symm
    rw [hfirst]
    exact kind_ne_chars ht (hcalls ▸ List.mem_cons_self)

/-- **Spaced tokens have no empty text.** -/
theorem ne_empty_of_mem_calls (config : Config) {tokens : List Token} (h : Spaced tokens)
    {text : String} (htext : .chars text ∈ config.calls tokens) : text ≠ "" := by
  induction h with
  | nil => simp [Config.calls] at htext
  | other ht _ ih =>
    rw [Config.calls, List.flatMap_cons, List.mem_append] at htext
    rcases htext with htext | htext
    · exact absurd rfl (kind_ne_chars ht htext)
    · exact ih htext
  | text hs ht _ ih =>
    -- the text itself, the token behind it, or the rest
    rw [Config.calls, List.flatMap_cons, List.flatMap_cons, List.mem_append,
      List.mem_append] at htext
    rcases htext with htext | htext | htext
    · simp only [Token.callbacks, List.mem_singleton, Callback.chars.injEq] at htext
      rw [htext]
      exact hs
    · exact absurd rfl (kind_ne_chars ht htext)
    · exact ih htext

/-- The end is called for the token of the end alone. -/
theorem eof_notMem_calls (config : Config) {tokens : List Token}
    (h : Token.endOfInput ∉ tokens) : .eof ∉ config.calls tokens := by
  rw [Config.calls, List.mem_flatMap]
  rintro ⟨t, ht, hcall⟩
  cases t with
  | endOfInput => exact h ht
  | tag t =>
    rw [Token.callbacks, Tag.callbacks] at hcall
    cases hkind : t.kind <;> simp [hkind] at hcall
  | _ => simp [Token.callbacks] at hcall

/-! ## (3) The contract -/

namespace Callback

variable {N B : Type}

/-- A call without what it holds. -/
def outline (call : Callback N B) : Callback Unit Unit := call.map (fun _ => ()) (fun _ => ())

end Callback

namespace Contract

variable {N B N' B' : Type}

/-- The contract judges calls by their outlines. -/
theorem accept_outline (c : Contract) (call : Callback N B) : c.accept call.outline = c.accept call := by
  cases call <;> rfl

theorem check_outline (c : Contract) (calls : List (Callback N B)) :
    c.check (calls.map Callback.outline) = c.check calls := by
  induction calls generalizing c with
  | nil => rfl
  | cons call rest ih =>
    rw [List.map_cons, check, check, accept_outline]
    cases c.accept call with
    | error v => rfl
    | ok c => exact ih c

theorem check_append (c : Contract) (calls calls' : List (Callback N B)) :
    c.check (calls ++ calls') = (c.check calls).bind (·.check calls') := by
  induction calls generalizing c with
  | nil => rfl
  | cons call rest ih =>
    rw [List.cons_append, check, check]
    cases c.accept call with
    | error v => rfl
    | ok c => exact ih c

/-- Attributes that were announced are accepted. -/
theorem check_attributes (k : Nat) (attributes : List (N × B)) :
    check ⟨attributes.length, false, k⟩ (attributes.map fun a => .tagAttr a.1 a.2)
      = .ok ⟨0, false, k + attributes.length⟩ := by
  induction attributes generalizing k with
  | nil => rfl
  | cons a rest ih =>
    have haccept : accept ⟨rest.length + 1, false, k⟩ (Callback.tagAttr a.1 a.2)
        = .ok ⟨rest.length, false, k + 1⟩ := by
      rw [accept, acceptAttribute, if_neg Bool.false_ne_true, if_neg (Nat.succ_ne_zero _)]
      rfl
    rw [List.map_cons, List.length_cons, check, haccept]
    show check _ _ = _
    rw [ih]
    exact congrArg (fun k => Except.ok (Contract.mk 0 false k)) (by omega)

/-- **The contract accepts groups of calls** without an end. -/
theorem check_of_grouped {calls : List (Callback N B)} (h : Grouped calls) (heof : .eof ∉ calls)
    (k : Nat) : check ⟨0, false, k⟩ calls = .ok ⟨0, false, k + calls.length⟩ := by
  -- between groups no attribute is outstanding
  induction h generalizing k with
  | nil => rfl
  | @tag name selfClosing attributes rest _ ih =>
    simp only [List.mem_append, List.mem_cons, not_or] at heof
    have hattributes := check_attributes (k + 1) attributes
    rw [List.cons_append, check]
    show check ⟨attributes.length, false, k + 1⟩ _ = _
    rw [check_append, hattributes]
    show check _ rest = _
    rw [ih heof.2]
    refine congrArg (fun k => Except.ok (Contract.mk 0 false k)) ?_
    simp only [List.length_cons, List.length_append, List.length_map]
    omega
  | @other call rest hstart hattr _ ih =>
    rw [List.mem_cons, not_or] at heof
    have haccept : accept ⟨0, false, k⟩ call = .ok ⟨0, false, k + 1⟩ := by
      cases call <;> simp_all [Callback.kind, accept, acceptOther]
    rw [check, haccept]
    show check _ rest = _
    rw [ih heof.2, List.length_cons]
    exact congrArg (fun k => Except.ok (Contract.mk 0 false k)) (by omega)

end Contract

/-! ## (4) Sessions -/

/-- **Well-formed calls**: those handed over for the chunks, `fed`, and those for the end, `last`. -/
structure WellFormed (fed : List (List TextCallback)) (last : List TextCallback) : Prop where
  /-- Start tags are followed by the attributes they announce, and there are no others. -/
  grouped : Grouped (fed.flatten ++ last)
  /-- The end of the input is called once, last, and for the end alone. -/
  eof : ∃ before, last = before ++ [Callback.eof] ∧ Callback.eof ∉ before ∧
    ∀ batch ∈ fed, Callback.eof ∉ batch
  /-- No text is empty. -/
  nonempty : ∀ text, Callback.chars text ∈ fed.flatten ++ last → text ≠ ""
  /-- No two texts are neighbours. -/
  apart : (fed.flatten ++ last).IsChain Apart
  /-- The contract of sinks accepts every call, whatever the calls hold. -/
  accepted : ∀ {N B : Type} (calls : List (Callback N B)),
    calls.map Callback.outline = (fed.flatten ++ last).map Callback.outline →
    Contract.check {} calls = .ok { outstanding := 0, sawEof := true, callbacks := calls.length }

/-- Grouped calls with the end behind them are accepted, whatever they hold. -/
theorem check_of_outline {N B : Type} {before : List TextCallback} (h : Grouped before)
    (heof : .eof ∉ before) {calls : List (Callback N B)}
    (hcalls : calls.map Callback.outline = (before ++ [Callback.eof]).map Callback.outline) :
    Contract.check {} calls = .ok { outstanding := 0, sawEof := true, callbacks := calls.length } := by
  have hlength : calls.length = before.length + 1 := by
    rw [← List.length_map Callback.outline, hcalls, List.length_map, List.length_append]
    rfl
  rw [← Contract.check_outline, hcalls, Contract.check_outline, Contract.check_append,
    Contract.check_of_grouped h heof, hlength, Nat.zero_add]
  rfl

/-- **Every session is well formed**: for every configuration, input and way of cutting it into
chunks, on either surface. -/
theorem AnySession.transcript_wellFormed (surface : Surface) (config : Config)
    (chunks : List Bytes) : ∃ fed last stats,
      (AnySession.start surface config).transcript chunks = .ok (fed, last, stats) ∧
      WellFormed fed last := by
  have hopen : (AnySession.start surface config).session.Open := by
    cases surface <;> exact Session.open_start config
  obtain ⟨fed, last, htranscript, -, hfed, queued, hqueue, hspaced, hend⟩ :=
    transcript_eq hopen chunks
  generalize (AnySession.start surface config).session.config = config at htranscript
  have hlast : config.calls last.queue.toList = config.calls queued ++ [.eof] := by
    rw [hqueue, Config.calls_append]
    rfl
  refine ⟨_, _, _, htranscript, ?_⟩
  -- the calls of the whole session are those of one list of tokens, spaced throughout
  have hcalls : (fed.map config.calls).flatten ++ config.calls last.queue.toList
      = config.calls (fed.flatten ++ last.queue.toList) := by
    rw [Config.calls_append, Config.calls_flatten]
  have hall : Spaced (fed.flatten ++ last.queue.toList) :=
    (Spaced.flatten fun batch hbatch => (hfed batch hbatch).1).append (hqueue ▸ hspaced)
  have hfront : Token.endOfInput ∉ fed.flatten ++ queued := by
    rw [List.mem_append, List.mem_flatten, not_or]
    refine ⟨?_, hend⟩
    rintro ⟨batch, hbatch, hmem⟩
    exact (hfed batch hbatch).2 hmem
  refine ⟨?_, ⟨config.calls queued, hlast, eof_notMem_calls config hend, ?_⟩, ?_, ?_, ?_⟩
  · rw [hcalls]
    exact grouped_calls config _
  · rw [List.forall_mem_map]
    intro batch hbatch
    exact eof_notMem_calls config (hfed batch hbatch).2
  · rw [hcalls]
    intro text htext
    exact ne_empty_of_mem_calls config hall htext
  · rw [hcalls]
    exact isChain_calls config hall
  · -- the end is called behind all the groups, which hold none
    intro N B calls houtline
    refine check_of_outline (grouped_calls config (fed.flatten ++ queued))
      (eof_notMem_calls config hfront) ?_
    rw [houtline, hcalls, hqueue, ← List.append_assoc, Config.calls_append]
    rfl

end HtmlStream

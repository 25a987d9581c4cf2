import HtmlStream.Proofs.Clean.Steps

/-! # What sinks may rely on

A machine starts clean, and the decoder leaves no carriage return to be read. So whatever the input is
and however it is cut, on either surface, a sink is called with texts without U+0000 and with normalised
names.

* **`Callback.texts`**: the names and payloads of a call. **`tokenize_nullFree`**: they have no U+0000,
  and a U+0000 of text is a call of its own behind its report.
* **`Callback.Normalised`**, **`leadingAttributes`**: names of a call, and those of the attributes that
  follow a start tag. **`tokenize_normalised`**: names are normalised and attributes of a tag differ. -/

namespace HtmlStream

/-! ## (1) Whole runs -/

namespace Machine

theorem steady_whole (config : Config) (bytes : Bytes) : (whole config bytes).Steady 0 := by
  have hclean : (whole config bytes).Clean 0 false := { clean_start config with }
  refine hclean.stay ?_
  show config.initialState.state.inTag = false
  cases config.initialState <;> rfl

/-- **The queue of a whole run is clean.** -/
theorem cleanQueue_whole (config : Config) (bytes : Bytes) :
    CleanQueue (whole config bytes).nullsBetweenTags (whole config bytes).run.queue.toList := by
  have hreturn : '\r' ∉ (whole config bytes).input.pending := by
    rw [pending_whole]
    exact return_notMem_normalizeNewlines _
  have hqueue := (steady_run (steady_whole config bytes) hreturn).queue
  rwa [Nat.zero_add] at hqueue

end Machine

/-- All tokens of a clean queue are clean, but for those that stand for a U+0000. -/
theorem CleanQueue.clean_of_mem {n : Nat} {q : List Token} (h : CleanQueue n q) {t : Token}
    (ht : t ∈ q) : t.Clean ∨ t = .nullCharacter := by
  induction h with
  | nil => cases ht
  | token _ hlast ih =>
    rcases List.mem_append.mp ht with hmem | hmem
    · exact ih hmem
    · rw [List.mem_singleton.mp hmem]
      exact .inl hlast
  | null _ _ ih =>
    rcases List.mem_append.mp ht with hmem | hmem
    · exact ih hmem
    · rw [List.mem_cons, List.mem_singleton] at hmem
      rcases hmem with rfl | rfl
      · exact .inl trivial
      · exact .inr rfl

/-! ## (2) U+0000 -/

/-- The texts of a call. -/
def Callback.texts (call : TextCallback) : List String := call.names ++ call.payloads

/-- **The calls of a clean token** have no text with a U+0000 in it. -/
theorem Token.nullFree_callbacks (exact : Bool) {t : Token} (ht : t.Clean) {call : TextCallback}
    (hcall : call ∈ t.callbacks exact) {text : String} (htext : text ∈ call.texts) :
    NullFree text := by
  cases t with
  | doctype d =>
    cases List.mem_singleton.mp hcall
    simp only [Callback.texts, Callback.names, Callback.payloads, List.nil_append, List.mem_cons,
      List.not_mem_nil, or_false] at htext
    rcases htext with rfl | rfl | rfl
    · exact nullFree_of_forall fun c hc =>
        (isTextChar_iff.mp (isDoctypeNameChar_iff.mp (ht.name c hc)).1).1
    · exact ht.publicId
    · exact ht.systemId
  | tag t =>
    obtain ⟨hname, hattributes⟩ := ht
    rw [callbacks, Tag.callbacks] at hcall
    cases hkind : t.kind with
    | opening =>
      rw [hkind] at hcall
      simp only [List.mem_cons, List.mem_map] at hcall
      rcases hcall with rfl | ⟨a, ha, rfl⟩
      · rw [List.mem_singleton.mp htext]
        exact hname.nullFree
      · simp only [Callback.texts, Callback.names, Callback.payloads, List.cons_append,
          List.nil_append, List.mem_cons, List.not_mem_nil, or_false] at htext
        rcases htext with rfl | rfl
        · exact (hattributes.clean a ha).name.nullFree
        · exact (hattributes.clean a ha).value
    | closing =>
      rw [hkind] at hcall
      cases List.mem_singleton.mp hcall
      rw [List.mem_singleton.mp htext]
      exact hname.nullFree
  | comment s | characters s =>
    cases List.mem_singleton.mp hcall
    rw [List.mem_singleton.mp htext]
    exact ht
  | nullCharacter => exact ht.elim
  | endOfInput =>
    cases List.mem_singleton.mp hcall
    cases htext
  | error e state =>
    cases List.mem_singleton.mp hcall
    rw [List.mem_singleton.mp htext]
    exact e.nullFree_message exact state

theorem Token.nullChar_notMem_callbacks (exact : Bool) {t : Token} (ht : t.Clean) :
    Callback.nullChar ∉ t.callbacks exact := by
  cases t with
  | nullCharacter => exact ht.elim
  | tag t =>
    rw [callbacks, Tag.callbacks]
    cases t.kind <;> simp
  | _ => simp [callbacks]

section

variable (config : Config) {n : Nat} {q : List Token}

theorem Config.calls_concat (t : Token) :
    config.calls (q ++ [t]) = config.calls q ++ t.callbacks config.exactErrors := by
  rw [calls_append]
  exact congrArg (config.calls q ++ ·) (List.flatMap_singleton _ t)

theorem CleanQueue.nullFree_calls (h : CleanQueue n q) {call : TextCallback}
    (hcall : call ∈ config.calls q) {text : String} (htext : text ∈ call.texts) : NullFree text := by
  obtain ⟨t, ht, hcall⟩ := List.mem_flatMap.mp hcall
  rcases h.clean_of_mem ht with hclean | rfl
  · exact t.nullFree_callbacks config.exactErrors hclean hcall htext
  · cases List.mem_singleton.mp hcall
    cases htext

/-- The calls for a U+0000 are counted by the queue. -/
theorem CleanQueue.count_calls (h : CleanQueue n q) :
    (config.calls q).count .nullChar = n := by
  induction h with
  | nil => rfl
  | token _ ht ih =>
    rw [config.calls_concat, List.count_append, ih,
      List.count_eq_zero.mpr (Token.nullChar_notMem_callbacks _ ht), Nat.add_zero]
  | null _ _ ih =>
    rw [config.calls_append, List.count_append, ih]
    rfl

/-- An element that is not in the last part of a list stands in front of it. -/
theorem exists_of_append_eq {α : Type} {a : α} {front last before after : List α} (ha : a ∉ last)
    (h : front ++ last = before ++ a :: after) : ∃ between, front = before ++ a :: between := by
  rcases List.append_eq_append_iff.mp h with ⟨skipped, -, hlast⟩ | ⟨between, hfront, hlast⟩
  · exact absurd (by rw [hlast]; simp) ha
  · cases between with
    | nil => exact absurd (by rw [← List.nil_append last, ← hlast]; simp) ha
    | cons first between =>
      cases hlast
      exact ⟨between, hfront⟩

/-- **A call for a U+0000** comes right behind its report. -/
theorem CleanQueue.reported (h : CleanQueue n q) {before after : List TextCallback}
    (hcalls : config.calls q = before ++ .nullChar :: after) :
    ∃ front message, before = front ++ [.error message] ∧
      Callback.reportsNull (.error message) = true := by
  induction h generalizing after with
  | nil => simp [Config.calls] at hcalls
  | token _ ht ih =>
    rw [config.calls_concat] at hcalls
    obtain ⟨between, hfront⟩ :=
      exists_of_append_eq (Token.nullChar_notMem_callbacks _ ht) hcalls
    exact ih hfront
  | @null n q e state _ he ih =>
    have hlast : config.calls [.error e state, .nullCharacter]
        = [.error (e.message config.exactErrors state)] ++ [.nullChar] := rfl
    rw [config.calls_append, hlast, ← List.append_assoc] at hcalls
    -- the call is the last one, or it stands in front of the two
    rcases List.eq_nil_or_concat after with rfl | ⟨between, last, rfl⟩
    · have hbefore := List.append_inj_left' hcalls rfl
      refine ⟨config.calls q, _, hbefore.symm, ?_⟩
      rw [Callback.reportsNull, ParseError.codeOf_message, he]
      exact decide_eq_true rfl
    · rw [List.concat_eq_append, ← List.cons_append, ← List.append_assoc] at hcalls
      obtain ⟨between, hfront⟩ :=
        exists_of_append_eq (by simp) (List.append_inj_left' hcalls rfl)
      exact ih hfront

end

/-- **No U+0000 leaks.** For any configuration, any input and any chunks, on either surface, no text of
any call has a U+0000 in it. A call for a U+0000 comes right behind the error that reports it, and there
are as many as the machine reads U+0000 between tags. -/
theorem tokenize_nullFree (surface : Surface) (config : Config) (chunks : List Bytes) :
    ∃ calls stats, tokenize surface config chunks = .ok (calls, stats) ∧
      (∀ call ∈ calls, ∀ text ∈ call.texts, '\x00' ∉ text.toList) ∧
      (∀ before after, calls = before ++ .nullChar :: after →
        ∃ front message, before = front ++ [.error message] ∧
          ParseError.codeOf message = "unexpected-null-character") ∧
      calls.count .nullChar = (Machine.whole config chunks.flatten).nullsBetweenTags := by
  have hqueue := Machine.cleanQueue_whole config chunks.flatten
  refine ⟨_, _, tokenize_eq surface config chunks, ?_, ?_, hqueue.count_calls config⟩
  · intro call hcall text htext
    exact hqueue.nullFree_calls config hcall htext
  · intro before after hcalls
    obtain ⟨front, message, hbefore, hreports⟩ := hqueue.reported config hcalls
    exact ⟨front, message, hbefore, of_decide_eq_true hreports⟩

/-! ## (3) Names -/

/-- **A call with normalised names.** -/
def Callback.Normalised : TextCallback → Prop
  | .startTag name .. | .endTag name => IsTagName name
  | .tagAttr name _ => IsAttributeName name
  | .doctype name .. => ∀ c ∈ name.toList, isDoctypeNameChar c = true
  | _ => True

/-- The names of the attributes that calls begin with. -/
def leadingAttributes : List TextCallback → List String
  | .tagAttr name _ :: rest => name :: leadingAttributes rest
  | _ => []

theorem Token.normalised_callbacks (exact : Bool) {t : Token} (ht : t.Clean ∨ t = .nullCharacter)
    {call : TextCallback} (hcall : call ∈ t.callbacks exact) : call.Normalised := by
  rcases ht with ht | rfl
  · cases t with
    | doctype d =>
      cases List.mem_singleton.mp hcall
      exact ht.name
    | tag t =>
      obtain ⟨hname, hattributes⟩ := ht
      rw [callbacks, Tag.callbacks] at hcall
      cases hkind : t.kind with
      | opening =>
        rw [hkind] at hcall
        simp only [List.mem_cons, List.mem_map] at hcall
        rcases hcall with rfl | ⟨a, ha, rfl⟩
        · exact hname
        · exact (hattributes.clean a ha).name
      | closing =>
        rw [hkind] at hcall
        cases List.mem_singleton.mp hcall
        exact hname
    | nullCharacter => exact ht.elim
    | _ =>
      cases List.mem_singleton.mp hcall
      trivial
  · cases List.mem_singleton.mp hcall
    trivial

section

variable (config : Config) {q : List Token}

/-- No token begins with an attribute. -/
theorem leadingAttributes_calls (q : List Token) : leadingAttributes (config.calls q) = [] := by
  cases q with
  | nil => rfl
  | cons t rest =>
    cases t with
    | tag t =>
      show leadingAttributes (t.callbacks ++ _) = []
      rw [Tag.callbacks]
      cases t.kind <;> rfl
    | _ => rfl

theorem leadingAttributes_append (attributes : List Attribute) {calls : List TextCallback}
    (hcalls : leadingAttributes calls = []) :
    leadingAttributes ((attributes.map fun a => .tagAttr a.name a.value) ++ calls)
      = attributes.map Attribute.name := by
  induction attributes with
  | nil => exact hcalls
  | cons a rest ih => exact congrArg (a.name :: ·) ih

/-- Only a tag has a start tag among its calls, in front of its attributes. -/
theorem Token.eq_tag_of_callbacks {exact : Bool} (t : Token) {before attributes : List TextCallback}
    {name : String} {selfClosing : Bool} {count : Nat}
    (h : t.callbacks exact = before ++ .startTag name selfClosing count :: attributes) :
    ∃ tag : Tag, t = .tag tag ∧
      attributes = tag.attributes.toList.map fun a => .tagAttr a.name a.value := by
  have hmem : Callback.startTag name selfClosing count ∈ t.callbacks exact := by simp [h]
  cases t with
  | tag tag =>
    refine ⟨tag, rfl, ?_⟩
    rw [callbacks, Tag.callbacks] at h
    cases hkind : tag.kind with
    | opening =>
      rw [hkind] at h
      cases before with
      | nil => exact (List.cons.inj h).2.symm
      | cons call before =>
        -- no attribute is a start tag
        have hattribute : Callback.startTag name selfClosing count ∈
            tag.attributes.toList.map fun a => (.tagAttr a.name a.value : TextCallback) := by
          rw [(List.cons.inj h).2]
          simp
        simp at hattribute
    | closing => simp [callbacks, Tag.callbacks, hkind] at hmem
  | _ => simp [callbacks] at hmem

/-- **Behind a start tag** stand its own attributes. -/
theorem nodup_leadingAttributes (hq : ∀ t ∈ q, t.Clean ∨ t = .nullCharacter) {name : String}
    {selfClosing : Bool} {count : Nat} {rest : List TextCallback}
    (h : .startTag name selfClosing count :: rest <:+ config.calls q) :
    (leadingAttributes rest).Nodup := by
  -- induction on the tokens: the start tag is that of the first, or stands behind it
  induction q with
  | nil => simp [Config.calls] at h
  | cons t q ih =>
    rw [List.forall_mem_cons] at hq
    have hcalls : config.calls (t :: q) = t.callbacks config.exactErrors ++ config.calls q :=
      List.flatMap_cons
    obtain ⟨before, hbefore⟩ := h
    rw [hcalls] at hbefore
    rcases List.append_eq_append_iff.mp hbefore with ⟨first, hfirst, hrest⟩ | ⟨between, -, hrest⟩
    · cases first with
      | nil => exact ih hq.2 ⟨[], hrest⟩
      | cons call attributes =>
        rw [List.cons_append, List.cons.injEq] at hrest
        obtain ⟨rfl, rfl⟩ := hrest
        obtain ⟨tag, rfl, rfl⟩ := t.eq_tag_of_callbacks hfirst
        have hclean : (Token.tag tag).Clean := hq.1.resolve_right (by simp)
        rw [leadingAttributes_append _ (leadingAttributes_calls config q)]
        exact hclean.2.distinct
    · exact ih hq.2 ⟨between, hrest.symm⟩

end

/-- **Names are normalised.** For any configuration, any input and any chunks, on either surface, the
name of each tag begins with a small letter and has neither capitals nor characters that end a name in
it; so has that of each attribute, which is not empty and has `=` at most in front, and that of each
document type. The attributes of a start tag have pairwise distinct names. -/
theorem tokenize_normalised (surface : Surface) (config : Config) (chunks : List Bytes) :
    ∃ calls stats, tokenize surface config chunks = .ok (calls, stats) ∧
      (∀ call ∈ calls, call.Normalised) ∧
      ∀ name selfClosing count rest, .startTag name selfClosing count :: rest <:+ calls →
        (leadingAttributes rest).Nodup := by
  have hqueue := Machine.cleanQueue_whole config chunks.flatten
  refine ⟨_, _, tokenize_eq surface config chunks, ?_, ?_⟩
  · intro call hcall
    obtain ⟨t, ht, hcall⟩ := List.mem_flatMap.mp hcall
    exact Token.normalised_callbacks config.exactErrors (hqueue.clean_of_mem ht) hcall
  · intro name selfClosing count rest hrest
    exact nodup_leadingAttributes config (fun t ht => hqueue.clean_of_mem ht) hrest

end HtmlStream

import HtmlStream.Proofs.Requests

/-! # Exact messages

A configuration decides whether the messages of errors give state and position. It decides nothing else:
with and without them a session makes the same calls for each request and counts the same, and the exact
message is the plain one with state and position behind it. The positions never fall, and none is behind
the characters that have been read.

* **`Located`**: calls that differ in their messages alone, and the sites that these give.
* **`Session.batches_withConfig`**: the tokens of requests do not depend on the form of messages.
* **`Twin`**: the calls of a request in both forms. **`history_twins`**: all requests are such twins. -/

namespace HtmlStream

/-! ## (1) Calls in both forms -/

/-- **Calls that differ in their messages alone.** Behind the message of each error of the one list
stand state and position in the other, those of `sites` one after another; all other calls are the
same. -/
inductive Located : List Site → List TextCallback → List TextCallback → Prop
  /-- No calls. -/
  | nil : Located [] [] []
  /-- A call that is no error. -/
  | same {sites : List Site} {plain exact : List TextCallback} {call : TextCallback}
      (hcall : call.kind ≠ .error) (rest : Located sites plain exact) :
      Located sites (call :: plain) (call :: exact)
  /-- An error. -/
  | error {sites : List Site} {plain exact : List TextCallback} (message : String) (site : Site)
      (rest : Located sites plain exact) :
      Located (site :: sites) (.error message :: plain)
        (.error (message ++ " in state " ++ site.state.text ++ " at character " ++
          toString site.position) :: exact)

theorem Located.append {sites sites' : List Site} {plain plain' exact exact' : List TextCallback}
    (h : Located sites plain exact) (h' : Located sites' plain' exact') :
    Located (sites ++ sites') (plain ++ plain') (exact ++ exact') := by
  induction h with
  | nil => exact h'
  | same hcall _ ih => exact .same hcall ih
  | error message site _ ih => exact .error message site ih

/-- There are as many calls in one form as in the other. -/
theorem Located.length_eq {sites : List Site} {plain exact : List TextCallback}
    (h : Located sites plain exact) : plain.length = exact.length := by
  induction h with
  | nil => rfl
  | same _ _ ih => rw [List.length_cons, List.length_cons, ih]
  | error _ _ _ ih => rw [List.length_cons, List.length_cons, ih]

/-- Calls without errors have one form. -/
theorem located_self {calls : List TextCallback} (h : ∀ call ∈ calls, call.kind ≠ .error) :
    Located [] calls calls := by
  induction calls with
  | nil => exact .nil
  | cons call rest ih =>
    rw [List.forall_mem_cons] at h
    exact .same h.1 (ih h.2)

/-- **The calls of a token in both forms.** -/
theorem Token.located_callbacks (t : Token) :
    Located (sites [t]) (t.callbacks false) (t.callbacks true) := by
  cases t with
  | doctype d => exact .same nofun .nil
  | tag t =>
    show Located [] t.callbacks t.callbacks
    refine located_self ?_
    unfold Tag.callbacks
    cases t.kind <;> simp [Callback.kind]
  | comment text => exact .same nofun .nil
  | characters text => exact .same nofun .nil
  | nullCharacter => exact .same nofun .nil
  | error e state => exact .error e.code.text ⟨state, e.position⟩ .nil
  | endOfInput => exact .same nofun .nil

/-- **The calls of tokens in both forms.** -/
theorem located_calls (config : Config) (tokens : List Token) :
    Located (sites tokens) (Config.calls { config with exactErrors := false } tokens)
      (Config.calls { config with exactErrors := true } tokens) := by
  induction tokens with
  | nil => exact .nil
  | cons t rest ih =>
    have hsites : sites (t :: rest) = sites [t] ++ sites rest := sites_append [t] rest
    rw [hsites]
    exact t.located_callbacks.append ih

/-! ## (2) Sessions in both forms -/

namespace Session

/-- **A request** is served in the same way whatever form the messages have. -/
theorem serve_withConfig (s : Session) (config : Config) (r : Request) :
    Session.serve { s with config } r = ((s.serve r).1, { (s.serve r).2 with config }) := by
  unfold serve
  simp only
  split
  · rfl
  · cases r with
    | feed chunk =>
      simp only
      split <;> rfl
    | finish => rfl

/-- So are all. -/
theorem batches_withConfig (s : Session) (config : Config) (requests : List Request) :
    Session.batches { s with config } requests = s.batches requests := by
  induction requests generalizing s with
  | nil => rfl
  | cons r rest ih =>
    rw [batches, serve_withConfig, ih, batches]
    rfl

end Session

/-! ## (3) Histories in both forms -/

/-- The calls of a request in both forms. -/
structure Twin where
  /-- Those with plain messages. -/
  plain : List TextCallback
  /-- Those with exact messages. -/
  exact : List TextCallback
  /-- Where the errors among them were noticed. -/
  sites : List Site
  /-- The counters after the request. -/
  stats : Stats

/-- The twins of tokens. -/
def Twin.ofBatch (config : Config) (batch : List Token × Stats) : Twin where
  plain := Config.calls { config with exactErrors := false } batch.1
  exact := Config.calls { config with exactErrors := true } batch.1
  sites := HtmlStream.sites batch.1
  stats := batch.2

/-- A history in either form is that of one sequence of tokens. -/
theorem history_withExactErrors (surface : Surface) (config : Config) (exactErrors : Bool)
    (requests : List Request) :
    (AnySession.start surface { config with exactErrors }).history requests
      = ((Session.start config).batches requests).map fun (batch, stats) =>
          (Config.calls { config with exactErrors } batch, stats) := by
  have hstart : Session.start { config with exactErrors }
      = { Session.start config with config := { config with exactErrors } } := rfl
  rw [AnySession.history_eq, AnySession.session_start, hstart, Session.batches_withConfig]

/-- **Exact messages are only messages.** Whatever is requested of a session, on either surface, it
makes the same calls for each request with exact messages as without and counts the same, except that
state and position stand behind each message. From error to error the positions do not fall, and none
is behind the characters read at last. In either form no request fails in front of the end. -/
theorem history_twins (surface : Surface) (config : Config) (requests : List Request) :
    ∃ twins : List Twin,
      (AnySession.start surface { config with exactErrors := false }).history requests
        = twins.map (fun twin => (twin.plain, twin.stats)) ∧
      (AnySession.start surface { config with exactErrors := true }).history requests
        = twins.map (fun twin => (twin.exact, twin.stats)) ∧
      (∀ twin ∈ twins, twin.plain.length = twin.exact.length ∧
        Located twin.sites twin.plain twin.exact) ∧
      (twins.flatMap Twin.sites).Pairwise (·.position ≤ ·.position) ∧
      (∀ site ∈ twins.flatMap Twin.sites, site.position
        ≤ ((AnySession.start surface { config with exactErrors := true }).after
            requests).session.stats.chars) ∧
      (.finish ∉ requests → ∀ exactErrors r, ∃ calls s,
        ((AnySession.start surface { config with exactErrors }).after requests).answer r
          = .ok (calls, s)) := by
  have hbooks := Session.records_after
    (Session.rests_start { config with exactErrors := true }) requests []
  have hbatches : (Session.start { config with exactErrors := true }).batches requests
      = (Session.start config).batches requests :=
    Session.batches_withConfig (.start config) { config with exactErrors := true } requests
  rw [hbatches] at hbooks
  -- the sites of the twins are those that are entered in the books
  have hsites : (((Session.start config).batches requests).map (Twin.ofBatch config)).flatMap
      Twin.sites = sites (((Session.start config).batches requests).flatMap Prod.fst) := by
    rw [List.flatMap_map, sites, List.filterMap_flatMap]
    rfl
  refine ⟨((Session.start config).batches requests).map (Twin.ofBatch config), ?_, ?_, ?_, ?_, ?_, ?_⟩
  · rw [history_withExactErrors, List.map_map]
    rfl
  · rw [history_withExactErrors, List.map_map]
    rfl
  · intro twin hmem
    obtain ⟨batch, -, rfl⟩ := List.mem_map.mp hmem
    have hlocated := located_calls config batch.1
    exact ⟨hlocated.length_eq, hlocated⟩
  · rw [hsites]
    exact hbooks.ordered
  · intro site hmem
    rw [hsites] at hmem
    rw [AnySession.session_after, AnySession.session_start]
    exact hbooks.upTo site hmem
  · intro hmem exactErrors r
    obtain ⟨s, hanswer, -⟩ := AnySession.exists_answer
      (AnySession.ended_after_start surface { config with exactErrors } hmem) r
    exact ⟨_, s, hanswer⟩

/-- An error that is noticed behind two characters. -/
example : ((AnySession.start .borrowed { exactErrors := true }).history
    [.feed (Utf8.encode "a\x00b")]).map Prod.fst = [[.chars "a",
      .error "unexpected-null-character in state Data at character 2", .nullChar]] := by
  decide +kernel

end HtmlStream

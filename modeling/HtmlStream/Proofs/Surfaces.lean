import HtmlStream.Proofs.Delivery
import HtmlStream.Session

/-! # The surfaces agree

The borrowed surface hands over the texts of the tokens one by one. The shared surface packs them, cuts
windows and interns names. Whatever input they are given and however it is cut, they make the same
calls, chunk by chunk and at the end.

* **`Agree`**: calls of the two surfaces that say the same. `Agree.map_view`: so do their texts.
* **`SharedSession.feed_of_ok`**, **`finish_of_ok`**: one call on a session.
* **`steps`**: what a session delivers, call by call on the session.
* **`steps_agree`**: on the two surfaces the steps agree. -/

namespace HtmlStream

open Buffer SharedStore

/-! ## (1) Agreement -/

/-- A delivered call with the bytes of its names and payloads, none where a number stands for nothing. -/
def SharedStore.spell (store : SharedStore) :
    SharedCallback → Callback (Option Bytes) (Option Bytes) :=
  Callback.map store.atoms.resolve? fun id => (store.pool.handle? id).map store.pool.read

/-- A call of the borrowed surface with the bytes of its names and payloads. -/
def Callback.spell : TextCallback → Callback (Option Bytes) (Option Bytes) :=
  Callback.map (fun name => some (Utf8.encode name)) fun payload => some (Utf8.encode payload)

/-- **The calls agree**: with each number replaced by the name it denotes and each buffer by its bytes
they are the same calls, and every buffer is a window inside the one block of its batch. -/
structure Agree (store : SharedStore) (delivered : List SharedCallback) (calls : List TextCallback) :
    Prop where
  /-- They say the same. -/
  spelled : delivered.map store.spell = calls.map Callback.spell
  /-- No window reaches beyond its block. -/
  inside : ∃ block, ∀ call ∈ delivered, ∀ id ∈ call.payloads, ∃ h,
    store.pool.handle? id = some h ∧ store.pool.Inside block h

theorem Agree.nil (store : SharedStore) : Agree store [] [] := ⟨rfl, 0, by simp⟩

/-- Each payload of a related call is related to one. -/
theorem Callback.Related.exists_of_mem_payloads {N B N' B' : Type} {R : N → N' → Prop}
    {S : B → B' → Prop} {call : Callback N B} {call' : Callback N' B'} (h : Related R S call call')
    {payload : B} (hmem : payload ∈ call.payloads) : ∃ payload', S payload payload' := by
  cases h with
  | doctype hname hpublic hsystem =>
    rw [payloads, List.mem_cons, List.mem_cons, List.mem_singleton] at hmem
    rcases hmem with rfl | rfl | rfl
    · exact ⟨_, hname⟩
    · exact ⟨_, hpublic⟩
    · exact ⟨_, hsystem⟩
  | tagAttr _ hvalue => exact ⟨_, List.mem_singleton.mp hmem ▸ hvalue⟩
  | comment htext => exact ⟨_, List.mem_singleton.mp hmem ▸ htext⟩
  | chars htext => exact ⟨_, List.mem_singleton.mp hmem ▸ htext⟩
  | error hmessage => exact ⟨_, List.mem_singleton.mp hmem ▸ hmessage⟩
  | startTag => cases hmem
  | endTag => cases hmem
  | nullChar => cases hmem
  | eof => cases hmem

/-- **Calls delivered for tokens agree** with those of the borrowed surface. -/
theorem agree_of_related {store : SharedStore} {block : Nat} {delivered : List SharedCallback}
    {calls : List TextCallback}
    (h : List.Forall₂ (Callback.Related (NameIs store) (PayloadIs store block)) delivered calls) :
    Agree store delivered calls where
  spelled := by
    rw [← List.forall₂_eq_eq_eq, List.forall₂_map_left_iff, List.forall₂_map_right_iff]
    refine h.imp fun call call' hcall => hcall.map_eq (fun _ _ hname => hname) ?_
    rintro id payload ⟨handle, hid, -, hread⟩
    rw [hid, Option.map_some, hread]
  inside := by
    have hinside : ∀ call call', Callback.Related (NameIs store) (PayloadIs store block) call call' →
        ∀ id ∈ call.payloads, ∃ h, store.pool.handle? id = some h ∧ store.pool.Inside block h := by
      intro call call' hcall id hid
      obtain ⟨payload, handle, hhandle, hinside, -⟩ := hcall.exists_of_mem_payloads hid
      exact ⟨handle, hhandle, hinside⟩
    have hboth := (List.forall₂_and_left delivered calls).mp
      (h.imp fun call call' hcall => ⟨hinside call call' hcall, hcall⟩)
    exact ⟨block, hboth.1⟩

/-- The text of bytes. -/
def readBytes (bytes : Option Bytes) : String := Utf8.lossy (bytes.getD [])

/-- A delivered call is read back through its bytes. -/
theorem SharedStore.view_eq (store : SharedStore) (delivered : SharedCallback) :
    store.view delivered = (store.spell delivered).map readBytes readBytes := by
  cases delivered <;> rfl

/-- The bytes of a text are read as the text. -/
theorem Callback.map_spell (call : TextCallback) : call.spell.map readBytes readBytes = call := by
  cases call <;> simp [spell, map, readBytes, Utf8.lossy_encode]

/-- **Calls that agree read back** as those of the borrowed surface. -/
theorem Agree.map_view {store : SharedStore} {delivered : List SharedCallback}
    {calls : List TextCallback} (h : Agree store delivered calls) :
    delivered.map store.view = calls := by
  calc delivered.map store.view
      = (delivered.map store.spell).map (Callback.map readBytes readBytes) := by
        rw [List.map_map]
        exact List.map_congr_left fun call _ => store.view_eq call
    _ = (calls.map Callback.spell).map (Callback.map readBytes readBytes) := by rw [h.spelled]
    _ = calls := by
        rw [List.map_map, List.map_congr_left fun call _ => call.map_spell, List.map_id']

/-! ## (2) Sessions -/

namespace SharedSession

/-- **What is queued is delivered** as it is on the borrowed surface. -/
theorem deliver_ok (s : SharedSession) : ∃ delivered store,
    s.deliver = .ok (delivered, ⟨s.session.deliver.2, store⟩) ∧
      Agree store delivered s.session.deliver.1 := by
  by_cases hqueue : s.session.drain.1.isEmpty = true
  · -- without a token no block is made
    have hcalls : s.session.deliver.1 = [] := by
      rw [Session.deliver]
      simp only [List.isEmpty_iff.mp hqueue, List.flatMap_nil]
    refine ⟨[], s.store, ?_, ?_⟩
    · rw [deliver]
      simp only [hqueue, if_true]
      rfl
    · rw [hcalls]
      exact Agree.nil s.store
  · obtain ⟨delivered, store, block, hdeliver, -, hrelated⟩ :=
      s.store.deliver_ok s.session.drain.2.config.exactErrors s.session.drain.1
    refine ⟨delivered, store, ?_, agree_of_related hrelated⟩
    rw [deliver]
    simp only [hqueue, hdeliver]
    rfl

variable {s : SharedSession} {calls : List TextCallback} {session : Session}

/-- **A chunk**: where the borrowed surface makes calls, the shared surface makes calls that agree. -/
theorem feed_of_ok {chunk : Bytes} (h : s.session.feed chunk = .ok (calls, session)) :
    ∃ delivered store, s.feed chunk = .ok (delivered, ⟨session, store⟩) ∧
      Agree store delivered calls := by
  rw [Session.feed] at h
  rw [feed]
  split at h
  · cases h
  · cases h
    exact ⟨[], s.store, rfl, Agree.nil s.store⟩
  · rename_i taken _
    have hpair : taken.deliver = (calls, session) := Except.ok.inj h
    obtain ⟨delivered, store, hdeliver, hagree⟩ := deliver_ok { s with session := taken }
    rw [hpair] at hdeliver hagree
    exact ⟨delivered, store, hdeliver, hagree⟩

/-- **The end**, likewise. -/
theorem finish_of_ok (h : s.session.finish = .ok (calls, session)) :
    ∃ delivered store, s.finish = .ok (delivered, ⟨session, store⟩) ∧
      Agree store delivered calls := by
  rw [Session.finish] at h
  rw [finish]
  split at h
  · cases h
  · rename_i closed _
    have hpair : closed.deliver = (calls, session) := Except.ok.inj h
    obtain ⟨delivered, store, hdeliver, hagree⟩ := deliver_ok { s with session := closed }
    rw [hpair] at hdeliver hagree
    exact ⟨delivered, store, hdeliver, hagree⟩

/-- What a session delivers for each chunk and then for the end, each time with the session behind
it. -/
def steps (s : SharedSession) : List Bytes →
    Except Failure (List (List SharedCallback × SharedSession))
  | [] => do
    let last ← s.finish
    return [last]
  | chunk :: rest => do
    let next ← s.feed chunk
    return next :: (← next.2.steps rest)

end SharedSession

namespace Session

/-- What a session delivers for each chunk and then for the end, each time with the session behind
it. -/
def steps (s : Session) : List Bytes → Except Misuse (List (List TextCallback × Session))
  | [] => do
    let last ← s.finish
    return [last]
  | chunk :: rest => do
    let next ← s.feed chunk
    return next :: (← next.2.steps rest)

variable {s : Session}

/-- Until its end a session takes chunks, and is not ended by them. -/
theorem exists_feed (h : s.ended = false) (chunk : Bytes) :
    ∃ calls s', s.feed chunk = .ok (calls, s') ∧ s'.ended = false := by
  rw [feed, take, if_neg (by simp [h])]
  by_cases hchunk : chunk.isEmpty = true
  · rw [if_pos hchunk]
    exact ⟨[], s, rfl, h⟩
  · rw [if_neg hchunk]
    exact ⟨_, _, rfl, h⟩

theorem exists_finish (h : s.ended = false) : ∃ calls s', s.finish = .ok (calls, s') := by
  rw [finish, close, if_neg (by simp [h])]
  exact ⟨_, _, rfl⟩

end Session

/-! ## (3) Whole inputs -/

/-- A step on the shared surface agrees with one on the borrowed surface: the calls do, and behind them
the sessions are in the same state, their counters included. -/
def StepAgrees (shared : List SharedCallback × SharedSession)
    (borrowed : List TextCallback × Session) : Prop :=
  Agree shared.2.store shared.1 borrowed.1 ∧ shared.2.session = borrowed.2

/-- **Steps agree** from any session that has not ended, whatever names and buffers there are. -/
theorem steps_agree_of_open {s : Session} (h : s.ended = false) (store : SharedStore)
    (chunks : List Bytes) : ∃ shared borrowed,
      SharedSession.steps ⟨s, store⟩ chunks = .ok shared ∧ s.steps chunks = .ok borrowed ∧
      List.Forall₂ StepAgrees shared borrowed := by
  -- induction on the chunks; a step leaves the sessions in one state, from which the rest agrees
  induction chunks generalizing s store with
  | nil =>
    obtain ⟨calls, s', hfinish⟩ := Session.exists_finish h
    obtain ⟨delivered, store', hshared, hagree⟩ :=
      SharedSession.finish_of_ok (s := ⟨s, store⟩) hfinish
    refine ⟨[(delivered, ⟨s', store'⟩)], [(calls, s')], ?_, ?_, .cons ⟨hagree, rfl⟩ .nil⟩
    · rw [SharedSession.steps, hshared]
      rfl
    · rw [Session.steps, hfinish]
      rfl
  | cons chunk rest ih =>
    obtain ⟨calls, s', hfeed, hended⟩ := Session.exists_feed h chunk
    obtain ⟨delivered, store', hshared, hagree⟩ :=
      SharedSession.feed_of_ok (s := ⟨s, store⟩) hfeed
    obtain ⟨shared, borrowed, hrest, hrest', hagrees⟩ := ih hended store'
    refine ⟨(delivered, ⟨s', store'⟩) :: shared, (calls, s') :: borrowed, ?_, ?_,
      .cons ⟨hagree, rfl⟩ hagrees⟩
    · rw [SharedSession.steps, hshared]
      show (do return (delivered, (⟨s', store'⟩ : SharedSession)) ::
        (← SharedSession.steps ⟨s', store'⟩ rest)) = _
      rw [hrest]
      rfl
    · rw [Session.steps, hfeed]
      show (do return (calls, s') :: (← s'.steps rest)) = _
      rw [hrest']
      rfl

/-- **The surfaces deliver the same stream.** For any configuration and any chunks, the two surfaces
deliver, for each chunk and for the end, calls that agree, and count the same; no window is refused. The
shared surface may find any names and buffers in its store. -/
theorem steps_agree (config : Config) (store : SharedStore) (chunks : List Bytes) :
    ∃ shared borrowed,
      SharedSession.steps ⟨.start config, store⟩ chunks = .ok shared ∧
      (Session.start config).steps chunks = .ok borrowed ∧
      List.Forall₂ StepAgrees shared borrowed :=
  steps_agree_of_open rfl store chunks

end HtmlStream

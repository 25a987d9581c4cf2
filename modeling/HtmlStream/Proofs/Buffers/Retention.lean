import HtmlStream.Proofs.Buffers.Batches
import HtmlStream.Proofs.Requests

/-! # Buffers that are kept

A sink on the shared surface may keep the buffers it is handed, for as long as it likes. This one keeps
each of them once. Chunks may come in buffers too, among them such as share storage with what is kept,
and the tokenizer drops them when it has dispatched what they queued. Once it is freed, what is kept is
as it was delivered. The buffers of one request share a block with each other and with nothing else, so
that growing one of them moves it away from the others and changes none.

* **`Keeper`**: a tokenizer and the sink that keeps its buffers. **`Keeper.offer`**: a chunk in a buffer,
  or the end.
* **`Delivers`**: what a request does to the store. `SharedSession.delivers_serve`: any request does
  that.
* **`Shelved`**: the invariant of the pool, with the kept buffers of each request on a shelf of their
  own. **`Keeper.Sound`**: that of the keeper; `sound_offer`: each offer keeps it.
* **`Keeper.Retains`**: what is to be seen of the kept buffers. **`keeper_retains`**: that is what is
  seen. -/

namespace HtmlStream

open Buffer SharedStore

/-! ## (1) Keepers -/

/-- Where the buffer of a chunk comes from. -/
inductive Supply where
  /-- It is made of bytes. -/
  | bytes (bs : Bytes)
  /-- It is one more handle on a buffer there is. -/
  | share (id : HandleId)
  /-- It is cut out of a buffer there is. -/
  | part (id : HandleId) (first last : Bound)
  /-- It is a buffer there is, given away. -/
  | own (id : HandleId)
  deriving DecidableEq, Repr

/-- What a tokenizer is offered. -/
inductive Offer where
  /-- A chunk. -/
  | feed (supply : Supply)
  /-- The end of the input. -/
  | finish
  deriving DecidableEq, Repr

namespace SharedSession

/-- What comes of a request: calls and the session that made them, or a failure. -/
def answer (s : SharedSession) : Request → Except Failure (List SharedCallback × SharedSession)
  | .feed chunk => s.feed chunk
  | .finish => s.finish

/-- The calls of a request and the session after it. A request that fails makes none, and the session
goes on as it was. -/
def serve (s : SharedSession) (r : Request) : List SharedCallback × SharedSession :=
  match s.answer r with
  | .ok served => served
  | .error _ => ([], s)

end SharedSession

/-- A tokenizer on the shared surface, and a sink that keeps one handle of each buffer. -/
structure Keeper where
  /-- The tokenizer and all buffers there are. -/
  session : SharedSession
  /-- What was requested. -/
  requests : List Request := []
  /-- What was delivered for each request. -/
  parcels : List (List SharedCallback) := []
  /-- What it read when it was delivered. -/
  heard : List (List (Callback (Option Bytes) (Option Bytes))) := []
  deriving DecidableEq, Repr

namespace Keeper

/-- A keeper before its first offer, with whatever buffers and names there are. -/
def start (config : Config) (store : SharedStore) : Keeper := { session := ⟨.start config, store⟩ }

/-- The buffers there are. -/
def pool (k : Keeper) : Pool := k.session.store.pool

/-- The keeper with other buffers. -/
def withPool (k : Keeper) (p : Pool) : Keeper := { k with session.store.pool := p }

/-- The buffers that are kept. -/
def kept (k : Keeper) : List HandleId := (k.parcels.map payloadsOf).flatten

/-- The buffer of a chunk, none if it is to be cut where nothing can be. What is kept is not given
away. -/
def supply? (k : Keeper) : Supply → Option (HandleId × Pool)
  | .bytes bs => some (k.pool.ofBytes bs)
  | .share id => some (k.pool.clone id)
  | .part id first last => (k.pool.sub id first last).toOption
  | .own id => if k.pool.handle? id ≠ none ∧ id ∉ k.kept then some (id, k.pool) else none

/-- Makes a request and keeps what is delivered for it. -/
def request (k : Keeper) (r : Request) : Keeper where
  session := (k.session.serve r).2
  requests := k.requests ++ [r]
  parcels := k.parcels ++ [(k.session.serve r).1]
  heard := k.heard ++ [(k.session.serve r).1.map (k.session.serve r).2.store.spell]

/-- Offers a chunk, whose buffer is dropped in the end, or the end of the input. -/
def offer (k : Keeper) : Offer → Keeper
  | .finish => k.request .finish
  | .feed supply =>
    match k.supply? supply with
    | none => k
    | some (input, pool) =>
      let served := (k.withPool pool).request (.feed (pool.bytes input))
      served.withPool (served.pool.drop input)

/-- A keeper after offers. -/
def after (k : Keeper) : List Offer → Keeper
  | [] => k
  | o :: rest => (k.offer o).after rest

/-- What is left when the tokenizer is freed, which holds no buffers itself. -/
def freed (k : Keeper) : SharedStore := k.session.store

end Keeper

/-! ## (2) Requests on the shared surface -/

/-- Each payload is a window for that of the call, inside one block. -/
def Reads (store : SharedStore) (delivered : List SharedCallback) (calls : List TextCallback) : Prop :=
  ∃ block, List.Forall₂ (Callback.Related (NameIs store) (PayloadIs store block)) delivered calls

theorem Reads.map_spell {store : SharedStore} {delivered : List SharedCallback}
    {calls : List TextCallback} (h : Reads store delivered calls) :
    delivered.map store.spell = calls.map Callback.spell := by
  obtain ⟨block, hrelated⟩ := h
  exact (agree_of_related hrelated).spelled

/-- **What a request does to the store.** -/
structure Delivers (s s' : SharedStore) (delivered : List SharedCallback) (calls : List TextCallback) :
    Prop where
  /-- What was handed over before stays. -/
  keeps : Keeps s s'
  /-- What is delivered reads as the calls. -/
  reads : Reads s' delivered calls
  /-- The pool has gained the buffers that are delivered. -/
  arrives : Arrives s.pool s'.pool (payloadsOf delivered)

theorem Delivers.nil (s : SharedStore) : Delivers s s [] [] where
  keeps := .refl s
  reads := ⟨0, .nil⟩
  arrives := .nil s.pool

namespace SharedSession

/-- **What is queued is delivered.** -/
theorem exists_deliver (s : SharedSession) : ∃ delivered store,
    s.deliver = .ok (delivered, ⟨s.session.deliver.2, store⟩) ∧
      Delivers s.store store delivered s.session.deliver.1 := by
  by_cases hqueue : s.session.drain.1.isEmpty = true
  · have hcalls : s.session.deliver.1 = [] := by
      rw [Session.deliver]
      simp only [List.isEmpty_iff.mp hqueue, List.flatMap_nil]
    refine ⟨[], s.store, ?_, ?_⟩
    · rw [deliver]
      simp only [hqueue, if_true]
      rfl
    · rw [hcalls]
      exact .nil s.store
  · obtain ⟨delivered, store, block, hdeliver, hkeeps, hrelated⟩ :=
      s.store.deliver_ok s.session.drain.2.config.exactErrors s.session.drain.1
    refine ⟨delivered, store, ?_, hkeeps, ⟨block, hrelated⟩, arrives_deliver hdeliver⟩
    rw [deliver]
    simp only [hqueue, hdeliver]
    rfl

theorem serve_of_ok {s : SharedSession} {r : Request} {served : List SharedCallback × SharedSession}
    (h : s.answer r = .ok served) : s.serve r = served := by
  rw [serve, h]

/-- **A request** takes the session where it takes the session of the borrowed surface, and delivers
what is delivered there. -/
theorem delivers_serve (s : SharedSession) (r : Request) :
    (s.serve r).2.session = (s.session.serve r).2 ∧
      Delivers s.store (s.serve r).2.store (s.serve r).1
        (s.session.config.calls (s.session.serve r).1) := by
  obtain ⟨hnothing, hserve⟩ | ⟨chunk, hchunk, rfl, hopen, hserve⟩ | ⟨rfl, hopen, hserve⟩ :=
    s.session.serve_cases r
  · -- behind the end a request fails, and an empty chunk comes to nothing
    have hsame : s.serve r = ([], s) := by
      cases hended : s.session.ended with
      | true => cases r <;> simp [serve, answer, feed, finish, Session.take, Session.close, hended]
      | false =>
        have hempty : r = .feed [] := by simpa [hended] using hnothing
        rw [hempty, serve, answer, feed, Session.take, if_neg (by simp [hended])]
        rfl
    rw [hsame, hserve]
    exact ⟨rfl, .nil s.store⟩
  · obtain ⟨delivered, store, hdeliver, hdelivers⟩ :=
      exists_deliver { s with session := s.session.push chunk }
    have hanswer : s.answer (.feed chunk)
        = .ok (delivered, ⟨(s.session.push chunk).deliver.2, store⟩) := by
      rw [answer, feed, Session.take, if_neg (by simp [hopen]), if_neg (by simpa using hchunk)]
      exact hdeliver
    rw [serve_of_ok hanswer, hserve]
    exact ⟨rfl, hdelivers⟩
  · obtain ⟨delivered, store, hdeliver, hdelivers⟩ :=
      exists_deliver { s with session := s.session.shut }
    have hanswer : s.answer .finish = .ok (delivered, ⟨s.session.shut.deliver.2, store⟩) := by
      rw [answer, finish, Session.close, if_neg (by simp [hopen])]
      exact hdeliver
    rw [serve_of_ok hanswer, hserve]
    exact ⟨rfl, hdelivers⟩

end SharedSession

/-! ## (3) Shelves -/

/-- **The invariant of a pool** with buffers on shelves: those on one shelf share what storage they
have, and nobody else shares it but guests. -/
structure Shelved (p : Pool) (shelves : List (List HandleId)) (guests : List HandleId) : Prop where
  /-- Handles stand for windows. -/
  solid : p.Solid
  /-- No buffer on a shelf was dropped. -/
  live : ∀ shelf ∈ shelves, ∀ id ∈ shelf, p.handle? id ≠ none
  /-- None is there twice. -/
  nodup : shelves.flatten.Nodup
  /-- Those on one shelf have the same storage, if they have any. -/
  together : ∀ shelf ∈ shelves, ∀ a ∈ shelf, ∀ b ∈ shelf, ∀ block block', p.block? a = some block →
    p.block? b = some block' → block = block'
  /-- Whoever has that storage is on the shelf or is a guest. -/
  alone : ∀ shelf ∈ shelves, ∀ id ∈ shelf, ∀ block, p.block? id = some block →
    ∀ other, p.block? other = some block → other ∈ shelf ∨ other ∈ guests

namespace Shelved

variable {p p' : Pool} {shelves : List (List HandleId)} {guests guests' : List HandleId}

/-- **Guests come and go.** What is on shelves is as it was, and whoever is no guest now was none before
or has no storage. -/
theorem visit (h : Shelved p shelves guests) (hp : p'.Solid)
    (hkept : ∀ id ∈ shelves.flatten, p'.handle? id = p.handle? id)
    (hothers : ∀ other ∉ guests', ∀ block, p'.block? other = some block →
      p.block? other = some block ∧ other ∉ guests) : Shelved p' shelves guests' := by
  have hblock {shelf : List HandleId} (hshelf : shelf ∈ shelves) {id : HandleId} (hid : id ∈ shelf) :
      p'.block? id = p.block? id :=
    Pool.block?_congr (hkept id (List.mem_flatten_of_mem hshelf hid))
  constructor
  case solid => exact hp
  case live =>
    intro shelf hshelf id hid
    rw [hkept id (List.mem_flatten_of_mem hshelf hid)]
    exact h.live shelf hshelf id hid
  case nodup => exact h.nodup
  case together =>
    intro shelf hshelf a ha b hb
    rw [hblock hshelf ha, hblock hshelf hb]
    exact h.together shelf hshelf a ha b hb
  case alone =>
    intro shelf hshelf id hid block hown other hother
    rw [hblock hshelf hid] at hown
    by_cases hguest : other ∈ guests'
    · exact .inr hguest
    · obtain ⟨hother, hno⟩ := hothers other hguest block hother
      exact .inl ((h.alone shelf hshelf id hid block hown other hother).resolve_right hno)

/-- **A new shelf** for the buffers that are delivered. -/
theorem arrive (h : Shelved p shelves guests) {ids : List HandleId} (ha : Arrives p p' ids) :
    Shelved p' (shelves ++ [ids]) guests := by
  have hsame {shelf : List HandleId} (hshelf : shelf ∈ shelves) {id : HandleId} (hid : id ∈ shelf) :
      p'.handle? id = p.handle? id := ha.handle?_of_live (h.live shelf hshelf id hid)
  have hblock {shelf : List HandleId} (hshelf : shelf ∈ shelves) {id : HandleId} (hid : id ∈ shelf) :
      p'.block? id = p.block? id := Pool.block?_congr (hsame hshelf hid)
  have hnew {id : HandleId} (hid : id ∈ ids) {block : Nat} (hown : p'.block? id = some block) :
      block = p.blocks.size := by
    rcases ha.block id hid with hnone | hsome
    · rw [hnone] at hown
      cases hown
    · rw [hsome] at hown
      exact (Option.some.inj hown).symm
  constructor
  case solid => exact ha.solid h.solid
  case live =>
    intro shelf hshelf id hid
    rcases List.mem_append.mp hshelf with hshelf | hshelf
    · rw [hsame hshelf hid]
      exact h.live shelf hshelf id hid
    · rw [List.mem_singleton.mp hshelf] at hid
      exact (ha.newer id (ha.fresh id hid)).mp hid
  case nodup =>
    rw [List.flatten_append, List.flatten_singleton, List.nodup_append]
    refine ⟨h.nodup, ha.nodup, ?_⟩
    rintro a hold b hb rfl
    -- what is on a shelf was there before
    obtain ⟨shelf, hshelf, hold⟩ := List.mem_flatten.mp hold
    exact h.live shelf hshelf a hold (Pool.handle?_eq_none_of_size_le (ha.fresh a hb))
  case together =>
    intro shelf hshelf a ha' b hb block block' hown hown'
    rcases List.mem_append.mp hshelf with hshelf | hshelf
    · rw [hblock hshelf ha'] at hown
      rw [hblock hshelf hb] at hown'
      exact h.together shelf hshelf a ha' b hb block block' hown hown'
    · rw [List.mem_singleton.mp hshelf] at ha' hb
      exact (hnew ha' hown).trans (hnew hb hown').symm
  case alone =>
    intro shelf hshelf id hid block hown other hother
    rcases List.mem_append.mp hshelf with hshelf | hshelf
    · -- the new buffers are not on an older block
      rw [hblock hshelf hid] at hown
      have hlt := h.solid.block_lt hown
      rcases ha.block?_cases hother with hold | ⟨-, hlast⟩
      · exact h.alone shelf hshelf id hid block hown other hold
      · exact absurd hlast (Nat.ne_of_lt hlt)
    · -- nor is an older buffer on the new one
      rw [List.mem_singleton.mp hshelf] at hid ⊢
      have hlast := hnew hid hown
      rcases ha.block?_cases hother with hold | ⟨hmem, -⟩
      · exact absurd hlast (Nat.ne_of_lt (h.solid.block_lt hold))
      · exact .inl hmem

/-- **Whoever has the storage of a buffer on a shelf** is on the same shelf, when there are no
guests. -/
theorem mem_iff (h : Shelved p shelves []) {shelf : List HandleId} (hshelf : shelf ∈ shelves)
    {id : HandleId} (hid : id ∈ shelf) {block : Nat} (hown : p.block? id = some block)
    (other : HandleId) : p.block? other = some block ↔ other ∈ shelf ∧ p.block? other ≠ none := by
  constructor
  · intro hother
    refine ⟨?_, by simp [hother]⟩
    exact (h.alone shelf hshelf id hid block hown other hother).resolve_right (List.not_mem_nil)
  · rintro ⟨hmem, hsome⟩
    obtain ⟨block', hother⟩ := Option.ne_none_iff_exists'.mp hsome
    rw [hother, h.together shelf hshelf id hid other hmem block block' hown hother]

/-- **Those with storage count with whom they share their shelf.** -/
theorem shareCount (h : Shelved p shelves []) {shelf : List HandleId} (hshelf : shelf ∈ shelves)
    {id : HandleId} (hid : id ∈ shelf) (hbytes : p.bytes id ≠ []) :
    p.shareCount id = (shelf.filter fun other => p.bytes other ≠ []).length := by
  have hsome (other : HandleId) : p.block? other ≠ none ↔ p.bytes other ≠ [] :=
    not_congr (h.solid.represents.block?_eq_none other)
  obtain ⟨block, hown⟩ := h.solid.exists_block? hbytes
  rw [Pool.shareCount_of_block? hown]
  refine Pool.countOn_eq_length (((List.nodup_flatten.mp h.nodup).1 shelf hshelf).filter _) ?_
  intro other
  rw [h.mem_iff hshelf hid hown, List.mem_filter, decide_eq_true_eq, hsome]

end Shelved

/-! ## (4) What stays readable -/

/-- Related payloads may be related otherwise, one by one. -/
theorem Callback.Related.imp_of_mem {N B N' B' : Type} {R : N → N' → Prop} {S S' : B → B' → Prop}
    {call : Callback N B} {call' : Callback N' B'} (h : Related R S call call')
    (hS : ∀ payload ∈ call.payloads, ∀ payload', S payload payload' → S' payload payload') :
    Related R S' call call' := by
  cases h with
  | doctype hname hpublic hsystem =>
    exact .doctype (hS _ (by simp [payloads]) _ hname) (hS _ (by simp [payloads]) _ hpublic)
      (hS _ (by simp [payloads]) _ hsystem)
  | startTag hname => exact .startTag hname
  | tagAttr hname hvalue => exact .tagAttr hname (hS _ List.mem_cons_self _ hvalue)
  | endTag hname => exact .endTag hname
  | comment htext => exact .comment (hS _ List.mem_cons_self _ htext)
  | chars htext => exact .chars (hS _ List.mem_cons_self _ htext)
  | nullChar => exact .nullChar
  | eof => exact .eof
  | error hmessage => exact .error (hS _ List.mem_cons_self _ hmessage)

/-- A relation of lists, element by element of the first one. -/
theorem forall₂_imp_of_mem {α β : Type} {R S : α → β → Prop} {as : List α} {bs : List β}
    (h : List.Forall₂ R as bs) (hRS : ∀ a ∈ as, ∀ b, R a b → S a b) : List.Forall₂ S as bs :=
  ((List.forall₂_and_left as bs).mpr ⟨fun _ ha => ha, h⟩).imp fun a b hab => hRS a hab.1 b hab.2

namespace Reads

variable {s s' : SharedStore} {delivered : List SharedCallback} {calls : List TextCallback}

theorem keeps (h : Reads s delivered calls) (hkeeps : Keeps s s') : Reads s' delivered calls := by
  obtain ⟨block, hcalls⟩ := h
  exact ⟨block, hcalls.imp fun _ _ hcall =>
    hcall.imp (fun _ _ hname => hname.keeps hkeeps) fun _ _ hpayload => hpayload.keeps hkeeps⟩

/-- **A dropped buffer** was none of these. -/
theorem drop (h : Reads s delivered calls) {gone : HandleId} (hgone : gone ∉ payloadsOf delivered) :
    Reads { s with pool := s.pool.drop gone } delivered calls := by
  obtain ⟨block, hcalls⟩ := h
  refine ⟨block, forall₂_imp_of_mem hcalls fun call hcall call' hrelated => ?_⟩
  refine hrelated.imp_of_mem ?_
  rintro id hid payload ⟨handle, hhandle, hinside, hread⟩
  have hne : id ≠ gone := by
    rintro rfl
    exact hgone (List.mem_flatMap.mpr ⟨call, hcall, hid⟩)
  exact ⟨handle, by rw [Pool.handle?_drop _ hne, hhandle], hinside, hread⟩

end Reads

/-! ## (5) Offers -/

namespace Keeper

/-- **The invariant of a keeper**, with input buffers as guests. -/
structure Sound (config : Config) (k : Keeper) (guests : List HandleId) : Prop where
  /-- The tokenizer is where the requests have taken it. -/
  session : k.session.session = (Session.start config).after k.requests
  /-- The buffers of each request are on a shelf of their own. -/
  shelved : Shelved k.pool (k.parcels.map payloadsOf) guests
  /-- What was delivered reads as what the borrowed surface delivers. -/
  reads : List.Forall₂ (Reads k.session.store) k.parcels
    (((Session.start config).batches k.requests).map fun batch => config.calls batch.1)
  /-- It did so from the beginning. -/
  heard : k.heard = ((Session.start config).batches k.requests).map fun batch =>
    (config.calls batch.1).map Callback.spell

variable {config : Config} {k : Keeper} {guests guests' : List HandleId}

theorem sound_start (config : Config) (store : SharedStore) (h : store.pool.Solid) :
    Sound config (start config store) [] where
  session := rfl
  shelved := ⟨h, by simp [start], by simp [start], by simp [start], by simp [start]⟩
  reads := .nil
  heard := rfl

/-- **A request** puts what it delivers on a new shelf. -/
theorem Sound.request (h : Sound config k guests) (r : Request) :
    Sound config (k.request r) guests := by
  obtain ⟨hsession, hdelivers⟩ := k.session.delivers_serve r
  have hconfig : k.session.session.config = config := by
    rw [h.session, Session.config_after]
    rfl
  have hnew := hdelivers.reads
  rw [hconfig, h.session] at hnew
  rw [h.session] at hsession
  constructor
  case session => exact hsession.trans (Session.after_snoc _ _ r).symm
  case shelved =>
    show Shelved _ ((k.parcels ++ [_]).map payloadsOf) guests
    rw [List.map_append]
    exact h.shelved.arrive hdelivers.arrives
  case reads =>
    show List.Forall₂ _ (k.parcels ++ [_]) (((Session.start config).batches (k.requests ++ [r])).map _)
    rw [Session.batches_snoc, List.map_append]
    exact List.rel_append (h.reads.imp fun _ _ hreads => hreads.keeps hdelivers.keeps)
      (.cons hnew .nil)
  case heard =>
    show k.heard ++ [_] = ((Session.start config).batches (k.requests ++ [r])).map _
    rw [Session.batches_snoc, List.map_append, h.heard, hnew.map_spell]
    rfl

/-- Other buffers come or go. -/
theorem Sound.withPool (h : Sound config k guests) {p : Pool}
    (hshelved : Shelved p (k.parcels.map payloadsOf) guests')
    (hreads : ∀ parcel ∈ k.parcels, ∀ calls, Reads k.session.store parcel calls →
      Reads { k.session.store with pool := p } parcel calls) :
    Sound config (k.withPool p) guests' where
  session := h.session
  shelved := hshelved
  reads := forall₂_imp_of_mem h.reads hreads
  heard := h.heard

/-- **The buffer of a chunk**, and the pool with it: the others are as they were, and it is not kept. -/
structure Hosts (k : Keeper) (input : HandleId) (p : Pool) : Prop where
  /-- Handles stand for windows. -/
  solid : p.Solid
  /-- What is there stays. -/
  keeps : Keeps k.session.store { k.session.store with pool := p }
  /-- There is no other new handle. -/
  others : ∀ id, id ≠ input → p.handle? id = k.pool.handle? id
  /-- The buffer is there. -/
  live : p.handle? input ≠ none
  /-- It is not kept. -/
  free : input ∉ k.kept

theorem Sound.lt_of_mem_kept (h : Sound config k guests) {id : HandleId} (hid : id ∈ k.kept) :
    id < k.pool.handles.size := by
  obtain ⟨shelf, hshelf, hmem⟩ := List.mem_flatten.mp hid
  by_contra hge
  exact h.shelved.live shelf hshelf id hmem
    (Pool.handle?_eq_none_of_size_le (Nat.le_of_not_lt hge))

/-- A new handle. -/
theorem Sound.hosts_add (h : Sound config k guests) {handle : Handle} (hh : k.pool.Holds handle) :
    k.Hosts (k.pool.add handle).1 (k.pool.add handle).2 where
  solid := (h.shelved.solid.represents.add hh).solid
  keeps := keeps_add k.session.store handle
  others id hid := (Pool.handle?_add handle id).trans (if_neg hid)
  live := by simp [Pool.handle?_add_self]
  free hmem := Nat.lt_irrefl _ (h.lt_of_mem_kept hmem)

/-- A new buffer. -/
theorem Sound.hosts_ofBytes (h : Sound config k guests) (bs : Bytes) :
    k.Hosts (k.pool.ofBytes bs).1 (k.pool.ofBytes bs).2 where
  solid := (h.shelved.solid.represents.ofBytes bs).solid
  keeps := keeps_ofBytes k.session.store bs
  others id hid := by
    rw [Pool.ofBytes_fst] at hid
    exact Pool.handle?_ofBytes_of_ne bs hid
  live := by
    obtain ⟨handle, hget, -⟩ := k.pool.ofBytes_read bs
    simp [hget]
  free hmem := by
    rw [Pool.ofBytes_fst] at hmem
    exact Nat.lt_irrefl _ (h.lt_of_mem_kept hmem)

/-- **However a chunk is supplied**, its buffer is hosted. -/
theorem Sound.hosts (h : Sound config k guests) {supply : Supply} {input : HandleId} {p : Pool}
    (hsupply : k.supply? supply = some (input, p)) : k.Hosts input p := by
  have hp := h.shelved.solid.represents
  cases supply with
  | bytes bs =>
    have hosts := h.hosts_ofBytes bs
    rwa [show k.pool.ofBytes bs = (input, p) from Option.some.inj hsupply] at hosts
  | share id =>
    cases hsupply
    exact h.hosts_add (hp.holds_getD id)
  | part id first last =>
    rw [supply?] at hsupply
    by_cases hr : Refused first last ((k.pool.handle? id).getD .empty).length
    · obtain ⟨fault, hsub⟩ := Pool.sub_of_refused rfl hr
      rw [hsub] at hsupply
      cases hsupply
    · rw [Pool.sub_of_not_refused rfl hr] at hsupply
      cases hsupply
      exact h.hosts_add (Pool.read_part_of_not_refused (hp.holds_getD id) hr).1
  | own id =>
    rw [supply?] at hsupply
    split_ifs at hsupply with hfree
    cases hsupply
    exact ⟨h.shelved.solid, .refl _, fun _ _ => rfl, hfree.1, hfree.2⟩

/-- **A guest comes.** -/
theorem Sound.host (h : Sound config k []) {input : HandleId} {p : Pool} (hosts : k.Hosts input p) :
    Sound config (k.withPool p) [input] := by
  refine h.withPool ?_ fun _ _ _ hreads => hreads.keeps hosts.keeps
  refine h.shelved.visit hosts.solid ?_ ?_
  · intro id hid
    refine hosts.others id ?_
    rintro rfl
    exact hosts.free hid
  · intro other hother block hblock
    have hne : other ≠ input := fun heq => hother (List.mem_singleton.mpr heq)
    refine ⟨?_, List.not_mem_nil⟩
    rwa [← Pool.block?_congr (hosts.others other hne)]

/-- **A guest goes.** -/
theorem Sound.dismiss {input : HandleId} (h : Sound config k [input]) (hfree : input ∉ k.kept) :
    Sound config (k.withPool (k.pool.drop input)) [] := by
  refine h.withPool ?_ ?_
  · refine h.shelved.visit (h.shelved.solid.represents.drop input).solid ?_ ?_
    · intro id hid
      refine Pool.handle?_drop _ ?_
      rintro rfl
      exact hfree hid
    · intro other _ block hblock
      rw [Pool.block?, Pool.handle?_drop_eq] at hblock
      split_ifs at hblock with heq
      · cases hblock
      · exact ⟨hblock, fun hmem => heq (List.mem_singleton.mp hmem).symm⟩
  · intro parcel hparcel calls hreads
    refine hreads.drop fun hmem => hfree ?_
    exact List.mem_flatten.mpr ⟨_, List.mem_map_of_mem hparcel, hmem⟩

/-- What is delivered is not the buffer of the chunk. -/
theorem Hosts.free_request {input : HandleId} {p : Pool} (hosts : k.Hosts input p) (r : Request) :
    input ∉ ((k.withPool p).request r).kept := by
  have harrives := ((k.withPool p).session.delivers_serve r).2.arrives
  rw [kept, request, List.map_append, List.flatten_append, List.mem_append]
  rintro (hold | hnew)
  · exact hosts.free hold
  · have hge := harrives.fresh input (by simpa using hnew)
    exact hosts.live (Pool.handle?_eq_none_of_size_le hge)

/-- **Each offer** keeps the invariant, and no guest stays. -/
theorem sound_offer (h : Sound config k []) (o : Offer) : Sound config (k.offer o) [] := by
  cases o with
  | finish => exact h.request .finish
  | feed supply =>
    rw [offer]
    cases hsupply : k.supply? supply with
    | none => exact h
    | some supplied =>
      obtain ⟨input, p⟩ := supplied
      have hosts := h.hosts hsupply
      exact ((h.host hosts).request (.feed (p.bytes input))).dismiss (hosts.free_request _)

/-- **So do any offers.** -/
theorem sound_after (h : Sound config k []) (offers : List Offer) :
    Sound config (k.after offers) [] := by
  induction offers generalizing k with
  | nil => exact h
  | cons o rest ih => exact ih (sound_offer h o)

end Keeper

/-! ## (6) What is kept -/

namespace Keeper

/-- **What is to be seen of the kept buffers** when the tokenizer is freed. -/
structure Retains (config : Config) (k : Keeper) : Prop where
  /-- Each call that was delivered reads, name by name and buffer by buffer, as it did then. -/
  reads : k.parcels.map (List.map k.freed.spell) = k.heard
  /-- That is how the borrowed surface makes it for the same requests. -/
  heard : k.heard = ((AnySession.start .borrowed config).history k.requests).map fun entry =>
    entry.1.map Callback.spell
  /-- All kept buffers are different handles. -/
  distinct : k.kept.Nodup
  /-- Empty ones have no storage. -/
  empty : ∀ id ∈ k.kept, k.freed.pool.bytes id = [] →
    k.freed.pool.block? id = none ∧ k.freed.pool.shareCount id = 0
  /-- The others share their storage with those of the same request. -/
  together : ∀ parcel ∈ k.parcels, ∀ a ∈ payloadsOf parcel, ∀ b ∈ payloadsOf parcel,
    k.freed.pool.bytes a ≠ [] → k.freed.pool.bytes b ≠ [] → k.freed.pool.sameStorage a b = true
  /-- They count how many these are. -/
  counted : ∀ parcel ∈ k.parcels, ∀ id ∈ payloadsOf parcel, k.freed.pool.bytes id ≠ [] →
    k.freed.pool.shareCount id
      = ((payloadsOf parcel).filter fun other => k.freed.pool.bytes other ≠ []).length
  /-- They share it with none of another request. -/
  apart : k.parcels.Pairwise fun parcel parcel' => ∀ a ∈ payloadsOf parcel,
    ∀ b ∈ payloadsOf parcel', k.freed.pool.sameStorage a b = false
  /-- One that grows leaves the others. -/
  grown : ∀ id ∈ k.kept, ∀ more, more ≠ [] →
    k.freed.pool.Detaches (k.freed.pool.append id more) id more

end Keeper

/-- **Kept buffers are as they were delivered**: for any configuration and any offers, whatever names
and buffers there are in the beginning. -/
theorem keeper_retains (config : Config) (ops : List Operation) (atoms : AtomTable)
    (offers : List Offer) :
    ((Keeper.start config ⟨Pool.after {} ops, atoms⟩).after offers).Retains config := by
  have hsound := Keeper.sound_after
    (Keeper.sound_start config ⟨Pool.after {} ops, atoms⟩ (Pool.solid_after ops)) offers
  generalize (Keeper.start config ⟨Pool.after {} ops, atoms⟩).after offers = k at hsound
  have hshelf {parcel : List SharedCallback} (hparcel : parcel ∈ k.parcels) :
      payloadsOf parcel ∈ k.parcels.map payloadsOf := List.mem_map_of_mem hparcel
  constructor
  case reads =>
    have hspelled := List.forall₂_map_right_iff.mp
      (hsound.reads.imp fun parcel calls hreads => hreads.map_spell)
    rw [hsound.heard, ← List.forall₂_eq_eq_eq, List.forall₂_map_left_iff,
      List.forall₂_map_right_iff]
    exact hspelled
  case heard =>
    rw [hsound.heard, AnySession.history_eq, AnySession.session_start, List.map_map]
    rfl
  case distinct => exact hsound.shelved.nodup
  case empty =>
    intro id _ hbytes
    have hnone : k.freed.pool.block? id = none :=
      (hsound.shelved.solid.represents.block?_eq_none id).mpr hbytes
    exact ⟨hnone, by rw [Pool.shareCount, hnone]⟩
  case together =>
    intro parcel hparcel a ha b hb hbytes hbytes'
    obtain ⟨block, hown⟩ := hsound.shelved.solid.exists_block? hbytes
    obtain ⟨block', hown'⟩ := hsound.shelved.solid.exists_block? hbytes'
    have hsame := hsound.shelved.together _ (hshelf hparcel) a ha b hb block block' hown hown'
    exact (Pool.sameStorage_of_block? hown').trans (decide_eq_true (hsame ▸ hown))
  case counted =>
    intro parcel hparcel id hid hbytes
    exact hsound.shelved.shareCount (hshelf hparcel) hid hbytes
  case apart =>
    have hdisjoint := List.pairwise_map.mp (List.nodup_flatten.mp hsound.shelved.nodup).2
    refine hdisjoint.imp_of_mem fun {parcel parcel'} hparcel _ hapart a ha b hb => ?_
    rw [← Bool.not_eq_true, Pool.sameStorage_iff]
    rintro ⟨hsome, -, hsame⟩
    -- whoever has the storage of `a` was delivered with it
    obtain ⟨block, hown⟩ := Option.ne_none_iff_exists'.mp hsome
    have hmem := (hsound.shelved.mem_iff (hshelf hparcel) ha hown b).mp (hsame ▸ hown)
    exact hapart hmem.1 hb
  case grown =>
    intro id hid more hmore
    obtain ⟨shelf, hshelf, hmem⟩ := List.mem_flatten.mp hid
    exact Pool.detaches_append hsound.shelved.solid (hsound.shelved.live shelf hshelf id hmem) hmore

end HtmlStream

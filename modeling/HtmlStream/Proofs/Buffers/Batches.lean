import HtmlStream.Proofs.Buffers.Growing
import Mathlib.Data.List.Range

/-! # The buffers of a batch

A batch is packed into one new buffer, windows of it are handed over, and the packed buffer is dropped.
Nothing else happens to the pool on the way: the handles there were stand for what they stood for, and
those that remain of the new ones are the buffers handed over, in a block of their own if they have
any.

* **`Pool.more`**: a pool with some more handles and no new storage.
* **`Cuts`**: a handover that adds windows of the packed buffer, one for each payload;
  `cuts_handToken`: that of a token does.
* **`Arrives`**: what a pool has gained when buffers are delivered. **`arrives_deliver`**: that is what a
  batch adds. -/

namespace HtmlStream

namespace Buffer

/-! ## (1) More handles -/

/-- A handle on a part of what another one reads. -/
def Handle.Part (base h : Handle) : Prop :=
  ∃ start stop, start ≤ stop ∧ stop ≤ base.length ∧ h = base.part start stop

theorem Handle.Part.block? {base h : Handle} (hpart : base.Part h) :
    h.block? = none ∨ h.block? = base.block? := by
  obtain ⟨start, stop, -, -, rfl⟩ := hpart
  cases base with
  | empty => exact .inl rfl
  | window w =>
    rw [Handle.part]
    split_ifs
    · exact .inl rfl
    · exact .inr rfl

namespace Pool

/-- A pool with more handles. -/
def more (p : Pool) (hs : List Handle) : Pool :=
  { p with handles := p.handles ++ (hs.map some).toArray }

@[simp] theorem more_nil (p : Pool) : p.more [] = p := by
  simp [more]

@[simp] theorem size_more (p : Pool) (hs : List Handle) :
    (p.more hs).handles.size = p.handles.size + hs.length := by
  simp [more]

theorem more_more (p : Pool) (hs hs' : List Handle) : (p.more hs).more hs' = p.more (hs ++ hs') := by
  simp [more]

theorem add_eq_more (p : Pool) (h : Handle) : p.add h = (p.handles.size, p.more [h]) := by
  simp [add, more]

theorem handle?_more (p : Pool) (hs : List Handle) (id : Nat) :
    (p.more hs).handle? id
      = if id < p.handles.size then p.handle? id else hs[id - p.handles.size]? := by
  rw [handle?, handle?, more, Array.getElem?_append]
  split_ifs
  · rfl
  · rw [List.getElem?_toArray, List.getElem?_map]
    cases hs[id - p.handles.size]? <;> rfl

variable {p : Pool}

/-- A new buffer is the only new handle. -/
theorem handle?_ofBytes_of_ne (bs : Bytes) {id : HandleId} (hid : id ≠ p.handles.size) :
    (p.ofBytes bs).2.handle? id = p.handle? id := by
  unfold ofBytes
  split_ifs
  · rw [handle?_add, if_neg hid]
  · exact (handle?_add _ id).trans (if_neg hid)

end Pool

end Buffer

/-! ## (2) Handing over -/

namespace SharedStore

open Buffer

/-- **Windows were cut** of the packed buffer, on which `base` is a handle, and they are the handles
`ids`. -/
structure Cut (base : Handle) (b b' : Batch) (ids : List HandleId) : Prop where
  /-- The packed buffer is the same. -/
  packed : b'.packed = b.packed
  /-- The pool has some more handles, and these are on parts of it. -/
  parts : ∃ hs, b'.store.pool = b.store.pool.more hs ∧
    ids = List.range' b.store.pool.handles.size hs.length ∧ ∀ h ∈ hs, base.Part h

namespace Cut

variable {base : Handle} {b b' b'' : Batch} {ids ids' : List HandleId}

theorem refl (base : Handle) (b : Batch) : Cut base b b [] := ⟨rfl, [], by simp⟩

/-- The handle on the packed buffer stays. -/
theorem handle? (h : Cut base b b' ids) (hbase : b.store.pool.handle? b.packed = some base) :
    b'.store.pool.handle? b'.packed = some base := by
  obtain ⟨hs, hpool, -, -⟩ := h.parts
  rw [h.packed, hpool, Pool.handle?_more, if_pos (Pool.lt_of_handle? hbase), hbase]

theorem trans (h : Cut base b b' ids) (h' : Cut base b' b'' ids') : Cut base b b'' (ids ++ ids') := by
  obtain ⟨hs, hpool, rfl, hparts⟩ := h.parts
  obtain ⟨hs', hpool', rfl, hparts'⟩ := h'.parts
  refine ⟨h'.packed.trans h.packed, hs ++ hs', ?_, ?_, ?_⟩
  · rw [hpool', hpool, Pool.more_more]
  · rw [hpool, Pool.size_more, List.length_append, List.range'_append_1]
  · intro part hpart
    rcases List.mem_append.mp hpart with hpart | hpart
    · exact hparts part hpart
    · exact hparts' part hpart

end Cut

/-- **A handover that cuts windows**: of the handles it makes and what it gives `P` holds. -/
def Cuts {α : Type} (x : Handover α) (P : List HandleId → α → Prop) : Prop :=
  ∀ base b a b', b.store.pool.handle? b.packed = some base → x.run b = .ok (a, b') →
    ∃ ids, Cut base b b' ids ∧ P ids a

section

variable {α β : Type} {x : Handover α} {P Q : List HandleId → α → Prop}

theorem Cuts.imp (h : Cuts x P) (hPQ : ∀ ids a, P ids a → Q ids a) : Cuts x Q := by
  intro base b a b' hbase hrun
  obtain ⟨ids, hcut, ha⟩ := h base b a b' hbase hrun
  exact ⟨ids, hcut, hPQ ids a ha⟩

theorem cuts_pure (a : α) : Cuts (pure a) fun ids a' => ids = [] ∧ a' = a := by
  intro base b a' b' _ hrun
  cases hrun
  exact ⟨[], .refl base b, rfl, rfl⟩

/-- **One handover after another** cuts the windows of the one and then those of the other. -/
theorem Cuts.bind {f : α → Handover β} {R : α → List HandleId → β → Prop} (h : Cuts x P)
    (hf : ∀ a, Cuts (f a) (R a)) :
    Cuts (x >>= f) fun ids c => ∃ a ids₁ ids₂, P ids₁ a ∧ R a ids₂ c ∧ ids = ids₁ ++ ids₂ := by
  intro base b c b' hbase hrun
  rw [StateT.run_bind] at hrun
  cases hx : x.run b with
  | error fault =>
    rw [hx] at hrun
    cases hrun
  | ok result =>
    obtain ⟨a, middle⟩ := result
    rw [hx] at hrun
    obtain ⟨ids₁, hcut₁, ha⟩ := h base b a middle hbase hx
    obtain ⟨ids₂, hcut₂, hc⟩ := hf a base middle c b' (hcut₁.handle? hbase) hrun
    exact ⟨ids₁ ++ ids₂, hcut₁.trans hcut₂, a, ids₁, ids₂, ha, hc, rfl⟩

theorem Cuts.map (h : Cuts x P) (f : α → β) :
    Cuts (do return f (← x)) fun ids c => ∃ a, P ids a ∧ c = f a := by
  refine (h.bind fun a => cuts_pure (f a)).imp ?_
  rintro ids c ⟨a, ids₁, ids₂, ha, ⟨rfl, rfl⟩, rfl⟩
  exact ⟨a, by rwa [List.append_nil], rfl⟩

/-- **A list is handed over** part by part. -/
theorem cuts_mapM {f : α → Handover β} {made : β → List HandleId}
    (hf : ∀ a, Cuts (f a) fun ids c => ids = made c) (as : List α) :
    Cuts (as.mapM f) fun ids cs => ids = cs.flatMap made := by
  induction as with
  | nil =>
    rw [List.mapM_nil]
    refine (cuts_pure []).imp ?_
    rintro ids cs ⟨rfl, rfl⟩
    rfl
  | cons a as ih =>
    rw [List.mapM_cons]
    refine ((hf a).bind fun c => ih.map (c :: ·)).imp ?_
    rintro ids cs ⟨c, ids₁, ids₂, rfl, ⟨tail, rfl, rfl⟩, rfl⟩
    exact List.flatMap_cons.symm

end

/-- Handing over a name cuts nothing. -/
theorem cuts_handName (name : String) : Cuts (handName name) fun ids _ => ids = [] := by
  intro base b id b' _ hrun
  cases hrun
  exact ⟨[], ⟨rfl, [], by simp⟩, rfl⟩

/-- **Handing over a payload** cuts one window. -/
theorem cuts_handPayload (payload : String) :
    Cuts (handPayload payload) fun ids id => ids = [id] := by
  intro base b id b' hbase hrun
  have hget : (b.store.pool.handle? b.packed).getD .empty = base := by rw [hbase, Option.getD_some]
  by_cases hr : Refused (.included b.position) (.excluded (b.position + payload.utf8ByteSize))
      base.length
  · -- the window is refused, and nothing is handed over
    obtain ⟨fault, hsub⟩ := Pool.sub_of_refused hget hr
    have herror : (handPayload payload).run b = .error fault := by simp [handPayload, hsub]
    rw [herror] at hrun
    cases hrun
  · have hsub := Pool.sub_of_not_refused hget hr
    rw [Pool.add_eq_more] at hsub
    have hok : (handPayload payload).run b = .ok (b.store.pool.handles.size,
        { b with
          store := { b.store with pool := b.store.pool.more [base.part b.position
            (b.position + payload.utf8ByteSize)] }
          position := b.position + payload.utf8ByteSize }) := by
      simp [handPayload, hsub]
      rfl
    rw [hok] at hrun
    cases hrun
    simp only [Refused, not_or, Nat.not_lt] at hr
    refine ⟨[b.store.pool.handles.size], ⟨rfl, [_], rfl, rfl, ?_⟩, rfl⟩
    intro h hh
    rw [List.mem_singleton] at hh
    exact ⟨_, _, hr.2.2.1, hr.2.2.2, hh⟩

/-- The payloads of calls, in order. -/
def payloadsOf {N B : Type} (calls : List (Callback N B)) : List B :=
  calls.flatMap Callback.payloads

theorem cuts_handAttribute (a : Attribute) :
    Cuts (handAttribute a) fun ids call => ids = call.payloads := by
  refine ((cuts_handName a.name).bind fun name =>
    (cuts_handPayload a.value).map (Callback.tagAttr name)).imp ?_
  rintro ids call ⟨name, _, _, rfl, ⟨value, rfl, rfl⟩, rfl⟩
  rfl

theorem cuts_handTag (t : Tag) : Cuts (handTag t) fun ids calls => ids = payloadsOf calls := by
  rw [handTag]
  cases t.kind with
  | opening =>
    simp only
    refine ((cuts_handName t.name).bind fun name =>
      (cuts_mapM cuts_handAttribute t.attributes.toList).map
        (Callback.startTag name t.selfClosing t.attributes.size :: ·)).imp ?_
    rintro ids calls ⟨name, _, _, rfl, ⟨attributes, rfl, rfl⟩, rfl⟩
    rfl
  | closing =>
    simp only
    refine ((cuts_handName t.name).map fun name => [Callback.endTag name]).imp ?_
    rintro ids calls ⟨name, rfl, rfl⟩
    rfl

/-- A token that is one payload. -/
theorem cuts_single (payload : String) {make : HandleId → SharedCallback}
    (hmake : ∀ id, (make id).payloads = [id]) :
    Cuts (do return [make (← handPayload payload)]) fun ids calls => ids = payloadsOf calls := by
  refine ((cuts_handPayload payload).map fun id => [make id]).imp ?_
  rintro ids calls ⟨id, rfl, rfl⟩
  rw [payloadsOf, List.flatMap_singleton, hmake]

/-- **Handing over a token** cuts a window for each of its payloads. -/
theorem cuts_handToken (exact : Bool) (t : Token) :
    Cuts (handToken exact t) fun ids calls => ids = payloadsOf calls := by
  cases t with
  | doctype d =>
    refine ((cuts_handPayload (d.name.getD "")).bind fun name =>
      (cuts_handPayload (d.publicId.getD "")).bind fun publicId =>
        (cuts_handPayload (d.systemId.getD "")).map fun systemId =>
          [Callback.doctype name publicId systemId d.forceQuirks]).imp ?_
    rintro ids calls ⟨name, _, _, rfl, ⟨publicId, _, _, rfl, ⟨systemId, rfl, rfl⟩, rfl⟩, rfl⟩
    rfl
  | tag t => exact cuts_handTag t
  | comment text => exact cuts_single text fun _ => rfl
  | characters text => exact cuts_single text fun _ => rfl
  | error e state => exact cuts_single _ fun _ => rfl
  | nullCharacter =>
    refine (cuts_pure [Callback.nullChar]).imp ?_
    rintro ids calls ⟨rfl, rfl⟩
    rfl
  | endOfInput =>
    refine (cuts_pure [Callback.eof]).imp ?_
    rintro ids calls ⟨rfl, rfl⟩
    rfl

/-- **Handing over a batch** likewise. -/
theorem cuts_handTokens (exact : Bool) (tokens : List Token) :
    Cuts (tokens.mapM (handToken exact)) fun ids batches => ids = payloadsOf batches.flatten := by
  refine (cuts_mapM (cuts_handToken exact) tokens).imp ?_
  rintro ids batches rfl
  rw [payloadsOf, List.flatMap_def, List.flatMap_def, List.map_flatten, List.flatten_flatten,
    List.map_map]
  rfl

/-! ## (3) Batches -/

/-- **What a pool has gained** when the buffers `ids` are delivered. -/
structure Arrives (p p' : Pool) (ids : List HandleId) : Prop where
  /-- Handles stand for windows as before. -/
  solid : p.Solid → p'.Solid
  /-- Those there were stand for what they stood for. -/
  older : ∀ id : Nat, id < p.handles.size → p'.handle? id = p.handle? id
  /-- The buffers are new. -/
  fresh : ∀ id ∈ ids, p.handles.size ≤ id
  /-- They are different ones. -/
  nodup : ids.Nodup
  /-- There are no other new ones. -/
  newer : ∀ id : Nat, p.handles.size ≤ id → (id ∈ ids ↔ p'.handle? id ≠ none)
  /-- They are in a block of their own, if they are in one. -/
  block : ∀ id ∈ ids, p'.block? id = none ∨ p'.block? id = some p.blocks.size

namespace Arrives

variable {p p' : Pool} {ids : List HandleId}

theorem nil (p : Pool) : Arrives p p [] where
  solid hp := hp
  older _ _ := rfl
  fresh := by simp
  nodup := List.nodup_nil
  newer id hid := by simp [Pool.handle?_eq_none_of_size_le hid]
  block := by simp

theorem handle?_of_live (ha : Arrives p p' ids) {id : HandleId} (h : p.handle? id ≠ none) :
    p'.handle? id = p.handle? id := by
  refine ha.older id ?_
  by_contra hge
  exact h (Pool.handle?_eq_none_of_size_le (Nat.le_of_not_lt hge))

/-- Whoever has storage had it before, or is delivered and has the new block. -/
theorem block?_cases (ha : Arrives p p' ids) {id : HandleId} {block : Nat}
    (h : p'.block? id = some block) :
    p.block? id = some block ∨ id ∈ ids ∧ block = p.blocks.size := by
  rcases Nat.lt_or_ge id p.handles.size with hlt | hge
  · left
    rwa [← Pool.block?_congr (ha.older id hlt)]
  · right
    have hlive : p'.handle? id ≠ none := by
      obtain ⟨handle, hid, -⟩ := Pool.exists_of_block? h
      simp [hid]
    have hmem := (ha.newer id hge).mpr hlive
    rcases ha.block id hmem with hnone | hsome
    · rw [hnone] at h
      cases h
    · rw [hsome] at h
      cases h
      exact ⟨hmem, rfl⟩

end Arrives

/-- The pool behind a batch: `bs` packed, windows `hs` cut of them, and the packed buffer dropped. -/
def unpacked (p : Pool) (bs : Bytes) (hs : List Handle) : Pool :=
  ((p.ofBytes bs).2.more hs).drop (p.ofBytes bs).1

/-- Its handles are the older ones and, behind the number of the packed buffer, the windows. -/
theorem handle?_unpacked (p : Pool) (bs : Bytes) (hs : List Handle) (id : Nat) :
    (unpacked p bs hs).handle? id =
      if id < p.handles.size then p.handle? id
      else if id = p.handles.size then none
      else hs[id - (p.handles.size + 1)]? := by
  rw [unpacked, Pool.handle?_drop_eq, Pool.ofBytes_fst, Pool.handle?_more, Pool.size_ofBytes]
  rcases Nat.lt_trichotomy id p.handles.size with hlt | heq | hgt
  · rw [if_neg (Nat.ne_of_gt hlt), if_pos (by omega), if_pos hlt,
      Pool.handle?_ofBytes_of_ne bs (Nat.ne_of_lt hlt)]
  · rw [if_pos heq.symm, if_neg (by omega), if_pos heq]
  · rw [if_neg (Nat.ne_of_lt hgt), if_neg (by omega), if_neg (by omega), if_neg (by omega)]

theorem arrives_unpacked (p : Pool) (bs : Bytes) {base : Handle} {hs : List Handle}
    (hbase : (p.ofBytes bs).2.handle? (p.ofBytes bs).1 = some base)
    (hinside : (p.ofBytes bs).2.Inside p.blocks.size base) (hparts : ∀ h ∈ hs, base.Part h) :
    Arrives p (unpacked p bs hs) (List.range' (p.handles.size + 1) hs.length) := by
  have hblock : base.block? = none ∨ base.block? = some p.blocks.size := by
    cases base with
    | empty => exact .inl rfl
    | window w => exact .inr (congrArg some hinside.1)
  constructor
  case solid =>
    intro hp id h hid
    -- windows of the blocks there are when the bytes are packed
    have hpacked : (p.ofBytes bs).2.Solid := (hp.represents.ofBytes bs).solid
    show (p.ofBytes bs).2.Holds h
    rw [handle?_unpacked] at hid
    split_ifs at hid with hlt
    · rw [← Pool.handle?_ofBytes_of_ne bs (Nat.ne_of_lt hlt)] at hid
      exact hpacked id h hid
    · obtain ⟨start, stop, hle, hstop, rfl⟩ := hparts h (List.mem_of_getElem? hid)
      exact Pool.holds_part (hpacked _ base hbase) hle hstop
  case older =>
    intro id hid
    rw [handle?_unpacked, if_pos hid]
  case fresh =>
    intro id hid
    rw [List.mem_range'_1] at hid
    omega
  case nodup => exact List.nodup_range'
  case newer =>
    intro id hid
    rw [List.mem_range'_1, handle?_unpacked, if_neg (by omega)]
    split_ifs with heq
    · simp only [ne_eq, not_true_eq_false, iff_false]
      omega
    · rw [ne_eq, List.getElem?_eq_none_iff]
      omega
  case block =>
    intro id hid
    rw [List.mem_range'_1] at hid
    rw [Pool.block?, handle?_unpacked, if_neg (by omega), if_neg (by omega)]
    cases hget : hs[id - (p.handles.size + 1)]? with
    | none => exact .inl rfl
    | some h =>
      rw [Option.bind_some]
      rcases (hparts h (List.mem_of_getElem? hget)).block? with hnone | hsame
      · exact .inl hnone
      · rw [hsame]
        exact hblock

/-- **A batch** adds the buffers it delivers and no others. -/
theorem arrives_deliver {store store' : SharedStore} {exact : Bool} {tokens : List Token}
    {calls : List SharedCallback} (h : store.deliver exact tokens = .ok (calls, store')) :
    Arrives store.pool store'.pool (payloadsOf calls) := by
  obtain ⟨base, hbase, -, -, hinside⟩ := store.pool.ofBytes_read (packedBytes exact tokens)
  rw [deliver] at h
  cases hrun : (tokens.mapM (handToken exact)).run
      { store := { store with pool := (store.pool.ofBytes (packedBytes exact tokens)).2 }
        packed := (store.pool.ofBytes (packedBytes exact tokens)).1 } with
  | error fault => simp [hrun] at h
  | ok result =>
    obtain ⟨batches, last⟩ := result
    obtain ⟨ids, ⟨-, hs, hpool, hids, hparts⟩, hcalls⟩ :=
      cuts_handTokens exact tokens base _ batches last hbase hrun
    simp only [hrun] at h
    cases h
    rw [← hcalls, hids]
    show Arrives store.pool (last.store.pool.drop _) _
    rw [hpool]
    show Arrives store.pool (unpacked _ _ _) (List.range' (Pool.ofBytes _ _).2.handles.size _)
    rw [Pool.size_ofBytes]
    exact arrives_unpacked store.pool _ hbase hinside hparts

end SharedStore

end HtmlStream

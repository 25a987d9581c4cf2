import HtmlStream.Proofs.Delivery
import HtmlStream.Proofs.Guarded.Texts

/-! # Delivery with its windows compared

Each window that is handed over is compared with the payload it was cut for, at the moment when it is
cut. The comparison never fails, because the bytes of the payload are the next in the packed buffer.

* **`handToken`**, **`deliver`**: handing over a token and a batch, every window compared.
* **`Passes`**: a handover that goes on as it does without comparing.
* **`exists_deliver`**: delivery does. -/

namespace HtmlStream.Guarded

open Buffer (HandleId)
open SharedStore (Batch Ready hands_handName hands_handPayload packedBytes)

/-! ## (1) Handing over -/

/-- Handing over with windows compared. -/
abbrev Handover := StateT Batch (Except Fault)

/-- Hands over what needs no comparison. -/
def plainly {α : Type} (x : SharedStore.Handover α) : Handover α := fun b =>
  match x.run b with
  | .ok handed => .ok handed
  | .error f => .error (.failure (.range f))

/-- Hands over a name. -/
def handName (name : String) : Handover Nat := plainly (SharedStore.handName name)

/-- Hands over the next payload, and compares the window with it. -/
def handPayload (payload : String) : Handover HandleId := do
  let window ← plainly (SharedStore.handPayload payload)
  let batch ← get
  if batch.store.pool.bytes window = Utf8.encode payload then return window
  else throw .windowDiffers

/-- Hands over a part of a document type that may be missing. -/
def handField (field : Option String) : Handover HandleId := handPayload (field.getD "")

/-- The call of an attribute. -/
def handAttribute (a : Attribute) : Handover SharedCallback := do
  let name ← handName a.name
  let value ← handPayload a.value
  return .tagAttr name value

/-- The calls of a tag. -/
def handTag (t : Tag) : Handover (List SharedCallback) := do
  let name ← handName t.name
  match t.kind with
  | .opening =>
    let attributes ← t.attributes.toList.mapM handAttribute
    return .startTag name t.selfClosing t.attributes.size :: attributes
  | .closing => return [.endTag name]

/-- The calls of a token. -/
def handToken (exact : Bool) : Token → Handover (List SharedCallback)
  | .doctype d => do
    let name ← handField d.name
    let publicId ← handField d.publicId
    let systemId ← handField d.systemId
    return [.doctype name publicId systemId d.forceQuirks]
  | .tag t => handTag t
  | .comment text => return [.comment (← handPayload text)]
  | .characters text => return [.chars (← handPayload text)]
  | .nullCharacter => return [.nullChar]
  | .endOfInput => return [.eof]
  | .error e state => return [.error (← handPayload (e.message exact state))]

/-- Delivers a batch. -/
def deliver (store : SharedStore) (exact : Bool) (tokens : List Token) :
    Except Fault (List SharedCallback × SharedStore) := do
  let (packed, pool) := store.pool.ofBytes (packedBytes exact tokens)
  let (calls, last) ← (tokens.mapM (handToken exact)).run { store := { store with pool }, packed }
  return (calls.flatten, { last.store with pool := last.store.pool.drop packed })

/-! ## (2) Nothing differs -/

variable {α β : Type} {block : Nat} {x : SharedStore.Handover α} {y : Handover α} {bs bs' : Bytes}

/-- **A handover passes**: if the bytes `bs` come next in the packed buffer, it hands over what it does
without comparing, and leaves what comes behind them. -/
def Passes (block : Nat) (x : SharedStore.Handover α) (y : Handover α) (bs : Bytes) : Prop :=
  ∀ b rest, Ready block b (bs ++ rest) →
    ∃ a b', x.run b = .ok (a, b') ∧ y.run b = .ok (a, b') ∧ Ready block b' rest

theorem plainly_of_ok {b b' : Batch} {a : α} (h : x.run b = .ok (a, b')) :
    (plainly x).run b = .ok (a, b') := by
  rw [StateT.run, plainly, h]

theorem passes_pure (a : α) : Passes block (pure a) (pure a) [] :=
  fun b _ hready => ⟨a, b, rfl, rfl, hready⟩

/-- One handover after another passes. -/
theorem Passes.bind {f : α → SharedStore.Handover β} {g : α → Handover β} (h : Passes block x y bs)
    (hf : ∀ a, Passes block (f a) (g a) bs') : Passes block (x >>= f) (y >>= g) (bs ++ bs') := by
  intro b rest hready
  rw [List.append_assoc] at hready
  obtain ⟨a, b₁, hx, hy, hready₁⟩ := h b (bs' ++ rest) hready
  obtain ⟨c, b₂, hf, hg, hready₂⟩ := hf a b₁ rest hready₁
  refine ⟨c, b₂, ?_, ?_, hready₂⟩
  · rw [StateT.run_bind, hx]
    exact hf
  · rw [StateT.run_bind, hy]
    exact hg

/-- What is made of what is handed over takes no more bytes. -/
theorem Passes.map (h : Passes block x y bs) (f : α → β) :
    Passes block (do return f (← x)) (do return f (← y)) bs := by
  have hbind : Passes block (do return f (← x)) (do return f (← y)) (bs ++ []) :=
    h.bind fun a => passes_pure (f a)
  rwa [List.append_nil] at hbind

/-- A list passes part by part. -/
theorem passes_mapM {f : α → SharedStore.Handover β} {g : α → Handover β} {bytes : α → Bytes}
    (hf : ∀ a, Passes block (f a) (g a) (bytes a)) (as : List α) :
    Passes block (as.mapM f) (as.mapM g) (as.flatMap bytes) := by
  induction as with
  | nil =>
    rw [List.mapM_nil, List.mapM_nil]
    exact passes_pure []
  | cons a as ih =>
    rw [List.mapM_cons, List.mapM_cons, List.flatMap_cons]
    exact (hf a).bind fun c => ih.map (c :: ·)

theorem passes_handName (name : String) :
    Passes block (SharedStore.handName name) (handName name) [] := by
  intro b rest hready
  obtain ⟨id, b', hrun, -, hready', -⟩ := hands_handName name b rest hready
  exact ⟨id, b', hrun, plainly_of_ok hrun, hready'⟩

/-- **A window reads as its payload** when it is cut. -/
theorem passes_handPayload (payload : String) :
    Passes block (SharedStore.handPayload payload) (handPayload payload) (Utf8.encode payload) := by
  intro b rest hready
  obtain ⟨id, b', hrun, -, hready', -, h, hid, -, hbytes⟩ :=
    hands_handPayload payload b rest hready
  have hwindow : b'.store.pool.bytes id = Utf8.encode payload := by
    rw [Buffer.Pool.bytes, hid, Option.map_some, Option.getD_some, hbytes]
  refine ⟨id, b', hrun, ?_, hready'⟩
  rw [handPayload, StateT.run_bind, plainly_of_ok hrun]
  show StateT.run (if b'.store.pool.bytes id = Utf8.encode payload then _ else _) b' = _
  rw [if_pos hwindow]
  rfl

theorem passes_handAttribute (a : Attribute) :
    Passes block (SharedStore.handAttribute a) (handAttribute a) (Utf8.encode a.value) :=
  (passes_handName a.name).bind fun name => (passes_handPayload a.value).map (Callback.tagAttr name)

theorem passes_handTag (exact : Bool) (t : Tag) :
    Passes block (SharedStore.handTag t) (handTag t) (SharedStore.tokenBytes exact (.tag t)) := by
  rw [SharedStore.handTag, handTag, SharedStore.tokenBytes, Token.payloads]
  cases t.kind with
  | opening =>
    simp only [List.flatMap_map]
    exact (passes_handName t.name).bind fun name =>
      (passes_mapM passes_handAttribute t.attributes.toList).map
        (Callback.startTag name t.selfClosing t.attributes.size :: ·)
  | closing => exact (passes_handName t.name).map fun name => [Callback.endTag name]

/-- A token that is one payload passes. -/
theorem passes_single (payload : String) (make : HandleId → SharedCallback) :
    Passes block (do return [make (← SharedStore.handPayload payload)])
      (do return [make (← handPayload payload)]) ([payload].flatMap Utf8.encode) := by
  rw [List.flatMap_singleton]
  exact (passes_handPayload payload).map fun id => [make id]

theorem passes_handToken (exact : Bool) (t : Token) :
    Passes block (SharedStore.handToken exact t) (handToken exact t)
      (SharedStore.tokenBytes exact t) := by
  cases t with
  | doctype d =>
    have hbytes : SharedStore.tokenBytes exact (.doctype d) = Utf8.encode (d.name.getD "") ++
        (Utf8.encode (d.publicId.getD "") ++ Utf8.encode (d.systemId.getD "")) := by
      simp [SharedStore.tokenBytes, Token.payloads]
    rw [hbytes]
    exact (passes_handPayload (d.name.getD "")).bind fun name =>
      (passes_handPayload (d.publicId.getD "")).bind fun publicId =>
        (passes_handPayload (d.systemId.getD "")).map fun systemId =>
          [Callback.doctype name publicId systemId d.forceQuirks]
  | tag t => exact passes_handTag exact t
  | comment text => exact passes_single text .comment
  | characters text => exact passes_single text .chars
  | error e state => exact passes_single (e.message exact state) .error
  | nullCharacter => exact passes_pure [Callback.nullChar]
  | endOfInput => exact passes_pure [Callback.eof]

/-- **Delivery goes on** as it does without comparing. -/
theorem exists_deliver (store : SharedStore) (exact : Bool) (tokens : List Token) :
    ∃ delivered, store.deliver exact tokens = .ok delivered ∧
      deliver store exact tokens = .ok delivered := by
  obtain ⟨whole, hid, hlength, hread, hinside⟩ := store.pool.ofBytes_read (packedBytes exact tokens)
  have hready : Ready store.pool.blocks.size
      { store := { store with pool := (store.pool.ofBytes (packedBytes exact tokens)).2 }
        packed := (store.pool.ofBytes (packedBytes exact tokens)).1 }
      (tokens.flatMap (SharedStore.tokenBytes exact) ++ []) := by
    have hbytes : tokens.flatMap (SharedStore.tokenBytes exact) = packedBytes exact tokens := by
      rw [packedBytes, List.flatMap_assoc]
      rfl
    rw [List.append_nil, hbytes]
    exact ⟨whole, [], hid, hinside, by simpa using hread, rfl, by simpa using hlength⟩
  obtain ⟨batches, last, hplain, hcompared, -⟩ :=
    passes_mapM (passes_handToken exact) tokens _ [] hready
  refine ⟨(batches.flatten, { last.store with
    pool := last.store.pool.drop (store.pool.ofBytes (packedBytes exact tokens)).1 }), ?_, ?_⟩
  · rw [SharedStore.deliver]
    simp only [hplain]
    rfl
  · rw [deliver]
    simp only [hcompared]
    rfl

end HtmlStream.Guarded

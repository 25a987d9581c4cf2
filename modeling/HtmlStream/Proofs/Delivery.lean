import HtmlStream.Delivery
import HtmlStream.Proofs.Utf8.Lossy
import Mathlib.Data.List.Forall2

/-! # Delivery hands over what was to be said

A batch on the shared surface is packed into one buffer, and each payload is a window that begins where
the one before it ended. The tokens are gone through once for packing and once for handing over, and
each time the payloads come in one order, so no window is cut outside the buffer and none covers the
bytes of another payload. Names and windows read back as the calls of the borrowed surface, and those
handed over before stay as they are.

* **`Pool.ofBytes_read`**, **`Pool.sub_of_le`**: a new buffer and a window of it.
* **`SharedStore.Keeps`**: what was handed over before does not change.
* **`Callback.Related`**: calls of one form with related names and payloads.
* **`Ready`**: the invariant of a handover, the bytes that are still to be handed over.
* **`Hands`**: a handover that takes a given part of them; `hands_handToken`: that of a token.
* **`deliver_ok`**: delivery succeeds, and its calls are those of the tokens. -/

namespace HtmlStream

/-! ## (1) Buffers -/

namespace Buffer.Pool

variable (p : Pool)

theorem handle?_add_self (h : Handle) : (p.add h).2.handle? (p.add h).1 = some h := by
  simp [add, handle?]

theorem handle?_add_of_lt (h : Handle) {id : HandleId} (hid : id < p.handles.size) :
    (p.add h).2.handle? id = p.handle? id := by
  rw [handle?, handle?, add, Array.getElem?_push_lt hid, Array.getElem?_eq_getElem hid]

theorem lt_of_handle? {p : Pool} {id : HandleId} {h : Handle} (hid : p.handle? id = some h) :
    id < p.handles.size := by
  by_contra hge
  rw [handle?, Array.getElem?_eq_none (Nat.le_of_not_lt hge)] at hid
  cases hid

/-- Dropping a handle leaves the others alone. -/
theorem handle?_drop {id id' : HandleId} (h : id' ≠ id) : (p.drop id).handle? id' = p.handle? id' := by
  rw [handle?, handle?, drop, Array.getElem?_setIfInBounds_ne (Ne.symm h)]

/-- A window as a part of the list of bytes of its block. -/
theorem window_eq (w : Window) :
    p.window w = ((p.blocks.getD w.block #[]).toList.drop w.start).take w.length := by
  rw [window, Array.toList_extract, List.extract_eq_take_drop, Nat.add_sub_cancel_left]

/-- **A handle reads inside a block**: it is a window of the block that ends where the block does or
before. The empty buffer reads none. -/
def Inside (block : Nat) : Handle → Prop
  | .empty => True
  | .window w => w.block = block ∧ ∃ bs, p.blocks[block]? = some bs ∧ w.start + w.length ≤ bs.size

/-- **A new buffer** reads its bytes, inside a block of its own. -/
theorem ofBytes_read (bs : Bytes) :
    ∃ h, (p.ofBytes bs).2.handle? (p.ofBytes bs).1 = some h ∧ h.length = bs.length ∧
      (p.ofBytes bs).2.read h = bs ∧ (p.ofBytes bs).2.Inside p.blocks.size h := by
  unfold ofBytes
  by_cases hbs : bs.isEmpty = true
  · rw [if_pos hbs]
    rw [List.isEmpty_iff] at hbs
    exact ⟨.empty, p.handle?_add_self _, by rw [hbs]; rfl, by rw [hbs]; rfl, trivial⟩
  · rw [if_neg hbs]
    refine ⟨.window ⟨p.blocks.size, 0, bs.length⟩, handle?_add_self _ _, rfl, ?_, rfl, bs.toArray,
      ?_, ?_⟩
    · rw [read, window_eq]
      simp [add]
    · simp [add]
    · simp

/-- A part of a handle inside a block is inside it. -/
theorem inside_part {block : Nat} {h : Handle} (hinside : p.Inside block h) {start stop : Nat}
    (hle : start ≤ stop) (hstop : stop ≤ h.length) : p.Inside block (h.part start stop) := by
  cases h with
  | empty => trivial
  | window w =>
    obtain ⟨hblock, bs, hbs, hbound⟩ := hinside
    have hlen : stop ≤ w.length := hstop
    rw [Handle.part]
    split
    · trivial
    · refine ⟨hblock, bs, hbs, ?_⟩
      show w.start + start + (stop - start) ≤ bs.size
      omega

/-- The part of a handle reads the part of its bytes. -/
theorem read_part (h : Handle) {start stop : Nat} (hle : start ≤ stop) (hstop : stop ≤ h.length) :
    p.read (h.part start stop) = ((p.read h).drop start).take (stop - start) := by
  cases h with
  | empty => simp [Handle.part, read]
  | window w =>
    rw [Handle.part]
    split
    · -- an empty part is no window
      rename_i heq
      simp [read, heq]
    · have hlen : stop ≤ w.length := hstop
      have hmin : min (stop - start) (w.length - start) = stop - start := by omega
      rw [read, read, window_eq, window_eq]
      simp only
      rw [List.drop_take, List.drop_drop, List.take_take, hmin]

/-- **A window inside a buffer** can be cut. -/
theorem sub_of_le {id : HandleId} {h : Handle} (hid : p.handle? id = some h) {start stop : Nat}
    (hle : start ≤ stop) (hstop : stop ≤ h.length) :
    p.sub id (.included start) (.excluded stop) = .ok (p.add (h.part start stop)) := by
  rw [sub, hid]
  simp only [Option.getD_some, Bound.first, Bound.last]
  show (if start ≤ stop ∧ stop ≤ h.length then _ else _) = _
  rw [if_pos ⟨hle, hstop⟩]
  rfl

end Buffer.Pool

/-! ## (2) Names -/

namespace AtomTable

theorem resolve?_intern_of_eq_some {t : AtomTable} {id : Nat} {known : Bytes}
    (h : t.resolve? id = some known) (name : Bytes) :
    (t.intern name).2.resolve? id = some known := by
  unfold intern
  cases t.get? name with
  | some id' => exact h
  | none =>
    -- a new name stands behind all numbers that were given out
    have hlt : id < t.names.size := (Array.getElem?_eq_some_iff.mp h).1
    rw [resolve?, Array.getElem?_push_lt hlt, ← Array.getElem?_eq_getElem hlt]
    exact h

/-- **An interned name** resolves to itself. -/
theorem resolve?_intern (t : AtomTable) (name : Bytes) :
    (t.intern name).2.resolve? (t.intern name).1 = some name := by
  unfold intern
  cases hget : t.get? name with
  | some id =>
    -- the name is there already and the table stays as it is
    obtain ⟨hlt, hname, -⟩ := Array.findIdx?_eq_some_iff_getElem.mp hget
    rw [resolve?, Array.getElem?_eq_getElem hlt, Option.some.injEq]
    simpa using hname
  | none => simp [resolve?, size]

end AtomTable

/-! ## (3) What stays

A store only grows, but for the handles that their owners drop. -/

/-- Calls of one form: their names are related by `R` and their payloads by `S`. -/
inductive Callback.Related {N B N' B' : Type} (R : N → N' → Prop) (S : B → B' → Prop) :
    Callback N B → Callback N' B' → Prop
  /-- Document types. -/
  | doctype {name publicId systemId : B} {name' publicId' systemId' : B'} {quirks : Bool}
    (hname : S name name') (hpublic : S publicId publicId') (hsystem : S systemId systemId') :
    Related R S (.doctype name publicId systemId quirks) (.doctype name' publicId' systemId' quirks)
  /-- Start tags. -/
  | startTag {name : N} {name' : N'} {selfClosing : Bool} {count : Nat} (hname : R name name') :
    Related R S (.startTag name selfClosing count) (.startTag name' selfClosing count)
  /-- Attributes. -/
  | tagAttr {name : N} {name' : N'} {value : B} {value' : B'} (hname : R name name')
    (hvalue : S value value') : Related R S (.tagAttr name value) (.tagAttr name' value')
  /-- End tags. -/
  | endTag {name : N} {name' : N'} (hname : R name name') :
    Related R S (.endTag name) (.endTag name')
  /-- Comments. -/
  | comment {text : B} {text' : B'} (htext : S text text') :
    Related R S (.comment text) (.comment text')
  /-- Runs of text. -/
  | chars {text : B} {text' : B'} (htext : S text text') : Related R S (.chars text) (.chars text')
  /-- U+0000. -/
  | nullChar : Related R S .nullChar .nullChar
  /-- The end of the input. -/
  | eof : Related R S .eof .eof
  /-- Parse errors. -/
  | error {message : B} {message' : B'} (hmessage : S message message') :
    Related R S (.error message) (.error message')

namespace Callback.Related

variable {N B N' B' M C : Type} {R R' : N → N' → Prop} {S S' : B → B' → Prop} {call : Callback N B}
  {call' : Callback N' B'}

theorem imp (hR : ∀ name name', R name name' → R' name name')
    (hS : ∀ payload payload', S payload payload' → S' payload payload')
    (h : Related R S call call') : Related R' S' call call' := by
  cases h with
  | doctype hname hpublic hsystem =>
    exact .doctype (hS _ _ hname) (hS _ _ hpublic) (hS _ _ hsystem)
  | startTag hname => exact .startTag (hR _ _ hname)
  | tagAttr hname hvalue => exact .tagAttr (hR _ _ hname) (hS _ _ hvalue)
  | endTag hname => exact .endTag (hR _ _ hname)
  | comment htext => exact .comment (hS _ _ htext)
  | chars htext => exact .chars (hS _ _ htext)
  | nullChar => exact .nullChar
  | eof => exact .eof
  | error hmessage => exact .error (hS _ _ hmessage)

/-- Related calls are equal if what is related is. -/
theorem map_eq {f : N → M} {f' : N' → M} {g : B → C} {g' : B' → C}
    (hR : ∀ name name', R name name' → f name = f' name')
    (hS : ∀ payload payload', S payload payload' → g payload = g' payload')
    (h : Related R S call call') : call.map f g = call'.map f' g' := by
  cases h with
  | doctype hname hpublic hsystem =>
    rw [map, map, hS _ _ hname, hS _ _ hpublic, hS _ _ hsystem]
  | startTag hname => rw [map, map, hR _ _ hname]
  | tagAttr hname hvalue => rw [map, map, hR _ _ hname, hS _ _ hvalue]
  | endTag hname => rw [map, map, hR _ _ hname]
  | comment htext => rw [map, map, hS _ _ htext]
  | chars htext => rw [map, map, hS _ _ htext]
  | nullChar => rfl
  | eof => rfl
  | error hmessage => rw [map, map, hS _ _ hmessage]

end Callback.Related

namespace SharedStore

open Buffer

variable {s s' s'' : SharedStore}

/-- **What was handed over stays**: handles keep their windows, blocks their bytes, numbers their
names. -/
structure Keeps (s s' : SharedStore) : Prop where
  /-- Handles stand for what they stood for. -/
  handles : ∀ (id : HandleId) (h : Handle), s.pool.handle? id = some h → s'.pool.handle? id = some h
  /-- No block changes. -/
  blocks : ∀ (block : Nat) (bs : Array UInt8), s.pool.blocks[block]? = some bs →
    s'.pool.blocks[block]? = some bs
  /-- Nor does a name. -/
  atoms : ∀ (id : Nat) (name : Bytes), s.atoms.resolve? id = some name →
    s'.atoms.resolve? id = some name

theorem Keeps.refl (s : SharedStore) : Keeps s s :=
  ⟨fun _ _ h => h, fun _ _ h => h, fun _ _ h => h⟩

theorem Keeps.trans (h : Keeps s s') (h' : Keeps s' s'') : Keeps s s'' where
  handles id handle hid := h'.handles id handle (h.handles id handle hid)
  blocks block bs hblock := h'.blocks block bs (h.blocks block bs hblock)
  atoms id name hid := h'.atoms id name (h.atoms id name hid)

/-- **A number denotes a name.** -/
def NameIs (s : SharedStore) (id : Nat) (name : String) : Prop :=
  s.atoms.resolve? id = some (Utf8.encode name)

/-- **A handle is a window for a payload**: it reads the bytes of the payload, inside a block. -/
def PayloadIs (s : SharedStore) (block : Nat) (id : HandleId) (payload : String) : Prop :=
  ∃ h, s.pool.handle? id = some h ∧ s.pool.Inside block h ∧ s.pool.read h = Utf8.encode payload

theorem NameIs.keeps {id : Nat} {name : String} (h : NameIs s id name) (hkeeps : Keeps s s') :
    NameIs s' id name := hkeeps.atoms id _ h

theorem PayloadIs.keeps {block : Nat} {id : HandleId} {payload : String}
    (h : PayloadIs s block id payload) (hkeeps : Keeps s s') : PayloadIs s' block id payload := by
  obtain ⟨handle, hid, hinside, hread⟩ := h
  refine ⟨handle, hkeeps.handles id handle hid, ?_⟩
  cases handle with
  | empty => exact ⟨trivial, hread⟩
  | window w =>
    obtain ⟨rfl, bs, hbs, hbound⟩ := hinside
    have hbs' := hkeeps.blocks w.block bs hbs
    refine ⟨⟨rfl, bs, hbs', hbound⟩, ?_⟩
    rw [← hread, Pool.read, Pool.read, Pool.window, Pool.window, Array.getD_eq_getD_getElem?,
      Array.getD_eq_getD_getElem?, hbs, hbs']

/-- A new handle changes none that is there. -/
theorem keeps_add (s : SharedStore) (h : Handle) : Keeps s { s with pool := (s.pool.add h).2 } where
  handles id handle hid := by
    rw [← hid]
    exact s.pool.handle?_add_of_lt h (Pool.lt_of_handle? hid)
  blocks _ _ hblock := hblock
  atoms _ _ hid := hid

theorem keeps_ofBytes (s : SharedStore) (bs : Bytes) :
    Keeps s { s with pool := (s.pool.ofBytes bs).2 } := by
  unfold Pool.ofBytes
  split
  · exact s.keeps_add .empty
  · -- the new block stands behind those that are there
    have hblock : Keeps s { s with pool.blocks := s.pool.blocks.push bs.toArray } := by
      refine ⟨fun _ _ hid => hid, ?_, fun _ _ hid => hid⟩
      intro block bs' hblock
      have hlt : block < s.pool.blocks.size := (Array.getElem?_eq_some_iff.mp hblock).1
      show (s.pool.blocks.push bs.toArray)[block]? = some bs'
      rw [Array.getElem?_push_lt hlt, ← Array.getElem?_eq_getElem hlt]
      exact hblock
    exact hblock.trans (keeps_add _ _)

/-! ## (4) Handing over -/

variable {b b' b'' : Batch} {block : Nat}

/-- A later moment of one handover. -/
structure Grows (b b' : Batch) : Prop where
  /-- The packed buffer is the same. -/
  packed : b'.packed = b.packed
  /-- What was handed over stays. -/
  store : Keeps b.store b'.store

theorem Grows.refl (b : Batch) : Grows b b := ⟨rfl, .refl b.store⟩

theorem Grows.trans (h : Grows b b') (h' : Grows b' b'') : Grows b b'' :=
  ⟨h'.packed.trans h.packed, h.store.trans h'.store⟩

/-- **The invariant of a handover**: `rest` is what is still to be handed over of the packed buffer,
which reads inside `block`. -/
def Ready (block : Nat) (b : Batch) (rest : Bytes) : Prop :=
  ∃ h before, b.store.pool.handle? b.packed = some h ∧ b.store.pool.Inside block h ∧
    b.store.pool.read h = before ++ rest ∧ before.length = b.position ∧
    h.length = before.length + rest.length

/-- **A handover of the bytes `bs`**: if they come next in the packed buffer, it succeeds, leaves what
comes behind them and gives what has `P`. -/
def Hands {α : Type} (block : Nat) (x : Handover α) (bs : Bytes) (P : Batch → α → Prop) : Prop :=
  ∀ b rest, Ready block b (bs ++ rest) →
    ∃ a b', x.run b = .ok (a, b') ∧ Grows b b' ∧ Ready block b' rest ∧ P b' a

/-- A property of what was handed over that later moments do not change. -/
def Kept (P : Batch → Prop) : Prop := ∀ b b', P b → Grows b b' → P b'

section

variable {α β : Type} {x : Handover α} {bs : Bytes} {P Q : Batch → α → Prop}

theorem Hands.imp (h : Hands block x bs P) (hPQ : ∀ b a, P b a → Q b a) : Hands block x bs Q := by
  intro b rest hready
  obtain ⟨a, b', hrun, hgrows, hready', ha⟩ := h b rest hready
  exact ⟨a, b', hrun, hgrows, hready', hPQ b' a ha⟩

/-- Nothing is taken for what is there already. -/
theorem hands_pure (a : α) : Hands block (pure a) [] fun _ a' => a' = a := by
  intro b rest hready
  exact ⟨a, b, rfl, .refl b, hready, rfl⟩

/-- **One handover after another** takes the bytes of the one and then those of the other. -/
theorem Hands.bind {f : α → Handover β} {bs' : Bytes} {R : α → Batch → β → Prop}
    (h : Hands block x bs P) (hP : ∀ a, Kept (P · a)) (hf : ∀ a, Hands block (f a) bs' (R a)) :
    Hands block (x >>= f) (bs ++ bs') fun b c => ∃ a, P b a ∧ R a b c := by
  intro b rest hready
  rw [List.append_assoc] at hready
  obtain ⟨a, b₁, hrun₁, hgrows₁, hready₁, ha⟩ := h b (bs' ++ rest) hready
  obtain ⟨c, b₂, hrun₂, hgrows₂, hready₂, hc⟩ := hf a b₁ rest hready₁
  refine ⟨c, b₂, ?_, hgrows₁.trans hgrows₂, hready₂, a, hP a b₁ b₂ ha hgrows₂, hc⟩
  rw [StateT.run_bind, hrun₁]
  exact hrun₂

/-- What is made of what is handed over takes no more bytes. -/
theorem Hands.map (h : Hands block x bs P) (f : α → β) :
    Hands block (do return f (← x)) bs fun b c => ∃ a, P b a ∧ c = f a := by
  intro b rest hready
  obtain ⟨a, b', hrun, hgrows, hready', ha⟩ := h b rest hready
  refine ⟨f a, b', ?_, hgrows, hready', a, ha, rfl⟩
  rw [StateT.run_bind, hrun]
  rfl

/-- **A list is handed over** part by part. -/
theorem hands_mapM {f : α → Handover β} {bytes : α → Bytes} {R : Batch → β → α → Prop}
    (hR : ∀ c a, Kept (R · c a)) (hf : ∀ a, Hands block (f a) (bytes a) fun b c => R b c a)
    (as : List α) :
    Hands block (as.mapM f) (as.flatMap bytes) fun b cs => List.Forall₂ (R b) cs as := by
  induction as with
  | nil =>
    rw [List.mapM_nil]
    refine (hands_pure []).imp ?_
    rintro b cs rfl
    exact .nil
  | cons a as ih =>
    rw [List.mapM_cons, List.flatMap_cons]
    refine ((hf a).bind (hR · a) fun c => ih.map (c :: ·)).imp ?_
    rintro b cs ⟨c, hc, tail, htail, rfl⟩
    exact .cons hc htail

end

/-- A number that was handed over for a name. -/
def IsName (b : Batch) (id : Nat) (name : String) : Prop := NameIs b.store id name

/-- A handle that was handed over for a payload: a window of its own, not the packed buffer. -/
def IsPayload (block : Nat) (b : Batch) (id : HandleId) (payload : String) : Prop :=
  id ≠ b.packed ∧ PayloadIs b.store block id payload

theorem kept_isName (name : String) (id : Nat) : Kept (IsName · id name) :=
  fun _ _ h hgrows => h.keeps hgrows.store

theorem kept_isPayload (payload : String) (id : HandleId) : Kept (IsPayload block · id payload) :=
  fun _ _ h hgrows => ⟨hgrows.packed ▸ h.1, h.2.keeps hgrows.store⟩

/-- **Handing over a name** takes no bytes. -/
theorem hands_handName (name : String) :
    Hands block (handName name) [] fun b id => IsName b id name := by
  intro b rest hready
  refine ⟨(b.store.atoms.intern (Utf8.encode name)).1,
    { b with store := { b.store with atoms := (b.store.atoms.intern (Utf8.encode name)).2 } },
    rfl, ⟨rfl, fun _ _ h => h, fun _ _ h => h, ?_⟩, hready,
    b.store.atoms.resolve?_intern (Utf8.encode name)⟩
  intro id known hid
  exact AtomTable.resolve?_intern_of_eq_some hid (Utf8.encode name)

theorem utf8ByteSize_eq (payload : String) :
    payload.utf8ByteSize = (Utf8.encode payload).length := by
  rw [← String.size_toByteArray, ← String.utf8Encode_toList, List.utf8Encode,
    List.size_toByteArray, Utf8.encode]

/-- **Handing over a payload** takes its bytes, if they come next: the window of its length that is cut
at the present position lies inside the packed buffer and covers them. -/
theorem hands_handPayload (payload : String) :
    Hands block (handPayload payload) (Utf8.encode payload) fun b id =>
      IsPayload block b id payload := by
  rintro b rest ⟨whole, before, hid, hinside, hread, hposition, hlength⟩
  rw [List.length_append] at hlength
  have hstop : b.position + payload.utf8ByteSize ≤ whole.length := by
    rw [utf8ByteSize_eq]
    omega
  have hle : b.position ≤ b.position + payload.utf8ByteSize := Nat.le_add_right _ _
  -- by the invariant the window ends inside the packed buffer, so it can be cut
  have hsub := b.store.pool.sub_of_le hid hle hstop
  have hpart := b.store.pool.inside_part hinside hle hstop
  have hbytes : b.store.pool.read (whole.part b.position (b.position + payload.utf8ByteSize))
      = Utf8.encode payload := by
    rw [b.store.pool.read_part whole hle hstop, hread, ← hposition, List.drop_left,
      Nat.add_sub_cancel_left, utf8ByteSize_eq, List.take_left]
  generalize whole.part b.position (b.position + payload.utf8ByteSize) = part at hsub hpart hbytes
  have hrun : (handPayload payload).run b = .ok (b.store.pool.handles.size,
      { b with
        store := { b.store with pool := (b.store.pool.add part).2 },
        position := b.position + payload.utf8ByteSize }) := by
    simp [handPayload, hsub]
    rfl
  have hkeeps := b.store.keeps_add part
  refine ⟨_, _, hrun, ⟨rfl, hkeeps⟩, ⟨whole, before ++ Utf8.encode payload,
    hkeeps.handles b.packed whole hid, hinside, ?_, ?_, ?_⟩,
    Nat.ne_of_gt (Pool.lt_of_handle? hid), part, b.store.pool.handle?_add_self part, hpart, hbytes⟩
  · rw [List.append_assoc]
    exact hread
  · rw [List.length_append, hposition, utf8ByteSize_eq]
  · rw [List.length_append]
    omega

/-! ## (5) Tokens -/

/-- **A call was delivered**: it has the form of `call`, with a number for each name and a window for
each payload. -/
def Delivered (block : Nat) (b : Batch) : SharedCallback → TextCallback → Prop :=
  Callback.Related (IsName b) (IsPayload block b)

theorem kept_delivered (delivered : SharedCallback) (call : TextCallback) :
    Kept (Delivered block · delivered call) := by
  intro b b' h hgrows
  exact h.imp (fun id name hid => kept_isName name id b b' hid hgrows)
    (fun id payload hid => kept_isPayload payload id b b' hid hgrows)

/-- The bytes of a token in the packed buffer. -/
def tokenBytes (exact : Bool) (t : Token) : Bytes := (t.payloads exact).flatMap Utf8.encode

/-- A token that is one payload. -/
theorem hands_single {payload : String} {make : HandleId → SharedCallback} {call : TextCallback}
    (hmake : ∀ b id, IsPayload block b id payload → Delivered block b (make id) call) :
    Hands block (do return [make (← handPayload payload)]) ([payload].flatMap Utf8.encode)
      fun b calls => List.Forall₂ (Delivered block b) calls [call] := by
  rw [List.flatMap_singleton]
  refine ((hands_handPayload payload).map fun id => [make id]).imp ?_
  rintro b calls ⟨id, hid, rfl⟩
  exact .cons (hmake b id hid) .nil

theorem hands_handAttribute (a : Attribute) :
    Hands block (handAttribute a) (Utf8.encode a.value) fun b call =>
      Delivered block b call (.tagAttr a.name a.value) := by
  refine ((hands_handName a.name).bind (kept_isName a.name) fun name =>
    (hands_handPayload a.value).map (Callback.tagAttr name)).imp ?_
  rintro b call ⟨name, hname, value, hvalue, rfl⟩
  exact .tagAttr hname hvalue

/-- **The attributes of a start tag**: their values are packed in the order in which they are handed
over. -/
theorem hands_attributes (attributes : List Attribute) :
    Hands block (attributes.mapM handAttribute)
      ((attributes.map (·.value)).flatMap Utf8.encode) fun b calls =>
        List.Forall₂ (Delivered block b) calls
          (attributes.map fun a => .tagAttr a.name a.value) := by
  rw [List.flatMap_map]
  refine (hands_mapM (R := fun b call a => Delivered block b call (.tagAttr a.name a.value)) ?_
    hands_handAttribute attributes).imp ?_
  · intro call a
    exact kept_delivered call (.tagAttr a.name a.value)
  · intro b calls hcalls
    exact List.forall₂_map_right_iff.mpr hcalls

/-- **Handing over a tag**: an end tag hands over no attribute, and packs none. -/
theorem hands_handTag (exact : Bool) (t : Tag) :
    Hands block (handTag t) (tokenBytes exact (.tag t)) fun b calls =>
      List.Forall₂ (Delivered block b) calls t.callbacks := by
  rw [handTag, tokenBytes, Token.payloads, Tag.callbacks]
  cases t.kind with
  | opening =>
    simp only
    refine ((hands_handName t.name).bind (kept_isName t.name) fun name =>
      (hands_attributes t.attributes.toList).map
        (Callback.startTag name t.selfClosing t.attributes.size :: ·)).imp ?_
    rintro b calls ⟨name, hname, attributes, hattributes, rfl⟩
    exact .cons (.startTag hname) hattributes
  | closing =>
    simp only
    refine ((hands_handName t.name).map fun name => [Callback.endTag name]).imp ?_
    rintro b calls ⟨name, hname, rfl⟩
    exact .cons (.endTag hname) .nil

/-- **Handing over a token** takes exactly what was packed of it. -/
theorem hands_handToken (exact : Bool) (t : Token) :
    Hands block (handToken exact t) (tokenBytes exact t) fun b calls =>
      List.Forall₂ (Delivered block b) calls (t.callbacks exact) := by
  cases t with
  | doctype d =>
    -- three payloads in a row; each has to survive the handing over of those behind it
    have hbytes : tokenBytes exact (.doctype d) = Utf8.encode (d.name.getD "") ++
        (Utf8.encode (d.publicId.getD "") ++ Utf8.encode (d.systemId.getD "")) := by
      simp [tokenBytes, Token.payloads]
    rw [hbytes]
    refine ((hands_handPayload (d.name.getD "")).bind (kept_isPayload _) fun name =>
      (hands_handPayload (d.publicId.getD "")).bind (kept_isPayload _) fun publicId =>
        (hands_handPayload (d.systemId.getD "")).map fun systemId =>
          [Callback.doctype name publicId systemId d.forceQuirks]).imp ?_
    rintro b calls ⟨name, hname, publicId, hpublic, systemId, hsystem, rfl⟩
    exact .cons (.doctype hname hpublic hsystem) .nil
  | tag t => exact hands_handTag exact t
  | comment text => exact hands_single fun _ _ => .comment
  | characters text => exact hands_single fun _ _ => .chars
  | error e state => exact hands_single fun _ _ => .error
  | nullCharacter =>
    refine (hands_pure [Callback.nullChar]).imp ?_
    rintro b calls rfl
    exact .cons .nullChar .nil
  | endOfInput =>
    refine (hands_pure [Callback.eof]).imp ?_
    rintro b calls rfl
    exact .cons .eof .nil

/-! ## (6) Batches -/

/-- **Handing over a batch** of tokens takes exactly what was packed of them. -/
theorem hands_handTokens (exact : Bool) (tokens : List Token) :
    Hands block (tokens.mapM (handToken exact)) (packedBytes exact tokens) fun b batches =>
      List.Forall₂ (Delivered block b) batches.flatten
        (tokens.flatMap (Token.callbacks exact)) := by
  rw [packedBytes, List.flatMap_assoc]
  refine (hands_mapM (R := fun b calls t =>
    List.Forall₂ (Delivered block b) calls (t.callbacks exact)) ?_
    (hands_handToken exact) tokens).imp ?_
  · intro calls t b b' h hgrows
    exact h.imp fun call call' hcall => kept_delivered call call' b b' hcall hgrows
  · intro b batches h
    rw [List.flatMap_def]
    exact List.rel_flatten (List.forall₂_map_right_iff.mpr h)

/-- **Delivery succeeds.** Its calls are those of the tokens, with the number of each name and, for each
payload, a window for it inside one block; and what was delivered before stays. -/
theorem deliver_ok (store : SharedStore) (exact : Bool) (tokens : List Token) :
    ∃ calls store' block, store.deliver exact tokens = .ok (calls, store') ∧ Keeps store store' ∧
      List.Forall₂ (Callback.Related (NameIs store') (PayloadIs store' block)) calls
        (tokens.flatMap (Token.callbacks exact)) := by
  obtain ⟨whole, hid, hlength, hread, hinside⟩ := store.pool.ofBytes_read (packedBytes exact tokens)
  have hpack := store.keeps_ofBytes (packedBytes exact tokens)
  have hnew : (store.pool.ofBytes (packedBytes exact tokens)).1 = store.pool.handles.size := by
    unfold Pool.ofBytes
    split <;> rfl
  generalize hmade : store.pool.ofBytes (packedBytes exact tokens) = made at hid hread hinside hpack hnew
  obtain ⟨packed, pool⟩ := made
  have hnew : packed = store.pool.handles.size := hnew
  -- at first nothing has been handed over, and the whole buffer is left
  have hready : Ready store.pool.blocks.size { store := { store with pool }, packed }
      (packedBytes exact tokens ++ []) :=
    ⟨whole, [], hid, hinside, by simpa using hread, rfl, by simpa using hlength⟩
  obtain ⟨batches, last, hrun, hgrows, -, hcalls⟩ :=
    hands_handTokens exact tokens { store := { store with pool }, packed } [] hready
  -- the packed buffer is dropped at the end; it is neither an older handle nor a payload
  have hdrop : ∀ id h, id ≠ packed → last.store.pool.handle? id = some h →
      (last.store.pool.drop packed).handle? id = some h := by
    intro id h hne hid
    rw [Pool.handle?_drop _ hne, hid]
  refine ⟨batches.flatten, { last.store with pool := last.store.pool.drop packed },
    store.pool.blocks.size, ?_, ⟨?_, (hpack.trans hgrows.store).blocks,
      (hpack.trans hgrows.store).atoms⟩, ?_⟩
  · rw [deliver, hmade]
    simp only [hrun]
    rfl
  · intro id h hold
    have hne : id ≠ packed := hnew ▸ Nat.ne_of_lt (Pool.lt_of_handle? hold)
    exact hdrop id h hne ((hpack.trans hgrows.store).handles id h hold)
  · refine hcalls.imp fun call call' h => h.imp (fun _ _ hname => hname) ?_
    rintro id payload ⟨hne, h, hid, hinside, hbytes⟩
    rw [hgrows.packed] at hne
    exact ⟨h, hdrop id h hne hid, hinside, hbytes⟩

end SharedStore

end HtmlStream

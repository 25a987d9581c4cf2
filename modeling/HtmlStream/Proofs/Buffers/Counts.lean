import HtmlStream.Proofs.Buffers.Values
import Mathlib.Logic.Function.Basic

/-! # Reference counts

A block carries a count of its own: it is one when the block is made, each handle that is made on the
block adds one, and each that leaves the block or is dropped takes one. The handle whose block counts
one may overwrite it. The counts are always the numbers of the handles there are, so that this owner
test is the right one, and what they say of a handle is with how many it shares its storage.

* **`Counted`**, **`Counted.after`**: a pool with counts, and what operations do to them.
* **`Exact`**: the counts are the numbers of handles. `Exact.perform`: operations keep them so.
* **`Faithful`**: all that a reader of buffers relies on. `faithful_after`: it holds of every pool. -/

namespace HtmlStream.Buffer

/-! ## (1) Counting -/

/-- A pool whose blocks are counted. -/
structure Counted where
  /-- The pool. -/
  pool : Pool := {}
  /-- The count of each block. -/
  counts : Nat → Nat := fun _ => 0

namespace Counted

/-- One more handle stands for `h`. -/
def acquire (counts : Nat → Nat) (h : Handle) : Nat → Nat :=
  match h.block? with
  | none => counts
  | some block => Function.update counts block (counts block + 1)

/-- One handle less stands for `h`. -/
def release (counts : Nat → Nat) (h : Handle) : Nat → Nat :=
  match h.block? with
  | none => counts
  | some block => Function.update counts block (counts block - 1)

/-- Keeps bytes in a block of their own, if there are any. -/
def store (c : Counted) (bs : Bytes) : Counted where
  pool := (c.pool.ofBytes bs).2
  counts := if bs.isEmpty then c.counts else Function.update c.counts c.pool.blocks.size 1

/-- Makes a handle on what is there. -/
def share (c : Counted) (made : HandleId × Pool) : Counted where
  pool := made.2
  counts := acquire c.counts ((made.2.handle? made.1).getD .empty)

/-- Whether a block counts one. -/
def sole (c : Counted) (block : Nat) : Bool := c.counts block = 1

/-- The counts when the handle `h` grows: they stay if it is the only one on its block, and else it
leaves the block for a new one. -/
def grown (c : Counted) : Handle → Nat → Nat
  | .empty => Function.update c.counts c.pool.blocks.size 1
  | .window w =>
    if c.sole w.block then c.counts
    else Function.update (release c.counts (.window w)) c.pool.blocks.size 1

/-- Appends to what a handle reads. -/
def append (c : Counted) (id : HandleId) (more : Bytes) : Counted :=
  if more.isEmpty then c
  else
    match c.pool.handle? id with
    | none => c
    | some h => ⟨c.pool.grow id c.sole (c.pool.read h ++ more) h, c.grown h⟩

/-- Drops a handle. -/
def drop (c : Counted) (id : HandleId) : Counted :=
  ⟨c.pool.drop id, release c.counts ((c.pool.handle? id).getD .empty)⟩

/-- Performs an operation. -/
def perform (c : Counted) : Operation → Except RangeFault Counted
  | .new => .ok (c.store [])
  | .ofBytes bs => .ok (c.store bs)
  | .clone id => .ok (c.share (c.pool.clone id))
  | .copy id => .ok (c.store (c.pool.bytes id))
  | .sub id first last => (c.pool.sub id first last).map c.share
  | .append id more => .ok (c.append id more)
  | .drop id => .ok (c.drop id)

/-- The pool and the counts after operations, of which those that fail change nothing. -/
def after (c : Counted) : List Operation → Counted
  | [] => c
  | op :: rest =>
    match c.perform op with
    | .ok next => next.after rest
    | .error _ => c.after rest

/-- The count of the block of a handle, `0` for the empty buffer. -/
def shareCount (c : Counted) (id : HandleId) : Nat :=
  match c.pool.block? id with
  | none => 0
  | some block => c.counts block

end Counted

/-! ## (2) Numbers of handles -/

namespace Pool

variable {p : Pool} {v : Values}

theorem countOn_add (h : Handle) (block : Nat) :
    (p.add h).2.countOn block = p.countOn block + if h.block? = some block then 1 else 0 := by
  simp only [countOn, add, Array.countP_push, Option.bind_some, decide_eq_true_eq]

/-- Replacing an entry of the table of handles. -/
theorem countP_setIfInBounds {id : HandleId} {h : Handle} (hid : p.handle? id = some h)
    (entry : Option Handle) (block : Nat) :
    (p.handles.setIfInBounds id entry).countP (fun h => h.bind Handle.block? = some block)
      = (p.countOn block - if h.block? = some block then 1 else 0)
        + if entry.bind Handle.block? = some block then 1 else 0 := by
  have hlt : id < p.handles.size := lt_of_handle? hid
  have hget : p.handles[id] = some h := (getElem_handles hlt).trans hid
  rw [Array.setIfInBounds_def, dif_pos hlt, Array.countP_set, hget]
  simp only [Option.bind_some, decide_eq_true_eq, countOn]

theorem countOn_replace {id : HandleId} {h : Handle} (hid : p.handle? id = some h) (h' : Handle)
    (block : Nat) :
    (p.replace id h').countOn block
      = (p.countOn block - if h.block? = some block then 1 else 0)
        + if h'.block? = some block then 1 else 0 :=
  countP_setIfInBounds hid (some h') block

theorem countOn_drop {id : HandleId} {h : Handle} (hid : p.handle? id = some h) (block : Nat) :
    (p.drop id).countOn block = p.countOn block - if h.block? = some block then 1 else 0 :=
  countP_setIfInBounds hid none block

theorem drop_eq_self {id : HandleId} (hid : p.handle? id = none) (block : Nat) :
    (p.drop id).countOn block = p.countOn block := by
  by_cases hlt : id < p.handles.size
  · -- the entry is empty already
    have hget : p.handles[id] = none := (getElem_handles hlt).trans hid
    have hsame : p.handles.set id none hlt = p.handles := by
      rw [← hget, Array.set_getElem_self]
    rw [drop, Array.setIfInBounds_def, dif_pos hlt, hsame]
  · rw [drop, Array.setIfInBounds_def, dif_neg hlt]

/-- **No handle is on a block that is yet to be made.** -/
theorem Represents.countOn_fresh (hp : p.Represents v) : p.countOn p.blocks.size = 0 := by
  rw [countOn, Array.countP_eq_zero]
  rintro entry hentry hblock
  obtain ⟨id, hlt, rfl⟩ := Array.mem_iff_getElem.mp hentry
  -- the entry would stand for a window of a block that there is not
  rw [decide_eq_true_eq, Option.bind_eq_some_iff] at hblock
  obtain ⟨h, hget, hblock⟩ := hblock
  have hid : p.handle? id = some h := by rw [handle?, Array.getElem?_eq_getElem hlt, hget]; rfl
  have hholds := hp.holds hid
  cases h with
  | empty => cases hblock
  | window w =>
    obtain ⟨-, -, bs, hbs, -⟩ := hholds
    have heq : w.block = p.blocks.size := by simpa [Handle.block?] using hblock
    rw [heq, Array.getElem?_eq_none (Nat.le_refl _)] at hbs
    cases hbs

end Pool

/-! ## (3) Counts are numbers of handles -/

namespace Counted

variable {c : Counted} {v : Values}

/-- **The counts are exact**: those of the blocks that handles stand for are their numbers, and those of
the others are zero. -/
def Exact (c : Counted) : Prop := ∀ block, c.counts block = c.pool.countOn block

theorem acquire_apply (counts : Nat → Nat) (h : Handle) (block : Nat) :
    acquire counts h block = counts block + if h.block? = some block then 1 else 0 := by
  unfold acquire
  cases h.block? with
  | none => simp
  | some b =>
    by_cases heq : b = block
    · subst heq
      simp
    · simp [Function.update_of_ne (Ne.symm heq), heq]

theorem release_apply (counts : Nat → Nat) (h : Handle) (block : Nat) :
    release counts h block = counts block - if h.block? = some block then 1 else 0 := by
  unfold release
  cases h.block? with
  | none => simp
  | some b =>
    by_cases heq : b = block
    · subst heq
      simp
    · simp [Function.update_of_ne (Ne.symm heq), heq]

/-- **A new block** has one handle on it. -/
theorem Exact.store (hc : c.Exact) (hp : c.pool.Represents v) (bs : Bytes) : (c.store bs).Exact := by
  intro block
  unfold Counted.store Pool.ofBytes
  by_cases hbs : bs.isEmpty = true
  · simp only [if_pos hbs]
    rw [Pool.countOn_add, hc block]
    rfl
  · simp only [if_neg hbs]
    rw [Pool.countOn_add]
    show Function.update c.counts c.pool.blocks.size 1 block = c.pool.countOn block + _
    by_cases heq : c.pool.blocks.size = block
    · subst heq
      simp [hp.countOn_fresh, Handle.block?]
    · rw [Function.update_of_ne (Ne.symm heq), hc block]
      simp [heq, Handle.block?]

/-- **A handle on what is there** is one more. -/
theorem Exact.share (hc : c.Exact) (h : Handle) : (c.share (c.pool.add h)).Exact := by
  intro block
  show acquire c.counts (((c.pool.add h).2.handle? (c.pool.add h).1).getD .empty) block = _
  rw [c.pool.handle?_add_self, Option.getD_some, acquire_apply, hc block]
  exact (Pool.countOn_add h block).symm

theorem Exact.drop (hc : c.Exact) (id : HandleId) : (c.drop id).Exact := by
  intro block
  show release c.counts ((c.pool.handle? id).getD .empty) block = (c.pool.drop id).countOn block
  rw [release_apply, hc block]
  cases hid : c.pool.handle? id with
  | none =>
    rw [Pool.drop_eq_self hid]
    simp [Handle.block?]
  | some h =>
    rw [Pool.countOn_drop hid]
    rfl

/-- **The owner test is right**: a block counts one if one handle is on it. -/
theorem Exact.sole_eq (hc : c.Exact) : c.sole = fun block => decide (c.pool.countOn block = 1) := by
  funext block
  rw [sole, hc block]

/-- Leaving a block for a new one. -/
theorem Exact.growAnew (hc : c.Exact) (hp : c.pool.Represents v) {id : HandleId} {h : Handle}
    (hid : c.pool.handle? id = some h) (bs : Bytes) (block : Nat) :
    Function.update (release c.counts h) c.pool.blocks.size 1 block
      = (c.pool.growAnew id bs).countOn block := by
  have hreplace : (c.pool.growAnew id bs).countOn block
      = (c.pool.countOn block - if h.block? = some block then 1 else 0)
        + if some c.pool.blocks.size = some block then 1 else 0 :=
    Pool.countOn_replace (p := { c.pool with blocks := c.pool.blocks.push bs.toArray }) hid
      (.window ⟨c.pool.blocks.size, 0, bs.length⟩) block
  rw [hreplace]
  by_cases heq : c.pool.blocks.size = block
  · subst heq
    simp [hp.countOn_fresh]
  · rw [Function.update_of_ne (Ne.symm heq), release_apply, hc block]
    simp [heq]

theorem Exact.append (hc : c.Exact) (hp : c.pool.Represents v) (id : HandleId) (more : Bytes) :
    (c.append id more).pool = c.pool.append id more ∧ (c.append id more).Exact := by
  by_cases hmore : more = []
  · have hsame : c.append id more = c := by rw [Counted.append, if_pos (by simp [hmore])]
    rw [hsame, Pool.append, if_pos (by simp [hmore])]
    exact ⟨rfl, hc⟩
  · cases hid : c.pool.handle? id with
    | none =>
      have hsame : c.append id more = c := by
        rw [Counted.append, if_neg (by simpa using hmore), hid]
      rw [hsame, Pool.append, if_neg (by simpa using hmore), hid]
      exact ⟨rfl, hc⟩
    | some h =>
      have hgrown : c.append id more
          = ⟨c.pool.grow id c.sole (c.pool.read h ++ more) h, c.grown h⟩ := by
        rw [Counted.append, if_neg (by simpa using hmore), hid]
      rw [hgrown, Pool.append_eq id hmore hid, ← hc.sole_eq]
      refine ⟨rfl, ?_⟩
      intro block
      cases h with
      | empty => exact hc.growAnew hp hid _ block
      | window w =>
        simp only [Pool.grow, grown]
        split
        · -- the handle stays on its block
          have hreplace := Pool.countOn_replace
            (p := { c.pool with blocks := c.pool.blocks.setIfInBounds w.block
                                  (c.pool.read (.window w) ++ more).toArray })
            hid (.window ⟨w.block, 0, (c.pool.read (.window w) ++ more).length⟩) block
          rw [Pool.growInPlace, hreplace, hc block]
          show c.pool.countOn block = (c.pool.countOn block - _) + _
          rename_i hone
          rw [hc.sole_eq, decide_eq_true_eq] at hone
          by_cases heq : w.block = block
          · subst heq
            simp [Handle.block?, hone]
          · simp [Handle.block?, heq]
        · exact hc.growAnew hp hid _ block

/-- **Operations keep the counts exact**, and do to the pool what they do to it without counts. -/
theorem Exact.perform (hc : c.Exact) (hp : c.pool.Represents v) (op : Operation) :
    (∃ c', c.perform op = .ok c' ∧ c.pool.perform op = .ok c'.pool ∧ c'.Exact) ∨
      ∃ fault, c.perform op = .error fault ∧ c.pool.perform op = .error fault := by
  cases op with
  | new => exact .inl ⟨_, rfl, rfl, hc.store hp []⟩
  | ofBytes bs => exact .inl ⟨_, rfl, rfl, hc.store hp bs⟩
  | clone id => exact .inl ⟨_, rfl, rfl, hc.share _⟩
  | copy id => exact .inl ⟨_, rfl, rfl, hc.store hp _⟩
  | append id more =>
    obtain ⟨hpool, hexact⟩ := hc.append hp id more
    exact .inl ⟨_, rfl, by rw [hpool]; rfl, hexact⟩
  | drop id => exact .inl ⟨_, rfl, rfl, hc.drop id⟩
  | sub id first last =>
    by_cases hr : Refused first last ((c.pool.handle? id).getD .empty).length
    · obtain ⟨fault, hfault⟩ := Pool.sub_of_refused rfl hr
      exact .inr ⟨fault, by rw [Counted.perform, hfault]; rfl, by rw [Pool.perform, hfault]; rfl⟩
    · have hsub := Pool.sub_of_not_refused rfl hr
      exact .inl ⟨_, by rw [Counted.perform, hsub]; rfl, by rw [Pool.perform, hsub]; rfl,
        hc.share _⟩

theorem exact_after (hc : c.Exact) (hp : c.pool.Represents v) (ops : List Operation) :
    (c.after ops).pool = c.pool.after ops ∧ (c.after ops).Exact := by
  -- induction on the operations; a failing one leaves both as they are
  induction ops generalizing c v with
  | nil => exact ⟨rfl, hc⟩
  | cons op rest ih =>
    rw [after, Pool.after]
    rcases hc.perform hp op with ⟨c', hcounted, hpool, hexact⟩ | ⟨fault, hcounted, hpool⟩
    · rw [hcounted, hpool]
      rcases hp.perform op with ⟨p', v', hpool', -, hnext⟩ | ⟨⟨fault, hpool'⟩, -⟩
      · rw [hpool] at hpool'
        cases hpool'
        exact ih hexact hnext
      · rw [hpool] at hpool'
        cases hpool'
    · rw [hcounted, hpool]
      exact ih hc hp

end Counted

/-! ## (4) What a reader of buffers relies on -/

namespace Pool

/-- **A pool is faithful** to plain values `v` and counts `c`. -/
structure Faithful (p : Pool) (v : Values) (c : Counted) : Prop where
  /-- Each handle reads its value, and those that were dropped read nothing. -/
  reads : ∀ id, (p.handle? id).map p.read = v.value? id
  /-- Appending to what one handle reads changes what no other one reads. -/
  apart : ∀ id more other, other ≠ id → (p.append id more).bytes other = p.bytes other
  /-- A part cannot be cut exactly if its range is refused. -/
  refuses : ∀ id first last,
    (∃ fault, p.sub id first last = .error fault) ↔ Refused first last (p.bytes id).length
  /-- And else the new handle reads the slice. -/
  cuts : ∀ id first last, ¬Refused first last (p.bytes id).length →
    ∃ made next, p.sub id first last = .ok (made, next) ∧
      next.bytes made = slice first last (p.bytes id)
  /-- A window lies in its block. -/
  inside : ∀ id w, p.handle? id = some (.window w) →
    ∃ bs, p.blocks[w.block]? = some bs ∧ w.start + w.length ≤ bs.size
  /-- A handle that reads nothing has no storage, and one that reads something has. -/
  storage : ∀ id, p.block? id = none ↔ p.bytes id = []
  /-- The count that is kept of a handle's storage is the number of handles on it. -/
  counted : c.pool = p ∧ ∀ id, c.shareCount id = p.shareCount id
  /-- Two handles have the same storage if neither reads nothing and their blocks are the same. -/
  shared : ∀ a b, p.sameStorage a b = true ↔
    p.bytes a ≠ [] ∧ p.bytes b ≠ [] ∧ p.block? a = p.block? b

variable {p : Pool} {v : Values}

theorem Represents.block?_eq_none (hp : p.Represents v) (id : HandleId) :
    p.block? id = none ↔ p.bytes id = [] := by
  rw [block?, bytes]
  cases hid : p.handle? id with
  | none => simp
  | some h => simpa using Pool.block?_eq_none (hp.holds hid)

theorem sameStorage_iff (a b : HandleId) :
    p.sameStorage a b = true ↔
      p.block? a ≠ none ∧ p.block? b ≠ none ∧ p.block? a = p.block? b := by
  rw [sameStorage]
  cases p.block? a <;> cases p.block? b <;> simp

theorem Represents.apart (hp : p.Represents v) (id : HandleId) (more : Bytes) {other : HandleId}
    (hne : other ≠ id) : (p.append id more).bytes other = p.bytes other := by
  rw [(hp.append id more).bytes_eq, hp.bytes_eq, Values.bytes, Values.value?_modify,
    if_neg hne.symm, Values.bytes]

theorem Represents.length_getD (hp : p.Represents v) (id : HandleId) :
    (p.bytes id).length = ((p.handle? id).getD .empty).length := by
  rw [hp.bytes_eq, ← hp.read_getD, length_read (hp.holds_getD id)]

theorem bytes_add_self (p : Pool) (h : Handle) : (p.add h).2.bytes (p.add h).1 = p.read h := by
  rw [bytes, handle?_add_self]
  rfl

theorem Represents.refuses (hp : p.Represents v) (id : HandleId) (first last : Bound) :
    (∃ fault, p.sub id first last = .error fault) ↔ Refused first last (p.bytes id).length := by
  rw [hp.length_getD]
  constructor
  · rintro ⟨fault, hfault⟩
    by_contra hr
    rw [sub_of_not_refused rfl hr] at hfault
    cases hfault
  · exact sub_of_refused rfl

theorem Represents.cuts (hp : p.Represents v) (id : HandleId) (first last : Bound)
    (hr : ¬Refused first last (p.bytes id).length) :
    ∃ made next, p.sub id first last = .ok (made, next) ∧
      next.bytes made = slice first last (p.bytes id) := by
  rw [hp.length_getD] at hr
  obtain ⟨-, hslice⟩ := read_part_of_not_refused (hp.holds_getD id) hr
  rw [hp.read_getD, ← hp.bytes_eq] at hslice
  exact ⟨_, _, sub_of_not_refused rfl hr, (p.bytes_add_self _).trans hslice⟩

/-- **Shared buffers are plain values.** After any operations on any number of handles, made in any
order, each handle reads what a byte string of its own would be, no window reaches beyond its block, and
the counts that the blocks carry are the numbers of the handles on them. -/
theorem faithful_after (ops : List Operation) :
    (after {} ops).Faithful (Values.after [] ops) (Counted.after {} ops) := by
  have hp := represents_after represents_empty ops
  have hc : Counted.Exact {} := fun _ => rfl
  obtain ⟨hpool, hexact⟩ := Counted.exact_after hc represents_empty ops
  have hblock := hp.block?_eq_none
  refine ⟨hp.reads, fun id more _ hne => hp.apart id more hne, hp.refuses, hp.cuts, ?_, hblock,
    ⟨hpool, ?_⟩, ?_⟩
  · intro id w hid
    exact (hp.holds hid).2.2
  · intro id
    rw [Counted.shareCount, shareCount, hpool]
    cases (after {} ops).block? id with
    | none => rfl
    | some block => exact (hexact block).trans (by rw [hpool])
  · intro a b
    rw [sameStorage_iff, Ne, hblock a, Ne, hblock b]

end Pool

end HtmlStream.Buffer

import HtmlStream.Proofs.Delivery

/-! # Shared buffers read as plain values

Handles share blocks of storage, and a block may be overwritten in place. None of this can be read:
whatever is done with the buffers of a pool, each handle reads what a byte string of its own would be
after the same operations. What makes it so is that a block is overwritten only through the one handle
on it.

* **`Operation`**, **`Pool.after`**: what can be done with buffers.
* **`Values`**, **`Values.after`**: the same with independent byte strings.
* **`Refused`**: the ranges that no part is cut from.
* **`Represents`**: a pool that reads as given values, with every window inside its block.
* **`represents_after`**: whatever is done, the pool reads as the values. -/

namespace HtmlStream.Buffer

/-! ## (1) Operations -/

/-- An operation on buffers. -/
inductive Operation where
  /-- Makes the empty buffer. -/
  | new
  /-- Makes a buffer of given bytes. -/
  | ofBytes (bs : Bytes)
  /-- Makes another handle on what a handle reads. -/
  | clone (id : HandleId)
  /-- Makes a buffer of a copy of what a handle reads. -/
  | copy (id : HandleId)
  /-- Makes a handle on a part of what a handle reads. -/
  | sub (id : HandleId) (first last : Bound)
  /-- Appends to what a handle reads. -/
  | append (id : HandleId) (more : Bytes)
  /-- Drops a handle. -/
  | drop (id : HandleId)
  deriving DecidableEq, Repr

/-- Performs an operation, which fails if it is to cut a part that is not there. -/
def Pool.perform (p : Pool) : Operation → Except RangeFault Pool
  | .new => .ok (p.ofBytes []).2
  | .ofBytes bs => .ok (p.ofBytes bs).2
  | .clone id => .ok (p.clone id).2
  | .copy id => .ok (p.copy id).2
  | .sub id first last => (p.sub id first last).map Prod.snd
  | .append id more => .ok (p.append id more)
  | .drop id => .ok (p.drop id)

/-- The pool after operations, of which those that fail change nothing. -/
def Pool.after (p : Pool) : List Operation → Pool
  | [] => p
  | op :: rest =>
    match p.perform op with
    | .ok next => next.after rest
    | .error _ => p.after rest

/-! ## (2) Ranges -/

namespace Bound

/-- The first position of a range that begins with the bound. -/
def start : Bound → Nat
  | .unbounded => 0
  | .included n => n
  | .excluded n => n + 1

/-- The position behind a range that ends with the bound, in a buffer of a given length. -/
def stop (length : Nat) : Bound → Nat
  | .unbounded => length
  | .included n => n + 1
  | .excluded n => n

/-- The bound excludes the position in front of the range, and behind that position there is no
word. -/
def startOverflows : Bound → Bool
  | .excluded n => Word.greatest ≤ n
  | .unbounded | .included _ => false

/-- The bound includes the last position of the range, and behind that position there is no word. -/
def stopOverflows : Bound → Bool
  | .included n => Word.greatest ≤ n
  | .unbounded | .excluded _ => false

theorem first_eq {b : Bound} (h : b.startOverflows = false) : b.first = .ok b.start := by
  cases b with
  | excluded n =>
    have hlt : n < Word.greatest := by simpa [startOverflows] using h
    rw [first, positionAfter, if_pos hlt, start]
  | _ => rfl

theorem last_eq {b : Bound} (length : Nat) (h : b.stopOverflows = false) :
    b.last length = .ok (b.stop length) := by
  cases b with
  | included n =>
    have hlt : n < Word.greatest := by simpa [stopOverflows] using h
    rw [last, positionAfter, if_pos hlt, stop]
  | _ => rfl

theorem first_of_overflows {b : Bound} (h : b.startOverflows = true) :
    ∃ n, b.first = .error (.overflow n) := by
  cases b with
  | excluded n =>
    have hle : ¬n < Word.greatest := by simpa [startOverflows] using h
    exact ⟨n, by rw [first, positionAfter, if_neg hle]⟩
  | _ => simp [startOverflows] at h

theorem last_of_overflows {b : Bound} (length : Nat) (h : b.stopOverflows = true) :
    ∃ n, b.last length = .error (.overflow n) := by
  cases b with
  | included n =>
    have hle : ¬n < Word.greatest := by simpa [stopOverflows] using h
    exact ⟨n, by rw [last, positionAfter, if_neg hle]⟩
  | _ => simp [stopOverflows] at h

end Bound

/-- **When a range is refused**: one of its bounds has no word behind it, or the range is not inside
the buffer. -/
def Refused (first last : Bound) (length : Nat) : Prop :=
  first.startOverflows ∨ last.stopOverflows ∨ last.stop length < first.start ∨
    length < last.stop length

instance (first last : Bound) (length : Nat) : Decidable (Refused first last length) :=
  inferInstanceAs (Decidable (_ ∨ _))

/-- The bytes of a range. -/
def slice (first last : Bound) (bs : Bytes) : Bytes :=
  (bs.drop first.start).take (last.stop bs.length - first.start)

/-! ## (3) Plain values -/

/-- Byte strings that share nothing, numbered as they are made; none where one was dropped. -/
abbrev Values := List (Option Bytes)

namespace Values

/-- The byte string of a number, none if it was dropped. -/
def value? (v : Values) (id : HandleId) : Option Bytes := v[id]?.join

/-- The bytes of a number. -/
def bytes (v : Values) (id : HandleId) : Bytes := (v.value? id).getD []

/-- Performs an operation, none if it fails. It changes the byte string it is about and no other. -/
def perform (v : Values) : Operation → Option Values
  | .new => some (v ++ [some []])
  | .ofBytes bs => some (v ++ [some bs])
  | .clone id | .copy id => some (v ++ [some (v.bytes id)])
  | .sub id first last =>
    if Refused first last (v.bytes id).length then none
    else some (v ++ [some (slice first last (v.bytes id))])
  | .append id more => some (v.modify id (·.map (· ++ more)))
  | .drop id => some (v.set id none)

/-- The values after operations, of which those that fail change nothing. -/
def after (v : Values) : List Operation → Values
  | [] => v
  | op :: rest => ((v.perform op).getD v).after rest

theorem value?_append (v : Values) (bs : Option Bytes) (id : HandleId) :
    value? (v ++ [bs]) id = if id = v.length then bs else v.value? id := by
  unfold value?
  rcases Nat.lt_trichotomy id v.length with h | h | h
  · rw [List.getElem?_append_left h, if_neg (Nat.ne_of_lt h)]
  · subst h
    simp
  · rw [List.getElem?_eq_none (by simpa using Nat.succ_le_of_lt h), if_neg (Nat.ne_of_gt h),
      List.getElem?_eq_none (Nat.le_of_lt h)]

theorem value?_modify (v : Values) (id id' : HandleId) (f : Bytes → Bytes) :
    value? (v.modify id (·.map f)) id'
      = if id = id' then (v.value? id').map f else v.value? id' := by
  unfold value?
  rw [List.getElem?_modify]
  split
  · rcases v[id']? with _ | _ | bs <;> rfl
  · simp

theorem value?_set (v : Values) (id id' : HandleId) (bs : Option Bytes) :
    value? (v.set id bs) id'
      = if id = id' ∧ id < v.length then bs else v.value? id' := by
  unfold value?
  by_cases h : id = id'
  · subst h
    by_cases hlt : id < v.length
    · simp [hlt]
    · rw [if_neg (by simp [hlt]), List.set_eq_of_length_le (Nat.le_of_not_lt hlt)]
  · rw [List.getElem?_set_ne h, if_neg (by simp [h])]

end Values

namespace Pool

variable {p : Pool}

/-! ## (4) Windows inside their blocks -/

/-- **A handle stands for a window of a block**: some bytes, inside it. The empty buffer has none. -/
def Holds (p : Pool) : Handle → Prop
  | .empty => True
  | .window w => 0 < w.length ∧ p.Inside w.block (.window w)

/-- The window of a handle is as long as what the handle reads. -/
theorem length_read {h : Handle} (hh : p.Holds h) : (p.read h).length = h.length := by
  cases h with
  | empty => rfl
  | window w =>
    obtain ⟨-, -, bs, hbs, hbound⟩ := hh
    rw [read, window, Array.getD_eq_getD_getElem?, hbs]
    simp only [Option.getD_some, Array.length_toList, Array.size_extract, Handle.length]
    omega

theorem block?_eq_none {h : Handle} (hh : p.Holds h) : h.block? = none ↔ p.read h = [] := by
  cases h with
  | empty => simp [Handle.block?, read]
  | window w =>
    have hlen : (p.read (.window w)).length = w.length := length_read hh
    have hpos := hh.1
    constructor
    · simp [Handle.block?]
    · intro hnil
      rw [hnil, List.length_nil] at hlen
      omega

/-- A part of a window is one, or is empty and has no block. -/
theorem holds_part {h : Handle} (hh : p.Holds h) {start stop : Nat} (hle : start ≤ stop)
    (hstop : stop ≤ h.length) : p.Holds (h.part start stop) := by
  cases h with
  | empty => trivial
  | window w =>
    have hpart := p.inside_part hh.2 hle hstop
    rw [Handle.part] at hpart ⊢
    split
    · trivial
    · rename_i hne
      rw [if_neg hne] at hpart
      exact ⟨show 0 < stop - start by omega, hpart⟩

/-- A new block changes no other. -/
theorem holds_push {h : Handle} (hh : p.Holds h) (bs : Array UInt8) :
    Holds { p with blocks := p.blocks.push bs } h := by
  cases h with
  | empty => trivial
  | window w =>
    obtain ⟨hpos, -, bs', hbs, hbound⟩ := hh
    refine ⟨hpos, rfl, bs', ?_, hbound⟩
    have hlt : w.block < p.blocks.size := (Array.getElem?_eq_some_iff.mp hbs).1
    rw [Array.getElem?_push_lt hlt, ← Array.getElem?_eq_getElem hlt, hbs]

theorem read_push {h : Handle} (hh : p.Holds h) (bs : Array UInt8) :
    read { p with blocks := p.blocks.push bs } h = p.read h := by
  cases h with
  | empty => rfl
  | window w =>
    obtain ⟨-, -, bs', hbs, -⟩ := hh
    have hlt : w.block < p.blocks.size := (Array.getElem?_eq_some_iff.mp hbs).1
    simp only [read, window, Array.getD_eq_getD_getElem?]
    rw [Array.getElem?_push_lt hlt, ← Array.getElem?_eq_getElem hlt]

/-- A handle on all of a block reads it. -/
theorem read_whole {block : Nat} {bs : Bytes} (hblock : p.blocks[block]? = some bs.toArray) :
    p.read (.window ⟨block, 0, bs.length⟩) = bs := by
  rw [read, window_eq, Array.getD_eq_getD_getElem?, hblock]
  simp

theorem holds_whole {block : Nat} {bs : Bytes} (hblock : p.blocks[block]? = some bs.toArray)
    (hne : bs ≠ []) : p.Holds (.window ⟨block, 0, bs.length⟩) :=
  ⟨List.length_pos_iff.mpr hne, rfl, bs.toArray, hblock, by simp⟩

/-! ## (5) Pools that read as values -/

/-- **A pool reads as values**, number by number, and its handles stand for windows of its blocks. -/
structure Represents (p : Pool) (v : Values) : Prop where
  /-- As many handles were made as values. -/
  size : p.handles.size = v.length
  /-- Handles that were not dropped stand for windows. -/
  holds : ∀ {id h}, p.handle? id = some h → p.Holds h
  /-- They read the values. -/
  reads : ∀ id, (p.handle? id).map p.read = v.value? id

variable {v : Values}

theorem Represents.bytes_eq (h : p.Represents v) (id : HandleId) : p.bytes id = v.bytes id := by
  rw [bytes, h.reads, Values.bytes]

/-- What is found under a number, or the empty buffer, stands for a window. -/
theorem Represents.holds_getD (h : p.Represents v) (id : HandleId) :
    p.Holds ((p.handle? id).getD .empty) := by
  cases hid : p.handle? id with
  | none => trivial
  | some hd => exact h.holds hid

theorem Represents.read_getD (h : p.Represents v) (id : HandleId) :
    p.read ((p.handle? id).getD .empty) = v.bytes id := by
  rw [← h.bytes_eq, bytes]
  cases p.handle? id <;> rfl

theorem handle?_add (h : Handle) (id : HandleId) :
    (p.add h).2.handle? id = if id = p.handles.size then some h else p.handle? id := by
  rw [handle?, handle?, add, Array.getElem?_push]
  split <;> rfl

theorem handle?_replace (id id' : HandleId) (h : Handle) :
    (p.replace id h).handle? id'
      = if id = id' ∧ id < p.handles.size then some h else p.handle? id' := by
  rw [handle?, handle?, replace, Array.getElem?_setIfInBounds]
  by_cases heq : id = id'
  · subst heq
    by_cases hlt : id < p.handles.size
    · simp [hlt]
    · simp [hlt]
  · simp [heq]

theorem handle?_drop_eq (id id' : HandleId) :
    (p.drop id).handle? id' = if id = id' then none else p.handle? id' := by
  rw [handle?, handle?, drop, Array.getElem?_setIfInBounds]
  split
  · split <;> rfl
  · rfl

/-- **A new handle** reads one more value. -/
theorem Represents.add (hp : p.Represents v) {h : Handle} (hh : p.Holds h) :
    (p.add h).2.Represents (v ++ [some (p.read h)]) where
  size := by simp [Pool.add, hp.size]
  holds := by
    intro id h' hid
    rw [handle?_add] at hid
    split at hid
    · cases hid
      exact hh
    · exact hp.holds hid
  reads := by
    intro id
    rw [handle?_add, Values.value?_append, hp.size]
    split
    · rfl
    · exact hp.reads id

/-- **A new block** cannot be read through the handles there are. -/
theorem Represents.push (hp : p.Represents v) (bs : Array UInt8) :
    Represents { p with blocks := p.blocks.push bs } v where
  size := hp.size
  holds := fun hid => holds_push (hp.holds hid) bs
  reads := by
    intro id
    rw [← hp.reads]
    show (p.handle? id).map _ = _
    cases hid : p.handle? id with
    | none => rfl
    | some h => exact congrArg some (read_push (hp.holds hid) bs)

/-- **Another window** for a handle changes the value of that handle. -/
theorem Represents.replace (hp : p.Represents v) {id : HandleId} {h h' : Handle}
    (hid : p.handle? id = some h) (hh : p.Holds h') {f : Bytes → Bytes}
    (hread : p.read h' = f (p.read h)) :
    (p.replace id h').Represents (v.modify id (·.map f)) where
  size := by simp [Pool.replace, hp.size]
  holds := by
    intro id' hd hd'
    rw [handle?_replace] at hd'
    split at hd'
    · cases hd'
      exact hh
    · exact hp.holds hd'
  reads := by
    intro id'
    have hlt : id < p.handles.size := lt_of_handle? hid
    rw [handle?_replace, Values.value?_modify]
    by_cases heq : id = id'
    · subst heq
      rw [if_pos ⟨rfl, hlt⟩, if_pos rfl, ← hp.reads, hid]
      exact congrArg some hread
    · rw [if_neg (fun hand => heq hand.1), if_neg heq]
      exact hp.reads id'

/-- **A dropped handle** reads nothing, and the others what they read. -/
theorem Represents.drop (hp : p.Represents v) (id : HandleId) :
    (p.drop id).Represents (v.set id none) where
  size := by simp [Pool.drop, hp.size]
  holds := by
    intro id' h hid
    rw [handle?_drop_eq] at hid
    split at hid
    · cases hid
    · exact hp.holds hid
  reads := by
    intro id'
    rw [handle?_drop_eq, Values.value?_set]
    by_cases heq : id = id'
    · subst heq
      rw [if_pos rfl]
      split
      · rfl
      · rename_i hlt
        rw [not_and] at hlt
        have hge : v.length ≤ id := Nat.le_of_not_lt (hlt rfl)
        rw [Values.value?, List.getElem?_eq_none hge]
        rfl
    · rw [if_neg heq, if_neg (fun hand => heq hand.1)]
      exact hp.reads id'

/-! ## (6) Growing in place -/

/-- What the table of handles holds. -/
theorem getElem_handles {id : HandleId} (hlt : id < p.handles.size) :
    p.handles[id] = p.handle? id := by
  rw [handle?, Array.getElem?_eq_getElem hlt]
  rfl

/-- **The one handle on a block**: no other handle reads it. -/
theorem block_ne_of_countOn_eq_one {block : Nat} (hone : p.countOn block = 1) {id id' : HandleId}
    {h h' : Handle} (hid : p.handle? id = some h) (hblock : h.block? = some block)
    (hid' : p.handle? id' = some h') (hne : id ≠ id') : h'.block? ≠ some block := by
  intro hblock'
  -- without the one, the other would be counted still
  have hlt : id < p.handles.size := lt_of_handle? hid
  have hget : p.handles[id] = some h := (getElem_handles hlt).trans hid
  have hzero : (p.handles.set id none hlt).countP (fun h => h.bind Handle.block? = some block) = 0 := by
    rw [Array.countP_set, hget]
    have hone' : p.handles.countP (fun h => h.bind Handle.block? = some block) = 1 := hone
    simp [hone', hblock]
  have hlt' : id' < p.handles.size := lt_of_handle? hid'
  have hget' : (p.handles.set id none hlt)[id']? = some (some h') := by
    rw [Array.getElem?_set_ne hlt hne, Array.getElem?_eq_getElem hlt', getElem_handles hlt', hid']
  rw [Array.countP_eq_zero] at hzero
  exact hzero (some h') (Array.mem_of_getElem? hget') (by simpa using hblock')

/-- Overwriting a block changes no window of another one. -/
theorem holds_overwrite {block : Nat} {h : Handle} (hh : p.Holds h) (hne : h.block? ≠ some block)
    (bs : Array UInt8) : Holds { p with blocks := p.blocks.setIfInBounds block bs } h := by
  cases h with
  | empty => trivial
  | window w =>
    obtain ⟨hpos, -, bs', hbs, hbound⟩ := hh
    refine ⟨hpos, rfl, bs', ?_, hbound⟩
    have hother : block ≠ w.block := fun heq => hne (by rw [heq]; rfl)
    rw [Array.getElem?_setIfInBounds_ne hother, hbs]

theorem read_overwrite {block : Nat} {h : Handle} (hne : h.block? ≠ some block) (bs : Array UInt8) :
    read { p with blocks := p.blocks.setIfInBounds block bs } h = p.read h := by
  cases h with
  | empty => rfl
  | window w =>
    have hother : block ≠ w.block := fun heq => hne (by rw [heq]; rfl)
    simp only [read, window, Array.getD_eq_getD_getElem?]
    rw [Array.getElem?_setIfInBounds_ne hother]

/-- The bytes of a block, overwritten in place and read by the one handle on it. -/
def growInPlace (p : Pool) (id : HandleId) (block : Nat) (bs : Bytes) : Pool :=
  { p with blocks := p.blocks.setIfInBounds block bs.toArray }.replace id
    (.window ⟨block, 0, bs.length⟩)

/-- The bytes of a new block, read by a handle that leaves the old one. -/
def growAnew (p : Pool) (id : HandleId) (bs : Bytes) : Pool :=
  { p with blocks := p.blocks.push bs.toArray }.replace id (.window ⟨p.blocks.size, 0, bs.length⟩)

/-- Growing: in place if `sole` says that no other handle is on the block. -/
def grow (p : Pool) (id : HandleId) (sole : Nat → Bool) (bs : Bytes) : Handle → Pool
  | .empty => p.growAnew id bs
  | .window w => if sole w.block then p.growInPlace id w.block bs else p.growAnew id bs

theorem append_eq (id : HandleId) {more : Bytes} (hmore : more ≠ []) {h : Handle}
    (hid : p.handle? id = some h) :
    p.append id more = p.grow id (fun block => p.countOn block = 1) (p.read h ++ more) h := by
  unfold append
  rw [if_neg (by simpa using hmore), hid]
  cases h with
  | empty => rfl
  | window w => simp only [grow, decide_eq_true_eq, growInPlace, growAnew]

theorem Represents.growAnew (hp : p.Represents v) {id : HandleId} {h : Handle}
    (hid : p.handle? id = some h) {more : Bytes} (hmore : more ≠ []) :
    (p.growAnew id (p.read h ++ more)).Represents (v.modify id (·.map (· ++ more))) := by
  have hblock : (p.blocks.push (p.read h ++ more).toArray)[p.blocks.size]?
      = some (p.read h ++ more).toArray := by simp
  refine (hp.push (p.read h ++ more).toArray).replace hid (holds_whole hblock (by simp [hmore])) ?_
  rw [read_whole hblock, read_push (hp.holds hid)]

/-- Growing in place, through the one handle on the block. -/
theorem Represents.growInPlace (hp : p.Represents v) {id : HandleId} {w : Window}
    (hid : p.handle? id = some (.window w)) (hone : p.countOn w.block = 1) {more : Bytes}
    (hmore : more ≠ []) :
    (p.growInPlace id w.block (p.read (.window w) ++ more)).Represents
      (v.modify id (·.map (· ++ more))) := by
  obtain ⟨-, -, old, hold, -⟩ := hp.holds hid
  have hlt : w.block < p.blocks.size := (Array.getElem?_eq_some_iff.mp hold).1
  have hlt' : id < p.handles.size := lt_of_handle? hid
  have hblock : (p.blocks.setIfInBounds w.block (p.read (.window w) ++ more).toArray)[w.block]?
      = some (p.read (.window w) ++ more).toArray := by simp [hlt]
  have hothers {id' : HandleId} {h' : Handle} (hid' : p.handle? id' = some h') (hne : id ≠ id') :
      h'.block? ≠ some w.block := block_ne_of_countOn_eq_one hone hid rfl hid' hne
  refine ⟨?_, ?_, ?_⟩
  · simp [Pool.growInPlace, Pool.replace, hp.size]
  · intro id' h' hid'
    rw [Pool.growInPlace, handle?_replace] at hid'
    split at hid'
    · cases hid'
      exact holds_whole hblock (by simp [hmore])
    · rename_i hother
      exact holds_overwrite (hp.holds hid') (hothers hid' fun heq => hother ⟨heq, hlt'⟩) _
  · intro id'
    rw [Pool.growInPlace, handle?_replace, Values.value?_modify, ← hp.reads]
    by_cases heq : id = id'
    · subst heq
      rw [if_pos ⟨rfl, hlt'⟩, if_pos rfl, hid]
      exact congrArg some (read_whole hblock)
    · rw [if_neg (fun hand => heq hand.1), if_neg heq]
      show (p.handle? id').map _ = _
      cases hid' : p.handle? id' with
      | none => rfl
      | some h' => exact congrArg some (read_overwrite (hothers hid' heq) _)

/-! ## (7) Every operation -/

theorem Represents.ofBytes (hp : p.Represents v) (bs : Bytes) :
    (p.ofBytes bs).2.Represents (v ++ [some bs]) := by
  unfold Pool.ofBytes
  split
  · rename_i hnil
    rw [List.isEmpty_iff.mp hnil]
    exact hp.add (h := .empty) trivial
  · rename_i hne
    have hblock : (p.blocks.push bs.toArray)[p.blocks.size]? = some bs.toArray := by simp
    have hnew := (hp.push bs.toArray).add (holds_whole hblock (by simpa using hne))
    rw [read_whole hblock] at hnew
    exact hnew

/-- A new buffer has the next number. -/
theorem ofBytes_fst (p : Pool) (bs : Bytes) : (p.ofBytes bs).1 = p.handles.size := by
  unfold Pool.ofBytes
  split <;> rfl

theorem size_ofBytes (p : Pool) (bs : Bytes) :
    (p.ofBytes bs).2.handles.size = p.handles.size + 1 := by
  unfold Pool.ofBytes
  split <;> simp [Pool.add]

theorem Represents.clone (hp : p.Represents v) (id : HandleId) :
    (p.clone id).2.Represents (v ++ [some (v.bytes id)]) := by
  rw [← hp.read_getD]
  exact hp.add (hp.holds_getD id)

/-- Nothing to append changes nothing, and neither does appending to what was dropped. -/
theorem Represents.append (hp : p.Represents v) (id : HandleId) (more : Bytes) :
    (p.append id more).Represents (v.modify id (·.map (· ++ more))) := by
  by_cases hmore : more = []
  · have hvalues : v.modify id (·.map (· ++ more)) = v := by
      rw [hmore]
      have hsame : (fun value : Option Bytes => value.map (· ++ [])) = fun value => value := by
        funext value
        simp
      rw [hsame]
      exact List.modify_id id v
    rw [hvalues, Pool.append, if_pos (by simp [hmore])]
    exact hp
  · cases hid : p.handle? id with
    | none =>
      have hsame : p.append id more = p := by
        rw [Pool.append, if_neg (by simpa using hmore), hid]
      rw [hsame]
      refine ⟨by simp [hp.size], hp.holds, ?_⟩
      intro id'
      rw [Values.value?_modify, ← hp.reads]
      split
      · rename_i heq
        subst heq
        rw [hid]
        rfl
      · rfl
    | some h =>
      rw [append_eq id hmore hid]
      cases h with
      | empty => exact hp.growAnew hid hmore
      | window w =>
        rw [grow]
        split
        · rename_i hone
          exact hp.growInPlace hid (of_decide_eq_true hone) hmore
        · exact hp.growAnew hid hmore

/-- **A range that is not refused** is cut. -/
theorem sub_of_not_refused {id : HandleId} {first last : Bound} {h : Handle}
    (hid : (p.handle? id).getD .empty = h) (hr : ¬Refused first last h.length) :
    p.sub id first last = .ok (p.add (h.part first.start (last.stop h.length))) := by
  simp only [Refused, not_or, Bool.not_eq_true, Nat.not_lt] at hr
  obtain ⟨hfirst, hlast, hle, hbound⟩ := hr
  rw [sub, hid, Bound.first_eq hfirst, Bound.last_eq _ hlast]
  show (if first.start ≤ last.stop h.length ∧ last.stop h.length ≤ h.length then _ else _) = _
  rw [if_pos ⟨hle, hbound⟩]
  rfl

/-- **A range that is refused** is not. -/
theorem sub_of_refused {id : HandleId} {first last : Bound} {h : Handle}
    (hid : (p.handle? id).getD .empty = h) (hr : Refused first last h.length) :
    ∃ fault, p.sub id first last = .error fault := by
  rw [sub, hid]
  cases hfirst : first.startOverflows with
  | true =>
    obtain ⟨n, hn⟩ := Bound.first_of_overflows hfirst
    exact ⟨_, by rw [hn]; rfl⟩
  | false =>
    rw [Bound.first_eq hfirst]
    cases hlast : last.stopOverflows with
    | true =>
      obtain ⟨n, hn⟩ := Bound.last_of_overflows h.length hlast
      exact ⟨_, by rw [hn]; rfl⟩
    | false =>
      simp only [Refused, hfirst, hlast, Bool.false_eq_true, false_or] at hr
      rw [Bound.last_eq _ hlast]
      refine ⟨.outside first.start (last.stop h.length) h.length, ?_⟩
      show (if first.start ≤ last.stop h.length ∧ last.stop h.length ≤ h.length then _ else _) = _
      rw [if_neg (by omega)]
      rfl

/-- Where a part is cut, it reads the slice. -/
theorem read_part_of_not_refused {h : Handle} (hh : p.Holds h) {first last : Bound}
    (hr : ¬Refused first last h.length) :
    p.Holds (h.part first.start (last.stop h.length)) ∧
      p.read (h.part first.start (last.stop h.length)) = slice first last (p.read h) := by
  simp only [Refused, not_or, Nat.not_lt] at hr
  refine ⟨holds_part hh hr.2.2.1 hr.2.2.2, ?_⟩
  rw [p.read_part h hr.2.2.1 hr.2.2.2, slice, length_read hh]

/-- **An operation on a pool is the operation on values**: it fails on both or on neither. -/
theorem Represents.perform (hp : p.Represents v) (op : Operation) :
    (∃ p' v', p.perform op = .ok p' ∧ v.perform op = some v' ∧ p'.Represents v') ∨
      (∃ fault, p.perform op = .error fault) ∧ v.perform op = none := by
  cases op with
  | new => exact .inl ⟨_, _, rfl, rfl, hp.ofBytes []⟩
  | ofBytes bs => exact .inl ⟨_, _, rfl, rfl, hp.ofBytes bs⟩
  | clone id => exact .inl ⟨_, _, rfl, rfl, hp.clone id⟩
  | copy id => exact .inl ⟨_, _, rfl, rfl, hp.bytes_eq id ▸ hp.ofBytes (p.bytes id)⟩
  | append id more => exact .inl ⟨_, _, rfl, rfl, hp.append id more⟩
  | drop id => exact .inl ⟨_, _, rfl, rfl, hp.drop id⟩
  | sub id first last =>
    have hh := hp.holds_getD id
    have hread := hp.read_getD id
    generalize hid : (p.handle? id).getD .empty = h at hh hread
    have hlength : (v.bytes id).length = h.length := by rw [← hread, length_read hh]
    by_cases hr : Refused first last h.length
    · obtain ⟨fault, hfault⟩ := sub_of_refused hid hr
      refine .inr ⟨⟨fault, by rw [Pool.perform, hfault]; rfl⟩, ?_⟩
      rw [Values.perform, hlength, if_pos hr]
    · obtain ⟨hpart, hslice⟩ := read_part_of_not_refused hh hr
      refine .inl ⟨_, _, by rw [Pool.perform, sub_of_not_refused hid hr]; rfl,
        by rw [Values.perform, hlength, if_neg hr], ?_⟩
      rw [← hread, ← hslice]
      exact hp.add hpart

/-- **Whatever is done with the buffers of a pool**, they read as plain values. -/
theorem represents_after (hp : p.Represents v) (ops : List Operation) :
    (p.after ops).Represents (v.after ops) := by
  -- induction on the operations; each keeps the pool and the values in step
  induction ops generalizing p v with
  | nil => exact hp
  | cons op rest ih =>
    rw [Pool.after, Values.after]
    rcases hp.perform op with ⟨p', v', hpool, hvalues, hnext⟩ | ⟨⟨fault, hpool⟩, hvalues⟩
    · rw [hpool, hvalues]
      exact ih hnext
    · rw [hpool, hvalues]
      exact ih hp

theorem represents_empty : ({} : Pool).Represents [] where
  size := rfl
  holds := by
    intro id h hid
    cases hid
  reads := fun _ => rfl

end Pool

end HtmlStream.Buffer

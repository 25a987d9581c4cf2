import HtmlStream.AtomTable
import HtmlStream.Proofs.Buffers.Counts
import Mathlib.Data.List.Nodup

/-! # Names are numbered once and for all

A table of names keeps each of them twice, in shared buffers: by number in a sequence, and as a key with
its number in a hash table, where names are looked up as bytes of somebody else. Buffers are lent to
callers, who may copy, cut, grow and drop what they hold. None of it comes between the two: a name has
one number, the position at which it was first entered, and a number has one name, for as long as the
table lives.

* **`Interner`**: the sequence and the hash table, for any hash. **`Interner.step`**: one event, a call
  of the table or something done to buffers elsewhere.
* **`distinct`**: the names entered, in the order of their first entries.
* **`Indexes`**: the sequence and the hash table say the same as the table of names.
  **`Indexes.step`**: each event keeps them so, and is answered alike.
* **`Interner.Numbers`**: what is to be seen of the numbers.
  **`Interner.numbers_of_length_le`**: that is what is seen. -/

namespace HtmlStream

open Buffer

/-! ## (1) Sequence and hash table -/

/-- A key of the hash table. -/
structure Interner.Slot where
  /-- The hash of the name, which says where the key is looked for. -/
  hash : Nat
  /-- A handle on the name. -/
  key : HandleId
  /-- The number of the name. -/
  number : Nat
  deriving DecidableEq, Repr

/-- A table of names in shared buffers. -/
structure Interner where
  /-- All buffers there are, those of callers among them. -/
  pool : Pool := {}
  /-- Handles on the names, in the order of their numbers. -/
  entries : Array HandleId := #[]
  /-- The hash table. -/
  slots : List Interner.Slot := []
  deriving DecidableEq, Repr

/-- Something that happens while a table lives. -/
inductive Interner.Event where
  /-- A name is entered. -/
  | intern (name : Bytes)
  /-- The number of a name is asked for. -/
  | get (name : Bytes)
  /-- The name of a number is asked for. -/
  | resolve (id : Nat)
  /-- A handle on the name of a number is asked for. -/
  | resolveShared (id : Nat)
  /-- Something is done to a buffer elsewhere. -/
  | elsewhere (op : Operation)
  deriving DecidableEq, Repr

/-- What comes of an event. -/
inductive Interner.Answer where
  /-- The number of a name that was entered. -/
  | entered (id : Nat)
  /-- There is no number left. -/
  | exhausted
  /-- The number of a name, if it has one. -/
  | number (id : Option Nat)
  /-- The bytes of a number, if it has a name. -/
  | name (bs : Option Bytes)
  /-- None. -/
  | silent
  deriving DecidableEq, Repr

/-- The handle that an operation changes. -/
def Buffer.Operation.target? : Operation → Option HandleId
  | .append id _ | .drop id => some id
  | .new | .ofBytes _ | .clone _ | .copy _ | .sub .. => none

namespace Interner

/-- How many numbers there are. -/
def limit : Nat := UInt32.size

/-- The handles that the table itself holds. -/
def owned (i : Interner) : List HandleId := i.entries.toList ++ i.slots.map Slot.key

/-- The name of a number. -/
def resolve? (i : Interner) (id : Nat) : Option Bytes := i.entries[id]?.map i.pool.bytes

/-- One more handle on the name of a number. -/
def lend? (i : Interner) (id : Nat) : Option (HandleId × Interner) :=
  i.entries[id]?.map fun entry => ((i.pool.clone entry).1, { i with pool := (i.pool.clone entry).2 })

variable (hash : Bytes → Nat)

/-- The number of a name: that of the first key with its hash and its bytes. -/
def lookup? (i : Interner) (name : Bytes) : Option Nat :=
  (i.slots.find? fun s => s.hash == hash name && i.pool.bytes s.key == name).map Slot.number

/-- Enters a name: its bytes are stored once, with a handle for the hash table and one for the
sequence. -/
def enter (i : Interner) (name : Bytes) : Interner :=
  let (key, pool) := i.pool.ofBytes name
  let (entry, pool) := pool.clone key
  { pool
    entries := i.entries.push entry
    slots := ⟨hash (pool.bytes key), key, i.entries.size⟩ :: i.slots }

/-- The number of a name, which is entered if it is new and there is a number left. -/
def intern? (i : Interner) (name : Bytes) : Option (Nat × Interner) :=
  match i.lookup? hash name with
  | some id => some (id, i)
  | none => if limit ≤ i.entries.size then none else some (i.entries.size, i.enter hash name)

/-- One event. Nobody else has the handles of the table. -/
def step (i : Interner) : Event → Answer × Interner
  | .intern name =>
    match i.intern? hash name with
    | some (id, next) => (.entered id, next)
    | none => (.exhausted, i)
  | .get name => (.number (i.lookup? hash name), i)
  | .resolve id => (.name (i.resolve? id), i)
  | .resolveShared id =>
    match i.lend? id with
    | some (lent, next) => (.name (some (next.pool.bytes lent)), next)
    | none => (.name none, i)
  | .elsewhere op =>
    (.silent, if op.target?.any (· ∈ i.owned) then i else { i with pool := i.pool.after [op] })

/-- A table after events. -/
def after (i : Interner) : List Event → Interner
  | [] => i
  | e :: rest => (i.step hash e).2.after rest

/-- What comes of events, in order. -/
def answers (i : Interner) : List Event → List Answer
  | [] => []
  | e :: rest => (i.step hash e).1 :: (i.step hash e).2.answers rest

end Interner

namespace AtomTable

/-- One event, for the table of names alone. -/
def step (t : AtomTable) : Interner.Event → Interner.Answer × AtomTable
  | .intern name => (.entered (t.intern name).1, (t.intern name).2)
  | .get name => (.number (t.get? name), t)
  | .resolve id => (.name (t.resolve? id), t)
  | .resolveShared id => (.name ((t.resolveShared? id).map Prod.fst), t)
  | .elsewhere _ => (.silent, t)

/-- A table of names after events. -/
def after (t : AtomTable) : List Interner.Event → AtomTable
  | [] => t
  | e :: rest => (t.step e).2.after rest

/-- What comes of events, in order. -/
def answers (t : AtomTable) : List Interner.Event → List Interner.Answer
  | [] => []
  | e :: rest => (t.step e).1 :: (t.step e).2.answers rest

end AtomTable

namespace Interner

/-- The names entered, in order. -/
def interned (events : List Event) : List Bytes :=
  events.filterMap fun
    | .intern name => some name
    | _ => none

/-- **The names entered, in the order of their first entries.** -/
def distinct (events : List Event) : List Bytes := (interned events).eraseDups

/-! ## (2) Names in order -/

variable {events later : List Event} {name : Bytes}

theorem interned_append (events later : List Event) :
    interned (events ++ later) = interned events ++ interned later := List.filterMap_append

@[simp] theorem mem_distinct : name ∈ distinct events ↔ name ∈ interned events := List.mem_eraseDups

/-- A name that is entered comes last if it is new, and changes nothing if it is not. -/
theorem distinct_snoc_intern (events : List Event) (name : Bytes) :
    distinct (events ++ [.intern name])
      = if name ∈ distinct events then distinct events else distinct events ++ [name] := by
  have hone : interned [.intern name] = [name] := rfl
  rw [distinct, interned_append, hone, List.eraseDups_append]
  by_cases hname : name ∈ interned events
  · rw [if_pos (mem_distinct.mpr hname)]
    simp [List.removeAll, hname, distinct]
  · rw [if_neg (fun h => hname (mem_distinct.mp h))]
    simp [List.removeAll, hname, distinct, List.eraseDups_cons]

/-- No other event changes them. -/
theorem distinct_snoc_of_nil (events : List Event) {e : Event} (h : interned [e] = []) :
    distinct (events ++ [e]) = distinct events := by
  rw [distinct, interned_append, h, List.append_nil, distinct]

/-- **Names keep their positions**, whatever happens later. -/
theorem distinct_grows (events later : List Event) :
    distinct events <+: distinct (events ++ later) := by
  rw [distinct, distinct, interned_append, List.eraseDups_append]
  exact List.prefix_append _ _

theorem nodup_distinct (events : List Event) : (distinct events).Nodup := by
  induction events using List.reverseRecOn with
  | nil => exact List.nodup_nil
  | append_singleton events e ih =>
    cases e with
    | intern name =>
      rw [distinct_snoc_intern]
      split_ifs with hname
      · exact ih
      · rw [← List.concat_eq_append]
        exact ih.concat hname
    | _ =>
      rw [distinct_snoc_of_nil events rfl]
      exact ih

/-- The name of a position is found there. -/
theorem idxOf_eq {id : Nat}
    (h : (distinct events)[id]? = some name) : (distinct events).idxOf name = id := by
  obtain ⟨hlt, rfl⟩ := List.getElem?_eq_some_iff.mp h
  exact (nodup_distinct events).idxOf_getElem id hlt

/-- Those of a moment come first, at the end. -/
theorem distinct_entered (before later : List Event) (name : Bytes) :
    distinct (before ++ [.intern name]) <+: distinct (before ++ .intern name :: later) := by
  have hgrows := distinct_grows (before ++ [.intern name]) later
  rwa [List.append_assoc, List.singleton_append] at hgrows

/-- A name that is entered has its position from then on. -/
theorem idxOf_of_entered (before later : List Event) (name : Bytes) :
    (distinct (before ++ .intern name :: later)).idxOf name
      = (distinct (before ++ [.intern name])).idxOf name := by
  refine ((distinct_entered before later name).idxOf_eq_of_mem ?_).symm
  rw [mem_distinct, interned_append]
  exact List.mem_append_right _ List.mem_cons_self

end Interner

/-! ## (3) The table of names -/

namespace AtomTable

open Interner

variable {t : AtomTable} {name : Bytes}

/-- **Number and name**: where names are distinct, the one that is found has the number looked up. -/
theorem get?_eq_some_iff (h : t.names.toList.Nodup) {id : Nat} :
    t.get? name = some id ↔ t.names[id]? = some name := by
  rw [get?, Array.findIdx?_eq_some_iff_getElem, Array.getElem?_eq_some_iff]
  constructor
  · rintro ⟨hlt, hname, -⟩
    exact ⟨hlt, by simpa using hname⟩
  · rintro ⟨hlt, hname⟩
    refine ⟨hlt, by simpa using hname, ?_⟩
    intro j hj hother
    -- the name would stand twice
    have hsame : t.names.toList[j]? = t.names.toList[id]? := by
      rw [Array.getElem?_toList, Array.getElem?_toList, Array.getElem?_eq_getElem hlt, hname,
        Array.getElem?_eq_getElem (hj.trans hlt)]
      simpa using hother
    rw [List.getElem?_inj (by simpa using hj.trans hlt) h] at hsame
    omega

theorem get?_eq_none_iff : t.get? name = none ↔ name ∉ t.names.toList := by
  rw [get?, Array.findIdx?_eq_none_iff]
  constructor
  · intro h hmem
    have hne := h name (Array.mem_toList_iff.mp hmem)
    simp at hne
  · intro h other hother
    rw [beq_eq_false_iff_ne]
    rintro rfl
    exact h (Array.mem_toList_iff.mpr hother)

theorem after_append (t : AtomTable) (events later : List Event) :
    t.after (events ++ later) = (t.after events).after later := by
  induction events generalizing t with
  | nil => rfl
  | cons e rest ih => exact ih _

/-- **The names of a table are those entered, in the order of their first entries.** -/
theorem names_after (events : List Event) :
    (AtomTable.after {} events).names.toList = distinct events := by
  induction events using List.reverseRecOn with
  | nil => rfl
  | append_singleton events e ih =>
    rw [after_append]
    cases e with
    | intern name =>
      rw [distinct_snoc_intern, ← ih]
      show ((AtomTable.after {} events).intern name).2.names.toList = _
      rw [AtomTable.intern]
      cases hget : (AtomTable.after {} events).get? name with
      | some id =>
        have hmem : name ∈ (AtomTable.after {} events).names.toList := by
          by_contra hnot
          rw [get?_eq_none_iff.mpr hnot] at hget
          cases hget
        rw [if_pos hmem]
      | none => rw [if_neg (get?_eq_none_iff.mp hget), Array.toList_push]
    | _ =>
      rw [distinct_snoc_of_nil events rfl]
      exact ih

theorem size_after (events : List Event) :
    (AtomTable.after {} events).size = (distinct events).length := by
  rw [← names_after, size, Array.length_toList]

theorem resolve?_after (events : List Event) (id : Nat) :
    (AtomTable.after {} events).resolve? id = (distinct events)[id]? := by
  rw [← names_after, Array.getElem?_toList, resolve?]

/-- **Entering a name gives its position.** -/
theorem intern_after (events : List Event) (name : Bytes) :
    ((AtomTable.after {} events).intern name).1
      = (distinct (events ++ [.intern name])).idxOf name := by
  refine (idxOf_eq ?_).symm
  rw [← resolve?_after, after_append]
  exact AtomTable.resolve?_intern _ name

theorem size_le_size_step (t : AtomTable) (e : Event) : t.size ≤ (t.step e).2.size := by
  cases e with
  | intern name =>
    rw [step, AtomTable.intern]
    cases t.get? name with
    | some id => exact Nat.le_refl _
    | none => simp [size]
  | _ => exact Nat.le_refl _

theorem size_le_size_after (t : AtomTable) (events : List Event) : t.size ≤ (t.after events).size := by
  induction events generalizing t with
  | nil => exact Nat.le_refl _
  | cons e rest ih => exact (t.size_le_size_step e).trans (ih _)

end AtomTable

/-! ## (4) Sequence, hash table and names agree -/

namespace Buffer.Pool

/-- One more handle on a buffer reads what the buffer reads. -/
theorem Represents.bytes_clone {p : Pool} {v : Values} (hp : p.Represents v) (id : HandleId) :
    (p.clone id).2.bytes (p.clone id).1 = p.bytes id := by
  rw [Pool.clone, bytes_add_self, hp.read_getD, ← hp.bytes_eq]

end Buffer.Pool

namespace Buffer.Values

variable {v : Values} {id : HandleId} {bs : Bytes}

theorem lt_of_value? (h : v.value? id = some bs) : id < v.length := by
  by_contra hge
  rw [value?, List.getElem?_eq_none (Nat.le_of_not_lt hge)] at h
  cases h

/-- A new byte string changes none that is there. -/
theorem value?_append_of_eq_some (h : v.value? id = some bs) (new : Option Bytes) :
    value? (v ++ [new]) id = some bs := by
  rw [value?_append, if_neg (Nat.ne_of_lt (lt_of_value? h)), h]

/-- **An operation changes no byte string but the one it is about.** -/
theorem value?_after_of_ne (h : v.value? id = some bs) {op : Operation} (hop : op.target? ≠ some id) :
    (v.after [op]).value? id = some bs := by
  show ((v.perform op).getD v).value? id = some bs
  cases op with
  | append id' more =>
    show value? (v.modify id' _) id = some bs
    rw [value?_modify, if_neg (fun heq => hop (congrArg some heq)), h]
  | drop id' =>
    show value? (v.set id' none) id = some bs
    rw [value?_set, if_neg (fun hand => hop (congrArg some hand.1)), h]
  | sub id' first last =>
    rw [Values.perform]
    split_ifs
    · exact h
    · exact value?_append_of_eq_some h _
  | _ => exact value?_append_of_eq_some h _

end Buffer.Values

namespace Interner

/-- **The sequence and the hash table say what the names say**, in a pool that reads as the values
`v`. -/
structure Indexes (hash : Bytes → Nat) (i : Interner) (v : Values) (t : AtomTable) : Prop where
  /-- The pool reads as the values. -/
  represents : i.pool.Represents v
  /-- There are as many entries as names. -/
  size : i.entries.size = t.size
  /-- Entries read the names, number by number. -/
  entries : ∀ (id : Nat) (entry : HandleId), i.entries[id]? = some entry →
    ∃ name, t.names[id]? = some name ∧ v.value? entry = some name
  /-- Keys read the names of their numbers, and stand where names with their hashes are looked for. -/
  keys : ∀ s ∈ i.slots, ∃ name, t.names[s.number]? = some name ∧ v.value? s.key = some name ∧
    s.hash = hash name
  /-- Each number has a key. -/
  complete : ∀ id < t.size, ∃ s ∈ i.slots, s.number = id
  /-- Names are distinct. -/
  nodup : t.names.toList.Nodup

namespace Indexes

variable {hash : Bytes → Nat} {i : Interner} {v : Values} {t : AtomTable} {name : Bytes}

theorem empty (hash : Bytes → Nat) : Indexes hash {} [] {} where
  represents := Pool.represents_empty
  size := rfl
  entries := by simp
  keys := by simp
  complete := by simp [AtomTable.size]
  nodup := List.nodup_nil

theorem bytes_eq (h : Indexes hash i v t) {id : HandleId} (hid : v.value? id = some name) :
    i.pool.bytes id = name := by
  rw [h.represents.bytes_eq, Values.bytes, hid, Option.getD_some]

/-- **A name is looked up right.** -/
theorem lookup?_eq (h : Indexes hash i v t) (name : Bytes) :
    i.lookup? hash name = t.get? name := by
  rw [lookup?]
  cases hfind : i.slots.find? fun s => s.hash == hash name && i.pool.bytes s.key == name with
  | some s =>
    -- the key that is found reads the name
    obtain ⟨known, hnumber, hkey, -⟩ := h.keys s (List.mem_of_find?_eq_some hfind)
    have hmatch := List.find?_some hfind
    rw [Bool.and_eq_true, beq_iff_eq, beq_iff_eq, h.bytes_eq hkey] at hmatch
    rw [hmatch.2] at hnumber
    exact ((AtomTable.get?_eq_some_iff h.nodup).mpr hnumber).symm
  | none =>
    -- a name with a number has a key, and that would be found
    cases hget : t.get? name with
    | none => rfl
    | some id =>
      have hname := (AtomTable.get?_eq_some_iff h.nodup).mp hget
      have hlt : id < t.size := (Array.getElem?_eq_some_iff.mp hname).1
      obtain ⟨s, hs, rfl⟩ := h.complete id hlt
      obtain ⟨known, hnumber, hkey, hhash⟩ := h.keys s hs
      rw [hname, Option.some.injEq] at hnumber
      subst hnumber
      have hmiss := List.find?_eq_none.mp hfind s hs
      simp [hhash, h.bytes_eq hkey] at hmiss

/-- **A number is resolved right.** -/
theorem resolve?_eq (h : Indexes hash i v t) (id : Nat) : i.resolve? id = t.resolve? id := by
  rw [resolve?, AtomTable.resolve?]
  cases hentry : i.entries[id]? with
  | some entry =>
    obtain ⟨name, hname, hvalue⟩ := h.entries id entry hentry
    rw [hname, Option.map_some, h.bytes_eq hvalue]
  | none =>
    have hge : t.names.size ≤ id := by
      rw [Array.getElem?_eq_none_iff, h.size] at hentry
      exact hentry
    rw [Array.getElem?_eq_none hge]
    rfl

/-- **What is done to other buffers** changes nothing, as long as what the table holds reads the same. -/
theorem elsewhere (h : Indexes hash i v t) {p : Pool} {v' : Values} (hp : p.Represents v')
    (hkeeps : ∀ id ∈ i.owned, ∀ bs, v.value? id = some bs → v'.value? id = some bs) :
    Indexes hash { i with pool := p } v' t where
  represents := hp
  size := h.size
  entries := by
    intro id entry hentry
    obtain ⟨name, hname, hvalue⟩ := h.entries id entry hentry
    have howned : entry ∈ i.owned :=
      List.mem_append_left _ (Array.mem_toList_iff.mpr (Array.mem_of_getElem? hentry))
    exact ⟨name, hname, hkeeps entry howned name hvalue⟩
  keys := by
    intro s hs
    obtain ⟨name, hname, hvalue, hhash⟩ := h.keys s hs
    have howned : s.key ∈ i.owned := List.mem_append_right _ (List.mem_map_of_mem hs)
    exact ⟨name, hname, hkeeps s.key howned name hvalue, hhash⟩
  complete := h.complete
  nodup := h.nodup

/-- **A new name** in both places. -/
theorem push (h : Indexes hash i v t) (hnew : name ∉ t.names.toList) {key entry : HandleId}
    (hkey : v.value? key = some name) (hentry : v.value? entry = some name) :
    Indexes hash
      { i with
        entries := i.entries.push entry
        slots := ⟨hash name, key, i.entries.size⟩ :: i.slots }
      v ⟨t.names.push name⟩ where
  represents := h.represents
  size := by
    have hsize := h.size
    simp only [AtomTable.size, Array.size_push] at hsize ⊢
    omega
  entries := by
    intro id other hother
    have hsize : i.entries.size = t.names.size := h.size
    rw [Array.getElem?_push, hsize] at hother
    rw [Array.getElem?_push]
    split_ifs at hother ⊢
    · cases hother
      exact ⟨name, rfl, hentry⟩
    · exact h.entries id other hother
  keys := by
    intro s hs
    rcases List.mem_cons.mp hs with rfl | hs
    · refine ⟨name, ?_, hkey, rfl⟩
      rw [h.size]
      exact Array.getElem?_push_size
    · obtain ⟨known, hknown, hvalue, hhash⟩ := h.keys s hs
      have hlt : s.number < t.names.size := (Array.getElem?_eq_some_iff.mp hknown).1
      refine ⟨known, ?_, hvalue, hhash⟩
      rw [Array.getElem?_push_lt hlt, ← Array.getElem?_eq_getElem hlt, hknown]
  complete := by
    intro id hid
    rw [AtomTable.size, Array.size_push] at hid
    by_cases hlast : id = t.size
    · exact ⟨_, List.mem_cons_self, by rw [hlast, ← h.size]⟩
    · obtain ⟨s, hs, hnumber⟩ := h.complete id (by rw [AtomTable.size] at hlast ⊢; omega)
      exact ⟨s, List.mem_cons_of_mem _ hs, hnumber⟩
  nodup := by
    rw [Array.toList_push, ← List.concat_eq_append]
    exact h.nodup.concat hnew

/-- **A new name is entered** in both places, and what the table holds reads as before. -/
theorem enter (h : Indexes hash i v t) (hnew : name ∉ t.names.toList) :
    ∃ v', Indexes hash (i.enter hash name) v' ⟨t.names.push name⟩ := by
  let made := i.pool.ofBytes name
  let copied := made.2.clone made.1
  let v' : Values := v ++ [some name] ++ [some (Values.bytes (v ++ [some name]) made.1)]
  have hbytes : made.2.Represents (v ++ [some name]) := h.represents.ofBytes name
  have hboth : copied.2.Represents v' := hbytes.clone made.1
  have hkey : Values.value? (v ++ [some name]) made.1 = some name := by
    have hfirst : made.1 = v.length := by rw [← h.represents.size, Pool.ofBytes_fst]
    rw [Values.value?_append, if_pos hfirst]
  have hentry : v'.value? copied.1 = some name := by
    have hsecond : copied.1 = (v ++ [some name]).length := hbytes.size
    rw [Values.value?_append, if_pos hsecond, Values.bytes, hkey, Option.getD_some]
  -- the hash of the key is taken from the buffer, and that of a lookup from the name
  have hread : copied.2.bytes made.1 = name := by
    rw [hboth.bytes_eq, Values.bytes, Values.value?_append_of_eq_some hkey, Option.getD_some]
  have hmoved := h.elsewhere hboth fun id _ bs hid =>
    Values.value?_append_of_eq_some (Values.value?_append_of_eq_some hid _) _
  refine ⟨v', ?_⟩
  show Indexes hash ⟨copied.2, i.entries.push copied.1,
    ⟨hash (copied.2.bytes made.1), made.1, i.entries.size⟩ :: i.slots⟩ v' _
  rw [hread]
  exact hmoved.push hnew (Values.value?_append_of_eq_some hkey _) hentry

/-- **A name is entered right**, as long as there is a number left for it. -/
theorem intern (h : Indexes hash i v t) (name : Bytes) (hroom : (t.intern name).2.size ≤ limit) :
    ∃ next v', i.intern? hash name = some ((t.intern name).1, next) ∧
      Indexes hash next v' (t.intern name).2 := by
  rw [AtomTable.intern] at hroom ⊢
  rw [intern?, h.lookup?_eq]
  cases hget : t.get? name with
  | some id => exact ⟨i, v, rfl, h⟩
  | none =>
    rw [hget] at hroom
    have hleft : ¬limit ≤ i.entries.size := by
      rw [h.size]
      simp only [AtomTable.size, Array.size_push] at hroom ⊢
      omega
    obtain ⟨v', hnext⟩ := h.enter (AtomTable.get?_eq_none_iff.mp hget)
    refine ⟨_, v', ?_, hnext⟩
    simp only
    rw [if_neg hleft, h.size]

/-- **Each event is answered as the names answer it**, and leaves the sequence and the hash table saying
what the names say. -/
theorem step (h : Indexes hash i v t) (e : Event) (hroom : (t.step e).2.size ≤ limit) :
    (i.step hash e).1 = (t.step e).1 ∧ ∃ v', Indexes hash (i.step hash e).2 v' (t.step e).2 := by
  cases e with
  | intern name =>
    obtain ⟨next, v', hintern, hnext⟩ := h.intern name hroom
    rw [Interner.step, hintern]
    exact ⟨rfl, v', hnext⟩
  | get name => exact ⟨congrArg Answer.number (h.lookup?_eq name), v, h⟩
  | resolve id => exact ⟨congrArg Answer.name (h.resolve?_eq id), v, h⟩
  | resolveShared id =>
    have hresolve := h.resolve?_eq id
    rw [resolve?] at hresolve
    rw [Interner.step, lend?, AtomTable.step, AtomTable.resolveShared?, ← hresolve]
    cases hentry : i.entries[id]? with
    | none => exact ⟨rfl, v, h⟩
    | some entry =>
      have hlent := h.represents.bytes_clone entry
      refine ⟨congrArg (fun bs => Answer.name (some bs)) hlent, _,
        h.elsewhere (h.represents.clone entry) fun _ _ _ hid => ?_⟩
      exact Values.value?_append_of_eq_some hid _
  | elsewhere op =>
    rw [Interner.step, AtomTable.step]
    refine ⟨rfl, ?_⟩
    by_cases howned : op.target?.any (· ∈ i.owned) = true
    · rw [if_pos howned]
      exact ⟨v, h⟩
    · rw [if_neg howned]
      refine ⟨_, h.elsewhere (Pool.represents_after h.represents [op]) fun id hid bs hvalue => ?_⟩
      refine Values.value?_after_of_ne hvalue ?_
      intro htarget
      rw [htarget] at howned
      simp [hid] at howned

/-- **So are any events.** -/
theorem answers_eq (h : Indexes hash i v t) (events : List Event)
    (hroom : (t.after events).size ≤ limit) :
    i.answers hash events = t.answers events ∧
      ∃ v', Indexes hash (i.after hash events) v' (t.after events) := by
  induction events generalizing i v t with
  | nil => exact ⟨rfl, v, h⟩
  | cons e rest ih =>
    obtain ⟨hanswer, v', hnext⟩ := h.step e ((AtomTable.size_le_size_after _ rest).trans hroom)
    obtain ⟨hanswers, hlast⟩ := ih hnext hroom
    rw [Interner.answers, AtomTable.answers, hanswer, hanswers]
    exact ⟨rfl, hlast⟩

end Indexes

/-! ## (5) Numbers -/

/-- **What is to be seen of the numbers of names** after any events. -/
structure Numbers (hash : Bytes → Nat) (events : List Event) : Prop where
  /-- Events are answered as the table of names answers them. -/
  answers : answers hash {} events = AtomTable.answers {} events
  /-- Whenever a name was entered, the answer was its position among the distinct names. -/
  entering : ∀ before name later, events = before ++ .intern name :: later →
    (step hash (after hash {} before) (.intern name)).1 = .entered ((distinct events).idxOf name)
  /-- For a name that was new, this is the number of the distinct names before it. -/
  inOrder : ∀ before name later, events = before ++ .intern name :: later →
    name ∉ interned before → (distinct events).idxOf name = (distinct before).length
  /-- Names have the same number just if they are the same bytes. -/
  injective : ∀ x ∈ interned events, ∀ y ∈ interned events,
    (distinct events).idxOf x = (distinct events).idxOf y ↔ x = y
  /-- A name has its number just if it was entered. -/
  getting : ∀ name, lookup? hash (after hash {} events) name =
    if name ∈ interned events then some ((distinct events).idxOf name) else none
  /-- A number has its name just if it was given. -/
  resolving : ∀ id, resolve? (after hash {} events) id = (distinct events)[id]?
  /-- A handle that is lent reads the name. -/
  lending : ∀ id, (lend? (after hash {} events) id).map (fun lent => lent.2.pool.bytes lent.1)
    = (distinct events)[id]?
  /-- There are as many numbers as distinct names. -/
  size : (after hash {} events).entries.size = (distinct events).length
  /-- Asking for a number or for a name changes nothing. -/
  unchanged : ∀ name id, (step hash (after hash {} events) (.get name)).2 = after hash {} events ∧
    (step hash (after hash {} events) (.resolve id)).2 = after hash {} events

/-- **Names are numbered once and for all**, as long as the numbers last, whatever the hash is and
whatever is done to buffers elsewhere. -/
theorem numbers_of_length_le (hash : Bytes → Nat) (events : List Event)
    (hroom : (distinct events).length ≤ limit) : Numbers hash events := by
  obtain ⟨hanswers, v, hindexes⟩ := (Indexes.empty hash).answers_eq events
    (by rwa [AtomTable.size_after])
  have hresolve : ∀ id : Nat, resolve? (after hash {} events) id = (distinct events)[id]? := by
    intro id
    rw [hindexes.resolve?_eq, AtomTable.resolve?_after]
  constructor
  case answers => exact hanswers
  case entering =>
    rintro before name later rfl
    -- there was a number left then, because there still is
    have hthen : (AtomTable.after {} (before ++ [.intern name])).size ≤ limit := by
      rw [AtomTable.size_after]
      exact (distinct_entered before later name).length_le.trans hroom
    rw [AtomTable.after_append] at hthen
    obtain ⟨-, v', hbefore⟩ := (Indexes.empty hash).answers_eq before
      ((AtomTable.size_le_size_after _ _).trans hthen)
    rw [(hbefore.step (.intern name) hthen).1, AtomTable.step, AtomTable.intern_after]
    exact congrArg Answer.entered (idxOf_of_entered before later name).symm
  case inOrder =>
    rintro before name later rfl hnew
    rw [idxOf_of_entered, distinct_snoc_intern, if_neg (fun h => hnew (mem_distinct.mp h)),
      List.idxOf_append, if_neg (fun h => hnew (mem_distinct.mp h)), List.idxOf_cons_self,
      Nat.zero_add]
  case injective =>
    intro x hx y _
    exact List.idxOf_inj (mem_distinct.mpr hx)
  case getting =>
    intro name
    rw [hindexes.lookup?_eq]
    split_ifs with hname
    · rw [AtomTable.get?_eq_some_iff hindexes.nodup]
      exact (AtomTable.resolve?_after events _).trans (List.getElem?_idxOf (mem_distinct.mpr hname))
    · rw [AtomTable.get?_eq_none_iff, AtomTable.names_after]
      exact fun h => hname (mem_distinct.mp h)
  case resolving => exact hresolve
  case lending =>
    intro id
    rw [← hresolve, lend?, resolve?, Option.map_map]
    congr 1
    funext entry
    exact hindexes.represents.bytes_clone entry
  case size => exact hindexes.size.trans (AtomTable.size_after events)
  case unchanged => exact fun name id => ⟨rfl, rfl⟩

/-- Two names of one length, one of them lent and then grown by its borrower, and the empty name. -/
theorem numbers_lent_and_grown :
    (distinct [.intern [97], .intern [65], .resolveShared 0, .elsewhere (.append 4 [98]), .get [97],
      .intern [], .intern [97]]).length ≤ limit ∧
    Numbers List.length [.intern [97], .intern [65], .resolveShared 0, .elsewhere (.append 4 [98]),
      .get [97], .intern [], .intern [97]] :=
  ⟨by decide, numbers_of_length_le List.length _ (by decide)⟩

end Interner

end HtmlStream

import HtmlStream.Text.Utf8
import HtmlStream.Word

/-! # Shared buffers

Buffers that may be kept, copied and cut without copying bytes. A handle reads a window of a block of
storage; several handles may read the same block. Growing a buffer never changes what another handle
reads: the only handle on a block grows it in place, any other first moves to a block of its own.

* **`Pool`**: the blocks and the handles on them.
* **`Pool.ofBytes`, `clone`, `sub`, `append`, `drop`**: the operations.
* **`Pool.bytes`**: what a handle reads, the view all operations are described by.
* **`Pool.shareCount`, `sameStorage`**: who shares a block. -/

namespace HtmlStream.Buffer

/-! ## (1) Blocks, windows and handles -/

/-- A part of a block. -/
structure Window where
  /-- The number of the block. -/
  block : Nat
  /-- Where the window begins. -/
  start : Nat
  /-- How many bytes it covers. -/
  length : Nat
  deriving DecidableEq, Repr

/-- What a handle stands for. -/
inductive Handle where
  /-- The empty buffer, which has no storage. -/
  | empty
  /-- A window that is not empty. -/
  | window (w : Window)
  deriving DecidableEq, Repr

/-- The block a handle reads. -/
def Handle.block? : Handle → Option Nat
  | .empty => none
  | .window w => some w.block

/-- The number of bytes a handle reads. -/
def Handle.length : Handle → Nat
  | .empty => 0
  | .window w => w.length

/-- Handles are numbered in the order in which they are made. -/
abbrev HandleId := Nat

/-! ## (2) Ranges -/

/-- One end of a range. -/
inductive Bound where
  /-- The end of the buffer. -/
  | unbounded
  /-- A position that belongs to the range. -/
  | included (n : Nat)
  /-- A position just outside the range. -/
  | excluded (n : Nat)
  deriving DecidableEq, Repr

/-- Why a range is refused. -/
inductive RangeFault where
  /-- There is no position after `n`. -/
  | overflow (n : Nat)
  /-- The range is not inside the buffer. -/
  | outside (start stop length : Nat)
  deriving DecidableEq, Repr

/-- The wording of a refusal. -/
def RangeFault.message : RangeFault → String
  | .overflow n => "SharedBuf::subbuf bound " ++ toString n ++ " overflows usize"
  | .outside start stop length =>
    "SharedBuf::subbuf range " ++ toString start ++ ".." ++ toString stop ++
      " out of bounds for length " ++ toString length

/-- The position after `n`. -/
def positionAfter (n : Nat) : Except RangeFault Nat :=
  if n < Word.greatest then .ok (n + 1) else .error (.overflow n)

/-- The first position of a range. -/
def Bound.first : Bound → Except RangeFault Nat
  | .unbounded => .ok 0
  | .included n => .ok n
  | .excluded n => positionAfter n

/-- The position behind the last one of a range. -/
def Bound.last (length : Nat) : Bound → Except RangeFault Nat
  | .unbounded => .ok length
  | .included n => positionAfter n
  | .excluded n => .ok n

/-- The part of a handle from `start` to `stop`. -/
def Handle.part (start stop : Nat) : Handle → Handle
  | .empty => .empty
  | .window w =>
    if start = stop then .empty else .window ⟨w.block, w.start + start, stop - start⟩

/-! ## (3) The pool -/

/-- Blocks of storage and the handles on them. -/
structure Pool where
  /-- The blocks. -/
  blocks : Array (Array UInt8) := #[]
  /-- The handles, none where one was dropped. -/
  handles : Array (Option Handle) := #[]
  deriving DecidableEq, Repr

namespace Pool

/-! ### Views -/

/-- The handle of a number, none if it was dropped. -/
def handle? (p : Pool) (id : HandleId) : Option Handle := p.handles[id]?.join

/-- The bytes of a window. -/
def window (p : Pool) (w : Window) : Bytes :=
  ((p.blocks.getD w.block #[]).extract w.start (w.start + w.length)).toList

/-- The bytes of a handle. -/
def read (p : Pool) : Handle → Bytes
  | .empty => []
  | .window w => p.window w

/-- The bytes that the handle of a number reads. -/
def bytes (p : Pool) (id : HandleId) : Bytes := ((p.handle? id).map p.read).getD []

/-- The block of the handle of a number. -/
def block? (p : Pool) (id : HandleId) : Option Nat := (p.handle? id).bind Handle.block?

/-- The number of handles on a block. -/
def countOn (p : Pool) (block : Nat) : Nat :=
  p.handles.countP fun h => h.bind Handle.block? = some block

/-- The number of handles that share the storage of one, `0` for the empty buffer. -/
def shareCount (p : Pool) (id : HandleId) : Nat :=
  match p.block? id with
  | none => 0
  | some block => p.countOn block

/-- Whether two handles have the same storage. -/
def sameStorage (p : Pool) (a b : HandleId) : Bool :=
  match p.block? a, p.block? b with
  | some x, some y => x = y
  | _, _ => false

/-- The first of the handles `ids` that has the same storage as `id`. -/
def firstSharer? (p : Pool) (ids : List HandleId) (id : HandleId) : Option Nat :=
  ids.findIdx? (p.sameStorage id)

/-! ## (4) Making and dropping handles -/

/-- Adds a handle. -/
def add (p : Pool) (h : Handle) : HandleId × Pool :=
  (p.handles.size, { p with handles := p.handles.push (some h) })

/-- A handle on new storage. -/
def ofBytes (p : Pool) (bs : Bytes) : HandleId × Pool :=
  if bs.isEmpty then p.add .empty
  else
    { p with blocks := p.blocks.push bs.toArray }.add (.window ⟨p.blocks.size, 0, bs.length⟩)

/-- Another handle on the same window. -/
def clone (p : Pool) (id : HandleId) : HandleId × Pool := p.add ((p.handle? id).getD .empty)

/-- A handle on a copy of the bytes. -/
def copy (p : Pool) (id : HandleId) : HandleId × Pool := p.ofBytes (p.bytes id)

/-- Drops a handle. -/
def drop (p : Pool) (id : HandleId) : Pool := { p with handles := p.handles.setIfInBounds id none }

/-! ## (5) Windows of windows -/

/-- A handle on a part of what another one reads, in the same storage. -/
def sub (p : Pool) (id : HandleId) (first last : Bound) : Except RangeFault (HandleId × Pool) := do
  let h := (p.handle? id).getD .empty
  let start ← first.first
  let stop ← last.last h.length
  if start ≤ stop ∧ stop ≤ h.length then return p.add (h.part start stop)
  else throw (.outside start stop h.length)

/-! ## (6) Growing -/

/-- Makes a handle that exists read `h` instead. -/
def replace (p : Pool) (id : HandleId) (h : Handle) : Pool :=
  { p with handles := p.handles.setIfInBounds id (some h) }

/-- Appends to what a handle reads. -/
def append (p : Pool) (id : HandleId) (more : Bytes) : Pool :=
  if more.isEmpty then p
  else
    match p.handle? id with
    | none => p
    | some h =>
      let grown := p.read h ++ more
      match h with
      | .window w =>
        -- only a block that no other handle reads may change
        if p.countOn w.block = 1 then
          { p with blocks := p.blocks.setIfInBounds w.block grown.toArray }.replace id
            (.window ⟨w.block, 0, grown.length⟩)
        else
          { p with blocks := p.blocks.push grown.toArray }.replace id
            (.window ⟨p.blocks.size, 0, grown.length⟩)
      | .empty =>
        { p with blocks := p.blocks.push grown.toArray }.replace id
          (.window ⟨p.blocks.size, 0, grown.length⟩)

end Pool

end HtmlStream.Buffer

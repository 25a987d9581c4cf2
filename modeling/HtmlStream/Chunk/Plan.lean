import HtmlStream.Text.Digits
import HtmlStream.Text.Utf8

/-! # Chunk plans

Ways of cutting one input into a sequence of chunks.

* **`ChunkPlan`**: pieces of one size, pieces of given sizes, or cuts at given places.
* **`ChunkPlan.points`**: where a plan cuts, before anything is done about characters.
* **`ChunkPlan.split`**: the chunks, none of them empty; they concatenate back to the input. -/

namespace HtmlStream

/-- What to do about a cut inside a character. -/
inductive Policy where
  /-- The cut moves behind the character. -/
  | utf8Aligned
  /-- The cut stays. -/
  | byteStream
  deriving DecidableEq, Repr

/-- A way of cutting an input. -/
inductive ChunkPlan where
  /-- Chunks of one size. -/
  | fixed (size : Nat) (policy : Policy)
  /-- Chunks of the given sizes, and one chunk of what remains. -/
  | sizes (sizes : List Nat) (policy : Policy)
  /-- Cuts at the given places. -/
  | boundaries (indices : List Nat) (policy : Policy)
  deriving DecidableEq, Repr

/-- Why a plan cannot cut. -/
inductive PlanFault where
  /-- A chunk would have no bytes. -/
  | zeroSize
  /-- A place to cut at would not be a word. -/
  | overflow
  deriving DecidableEq, Repr

/-- The wording of a fault. -/
def PlanFault.message : PlanFault → String
  | .zeroSize => "chunk size must be > 0"
  | .overflow => "attempt to add with overflow"

/-- The name of a policy. -/
def Policy.text : Policy → String
  | .utf8Aligned => "utf8"
  | .byteStream => "bytes"

namespace ChunkPlan

/-- What a plan does about a cut inside a character. -/
def policy : ChunkPlan → Policy
  | .fixed _ policy | .sizes _ policy | .boundaries _ policy => policy

/-- Numbers in brackets. -/
def numberList (ns : List Nat) : String := "[" ++ ", ".intercalate (ns.map toString) ++ "]"

/-- A plan in one line. -/
def text : ChunkPlan → String
  | .fixed size policy => "fixed size=" ++ toString size ++ " policy=" ++ policy.text
  | .sizes list policy =>
    "sizes count=" ++ toString list.length ++ " policy=" ++ policy.text ++ " sizes=" ++
      numberList list
  | .boundaries indices policy =>
    "boundaries count=" ++ toString indices.length ++ " policy=" ++ policy.text ++ " indices=" ++
      numberList indices

/-! ## (1) Places to cut at -/

/-- The multiples of a positive size below the length. -/
def fixedPoints (size len : Nat) : List Nat :=
  (List.range ((len - 1) / size)).map fun i => (i + 1) * size

/-- The running sums of sizes from `offset` on, up to the first that is not below the length. Sizes
after that one are not looked at. -/
def sizePoints (len : Nat) (points : Array Nat) (offset : Nat) :
    List Nat → Except PlanFault (List Nat)
  | [] => .ok points.toList
  | size :: rest =>
    if size = 0 then .error .zeroSize
    else
      match Word.add? offset size with
      | none => .error .overflow
      | some next =>
        if len ≤ next then .ok points.toList else sizePoints len (points.push next) next rest

/-- Where a plan cuts an input of a length. -/
def points (len : Nat) : ChunkPlan → Except PlanFault (List Nat)
  | .fixed size _ => if size = 0 then .error .zeroSize else .ok (fixedPoints size len)
  | .sizes list _ => sizePoints len #[] 0 list
  | .boundaries indices _ => .ok indices

/-! ## (2) Cutting -/

/-- The first place from `point` on that is not inside a character. -/
def alignPoint (bs : Array UInt8) (point : Nat) : Nat :=
  if h : point < bs.size then
    if Utf8.isTail bs[point] then alignPoint bs (point + 1) else point
  else point
termination_by bs.size - point

/-- Places in order, each of them once. -/
def sortedDistinct (points : List Nat) : List Nat :=
  ((points.mergeSort (· ≤ ·)).foldl
    (fun (kept : Array Nat) p => if kept.back? = some p then kept else kept.push p) #[]).toList

/-- Places after alignment. -/
def aligned (policy : Policy) (bs : Array UInt8) (points : List Nat) : List Nat :=
  match policy with
  | .utf8Aligned => points.map (alignPoint bs)
  | .byteStream => points

/-- The places of `points` that are inside an input of a length, in order, each of them once. -/
def inside (len : Nat) (points : List Nat) : List Nat :=
  sortedDistinct (points.filter fun p => 0 < p && p < len)

/-- The places an input is cut at. -/
def cuts (policy : Policy) (bs : Array UInt8) (points : List Nat) : List Nat :=
  inside bs.size (aligned policy bs points)

/-- Cuts `rest`, which begins at `position`, at places in order. -/
def cutAt (chunks : Array Bytes) (position : Nat) (rest : Bytes) : List Nat → List Bytes
  | [] => if rest.isEmpty then chunks.toList else (chunks.push rest).toList
  | p :: later =>
    cutAt (chunks.push (rest.take (p - position))) p (rest.drop (p - position)) later

/-- The chunks of one positive size, the last of them perhaps shorter. -/
def pieces (size : Nat) (bs : Bytes) : List Bytes := cutAt #[] 0 bs (fixedPoints size bs.length)

/-- The chunks of an input. -/
def split (plan : ChunkPlan) (bs : Bytes) : Except PlanFault (List Bytes) :=
  match plan.points bs.length with
  | .error fault => .error fault
  | .ok points => .ok (cutAt #[] 0 bs (cuts plan.policy bs.toArray points))

end ChunkPlan

end HtmlStream

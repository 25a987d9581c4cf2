import HtmlStream.Chunk.Plan

/-! # Standard and random chunk plans

The plans that an input is cut by to see that chunks leave no trace: a few fixed ones, and random ones
that can be repeated from their seed.

* **`Generator`**: a small generator of words.
* **`randomPlans`**, **`standardPlans`**, **`allPlans`**: plans, each with a label for reports. -/

namespace HtmlStream

/-! ## (1) The generator -/

/-- A linear congruential generator of words of 64 bits. -/
structure Generator where
  /-- The last word. -/
  state : UInt64
  deriving DecidableEq, Repr

/-- The fractional part of the golden ratio as a word: it is odd, so that multiplication by it is
one-to-one. -/
def goldenWord : UInt64 := 0x9e3779b97f4a7c15

/-- A range without a number in it. -/
structure EmptyRange where
  /-- Its first number. -/
  start : Nat
  /-- The number behind its last. -/
  stop : Nat
  deriving DecidableEq, Repr

/-- The wording of the fault of an empty range. -/
def EmptyRange.message (r : EmptyRange) : String :=
  "invalid range: " ++ toString r.start ++ ".." ++ toString r.stop

namespace Generator

/-- The generator of a seed. Zero is no seed and is replaced. -/
def ofSeed (seed : UInt64) : Generator := ⟨if seed = 0 then goldenWord else seed⟩

/-- The next word. -/
def next (g : Generator) : UInt64 × Generator :=
  let state := g.state * 6364136223846793005 + 1442695040888963407
  (state, ⟨state⟩)

/-- A number from `start` on and below `stop`. An empty range leaves the generator as it is. -/
def nextIn (g : Generator) (start stop : Nat) : Except EmptyRange (Nat × Generator) :=
  if start < stop then
    let (word, g) := g.next
    .ok (word.toNat % (stop - start) + start, g)
  else .error ⟨start, stop⟩

/-- `count` numbers from `start` on and below `stop`. -/
def manyIn (start stop : Nat) (acc : Array Nat) :
    Nat → Generator → Except EmptyRange (Array Nat × Generator)
  | 0, g => .ok (acc, g)
  | count + 1, g =>
    match g.nextIn start stop with
    | .error e => .error e
    | .ok (n, g) => manyIn start stop (acc.push n) count g

end Generator

/-! ## (2) Standard plans -/

/-- A plan and its label. -/
abbrev LabelledPlan := ChunkPlan × String

/-- The fixed plans. -/
def standardPlans : List ChunkPlan :=
  [.fixed 64 .utf8Aligned, .fixed 1 .byteStream, .fixed 2 .byteStream, .fixed 3 .byteStream,
    .fixed 7 .byteStream, .sizes [1, 1, 2, 1, 4, 8, 16, 3, 7] .byteStream,
    .sizes [2, 3, 1, 5, 1, 1, 9, 2] .byteStream, .boundaries [1, 2, 4, 5, 6, 7] .byteStream,
    .boundaries [3, 5] .utf8Aligned]

/-- The fixed plans, labelled by themselves. -/
def standardLabelled : List LabelledPlan := standardPlans.map fun plan => (plan, plan.text)

/-! ## (3) Random plans -/

/-- What may be set for random plans. -/
structure RandomSettings where
  /-- The number of plans. -/
  runs : Option String := none
  /-- The seed. -/
  seed : Option String := none
  /-- Set where time is short. -/
  ci : Option String := none
  deriving DecidableEq, Repr

/-- The seed when none is given. -/
def standardSeed : UInt64 := 0x683573747265616d

/-- The number of random plans: the one given, if it is a number, and otherwise few or many. -/
def RandomSettings.runCount (settings : RandomSettings) : Nat :=
  match settings.runs.bind (Text.readWord? 10) with
  | some n => n
  | none => if settings.ci.isSome then 16 else 64

/-- The number a seed text writes: decimal, or hexadecimal after `0x`, white space around it apart. -/
def readSeed? (s : String) : Option Nat :=
  match (Text.trim s).toList with
  | '0' :: 'x' :: digits => Text.readWord? 16 (String.ofList digits)
  | cs => Text.readWord? 10 (String.ofList cs)

/-- The seed: the one given, if it is a number. -/
def RandomSettings.seedWord (settings : RandomSettings) : UInt64 :=
  ((settings.seed.bind readSeed?).map Nat.toUInt64).getD standardSeed

/-- Random places inside an input of a length, in order. -/
def randomBoundaries (g : Generator) (len : Nat) : Except EmptyRange (List Nat) :=
  if len ≤ 1 then .ok []
  else do
    let (count, g) ← g.nextIn 0 (min (len - 1) 64 + 1)
    let (places, _) ← g.manyIn 1 len #[] count
    return ChunkPlan.sortedDistinct places.toList

/-- The seed of one of the random plans: no two of them are equal. -/
def runSeed (base : UInt64) (run : Nat) : UInt64 := base ^^^ (run.toUInt64 * goldenWord)

/-- The label of a random plan, which names its seed. -/
def randomLabel (count len : Nat) (seed : UInt64) : String :=
  "random boundaries count=" ++ toString count ++ " len=" ++ toString len ++ " seed=0x" ++
    Text.padLeft 16 '0' (Text.hex seed.toNat)

/-- A random plan for an input of a length. -/
def randomPlan (len : Nat) (seed : UInt64) : Except EmptyRange LabelledPlan := do
  let places ← randomBoundaries (.ofSeed seed) len
  return (.boundaries places .byteStream, randomLabel places.length len seed)

/-- The random plans for an input of a length. -/
def randomPlans (settings : RandomSettings) (len : Nat) (salt : UInt64) :
    Except EmptyRange (List LabelledPlan) :=
  (List.range settings.runCount).mapM fun run => randomPlan len (runSeed (settings.seedWord ^^^ salt) run)

/-- All plans for an input of a length. -/
def allPlans (settings : RandomSettings) (len : Nat) (salt : UInt64) :
    Except EmptyRange (List LabelledPlan) := do
  return standardLabelled ++ (← randomPlans settings len salt)

end HtmlStream

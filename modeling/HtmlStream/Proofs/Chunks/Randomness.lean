import HtmlStream.Chunk.Random
import HtmlStream.Proofs.Arguments
import HtmlStream.Proofs.Chunks.Sizes

/-! # Random plans

Random places are drawn from ranges that depend on the length of the input. Whatever the length, the seed
and the number of plans, each range has a number in it and each number drawn is a place inside the input, so
that every place is a cut. The seed of a plan is read off its label, and no two plans have one seed: they
are made by multiplication with an odd word, which has an inverse.

* **`drawWithin`**, **`placesWithin`**, **`randomPlansWithin`**: drawing with checked arithmetic.
  **`randomPlansWithin_eq`**: no check fails.
* **`GoodPlaces`**: places inside an input. **`goodPlaces_of_randomBoundaries`**: those drawn are.
* **`length_cutAt`**: each place inside makes one more chunk.
* **`Effective`**: plans whose places are all cuts.
* **`namedSeed?`**: the seed in a label. **`runSeed_inj`**: seeds are distinct.
* **`randomPlans_effective`**: all of it, for all plans of a call. -/

namespace HtmlStream

open ChunkPlan

/-! ## (1) Drawing with checks -/

/-- What must not happen while places are drawn. -/
inductive DrawFault where
  /-- There is no number in the range. -/
  | range (r : EmptyRange)
  /-- A sum or a difference would not be a word, or a number would be divided by zero. -/
  | arithmetic
  deriving DecidableEq, Repr

/-- A sum that is a word. -/
def sumWithin (a b : Nat) : Except DrawFault Nat :=
  match Word.add? a b with
  | some n => .ok n
  | none => .error .arithmetic

/-- A difference that is not below zero. -/
def differenceWithin (a b : Nat) : Except DrawFault Nat :=
  if b ≤ a then .ok (a - b) else .error .arithmetic

/-- The remainder by a number other than zero. -/
def remainderWithin (a b : Nat) : Except DrawFault Nat :=
  if b = 0 then .error .arithmetic else .ok (a % b)

/-- A number from `start` on and below `stop`. -/
def drawWithin (g : Generator) (start stop : Nat) : Except DrawFault (Nat × Generator) :=
  if start < stop then do
    let span ← differenceWithin stop start
    let (word, g) := g.next
    let above ← remainderWithin word.toNat span
    let n ← sumWithin above start
    return (n, g)
  else .error (.range ⟨start, stop⟩)

/-- `count` numbers from `start` on and below `stop`. -/
def drawManyWithin (start stop : Nat) (acc : Array Nat) :
    Nat → Generator → Except DrawFault (Array Nat × Generator)
  | 0, g => .ok (acc, g)
  | count + 1, g => do
    let (n, g) ← drawWithin g start stop
    drawManyWithin start stop (acc.push n) count g

/-- Random places inside an input of a length, in order. -/
def placesWithin (g : Generator) (len : Nat) : Except DrawFault (List Nat) :=
  if len ≤ 1 then .ok []
  else do
    let most ← differenceWithin len 1
    let stop ← sumWithin (min most 64) 1
    let (count, g) ← drawWithin g 0 stop
    let (places, _) ← drawManyWithin 1 len #[] count g
    return sortedDistinct places.toList

/-- A random plan for an input of a length. -/
def randomPlanWithin (len : Nat) (seed : UInt64) : Except DrawFault LabelledPlan := do
  let places ← placesWithin (.ofSeed seed) len
  return (.boundaries places .byteStream, randomLabel places.length len seed)

/-- The random plans for an input of a length. -/
def randomPlansWithin (settings : RandomSettings) (len : Nat) (salt : UInt64) :
    Except DrawFault (List LabelledPlan) :=
  (List.range settings.runCount).mapM fun run =>
    randomPlanWithin len (runSeed (settings.seedWord ^^^ salt) run)

/-- What has not failed goes on. -/
theorem ok_bind {ε α β : Type} (a : α) (f : α → Except ε β) : (Except.ok a >>= f) = f a := rfl

section

variable {len : Nat} (hlen : len ≤ Word.greatest)

/-- **No check of a draw fails** but that of its range. -/
theorem drawWithin_eq {stop : Nat} (hstop : stop ≤ Word.greatest) (g : Generator) (start : Nat) :
    drawWithin g start stop = (g.nextIn start stop).mapError .range := by
  by_cases hlt : start < stop
  · rw [drawWithin, if_pos hlt, Generator.nextIn, if_pos hlt, differenceWithin, if_pos hlt.le]
    -- whatever the word is
    generalize g.next = drawn
    obtain ⟨word, g'⟩ := drawn
    have habove : word.toNat % (stop - start) < stop - start := Nat.mod_lt _ (by omega)
    have hremainder : remainderWithin word.toNat (stop - start)
        = .ok (word.toNat % (stop - start)) := if_neg (by omega)
    have hsum : sumWithin (word.toNat % (stop - start)) start
        = .ok (word.toNat % (stop - start) + start) := by
      rw [sumWithin, Word.add?, if_pos (by omega)]
    rw [ok_bind]
    show (remainderWithin word.toNat (stop - start) >>= _) = _
    rw [hremainder, ok_bind, hsum]
    rfl
  · rw [drawWithin, if_neg hlt, Generator.nextIn, if_neg hlt]
    rfl

include hlen

theorem drawManyWithin_eq (start : Nat) (acc : Array Nat) (count : Nat) (g : Generator) :
    drawManyWithin start len acc count g = (g.manyIn start len acc count).mapError .range := by
  induction count generalizing acc g with
  | zero => rfl
  | succ count ih =>
    rw [drawManyWithin, Generator.manyIn, drawWithin_eq hlen]
    cases g.nextIn start len with
    | error e => rfl
    | ok drawn => exact ih (acc.push drawn.1) drawn.2

theorem placesWithin_eq (g : Generator) :
    placesWithin g len = (randomBoundaries g len).mapError .range := by
  by_cases hshort : len ≤ 1
  · rw [placesWithin, if_pos hshort, randomBoundaries, if_pos hshort]
    rfl
  · have hstop : min (len - 1) 64 + 1 ≤ Word.greatest := by omega
    have hdifference : differenceWithin len 1 = .ok (len - 1) := if_pos (by omega)
    have hsum : sumWithin (min (len - 1) 64) 1 = .ok (min (len - 1) 64 + 1) := by
      rw [sumWithin, Word.add?, if_pos hstop]
    rw [placesWithin, if_neg hshort, randomBoundaries, if_neg hshort, hdifference, ok_bind, hsum,
      ok_bind, drawWithin_eq hstop]
    cases g.nextIn 0 (min (len - 1) 64 + 1) with
    | error e => rfl
    | ok drawn =>
      obtain ⟨count, g'⟩ := drawn
      show (drawManyWithin 1 len #[] count g' >>= _)
        = Except.mapError .range (g'.manyIn 1 len #[] count >>= _)
      rw [drawManyWithin_eq hlen]
      cases g'.manyIn 1 len #[] count with
      | error e => rfl
      | ok places => rfl

theorem randomPlanWithin_eq (seed : UInt64) :
    randomPlanWithin len seed = (randomPlan len seed).mapError .range := by
  rw [randomPlanWithin, randomPlan, placesWithin_eq hlen]
  cases randomBoundaries (.ofSeed seed) len with
  | error e => rfl
  | ok places => rfl

/-- **No check fails** but those of the ranges. -/
theorem randomPlansWithin_eq (settings : RandomSettings) (salt : UInt64) :
    randomPlansWithin settings len salt = (randomPlans settings len salt).mapError .range := by
  rw [randomPlansWithin, randomPlans]
  induction List.range settings.runCount with
  | nil => rfl
  | cons run later ih =>
    rw [List.mapM_cons, List.mapM_cons, ih, randomPlanWithin_eq hlen]
    cases randomPlan len (runSeed (settings.seedWord ^^^ salt) run) with
    | error e => rfl
    | ok plan =>
      cases later.mapM fun run => randomPlan len (runSeed (settings.seedWord ^^^ salt) run) with
      | error e => rfl
      | ok plans => rfl

end

/-! ## (2) Places that are drawn -/

/-- **Places inside an input** of a length. -/
structure GoodPlaces (len : Nat) (places : List Nat) : Prop where
  /-- There are none in an input that cannot be cut. -/
  none_of_le : len ≤ 1 → places = []
  /-- They are in order, and none is there twice. -/
  ordered : places.Pairwise (· < ·)
  /-- None is at an end of the input. -/
  inside : ∀ p ∈ places, 1 ≤ p ∧ p ≤ len - 1
  /-- They are few. -/
  length_le : places.length ≤ min (len - 1) 64

/-- **A range with a number in it** has one drawn from it. -/
theorem exists_nextIn {start stop : Nat} (h : start < stop) (g : Generator) :
    ∃ n g', g.nextIn start stop = .ok (n, g') ∧ start ≤ n ∧ n < stop := by
  have habove : g.next.1.toNat % (stop - start) < stop - start := Nat.mod_lt _ (by omega)
  refine ⟨g.next.1.toNat % (stop - start) + start, g.next.2, if_pos h, ?_, ?_⟩
  · exact Nat.le_add_left start _
  · omega

/-- So do many. -/
theorem exists_manyIn {start stop : Nat} (h : start < stop) (acc : Array Nat) (count : Nat)
    (g : Generator) :
    ∃ drawn g', g.manyIn start stop acc count = .ok (drawn, g') ∧ drawn.size = acc.size + count ∧
      ∀ p ∈ drawn.toList, p ∈ acc.toList ∨ start ≤ p ∧ p < stop := by
  -- induction on the numbers yet to be drawn, with those drawn before in `acc`
  induction count generalizing acc g with
  | zero => exact ⟨acc, g, rfl, rfl, fun p hp => .inl hp⟩
  | succ count ih =>
    obtain ⟨n, g', hn, hle, hlt⟩ := exists_nextIn h g
    obtain ⟨drawn, g'', hdrawn, hsize, hmem⟩ := ih (acc.push n) g'
    refine ⟨drawn, g'', ?_, ?_, ?_⟩
    · rw [Generator.manyIn, hn]
      exact hdrawn
    · rw [Array.size_push] at hsize
      omega
    · intro p hp
      rcases hmem p hp with hacc | hrange
      · rw [Array.toList_push, List.mem_append, List.mem_singleton] at hacc
        rcases hacc with hacc | rfl
        · exact .inl hacc
        · exact .inr ⟨hle, hlt⟩
      · exact .inr hrange

/-- Places in order and each of them once are no more than there were. -/
theorem length_sortedDistinct_le (points : List Nat) :
    (sortedDistinct points).length ≤ points.length := by
  exact (pairwise_sortedDistinct points).nodup.length_le_of_subset fun p hp => mem_sortedDistinct.mp hp

/-- **Places are drawn for every length and from every generator**, and they are inside the input. -/
theorem goodPlaces_of_randomBoundaries (g : Generator) (len : Nat) :
    ∃ places, randomBoundaries g len = .ok places ∧ GoodPlaces len places := by
  by_cases hshort : len ≤ 1
  · refine ⟨[], if_pos hshort, ?_⟩
    constructor
    · intro _
      rfl
    · exact .nil
    · exact List.forall_mem_nil _
    · exact Nat.zero_le _
  · obtain ⟨count, g', hcount, -, hfew⟩ := exists_nextIn (Nat.succ_pos (min (len - 1) 64)) g
    -- there is a place between two bytes, so the range of places is not empty
    have hrange : 1 < len := by omega
    obtain ⟨drawn, g'', hdrawn, hsize, hmem⟩ := exists_manyIn hrange #[] count g'
    have hplaces : randomBoundaries g len = .ok (sortedDistinct drawn.toList) := by
      rw [randomBoundaries, if_neg hshort, hcount]
      show (g'.manyIn 1 len #[] count >>= _) = _
      rw [hdrawn]
      rfl
    refine ⟨_, hplaces, ?_⟩
    constructor
    · intro hle
      exact absurd hle hshort
    · exact pairwise_sortedDistinct _
    · intro p hp
      rcases hmem p (mem_sortedDistinct.mp hp) with hnil | ⟨hle, hlt⟩
      · cases hnil
      · omega
    · have hlength := length_sortedDistinct_le drawn.toList
      have hdrawn' : drawn.toList.length = drawn.size := Array.length_toList
      have hnone : (#[] : Array Nat).size = 0 := rfl
      omega

/-! ## (3) One more chunk for each place -/

/-- **Each place inside makes one more chunk.** -/
theorem length_cutAt {position : Nat} {rest : Bytes} {points : List Nat}
    (h : (position :: points).Pairwise (· < ·)) (hinside : ∀ p ∈ points, p < position + rest.length)
    (hrest : rest ≠ []) : (cutAt #[] position rest points).length = points.length + 1 := by
  induction points generalizing position rest with
  | nil =>
    have hempty : ¬rest.isEmpty = true := by simpa using hrest
    rw [cutAt, if_neg hempty]
    rfl
  | cons p later ih =>
    obtain ⟨hp, hlater⟩ := List.forall_mem_cons.mp hinside
    obtain ⟨hfirst, hpoints⟩ := List.pairwise_cons.mp h
    have hlt : position < p := hfirst p List.mem_cons_self
    -- the rest behind the place is not empty, since the place is inside
    have hlength : (rest.drop (p - position)).length = rest.length - (p - position) :=
      List.length_drop
    have hdrop : rest.drop (p - position) ≠ [] := by
      intro hnil
      rw [hnil, List.length_nil] at hlength
      omega
    have hbehind : ∀ q ∈ later, q < p + (rest.drop (p - position)).length := by
      intro q hq
      have hq := hlater q hq
      omega
    rw [cutAt, cutAt_eq, List.length_append, ih hpoints hbehind hdrop, List.length_cons,
      Nat.add_comm]
    rfl

/-- **A plan whose places are all cuts** in inputs of a length: it makes one more chunk than it has
places, also with the arithmetic of cutting checked. -/
structure Effective (len : Nat) (places : List Nat) (plan : ChunkPlan) : Prop where
  /-- The places are those of the plan. -/
  eq_boundaries : plan = .boundaries places .byteStream
  /-- They are inside. -/
  good : GoodPlaces len places
  /-- All of them are cuts. -/
  split : ∀ bs : Bytes, bs.length = len → 0 < len → ∃ chunks, plan.split bs = .ok chunks ∧
    chunks.length = places.length + 1 ∧ (len < 2 ^ 63 → plan.carve bs = .ok chunks)

theorem GoodPlaces.effective {len : Nat} {places : List Nat} (h : GoodPlaces len places) :
    Effective len places (.boundaries places .byteStream) := by
  refine ⟨rfl, h, ?_⟩
  rintro bs rfl hpos
  have hordered : (0 :: places).Pairwise (· < ·) :=
    List.pairwise_cons.mpr ⟨fun p hp => (h.inside p hp).1, h.ordered⟩
  have hinside : ∀ p ∈ places, p < bs.length := by
    intro p hp
    have hp := h.inside p hp
    omega
  have hcuts : cuts .byteStream bs.toArray places = places := inside_eq hordered hinside
  have hsplit : (boundaries places .byteStream).split bs = .ok (cutAt #[] 0 bs places) :=
    congrArg (fun points => Except.ok (cutAt #[] 0 bs points)) hcuts
  refine ⟨_, hsplit, ?_, ?_⟩
  · refine length_cutAt hordered ?_ (List.ne_nil_of_length_pos hpos)
    rwa [Nat.zero_add]
  · intro hlen
    have hwords : (boundaries places .byteStream).OfWords := by
      intro p hp
      have hp := hinside p hp
      have hgreatest : Word.greatest = 2 ^ 64 - 1 := rfl
      omega
    rw [carve_eq hwords hlen, hsplit]
    rfl

/-! ## (4) Seeds -/

/-- **The seed that a label names**: the number behind the last x. -/
def namedSeed? (label : String) : Option Nat :=
  Text.readWord? 16 (String.ofList (label.toList.reverse.takeWhile (· ≠ 'x')).reverse)

/-- The number behind an x is the one named. -/
theorem namedSeed?_append {front digits : String} {n : Nat}
    (hread : Text.readDigits? 16 0 digits.toList = some n) (hdigits : digits.toList ≠ [])
    (hn : n ≤ Word.greatest) : namedSeed? (front ++ "x" ++ digits) = some n := by
  have hnot : ∀ c ∈ digits.toList.reverse, c ≠ 'x' := by
    rintro c hc rfl
    exact Text.digitValue?_of_readDigits? hread (List.mem_reverse.mp hc) (by decide)
  have htake : (front ++ "x" ++ digits).toList.reverse.takeWhile (· ≠ 'x')
      = digits.toList.reverse := by
    -- from the end, the digits come first, and none of them is an x
    have hreverse : (front ++ "x" ++ digits).toList.reverse
        = digits.toList.reverse ++ 'x' :: front.toList.reverse := by
      rw [String.toList_append, String.toList_append, List.reverse_append, List.reverse_append]
      rfl
    rw [hreverse, List.takeWhile_append_of_pos fun c hc => decide_eq_true (hnot c hc)]
    exact List.append_nil _
  rw [namedSeed?, htake, List.reverse_reverse, String.ofList_toList]
  exact Text.readWord?_of_readDigits? hread hdigits hn

/-- **The label of a random plan names its seed.** -/
theorem namedSeed?_randomLabel (count len : Nat) (seed : UInt64) :
    namedSeed? (randomLabel count len seed) = some seed.toNat := by
  have hmark : " seed=0x" = " seed=0" ++ "x" := by decide
  have hgreatest : Word.greatest = 2 ^ 64 - 1 := rfl
  have hseed := seed.toNat_lt
  unfold randomLabel
  rw [hmark, ← String.append_assoc]
  refine namedSeed?_append ?_ ?_ (by omega)
  · rw [Text.readDigits?_padLeft, Text.readDigits?_hex]
  · rw [Text.padLeft, String.toList_append, Text.hex, String.toList_ofList]
    exact List.append_ne_nil_of_right_ne_nil _ (String.toList_ofList ▸ Nat.toDigits_ne_nil)

/-- The word that takes multiplication by `goldenWord` back. -/
def goldenInverse : UInt64 := 0xf1de83e19937733d

/-- **Seeds are distinct**, whatever they are made from. -/
theorem runSeed_inj {base : UInt64} {i j : Nat} (hi : i ≤ Word.greatest) (hj : j ≤ Word.greatest)
    (h : runSeed base i = runSeed base j) : i = j := by
  have hproduct : i.toUInt64 * goldenWord = j.toUInt64 * goldenWord := (UInt64.xor_right_inj base).mp h
  -- the factor is odd, so it has an inverse among the words
  have hinverse : goldenWord * goldenInverse = 1 := by decide
  have hword : i.toUInt64 = j.toUInt64 := by
    calc i.toUInt64
        = i.toUInt64 * goldenWord * goldenInverse := by
          rw [UInt64.mul_assoc, hinverse, UInt64.mul_one]
      _ = j.toUInt64 * goldenWord * goldenInverse := by rw [hproduct]
      _ = j.toUInt64 := by rw [UInt64.mul_assoc, hinverse, UInt64.mul_one]
  have hnumber : i.toUInt64.toNat = j.toUInt64.toNat := congrArg UInt64.toNat hword
  rwa [Nat.toUInt64_eq, Nat.toUInt64_eq, UInt64.toNat_ofNat_of_lt' (Nat.lt_succ_of_le hi),
    UInt64.toNat_ofNat_of_lt' (Nat.lt_succ_of_le hj)] at hnumber

/-- What is read as a word is one. -/
theorem Text.readWord?_le {base n : Nat} {s : String} (h : readWord? base s = some n) :
    n ≤ Word.greatest := by
  rw [readWord?] at h
  split_ifs at h
  exact of_decide_eq_true (Option.filter_eq_some_iff.mp h).2

/-- The number of plans is a word. -/
theorem runCount_le (settings : RandomSettings) : settings.runCount ≤ Word.greatest := by
  rw [RandomSettings.runCount]
  split
  case h_1 n hn =>
    obtain ⟨text, -, hread⟩ := Option.bind_eq_some_iff.mp hn
    exact Text.readWord?_le hread
  case h_2 =>
    split_ifs
    · decide
    · decide

/-! ## (5) The plans of a call -/

/-- Where each of a list of computations gives a result, all of them do. -/
theorem exists_mapM {ε α β : Type} {f : α → Except ε β} {R : α → β → Prop} {as : List α}
    (h : ∀ a ∈ as, ∃ b, f a = .ok b ∧ R a b) :
    ∃ bs, as.mapM f = .ok bs ∧ List.Forall₂ R as bs := by
  induction as with
  | nil => exact ⟨[], rfl, .nil⟩
  | cons a as ih =>
    obtain ⟨⟨b, hb, hR⟩, has⟩ := List.forall_mem_cons.mp h
    obtain ⟨bs, hbs, hall⟩ := ih has
    refine ⟨b :: bs, ?_, .cons hR hall⟩
    rw [List.mapM_cons, hb, hbs]
    rfl

/-- **The random plan of a seed.** -/
structure IsRandomPlan (len : Nat) (seed : UInt64) (plan : LabelledPlan) : Prop where
  /-- Its places are all cuts. -/
  effective : ∃ places, Effective len places plan.1
  /-- Its label names the seed. -/
  named : namedSeed? plan.2 = some seed.toNat
  /-- The seed makes it again. -/
  again : randomPlan len seed = .ok plan

/-- Each seed has its plan. -/
theorem exists_randomPlan (len : Nat) (seed : UInt64) :
    ∃ plan, randomPlan len seed = .ok plan ∧ IsRandomPlan len seed plan := by
  obtain ⟨places, hplaces, hgood⟩ := goodPlaces_of_randomBoundaries (.ofSeed seed) len
  have hplan : randomPlan len seed
      = .ok (.boundaries places .byteStream, randomLabel places.length len seed) := by
    rw [randomPlan, hplaces]
    rfl
  exact ⟨_, hplan, ⟨places, hgood.effective⟩, namedSeed?_randomLabel _ _ _, hplan⟩

/-- **Random plans are effective**, whatever is set, for every length and salt: there are as many as
asked for, no range they are drawn from is empty, no arithmetic leaves the words, and no two of them
have one seed. -/
theorem randomPlans_effective (settings : RandomSettings) (len : Nat) (salt : UInt64) :
    ∃ plans, randomPlans settings len salt = .ok plans ∧
      (len ≤ Word.greatest → randomPlansWithin settings len salt = .ok plans) ∧
      plans.length = settings.runCount ∧
      ∃ seeds, seeds.Nodup ∧ List.Forall₂ (IsRandomPlan len) seeds plans := by
  have heach : ∀ run ∈ List.range settings.runCount, ∃ plan,
      randomPlan len (runSeed (settings.seedWord ^^^ salt) run) = .ok plan ∧
        IsRandomPlan len (runSeed (settings.seedWord ^^^ salt) run) plan :=
    fun run _ => exists_randomPlan len _
  obtain ⟨plans, hplans, hall⟩ := exists_mapM heach
  refine ⟨plans, hplans, ?_, ?_, ?_⟩
  · intro hlen
    rw [randomPlansWithin_eq hlen, randomPlans, hplans]
    rfl
  · rw [← hall.length_eq, List.length_range]
  · refine ⟨(List.range settings.runCount).map (runSeed (settings.seedWord ^^^ salt)), ?_, ?_⟩
    · refine List.nodup_range.map_on ?_
      intro i hi j hj
      have hcount := runCount_le settings
      rw [List.mem_range] at hi hj
      exact runSeed_inj (by omega) (by omega)
    · exact List.forall₂_map_left_iff.mpr hall

end HtmlStream

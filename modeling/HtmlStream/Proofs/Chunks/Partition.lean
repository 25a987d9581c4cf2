import HtmlStream.Proofs.Chunks.Cuts
import Mathlib.Algebra.Order.Ring.Nat

/-! # Plans partition the input

An input is cut by going through numbers that have to stay words, through bytes that have to be there
and through slices that have to be in order. Here that is done with every check, and none of them fails
but those that a plan fails by itself. What comes out are chunks with bytes in them that make up the
input, and text is cut into texts if the policy says so.

* **`CutFault`**, **`multiples`**, **`alignWithin`**, **`slice`**, **`carve`**: cutting with checks.
* **`carve_eq`**: only a plan's own faults are left.
* **`IsPartition`**: what chunks have to be. **`Sound`**: plans that have no fault.
* **`split_partitions`**: every plan partitions every input. -/

namespace HtmlStream.ChunkPlan

/-! ## (1) Cutting with checks -/

/-- What must not happen while an input is cut. -/
inductive CutFault where
  /-- The plan cannot cut. -/
  | plan (f : PlanFault)
  /-- A number would not be a word. -/
  | overflow
  /-- A slice would end in front of its beginning or behind the end of the input. -/
  | slice
  deriving DecidableEq, Repr

/-- The multiples of a positive size below the length, from the `i`-th on, one after another. -/
def multiples (len size i : Nat) (hsize : 0 < size) : Except CutFault (List Nat) :=
  if Word.greatest < i * size then .error .overflow
  else if i * size < len then do
    let later ← multiples len size (i + 1) hsize
    return i * size :: later
  else .ok []
termination_by len - i * size
decreasing_by
  rw [Nat.add_mul, Nat.one_mul]
  omega

/-- The first place from `point` on where the two high bits of the byte are not those of a continuation
byte. -/
def alignWithin (bs : Array UInt8) (point : Nat) : Except CutFault Nat :=
  if h : point < bs.size then
    if bs[point] &&& 0xC0 = 0x80 then
      if point < Word.greatest then alignWithin bs (point + 1) else .error .overflow
    else .ok point
  else .ok point
termination_by bs.size - point

/-- The bytes from one place to another. -/
def slice (bs : Bytes) (start stop : Nat) : Except CutFault Bytes :=
  if start ≤ stop ∧ stop ≤ bs.length then .ok ((bs.drop start).take (stop - start))
  else .error .slice

/-- Cuts `bs` from `last` on at the given places. -/
def carveAt (bs : Bytes) (chunks : Array Bytes) (last : Nat) :
    List Nat → Except CutFault (List Bytes)
  | [] =>
    if last < bs.length then do
      let chunk ← slice bs last bs.length
      return (chunks.push chunk).toList
    else .ok chunks.toList
  | p :: later => do
    let chunk ← slice bs last p
    carveAt bs (chunks.push chunk) p later

/-- Where a plan cuts. -/
def pointsWithin (len : Nat) : ChunkPlan → Except CutFault (List Nat)
  | .fixed size _ => if h : 0 < size then multiples len size 1 h else .error (.plan .zeroSize)
  | .sizes list _ => (sizePoints len #[] 0 list).mapError .plan
  | .boundaries indices _ => .ok indices

/-- Places after alignment. -/
def alignedWithin (policy : Policy) (bs : Array UInt8) (points : List Nat) :
    Except CutFault (List Nat) :=
  match policy with
  | .utf8Aligned => points.mapM (alignWithin bs)
  | .byteStream => .ok points

/-- The chunks of an input, with every check. -/
def carve (plan : ChunkPlan) (bs : Bytes) : Except CutFault (List Bytes) := do
  let points ← plan.pointsWithin bs.length
  let points ← alignedWithin plan.policy bs.toArray points
  carveAt bs #[] 0 (inside bs.length points)

/-! ## (2) The checks -/

/-- The sizes of a plan are words. -/
def OfWords : ChunkPlan → Prop
  | .fixed size _ => size ≤ Word.greatest
  | .sizes list _ => ∀ size ∈ list, size ≤ Word.greatest
  | .boundaries indices _ => ∀ p ∈ indices, p ≤ Word.greatest

/-- **No multiple is too great**: the one in front of it is below the length, so that both together are
less than a word. -/
theorem multiples_eq {len size : Nat} (hsize : 0 < size) (hword : size ≤ Word.greatest)
    (hlen : len < 2 ^ 63) (i : Nat) (hi : 0 < i) (hbefore : i = 1 ∨ (i - 1) * size < len) :
    multiples len size i hsize
      = .ok ((List.range' i ((len - 1) / size + 1 - i)).map (· * size)) := by
  have hgreatest : Word.greatest = 2 ^ 64 - 1 := rfl
  induction i using multiples.induct len size hsize with
  | case1 i hover =>
    exfalso
    rcases hbefore with rfl | hbefore
    · omega
    · obtain ⟨j, rfl⟩ := Nat.exists_eq_succ_of_ne_zero hi.ne'
      rw [Nat.succ_eq_add_one, Nat.add_sub_cancel] at hbefore
      rw [Nat.succ_eq_add_one, Nat.add_mul, Nat.one_mul] at hover
      cases j with
      | zero => omega
      | succ j =>
        have hle : size ≤ (j + 1) * size := Nat.le_mul_of_pos_left size (Nat.succ_pos j)
        omega
  | case2 i hword hlt ih =>
    have hcount : (len - 1) / size + 1 - i = (len - 1) / size - i + 1 := by
      have hle : i ≤ (len - 1) / size := (Nat.le_div_iff_mul_le hsize).mpr (by omega)
      omega
    have hlater := ih (Nat.succ_pos i) (.inr (by rwa [Nat.add_sub_cancel]))
    rw [Nat.add_sub_add_right] at hlater
    rw [multiples, if_neg hword, if_pos hlt, hlater, hcount, List.range'_succ]
    rfl
  | case3 i hword hge =>
    have hcount : (len - 1) / size + 1 - i = 0 := by
      have hlt : (len - 1) / size < i := (Nat.div_lt_iff_lt_mul hsize).mpr (by
        have hpos : 0 < i * size := Nat.mul_pos hi hsize
        omega)
      omega
    rw [multiples, if_neg hword, if_neg hge, hcount]
    rfl

/-- **The places of a plan** are those found without checks. -/
theorem pointsWithin_eq {plan : ChunkPlan} (hplan : plan.OfWords) {len : Nat} (hlen : len < 2 ^ 63) :
    plan.pointsWithin len = (plan.points len).mapError .plan := by
  cases plan with
  | fixed size policy =>
    by_cases hsize : 0 < size
    · rw [pointsWithin, dif_pos hsize, points, if_neg hsize.ne',
        multiples_eq hsize hplan hlen 1 Nat.one_pos (.inl rfl), Nat.add_sub_cancel, fixedPoints,
        List.range'_eq_map_range, List.map_map]
      refine congrArg Except.ok (List.map_congr_left fun i _ => ?_)
      rw [Function.comp_apply, Nat.add_comm]
    · rw [pointsWithin, dif_neg hsize, points, if_pos (by omega)]
      rfl
  | sizes list policy => rfl
  | boundaries indices policy => rfl

/-- The two high bits tell continuation bytes. -/
theorem isTail_iff_mask (b : UInt8) : Utf8.isTail b = true ↔ b &&& 0xC0 = 0x80 := by
  have hall : ∀ n < 256, Utf8.isTail (.ofNat n) = true ↔ UInt8.ofNat n &&& 0xC0 = 0x80 := by
    decide +kernel
  have hb := hall b.toNat b.toNat_lt
  rwa [UInt8.ofNat_toNat] at hb

theorem alignWithin_eq {bs : Array UInt8} (hlen : bs.size < 2 ^ 63) (p : Nat) :
    alignWithin bs p = .ok (alignPoint bs p) := by
  induction p using alignPoint.induct bs with
  | case1 p hlt htail ih =>
    have hword : p < Word.greatest := hlt.trans (hlen.trans (by decide))
    have hpoint : alignPoint bs p = alignPoint bs (p + 1) := by
      rw [alignPoint, dif_pos hlt, if_pos htail]
    rw [alignWithin, dif_pos hlt, if_pos ((isTail_iff_mask _).mp htail), if_pos hword, ih, hpoint]
  | case2 p hlt htail =>
    rw [alignWithin, dif_pos hlt, if_neg (fun h => htail ((isTail_iff_mask _).mpr h)), alignPoint,
      dif_pos hlt, if_neg htail]
  | case3 p hge => rw [alignWithin, dif_neg hge, alignPoint, dif_neg hge]

theorem alignedWithin_eq {bs : Array UInt8} (hlen : bs.size < 2 ^ 63) (policy : Policy)
    (points : List Nat) : alignedWithin policy bs points = .ok (aligned policy bs points) := by
  cases policy with
  | byteStream => rfl
  | utf8Aligned =>
    show points.mapM (alignWithin bs) = .ok (points.map (alignPoint bs))
    induction points with
    | nil => rfl
    | cons p points ih =>
      rw [List.mapM_cons, alignWithin_eq hlen, ih]
      rfl

/-- **Slices are in order and inside**, since the places are. -/
theorem carveAt_eq {bs : Bytes} {points : List Nat} (chunks : Array Bytes) {last : Nat}
    (hpoints : (last :: points).Pairwise (· < ·)) (hlast : last ≤ bs.length)
    (hinside : ∀ p ∈ points, p < bs.length) :
    carveAt bs chunks last points = .ok (cutAt chunks last (bs.drop last) points) := by
  induction points generalizing chunks last with
  | nil =>
    have hend : (bs.drop last).isEmpty = true ↔ bs.length ≤ last := by
      rw [List.isEmpty_iff, List.drop_eq_nil_iff]
    rw [carveAt, cutAt]
    by_cases hlt : last < bs.length
    · rw [if_pos hlt, if_neg (by rw [hend]; omega), slice, if_pos ⟨hlast, Nat.le_refl _⟩,
        List.take_of_length_le (by rw [List.length_drop])]
      rfl
    · rw [if_neg hlt, if_pos (by rw [hend]; omega)]
  | cons p later ih =>
    rw [List.pairwise_cons, List.forall_mem_cons] at hpoints
    rw [List.forall_mem_cons] at hinside
    have hslice : slice bs last p = .ok ((bs.drop last).take (p - last)) :=
      if_pos ⟨hpoints.1.1.le, hinside.1.le⟩
    have hrest : (bs.drop last).drop (p - last) = bs.drop p := by
      rw [List.drop_drop, Nat.add_sub_cancel' hpoints.1.1.le]
    rw [carveAt, cutAt, hslice, hrest]
    exact ih _ hpoints.2 hinside.1.le hinside.2

/-- **No check fails but those of the plan.** -/
theorem carve_eq {plan : ChunkPlan} (hplan : plan.OfWords) {bs : Bytes} (hlen : bs.length < 2 ^ 63) :
    plan.carve bs = (plan.split bs).mapError .plan := by
  rw [carve, split, pointsWithin_eq hplan hlen]
  cases plan.points bs.length with
  | error f => rfl
  | ok points =>
    obtain ⟨hpoints, hinside⟩ := pairwise_cuts plan.policy bs.toArray points
    have hcarve := carveAt_eq #[] hpoints (Nat.zero_le bs.length) hinside
    have haligned := @alignedWithin_eq bs.toArray hlen plan.policy points
    show (alignedWithin plan.policy bs.toArray points >>= fun points =>
      carveAt bs #[] 0 (inside bs.length points)) = _
    rw [haligned]
    exact hcarve

/-! ## (3) Partitions -/

/-- **Chunks partition an input.** -/
structure IsPartition (policy : Policy) (bs : Bytes) (chunks : List Bytes) : Prop where
  /-- One behind the other they are the input. -/
  flatten : chunks.flatten = bs
  /-- None is empty. -/
  nonempty : ∀ chunk ∈ chunks, chunk ≠ []
  /-- Text is cut into texts, if the policy is that. -/
  aligned : policy = .utf8Aligned → Utf8.IsText bs → ∀ chunk ∈ chunks, Utf8.IsText chunk

/-- **Plans that cut every input**: sizes are positive, and their sum is a word. -/
def Sound : ChunkPlan → Prop
  | .fixed size _ => 0 < size
  | .sizes list _ => (∀ size ∈ list, 0 < size) ∧ list.sum < 2 ^ 64
  | .boundaries _ _ => True

/-- Cuts wherever a plan puts them partition the input. -/
theorem isPartition_cutAt (policy : Policy) (bs : Bytes) (points : List Nat) :
    IsPartition policy bs (cutAt #[] 0 bs (cuts policy bs.toArray points)) := by
  obtain ⟨hpoints, hinside⟩ := pairwise_cuts policy bs.toArray points
  refine ⟨flatten_cutAt #[] 0 bs _, ?_, ?_⟩
  · refine ne_nil_of_mem_cutAt (by simp) hpoints fun p hp => ?_
    rw [Nat.zero_add]
    exact hinside p hp
  · rintro rfl htext
    exact isText_of_mem_cutAt (by simp) htext hpoints fun p hp => between_cuts hp

/-- **Sizes whose sum is a word** have places to cut at. -/
theorem exists_sizePoints {len : Nat} {list : List Nat} (hpositive : ∀ size ∈ list, 0 < size)
    (points : Array Nat) {offset : Nat} (hsum : offset + list.sum < 2 ^ 64) :
    ∃ found, sizePoints len points offset list = .ok found := by
  have hgreatest : Word.greatest = 2 ^ 64 - 1 := rfl
  induction list generalizing points offset with
  | nil => exact ⟨_, rfl⟩
  | cons size rest ih =>
    rw [List.forall_mem_cons] at hpositive
    rw [List.sum_cons] at hsum
    have hadd : Word.add? offset size = some (offset + size) := if_pos (by omega)
    rw [sizePoints, if_neg hpositive.1.ne', hadd]
    by_cases hend : len ≤ offset + size
    · exact ⟨_, if_pos hend⟩
    · obtain ⟨found, hfound⟩ := @ih hpositive.2 (points.push (offset + size)) (offset + size) (by omega)
      exact ⟨found, (if_neg hend).trans hfound⟩

theorem exists_points {plan : ChunkPlan} (h : plan.Sound) (len : Nat) :
    ∃ points, plan.points len = .ok points := by
  cases plan with
  | fixed size policy => exact ⟨_, if_neg (Nat.pos_iff_ne_zero.mp h)⟩
  | sizes list policy => exact exists_sizePoints h.1 #[] (by rw [Nat.zero_add]; exact h.2)
  | boundaries indices policy => exact ⟨_, rfl⟩

/-- **Every plan partitions every input.** Whenever a plan has chunks for an input, none of them is empty,
they make up the input, and if the policy is to cut between characters and the input is text, every chunk
is text. There are chunks whatever the places to cut at are, and for positive sizes whose sum is a word.
Cutting with every check comes to the same, for sizes and places that are words and any input that
memory can hold. -/
theorem split_partitions (plan : ChunkPlan) (bs : Bytes) :
    (∀ chunks, plan.split bs = .ok chunks → IsPartition plan.policy bs chunks) ∧
      (plan.Sound → ∃ chunks, plan.split bs = .ok chunks) ∧
      (plan.OfWords → bs.length < 2 ^ 63 → plan.carve bs = (plan.split bs).mapError .plan) := by
  refine ⟨?_, ?_, fun hplan hlen => carve_eq hplan hlen⟩
  · intro chunks hchunks
    rw [split] at hchunks
    cases hpoints : plan.points bs.length with
    | error f =>
      rw [hpoints] at hchunks
      cases hchunks
    | ok points =>
      rw [hpoints] at hchunks
      cases hchunks
      exact isPartition_cutAt plan.policy bs points
  · intro hsound
    obtain ⟨points, hpoints⟩ := exists_points hsound bs.length
    rw [split, hpoints]
    exact ⟨_, rfl⟩

/-- Places out of order, repeated, inside a character and behind the end. -/
example : (boundaries [9, 2, 1, 3, 2, 0] .utf8Aligned).split (Utf8.encode "éé") =
    .ok [Utf8.encode "é", Utf8.encode "é"] := by
  cbv

end HtmlStream.ChunkPlan

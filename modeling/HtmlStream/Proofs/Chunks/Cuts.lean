import HtmlStream.Proofs.ChunkPlans
import HtmlStream.Proofs.Utf8.Shape
import Mathlib.Data.List.Sort

/-! # Places to cut at

However the places of a plan come about, what an input is cut at are places inside it, in order and each
of them once, so that every chunk has bytes in it. A place that has been aligned stands between two
characters, and text that is cut there is text on both sides.

* **`mem_sortedDistinct`**, **`pairwise_sortedDistinct`**: sorting and dropping repetitions.
* **`pairwise_cuts`**: the places an input is cut at.
* **`ne_nil_of_mem_cutAt`**: no chunk is empty.
* **`Utf8.IsText`**, **`Utf8.Between`** and **`Utf8.isText_cut`**: text, and places between its
  characters.
* **`isText_of_mem_cutAt`**: chunks of aligned text are text. -/

namespace HtmlStream

/-! ## (1) In order, each of them once -/

namespace ChunkPlan

/-- Keeps a place unless it was the last one kept. -/
def keepNew (kept : Array Nat) (p : Nat) : Array Nat :=
  if kept.back? = some p then kept else kept.push p

/-- **A place that none kept before exceeds** is kept once. -/
theorem pairwise_keepNew {kept : Array Nat} {p : Nat} (hsorted : kept.toList.Pairwise (· < ·))
    (hle : ∀ q ∈ kept.toList, q ≤ p) :
    (keepNew kept p).toList.Pairwise (· < ·) ∧
      ∀ q, q ∈ (keepNew kept p).toList ↔ q ∈ kept.toList ∨ q = p := by
  have hback : kept.back? = kept.toList.getLast? := by
    rw [Array.getLast?_toList]
  unfold keepNew
  split
  · rename_i hlast
    have hmem : p ∈ kept.toList := List.mem_of_getLast? (hback ▸ hlast)
    exact ⟨hsorted, fun q => ⟨.inl, by rintro (h | rfl) <;> assumption⟩⟩
  · rename_i hlast
    rw [Array.toList_push]
    refine ⟨List.pairwise_append.mpr ⟨hsorted, List.pairwise_singleton _ _, ?_⟩, fun q => by simp⟩
    intro q hq p' hp'
    rw [List.mem_singleton.mp hp']
    refine lt_of_le_of_ne (hle q hq) ?_
    rintro rfl
    -- a place as great as one that none exceeds can only be the last
    obtain ⟨front, last, hkept⟩ :=
      (List.eq_nil_or_concat' kept.toList).resolve_left (List.ne_nil_of_mem hq)
    rw [hkept] at hq hsorted hle
    rcases List.mem_append.mp hq with hq | hq
    · have hlt := (List.pairwise_append.mp hsorted).2.2 q hq last (by simp)
      have hle := hle last (by simp)
      omega
    · rw [List.mem_singleton.mp hq, hback, hkept] at hlast
      exact hlast List.getLast?_concat

/-- Keeping the new ones of places in order. -/
theorem pairwise_foldl_keepNew {points : List Nat} {kept : Array Nat}
    (hpoints : points.Pairwise (· ≤ ·)) (hsorted : kept.toList.Pairwise (· < ·))
    (hle : ∀ q ∈ kept.toList, ∀ p ∈ points, q ≤ p) :
    (points.foldl keepNew kept).toList.Pairwise (· < ·) ∧
      ∀ q, q ∈ (points.foldl keepNew kept).toList ↔ q ∈ kept.toList ∨ q ∈ points := by
  induction points generalizing kept with
  | nil => exact ⟨hsorted, by simp⟩
  | cons p points ih =>
    rw [List.pairwise_cons] at hpoints
    obtain ⟨hsorted', hmem⟩ := pairwise_keepNew hsorted fun q hq => hle q hq p List.mem_cons_self
    have hle' : ∀ q ∈ (keepNew kept p).toList, ∀ p' ∈ points, q ≤ p' := by
      intro q hq p' hp'
      rcases (hmem q).mp hq with hq | rfl
      · exact hle q hq p' (List.mem_cons_of_mem p hp')
      · exact hpoints.1 p' hp'
    obtain ⟨hlast, hmem'⟩ := ih hpoints.2 hsorted' hle'
    refine ⟨hlast, fun q => ?_⟩
    rw [List.foldl_cons, hmem' q, hmem q, List.mem_cons, or_assoc]

/-- **Sorted places are in order**, and none is there twice. -/
theorem pairwise_sortedDistinct (points : List Nat) : (sortedDistinct points).Pairwise (· < ·) :=
  (@pairwise_foldl_keepNew _ #[] (List.pairwise_mergeSort' _ points) .nil (by simp)).1

/-- No place is lost and none is added. -/
theorem mem_sortedDistinct {points : List Nat} {p : Nat} : p ∈ sortedDistinct points ↔ p ∈ points := by
  have hmem := (@pairwise_foldl_keepNew _ #[] (List.pairwise_mergeSort' _ points) .nil (by simp)).2 p
  refine hmem.trans ?_
  simp

theorem mem_inside {len p : Nat} {points : List Nat} :
    p ∈ inside len points ↔ p ∈ points ∧ 0 < p ∧ p < len := by
  rw [inside, mem_sortedDistinct, List.mem_filter, Bool.and_eq_true, decide_eq_true_eq,
    decide_eq_true_eq]

/-- **The places an input is cut at** are in order, none of them twice, and none is at an end. -/
theorem pairwise_cuts (policy : Policy) (bs : Array UInt8) (points : List Nat) :
    (0 :: cuts policy bs points).Pairwise (· < ·) ∧ ∀ p ∈ cuts policy bs points, p < bs.size := by
  refine ⟨List.pairwise_cons.mpr ⟨fun p hp => (mem_inside.mp hp).2.1, pairwise_sortedDistinct _⟩, ?_⟩
  exact fun p hp => (mem_inside.mp hp).2.2

/-! ## (2) Chunks -/

/-- **No chunk is empty** if the places are in order behind `position` and all of them inside. -/
theorem ne_nil_of_mem_cutAt {chunks : Array Bytes} {position : Nat} {rest : Bytes}
    {points : List Nat} (hchunks : ∀ chunk ∈ chunks.toList, chunk ≠ [])
    (hpoints : (position :: points).Pairwise (· < ·))
    (hinside : ∀ p ∈ points, p < position + rest.length) :
    ∀ chunk ∈ cutAt chunks position rest points, chunk ≠ [] := by
  induction points generalizing chunks position rest with
  | nil =>
    rw [cutAt]
    split
    · exact hchunks
    · rename_i hrest
      rw [Array.toList_push, List.forall_mem_append, List.forall_mem_singleton]
      exact ⟨hchunks, by simpa using hrest⟩
  | cons p later ih =>
    rw [List.pairwise_cons, List.forall_mem_cons] at hpoints
    rw [List.forall_mem_cons] at hinside
    rw [cutAt]
    refine ih ?_ hpoints.2 ?_
    · rw [Array.toList_push, List.forall_mem_append, List.forall_mem_singleton]
      refine ⟨hchunks, List.ne_nil_of_length_pos ?_⟩
      rw [List.length_take]
      omega
    · intro q hq
      have hlt := hinside.2 q hq
      rw [List.length_drop]
      omega

end ChunkPlan

/-! ## (3) Places between characters -/

namespace Utf8

/-- **Well-formed UTF-8**: the bytes of some text. -/
def IsText (bs : Bytes) : Prop := ∃ s : String, encode s = bs

/-- **A place that no continuation byte stands at**. -/
def Between (bs : Bytes) (p : Nat) : Prop := ∀ b ∈ bs[p]?, isTail b = false

/-- All bytes of a character but its first are continuation bytes. -/
theorem isTail_of_shape {bs : Bytes} {c : Char} (h : shape bs = .complete c) :
    ∀ b ∈ bs.tail, isTail b = true := by
  have htail {a b : UInt8} (h : follows a b = true) : isTail b = true :=
    isTail_iff.mpr ⟨(follows_iff.mp h).1, (follows_iff.mp h).2.1⟩
  match bs with
  | [] => simp
  | [a] => simp
  | [a, b] =>
    simp only [shape] at h
    split_ifs at h with hb
    simp only [Bool.and_eq_true] at hb
    simpa using htail hb.2
  | [a, b, d] =>
    simp only [shape] at h
    split_ifs at h with hb
    simp only [Bool.and_eq_true] at hb
    simpa using ⟨htail hb.1.2, hb.2⟩
  | [a, b, d, e] =>
    simp only [shape] at h
    split_ifs at h with hb
    simp only [Bool.and_eq_true] at hb
    simpa using ⟨htail hb.1.1.2, hb.1.2, hb.2⟩
  | _ :: _ :: _ :: _ :: _ :: _ => simp [shape] at h

theorem encode_ofList (cs : List Char) :
    encode (String.ofList cs) = cs.flatMap String.utf8EncodeChar := by
  rw [encode, String.toList_ofList]

/-- **Text that is cut between two characters** is text on both sides. -/
theorem isText_cut {bs : Bytes} (h : IsText bs) {p : Nat} (hp : Between bs p) :
    IsText (bs.take p) ∧ IsText (bs.drop p) := by
  obtain ⟨s, rfl⟩ := h
  rw [encode] at hp ⊢
  -- induction on the characters; a place inside the first one is at a continuation byte
  generalize s.toList = cs at hp ⊢
  suffices hcut : ∃ front back, cs = front ++ back ∧
      (cs.flatMap String.utf8EncodeChar).take p = front.flatMap String.utf8EncodeChar ∧
      (cs.flatMap String.utf8EncodeChar).drop p = back.flatMap String.utf8EncodeChar by
    obtain ⟨front, back, -, hfront, hback⟩ := hcut
    exact ⟨⟨String.ofList front, by rw [encode_ofList, hfront]⟩,
      ⟨String.ofList back, by rw [encode_ofList, hback]⟩⟩
  induction cs generalizing p with
  | nil => exact ⟨[], [], rfl, by simp, by simp⟩
  | cons c cs ih =>
    rw [List.flatMap_cons] at hp ⊢
    by_cases hzero : p = 0
    · exact ⟨[], c :: cs, rfl, by rw [hzero]; rfl, by rw [hzero]; rfl⟩
    · have hlong : (String.utf8EncodeChar c).length ≤ p := by
        by_contra hshort
        rw [not_le] at hshort
        have hbyte : (String.utf8EncodeChar c ++ cs.flatMap String.utf8EncodeChar)[p]?
            = some (String.utf8EncodeChar c)[p] := by
          rw [List.getElem?_append_left hshort, List.getElem?_eq_getElem hshort]
        have hmem : (String.utf8EncodeChar c)[p] ∈ (String.utf8EncodeChar c).tail := by
          obtain ⟨q, rfl⟩ := Nat.exists_eq_succ_of_ne_zero hzero
          rw [← List.getElem_tail (h := by rw [List.length_tail]; omega)]
          exact List.getElem_mem _
        have htail := isTail_of_shape (shape_encodeChar c) _ hmem
        rw [hp _ hbyte] at htail
        cases htail
      obtain ⟨q, rfl⟩ := Nat.exists_eq_add_of_le hlong
      have hq : Between (cs.flatMap String.utf8EncodeChar) q := by
        intro b hb
        refine hp b ?_
        rw [List.getElem?_append_right hlong, Nat.add_sub_cancel_left]
        exact hb
      obtain ⟨front, back, hcs, hfront, hback⟩ := ih hq
      refine ⟨c :: front, back, by rw [hcs]; rfl, ?_, ?_⟩
      · rw [List.take_length_add_append, hfront, List.flatMap_cons]
      · rw [List.drop_length_add_append, hback]

end Utf8

namespace ChunkPlan

/-- **An aligned place** is at its place or behind it, and between two characters. -/
theorem between_alignPoint (bs : Array UInt8) (p : Nat) :
    p ≤ alignPoint bs p ∧ Utf8.Between bs.toList (alignPoint bs p) := by
  induction p using alignPoint.induct bs with
  | case1 p hlt htail ih =>
    rw [alignPoint, dif_pos hlt, if_pos htail]
    exact ⟨by omega, ih.2⟩
  | case2 p hlt htail =>
    rw [alignPoint, dif_pos hlt, if_neg htail]
    refine ⟨Nat.le_refl p, ?_⟩
    rintro b hb
    rw [Array.getElem?_toList, Array.getElem?_eq_getElem hlt] at hb
    cases hb
    simpa using htail
  | case3 p hge =>
    rw [alignPoint, dif_neg hge]
    refine ⟨Nat.le_refl p, ?_⟩
    rintro b hb
    rw [Array.getElem?_toList, Array.getElem?_eq_none (by omega)] at hb
    cases hb

/-- The places an input is cut at are aligned if the policy says so. -/
theorem between_cuts {bs : Array UInt8} {points : List Nat} {p : Nat}
    (h : p ∈ cuts .utf8Aligned bs points) : Utf8.Between bs.toList p := by
  obtain ⟨q, -, rfl⟩ := List.mem_map.mp (mem_inside.mp h).1
  exact (between_alignPoint bs q).2

/-- **Chunks of text are text** if it is cut between characters. -/
theorem isText_of_mem_cutAt {chunks : Array Bytes} {position : Nat} {rest : Bytes}
    {points : List Nat} (hchunks : ∀ chunk ∈ chunks.toList, Utf8.IsText chunk)
    (hrest : Utf8.IsText rest) (hpoints : (position :: points).Pairwise (· < ·))
    (hbetween : ∀ p ∈ points, Utf8.Between rest (p - position)) :
    ∀ chunk ∈ cutAt chunks position rest points, Utf8.IsText chunk := by
  induction points generalizing chunks position rest with
  | nil =>
    rw [cutAt]
    split
    · exact hchunks
    · rw [Array.toList_push, List.forall_mem_append, List.forall_mem_singleton]
      exact ⟨hchunks, hrest⟩
  | cons p later ih =>
    rw [List.pairwise_cons, List.forall_mem_cons] at hpoints
    rw [List.forall_mem_cons] at hbetween
    obtain ⟨hfront, hback⟩ := Utf8.isText_cut hrest hbetween.1
    rw [cutAt]
    refine ih ?_ hback hpoints.2 ?_
    · rw [Array.toList_push, List.forall_mem_append, List.forall_mem_singleton]
      exact ⟨hchunks, hfront⟩
    · intro q hq b hb
      have hlt := (List.pairwise_cons.mp hpoints.2).1 q hq
      refine hbetween.2 q hq b ?_
      rw [List.getElem?_drop] at hb
      rwa [show p - position + (q - p) = q - position by omega] at hb

end ChunkPlan

end HtmlStream

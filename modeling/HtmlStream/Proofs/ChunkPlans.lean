import HtmlStream.Chunk.Plan

/-! # Chunks make up the input

Wherever an input is cut, the chunks concatenate back to it.

* **`ChunkPlan.flatten_cutAt`**: cuts at any places, in any order.
* **`ChunkPlan.flatten_pieces`**: chunks of one size, and `flatten_flatMap_pieces` of chunks of one
  size. -/

namespace HtmlStream.ChunkPlan

/-- **Cuts lose nothing**: what was cut off before and what is cut now make up the input. -/
theorem flatten_cutAt (chunks : Array Bytes) (position : Nat) (rest : Bytes) (points : List Nat) :
    (cutAt chunks position rest points).flatten = chunks.toList.flatten ++ rest := by
  induction points generalizing chunks position rest with
  | nil =>
    rw [cutAt]
    by_cases hrest : rest.isEmpty = true
    · rw [if_pos hrest, List.isEmpty_iff.mp hrest, List.append_nil]
    · rw [if_neg hrest]
      simp
  | cons p later ih =>
    rw [cutAt, ih, Array.toList_push, List.flatten_append, List.append_assoc]
    simp

theorem flatten_pieces (size : Nat) (bs : Bytes) : (pieces size bs).flatten = bs := by
  rw [pieces, flatten_cutAt]
  simp

/-- Chunks that are cut again still make up the input. -/
theorem flatten_flatMap_pieces (size : Nat) (chunks : List Bytes) :
    (chunks.flatMap (pieces size)).flatten = chunks.flatten := by
  induction chunks with
  | nil => rfl
  | cons chunk rest ih =>
    rw [List.flatMap_cons, List.flatten_append, flatten_pieces, ih, List.flatten_cons]

end HtmlStream.ChunkPlan

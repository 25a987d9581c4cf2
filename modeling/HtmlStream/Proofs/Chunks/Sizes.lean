import HtmlStream.Proofs.Chunks.Partition

/-! # Chunks of given sizes

A plan of sizes cuts where the running sums of its sizes are, and a plan of one size at the multiples of it.
Both cut off one chunk after another, each of its size, until the input is used up. The sums are words:
a size behind the end of the input may make one too great before it is seen that the input has ended.

* **`CutsBy`**: chunks of given sizes. **`Overruns`**: a sum too great in front of the end.
* **`StandsAt`**: places at running sums. **`standsAt_fixedPoints`**, **`standsAt_sizePoints`**: the places
  of both kinds of plan.
* **`cutsBy_cutAt`**: what is cut at running sums are chunks of the sizes.
* **`sizes_cut_off`**: plans of sizes, unless a sum is too great, and plans of one size.
* **`not_all_sizes_cut_off`**: a sum may be too great. -/

namespace HtmlStream.ChunkPlan

/-! ## (1) Chunks of given sizes -/

/-- **Chunks of given sizes**, one behind the other. `size? i` is the size of the `i`-th chunk, none behind the
last size. -/
structure CutsBy (size? : Nat → Option Nat) (bs : Bytes) (chunks : List Bytes) : Prop where
  /-- They make up the input. -/
  flatten : chunks.flatten = bs
  /-- None is empty. -/
  nonempty : ∀ chunk ∈ chunks, chunk ≠ []
  /-- A chunk that another one follows has its size. So there is one chunk behind the last size at most. -/
  full : ∀ i chunk, chunks[i]? = some chunk → i + 1 < chunks.length → size? i = some chunk.length
  /-- No chunk has more, so that the input may end within one. -/
  within : ∀ i chunk size, chunks[i]? = some chunk → size? i = some size → chunk.length ≤ size

/-- **A sum too great**, from `position` on: with the sizes in front of one the input is not used up, and
together with it they make no word. -/
def Overruns (list : List Nat) (position len : Nat) : Prop :=
  ∃ i size, list[i]? = some size ∧ position + (list.take i).sum < len ∧
    Word.greatest < position + (list.take i).sum + size

variable {size? : Nat → Option Nat} {bs : Bytes} {chunks : List Bytes}

/-- An input that is used up, or that ends within the next size. -/
theorem cutsBy_end (h : ∀ size, size? 0 = some size → bs.length ≤ size) :
    CutsBy size? bs (if bs.isEmpty then [] else [bs]) := by
  by_cases hbs : bs.isEmpty = true
  · rw [if_pos hbs]
    constructor
    · exact (List.isEmpty_iff.mp hbs).symm
    · exact List.forall_mem_nil _
    · intro i chunk hchunk
      cases hchunk
    · intro i chunk size hchunk
      cases hchunk
  · rw [if_neg hbs]
    constructor
    · exact List.flatten_singleton
    · intro chunk hmem
      rw [List.mem_singleton.mp hmem]
      simpa using hbs
    · intro i chunk hchunk hlt
      rw [List.length_singleton] at hlt
      omega
    · intro i chunk size hchunk hsize
      obtain ⟨hi, hchunk⟩ := List.getElem?_eq_some_iff.mp hchunk
      obtain rfl : i = 0 := by simpa using hi
      rw [← hchunk]
      exact h size hsize

/-- **A chunk in front** of those of the sizes behind its own. -/
theorem CutsBy.cons {size : Nat} (hsize : size? 0 = some size) (hpos : 0 < size)
    (hlt : size < bs.length) (h : CutsBy (fun i => size? (i + 1)) (bs.drop size) chunks) :
    CutsBy size? bs (bs.take size :: chunks) := by
  have hlength : (bs.take size).length = size := List.length_take_of_le hlt.le
  constructor
  · rw [List.flatten_cons, h.flatten, List.take_append_drop]
  · rw [List.forall_mem_cons]
    refine ⟨?_, h.nonempty⟩
    intro hnil
    rw [hnil] at hlength
    exact hpos.ne hlength
  · intro i chunk hchunk hfollowed
    cases i with
    | zero =>
      cases hchunk
      rw [hlength, hsize]
    | succ i => exact h.full i chunk hchunk (by simpa using hfollowed)
  · intro i chunk size' hchunk hsize'
    cases i with
    | zero =>
      cases hchunk
      rw [hsize] at hsize'
      cases hsize'
      exact hlength.le
    | succ i => exact h.within i chunk size' hchunk hsize'

/-! ## (2) Places at running sums -/

/-- **Places at running sums** of the sizes from `position` on, all of those below the length. -/
def StandsAt (len : Nat) : (Nat → Option Nat) → Nat → List Nat → Prop
  | size?, position, [] => ∀ size, size? 0 = some size → len ≤ position + size
  | size?, position, p :: later =>
    position < p ∧ p < len ∧ size? 0 = some (p - position) ∧
      StandsAt len (fun i => size? (i + 1)) p later

/-- Running sums are in order, and inside the input. -/
theorem StandsAt.pairwise {len position : Nat} {points : List Nat} (h : StandsAt len size? position points) :
    (position :: points).Pairwise (· < ·) ∧ ∀ p ∈ points, p < len := by
  induction points generalizing size? position with
  | nil => exact ⟨List.pairwise_singleton _ _, List.forall_mem_nil _⟩
  | cons p later ih =>
    obtain ⟨hlt, hp, -, hlater⟩ := h
    obtain ⟨hpairwise, hinside⟩ := ih hlater
    constructor
    · refine List.pairwise_cons.mpr ⟨?_, hpairwise⟩
      intro q hq
      rcases List.mem_cons.mp hq with rfl | hq
      · exact hlt
      · exact hlt.trans ((List.pairwise_cons.mp hpairwise).1 q hq)
    · exact List.forall_mem_cons.mpr ⟨hp, hinside⟩

/-- **Multiples of a size** are the running sums of that size, over and over. -/
theorem standsAt_multiples {len size : Nat} (hsize : 0 < size) (n i : Nat)
    (hn : n + i = (len - 1) / size) (hi : i = 0 ∨ i * size < len) :
    StandsAt len (fun _ => some size) (i * size) ((List.range' (i + 1) n).map (· * size)) := by
  induction n generalizing i with
  | zero =>
    rintro _ ⟨⟩
    have hstep : (i + 1) * size = i * size + size := Nat.succ_mul i size
    -- the next multiple is behind the last one below the length
    have hlt : (len - 1) / size < i + 1 := by omega
    have hle := (Nat.div_lt_iff_lt_mul hsize).mp hlt
    omega
  | succ n ih =>
    have hstep : (i + 1) * size = i * size + size := Nat.succ_mul i size
    have hle : i + 1 ≤ (len - 1) / size := by omega
    have hinside := (Nat.le_div_iff_mul_le hsize).mp hle
    have hlt : (i + 1) * size < len := by omega
    rw [List.range'_succ, List.map_cons]
    refine ⟨by omega, hlt, ?_, ?_⟩
    · rw [hstep, Nat.add_sub_cancel_left]
    · exact ih (i + 1) (by omega) (.inr hlt)

theorem standsAt_fixedPoints {size : Nat} (hsize : 0 < size) (len : Nat) :
    StandsAt len (fun _ => some size) 0 (fixedPoints size len) := by
  have h := @standsAt_multiples len size hsize _ 0 rfl (.inl rfl)
  rw [Nat.zero_mul, List.range'_eq_map_range, List.map_map] at h
  rw [fixedPoints]
  refine Eq.mp (congrArg _ (List.map_congr_left ?_)) h
  intro i hi
  rw [Function.comp_apply, Nat.zero_add, Nat.add_comm]

/-- A sum is too great with the first size, or later. -/
theorem overruns_cons {size position len : Nat} {rest : List Nat} :
    Overruns (size :: rest) position len ↔
      position < len ∧ Word.greatest < position + size ∨ Overruns rest (position + size) len := by
  constructor
  · rintro ⟨i, later, hlater, hlt, hover⟩
    cases i with
    | zero =>
      cases hlater
      exact .inl ⟨hlt, hover⟩
    | succ i =>
      rw [List.take_succ_cons, List.sum_cons, ← Nat.add_assoc] at hlt hover
      exact .inr ⟨i, later, hlater, hlt, hover⟩
  · rintro (⟨hlt, hover⟩ | ⟨i, later, hlater, hlt, hover⟩)
    · exact ⟨0, size, rfl, hlt, hover⟩
    · refine ⟨i + 1, later, hlater, ?_, ?_⟩
      · rwa [List.take_succ_cons, List.sum_cons, ← Nat.add_assoc]
      · rwa [List.take_succ_cons, List.sum_cons, ← Nat.add_assoc]

/-- Where the input is used up, no sum is looked at. -/
theorem not_overruns_of_le {list : List Nat} {position len : Nat} (h : len ≤ position) :
    ¬Overruns list position len := by
  rintro ⟨i, size, -, hlt, -⟩
  omega

/-- **Sizes have places to cut at**, the running sums, unless one of these is too great. -/
theorem standsAt_sizePoints {len : Nat} {list : List Nat}
    (hlist : ∀ size ∈ list, 0 < size ∧ size ≤ Word.greatest) (points : Array Nat) {position : Nat}
    (hposition : position = 0 ∨ position < len) :
    (Overruns list position len ∧ sizePoints len points position list = .error .overflow) ∨
      ¬Overruns list position len ∧ ∃ later,
        sizePoints len points position list = .ok (points.toList ++ later) ∧
          StandsAt len (list[·]?) position later := by
  induction list generalizing points position with
  | nil =>
    refine .inr ⟨?_, [], ?_, ?_⟩
    · rintro ⟨i, size, hsize, -⟩
      cases hsize
    · rw [sizePoints, List.append_nil]
    · rintro size ⟨⟩
  | cons size rest ih =>
    obtain ⟨⟨hpos, hword⟩, hrest⟩ := List.forall_mem_cons.mp hlist
    rw [sizePoints, if_neg hpos.ne', overruns_cons, Word.add?]
    by_cases hover : position + size ≤ Word.greatest
    · rw [if_pos hover]
      have hfirst : ¬(position < len ∧ Word.greatest < position + size) := by omega
      rw [or_iff_right hfirst]
      by_cases hend : len ≤ position + size
      · -- the input ends within this size, and the ones behind it are not looked at
        refine .inr ⟨not_overruns_of_le hend, [], ?_, ?_⟩
        · rw [List.append_nil]
          exact if_pos hend
        · rintro _ ⟨⟩
          exact hend
      · have hinside : position + size < len := by omega
        rcases ih hrest (points.push (position + size)) (.inr hinside) with
          ⟨hlater, herror⟩ | ⟨hnot, later, hok, hstands⟩
        · exact .inl ⟨hlater, (if_neg hend).trans herror⟩
        · refine .inr ⟨hnot, (position + size) :: later, ?_, ?_⟩
          · rw [Array.toList_push, List.append_assoc] at hok
            exact (if_neg hend).trans hok
          · refine ⟨by omega, hinside, ?_, hstands⟩
            rw [Nat.add_sub_cancel_left]
            rfl
    · -- one size is a word, so there is another one in front
      rw [if_neg hover]
      refine .inl ⟨.inl ⟨?_, by omega⟩, rfl⟩
      omega

/-! ## (3) Cutting -/

/-- Chunks that were cut before stay in front. -/
theorem cutAt_eq (chunks : Array Bytes) (position : Nat) (rest : Bytes) (points : List Nat) :
    cutAt chunks position rest points = chunks.toList ++ cutAt #[] position rest points := by
  induction points generalizing chunks position rest with
  | nil =>
    rw [cutAt, cutAt]
    by_cases hrest : rest.isEmpty = true
    · rw [if_pos hrest, if_pos hrest, List.append_nil]
    · rw [if_neg hrest, if_neg hrest, Array.toList_push]
      rfl
  | cons p later ih =>
    rw [cutAt, cutAt, ih, ih (Array.push #[] _), Array.toList_push, List.append_assoc]
    rfl

/-- **What is cut at running sums** are chunks of the sizes. -/
theorem cutsBy_cutAt {position : Nat} {rest : Bytes} {points : List Nat}
    (h : StandsAt (position + rest.length) size? position points) :
    CutsBy size? rest (cutAt #[] position rest points) := by
  induction points generalizing size? position rest with
  | nil =>
    rw [cutAt]
    refine cutsBy_end ?_
    intro size hsize
    have hle := h size hsize
    omega
  | cons p later ih =>
    obtain ⟨hlt, hp, hsize, hlater⟩ := h
    rw [cutAt, cutAt_eq]
    refine CutsBy.cons hsize (by omega) (by omega) (ih ?_)
    rw [List.length_drop]
    rwa [show p + (rest.length - (p - position)) = position + rest.length by omega]

/-- Places in order and inside are cut at as they are. -/
theorem inside_eq {len : Nat} {points : List Nat} (h : (0 :: points).Pairwise (· < ·))
    (hinside : ∀ p ∈ points, p < len) : inside len points = points := by
  obtain ⟨hpos, hpoints⟩ := List.pairwise_cons.mp h
  have hmem : ∀ p, p ∈ inside len points ↔ p ∈ points := by
    intro p
    rw [mem_inside]
    exact ⟨fun hp => hp.1, fun hp => ⟨hp, hpos p hp, hinside p hp⟩⟩
  have hperm : (inside len points).Perm points :=
    (List.perm_ext_iff_of_nodup (pairwise_sortedDistinct _).nodup hpoints.nodup).mpr hmem
  refine hperm.eq_of_pairwise ?_ (pairwise_sortedDistinct _) hpoints
  intro p q _ _ hpq hqp
  omega

/-- **A plan cuts an input into chunks of given sizes**, also with every number on the way checked to be
a word and every slice to be in the input, which has fewer bytes than memory can have. -/
def CutsOff (plan : ChunkPlan) (size? : Nat → Option Nat) (bs : Bytes) : Prop :=
  ∃ chunks, CutsBy size? bs chunks ∧ plan.split bs = .ok chunks ∧
    (bs.length < 2 ^ 63 → plan.carve bs = .ok chunks)

/-- A plan with places at running sums. -/
theorem cutsOff_of_standsAt {plan : ChunkPlan} (hpolicy : plan.policy = .byteStream)
    (hwords : plan.OfWords) {points : List Nat} (hpoints : plan.points bs.length = .ok points)
    (h : StandsAt bs.length size? 0 points) : plan.CutsOff size? bs := by
  have hcuts : cuts plan.policy bs.toArray points = points := by
    rw [hpolicy]
    exact inside_eq h.pairwise.1 h.pairwise.2
  have hsplit : plan.split bs = .ok (cutAt #[] 0 bs points) := by
    rw [split, hpoints]
    exact congrArg (fun places => Except.ok (cutAt #[] 0 bs places)) hcuts
  refine ⟨_, cutsBy_cutAt ?_, hsplit, ?_⟩
  · rwa [Nat.zero_add]
  · intro hlen
    rw [carve_eq hwords hlen, hsplit]
    rfl

/-- **Sizes are cut off one after another**, of any input and whatever they are, unless one makes their sum
too great while the input is not used up: then there are no chunks. One size is cut off over and
over. -/
theorem sizes_cut_off (bs : Bytes) :
    (∀ list : List Nat, (∀ size ∈ list, 0 < size ∧ size ≤ Word.greatest) →
      ((sizes list .byteStream).split bs = .error .overflow ↔ Overruns list 0 bs.length) ∧
        (¬Overruns list 0 bs.length → (sizes list .byteStream).CutsOff (list[·]?) bs)) ∧
      ∀ size, 0 < size → size ≤ Word.greatest →
        (fixed size .byteStream).CutsOff (fun _ => some size) bs := by
  constructor
  · intro list hlist
    have hwords : (sizes list .byteStream).OfWords := fun size hsize => (hlist size hsize).2
    rcases @standsAt_sizePoints bs.length list hlist #[] 0 (.inl rfl) with
      ⟨hover, herror⟩ | ⟨hnot, later, hok, hstands⟩
    · have hsplit : (sizes list .byteStream).split bs = .error .overflow := by
        rw [split, points, herror]
      exact ⟨iff_of_true hsplit hover, fun hnot => absurd hover hnot⟩
    · have hcuts : (sizes list .byteStream).CutsOff (list[·]?) bs :=
        cutsOff_of_standsAt rfl hwords hok hstands
      refine ⟨iff_of_false ?_ hnot, fun _ => hcuts⟩
      intro herror
      obtain ⟨chunks, -, hsplit, -⟩ := hcuts
      rw [herror] at hsplit
      cases hsplit
  · intro size hpos hword
    exact cutsOff_of_standsAt rfl hword (if_neg hpos.ne') (standsAt_fixedPoints hpos bs.length)

/-- The greatest sum there is, with one more size behind the end of the input, and the greatest size. -/
theorem sizes_cut_off_greatest :
    ((∀ size ∈ [2, Word.greatest - 2, 7], 0 < size ∧ size ≤ Word.greatest) ∧
      ¬Overruns [2, Word.greatest - 2, 7] 0 (Utf8.encode "abc").length ∧
      (sizes [2, Word.greatest - 2, 7] .byteStream).CutsOff ([2, Word.greatest - 2, 7][·]?)
        (Utf8.encode "abc")) ∧
      (fixed Word.greatest .byteStream).CutsOff (fun _ => some Word.greatest) (Utf8.encode "abc") := by
  have hlist : ∀ size ∈ [2, Word.greatest - 2, 7], 0 < size ∧ size ≤ Word.greatest := by decide
  have hnot : ¬Overruns [2, Word.greatest - 2, 7] 0 (Utf8.encode "abc").length := by
    have hlength : (Utf8.encode "abc").length = 3 := by decide
    rw [hlength, overruns_cons, overruns_cons, not_or, not_or]
    exact ⟨by decide, by decide, not_overruns_of_le (by decide)⟩
  obtain ⟨hsizes, hfixed⟩ := sizes_cut_off (Utf8.encode "abc")
  exact ⟨⟨hlist, hnot, (hsizes _ hlist).2 hnot⟩, hfixed Word.greatest (by decide) (Nat.le_refl _)⟩

/-- **Not all sizes are cut off**: the second size here makes the sum too great, although it is only one byte
that is left for it. -/
theorem not_all_sizes_cut_off :
    ¬∀ (list : List Nat) (bs : Bytes), (∀ size ∈ list, 0 < size ∧ size ≤ Word.greatest) →
      (sizes list .byteStream).CutsOff (list[·]?) bs := by
  intro h
  obtain ⟨chunks, -, hsplit, -⟩ := h [2, Word.greatest] (Utf8.encode "abc") (by decide)
  have herror : (sizes [2, Word.greatest] .byteStream).split (Utf8.encode "abc")
      = .error .overflow := by decide
  rw [herror] at hsplit
  cases hsplit

end HtmlStream.ChunkPlan

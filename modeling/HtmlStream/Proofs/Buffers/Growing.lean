import HtmlStream.Proofs.Buffers.Counts

/-! # Growing a buffer that shares its storage

Who shares a block can be counted, and a buffer that grows leaves those with whom it shares. It takes
none of their bytes with it, and they count one less.

* **`Pool.Solid`**: a pool whose handles stand for windows of its blocks. It reads as values.
* **`Pool.countOn_eq_length`**: the number of handles on a block, from a list of them.
* **`Pool.Detaches`**: what growing a buffer does to it and to the others. **`Pool.detaches_append`**: it
  does that. -/

namespace HtmlStream.Buffer.Pool

/-! ## (1) Solid pools -/

variable {p : Pool}

/-- **A pool whose handles stand for windows of its blocks.** -/
def Solid (p : Pool) : Prop := ∀ id h, p.handle? id = some h → p.Holds h

/-- What the handles of a pool read. -/
def values (p : Pool) : Values := p.handles.toList.map (·.map p.read)

theorem Represents.solid {v : Values} (hp : p.Represents v) : p.Solid := fun _ _ => hp.holds

/-- **Such a pool reads as values.** -/
theorem Solid.represents (hp : p.Solid) : p.Represents p.values where
  size := by simp [values]
  holds := hp _ _
  reads := by
    intro id
    rw [handle?, Values.value?, values, List.getElem?_map, Array.getElem?_toList]
    cases p.handles[id]? <;> rfl

theorem solid_after (ops : List Operation) : (after {} ops).Solid :=
  (represents_after represents_empty ops).solid

theorem handle?_eq_none_of_size_le {id : Nat} (h : p.handles.size ≤ id) :
    p.handle? id = none := by
  rw [handle?, Array.getElem?_eq_none h]
  rfl

/-- The same handle has the same storage. -/
theorem block?_congr {p' : Pool} {id : HandleId} (h : p'.handle? id = p.handle? id) :
    p'.block? id = p.block? id := by
  rw [block?, block?, h]

/-- Bytes are in storage. -/
theorem Solid.exists_block? (hp : p.Solid) {id : HandleId} (h : p.bytes id ≠ []) :
    ∃ block, p.block? id = some block :=
  Option.ne_none_iff_exists'.mp ((not_congr (hp.represents.block?_eq_none id)).mpr h)

theorem exists_of_block? {id : HandleId} {block : Nat} (h : p.block? id = some block) :
    ∃ handle, p.handle? id = some handle ∧ handle.block? = some block :=
  Option.bind_eq_some_iff.mp h

/-- Handles are on blocks that there are. -/
theorem Solid.block_lt (hp : p.Solid) {id : HandleId} {block : Nat} (h : p.block? id = some block) :
    block < p.blocks.size := by
  obtain ⟨handle, hid, hblock⟩ := exists_of_block? h
  have hholds := hp id handle hid
  cases handle with
  | empty => cases hblock
  | window w =>
    obtain ⟨-, -, bs, hbs, -⟩ := hholds
    cases hblock
    exact (Array.getElem?_eq_some_iff.mp hbs).1

/-! ## (2) Counting -/

/-- The table of handles, by number. -/
theorem toList_handles (p : Pool) :
    p.handles.toList = (List.range p.handles.size).map p.handle? := by
  refine List.ext_getElem (by simp) ?_
  intro i hi _
  rw [Array.length_toList] at hi
  rw [Array.getElem_toList, getElem_handles hi, List.getElem_map, List.getElem_range]

/-- **The number of handles on a block** is that of a list of them. -/
theorem countOn_eq_length {block : Nat} {ids : List HandleId} (hnodup : ids.Nodup)
    (hids : ∀ id, p.block? id = some block ↔ id ∈ ids) : p.countOn block = ids.length := by
  rw [countOn, ← Array.countP_toList, toList_handles, List.countP_map, List.countP_eq_length_filter]
  refine List.Perm.length_eq ((List.perm_ext_iff_of_nodup (List.nodup_range.filter _) hnodup).mpr ?_)
  intro id
  rw [List.mem_filter, List.mem_range, ← hids]
  constructor
  · rintro ⟨-, hblock⟩
    simpa [block?] using hblock
  · intro hblock
    obtain ⟨handle, hid, -⟩ := exists_of_block? hblock
    exact ⟨lt_of_handle? hid, by simpa [block?] using hblock⟩

theorem shareCount_of_block? {id : HandleId} {block : Nat} (h : p.block? id = some block) :
    p.shareCount id = p.countOn block := by
  rw [shareCount, h]

theorem sameStorage_of_block? {id other : HandleId} {block : Nat} (h : p.block? other = some block) :
    p.sameStorage id other = decide (p.block? id = some block) := by
  rw [sameStorage, h]
  cases p.block? id <;> simp

/-- Storage is not shared with those who have none. -/
theorem sameStorage_of_block?_eq_none {id other : HandleId} (h : p.block? other = none) :
    p.sameStorage id other = false := by
  rw [sameStorage, h]
  cases p.block? id <;> rfl

/-- Whoever counts one shares with nobody. -/
theorem sameStorage_of_shareCount_eq_one {id other : HandleId} (h : p.shareCount id = 1)
    (hne : id ≠ other) : p.sameStorage id other = false := by
  cases hother : p.block? other with
  | none => exact sameStorage_of_block?_eq_none hother
  | some block =>
    rw [sameStorage_of_block? hother, decide_eq_false_iff_not]
    intro hown
    obtain ⟨handle, hid, hblock⟩ := exists_of_block? hown
    obtain ⟨handle', hid', hblock'⟩ := exists_of_block? hother
    rw [shareCount_of_block? hown] at h
    exact block_ne_of_countOn_eq_one h hid hblock hid' hne hblock'

theorem countOn_pos {id : HandleId} {block : Nat} (h : p.block? id = some block) :
    0 < p.countOn block := by
  obtain ⟨handle, hid, hblock⟩ := exists_of_block? h
  have hlt := lt_of_handle? hid
  rw [countOn, Array.countP_pos_iff]
  refine ⟨p.handles[id], Array.getElem_mem hlt, ?_⟩
  rw [getElem_handles hlt, hid]
  simpa using hblock

/-! ## (3) Growing -/

/-- **What growing the buffer `id` by `more` does.** -/
structure Detaches (p p' : Pool) (id : HandleId) (more : Bytes) : Prop where
  /-- The buffer has grown. -/
  own : p'.bytes id = p.bytes id ++ more
  /-- No other reads otherwise. -/
  others : ∀ other, other ≠ id → p'.bytes other = p.bytes other
  /-- The buffer has storage for itself. -/
  alone : p'.shareCount id = 1 ∧ ∀ other, other ≠ id → p'.sameStorage id other = false
  /-- If it had shared its storage, it has moved. -/
  moved : ∀ other, other ≠ id → p.sameStorage id other = true → p'.block? id ≠ p.block? id
  /-- The others have stayed. -/
  stayed : ∀ other, other ≠ id → p'.block? other = p.block? other
  /-- Those it had shared it with count one less, and the others what they did. -/
  lowered : ∀ other, other ≠ id →
    p'.shareCount other + (if p.sameStorage id other then 1 else 0) = p.shareCount other

/-- How a buffer grows: in place, if it is alone on its block, and else on a new one. -/
theorem append_cases {id : HandleId} {h : Handle} (hid : p.handle? id = some h) {more : Bytes}
    (hmore : more ≠ []) :
    (p.shareCount id = 1 ∧ (p.append id more).block? id = p.block? id ∧
      ∀ block, (p.append id more).countOn block = p.countOn block) ∨
    (p.shareCount id ≠ 1 ∧ (p.append id more).block? id = some p.blocks.size ∧
      ∀ block, (p.append id more).countOn block
        = (p.countOn block - if p.block? id = some block then 1 else 0)
          + if p.blocks.size = block then 1 else 0) := by
  have hlt := lt_of_handle? hid
  have hown : p.block? id = h.block? := by rw [block?, hid, Option.bind_some]
  have hanew : (p.growAnew id (p.read h ++ more)).block? id = some p.blocks.size ∧
      ∀ block, (p.growAnew id (p.read h ++ more)).countOn block
        = (p.countOn block - if p.block? id = some block then 1 else 0)
          + if p.blocks.size = block then 1 else 0 := by
    constructor
    · rw [growAnew, block?, handle?_replace, if_pos ⟨rfl, hlt⟩]
      rfl
    · intro block
      have hreplace : (p.growAnew id (p.read h ++ more)).countOn block
          = (p.countOn block - if h.block? = some block then 1 else 0)
            + if some p.blocks.size = some block then 1 else 0 :=
        countOn_replace (p := { p with blocks := p.blocks.push (p.read h ++ more).toArray }) hid
          (.window ⟨p.blocks.size, 0, (p.read h ++ more).length⟩) block
      rw [hreplace, hown]
      simp only [Option.some.injEq]
  rw [append_eq id hmore hid]
  cases h with
  | empty =>
    right
    refine ⟨?_, hanew⟩
    rw [shareCount, hown]
    simp [Handle.block?]
  | window w =>
    have hcount : p.shareCount id = p.countOn w.block := shareCount_of_block? hown
    rw [grow]
    split_ifs with hone
    · left
      rw [decide_eq_true_eq] at hone
      refine ⟨hcount.trans hone, ?_, ?_⟩
      · rw [growInPlace, block?, handle?_replace, if_pos ⟨rfl, hlt⟩, hown]
        rfl
      · intro block
        have hreplace : (p.growInPlace id w.block (p.read (.window w) ++ more)).countOn block
            = (p.countOn block - if some w.block = some block then 1 else 0)
              + if some w.block = some block then 1 else 0 :=
          countOn_replace (p := { p with blocks := p.blocks.setIfInBounds w.block _ }) hid
            (.window ⟨w.block, 0, (p.read (.window w) ++ more).length⟩) block
        rw [hreplace]
        split_ifs with heq
        · cases heq
          omega
        · omega
    · right
      rw [decide_eq_true_eq] at hone
      exact ⟨hcount ▸ hone, hanew⟩

/-- Growing a buffer changes no other handle. -/
theorem handle?_append (id : HandleId) (more : Bytes) {other : HandleId} (hne : other ≠ id) :
    (p.append id more).handle? other = p.handle? other := by
  by_cases hmore : more = []
  · rw [append, if_pos (by simp [hmore])]
  · cases hid : p.handle? id with
    | none => rw [append, if_neg (by simpa using hmore), hid]
    | some h =>
      have hother : ¬(id = other ∧ id < p.handles.size) := fun hand => hne hand.1.symm
      rw [append_eq id hmore hid]
      cases h with
      | empty => exact (handle?_replace _ _ _).trans (if_neg hother)
      | window w =>
        rw [grow]
        split_ifs
        · exact (handle?_replace _ _ _).trans (if_neg hother)
        · exact (handle?_replace _ _ _).trans (if_neg hother)

/-- **A buffer that grows** leaves all others as they are, and shares with none of them. -/
theorem detaches_append (hp : p.Solid) {id : HandleId} (hlive : p.handle? id ≠ none) {more : Bytes}
    (hmore : more ≠ []) : p.Detaches (p.append id more) id more := by
  obtain ⟨h, hid⟩ := Option.ne_none_iff_exists'.mp hlive
  have hblock {other : HandleId} (hne : other ≠ id) :
      (p.append id more).block? other = p.block? other := block?_congr (handle?_append id more hne)
  have hcases := append_cases hid hmore
  have hfresh : p.countOn p.blocks.size = 0 := hp.represents.countOn_fresh
  have halone : (p.append id more).shareCount id = 1 := by
    obtain ⟨hone, hsame, hcount⟩ | ⟨-, hnew, hcount⟩ := hcases
    · rw [shareCount] at hone ⊢
      rw [hsame]
      cases hown : p.block? id with
      | none => simp [hown] at hone
      | some block => simpa [hown, hcount] using hone
    · rw [shareCount_of_block? hnew, hcount, hfresh]
      simp
  constructor
  case own =>
    rw [(hp.represents.append id more).bytes_eq, Values.bytes, Values.value?_modify, if_pos rfl,
      ← hp.represents.reads, bytes, hid]
    rfl
  case others => exact fun other hne => hp.represents.apart id more hne
  case alone => exact ⟨halone, fun other hne => sameStorage_of_shareCount_eq_one halone hne.symm⟩
  case moved =>
    intro other hne hshared
    obtain ⟨hone, -, -⟩ | ⟨-, hnew, -⟩ := hcases
    · rw [sameStorage_of_shareCount_eq_one hone hne.symm] at hshared
      cases hshared
    · rw [hnew]
      intro hold
      exact Nat.lt_irrefl _ (hp.block_lt hold.symm)
  case stayed => exact fun other hne => hblock hne
  case lowered =>
    intro other hne
    cases hother : p.block? other with
    | none =>
      rw [sameStorage_of_block?_eq_none hother, shareCount, shareCount, hblock hne, hother]
      rfl
    | some block =>
      have hnow : (p.append id more).block? other = some block := (hblock hne).trans hother
      rw [shareCount_of_block? hnow, shareCount_of_block? hother]
      obtain ⟨hone, -, hcount⟩ | ⟨-, -, hcount⟩ := hcases
      · rw [sameStorage_of_shareCount_eq_one hone hne.symm, hcount]
        rfl
      · -- the buffer leaves the block, on which the other is still counted
        have hpos := countOn_pos hother
        have hlt := hp.block_lt hother
        rw [sameStorage_of_block? hother, hcount,
          if_neg (show ¬p.blocks.size = block by omega)]
        simp only [decide_eq_true_eq]
        split_ifs
        · omega
        · omega

end HtmlStream.Buffer.Pool

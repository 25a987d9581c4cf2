import HtmlStream.Proofs.Clean.Actions
import HtmlStream.Proofs.Counters
import HtmlStream.Proofs.Machine.Acts

/-! # Attributes cost characters

Each attribute begins with a character of its own, so no tag has more attributes than the machine has
read characters, and none has more than there are bytes in the input.

* **`Machine.Paid`**: the characters read pay for the attributes. **`paid_of_acts`**: each elementary
  action keeps it so.
* **`Utf8.length_lossy_le`**: there are no more characters than bytes.
* **`attributeCount_le`**: no token of a whole run has more attributes than there are bytes. -/

namespace HtmlStream

/-- The number of attributes of a tag, none of another token. -/
def Token.attributeCount : Token → Nat
  | .tag t => t.attributes.size
  | _ => 0

/-! ## (1) Actions -/

/-- **The characters read pay for the attributes**, and for `spare` more. -/
structure Machine.Paid (spare : Nat) (m : Machine) : Prop where
  /-- For those of the tag under construction and the one that has begun. -/
  held : m.tag.attributes.size + m.currentAttribute.toList.length + spare ≤ m.input.consumed
  /-- For those of each tag in the queue. -/
  queued : ∀ t ∈ m.queue.toList, t.attributeCount ≤ m.input.consumed

namespace Machine

variable {spare : Nat} {m : Machine}

theorem paid_start (config : Config) (bytes : Bytes) : (whole config bytes).Paid 0 where
  held := Nat.le_refl 0
  queued := by
    have hqueue : (whole config bytes).queue.toList = [] := by simp [whole, completed, within, start]
    rw [hqueue]
    exact List.forall_mem_nil _

namespace Paid

theorem less (h : m.Paid (spare + 1)) : m.Paid spare where
  held := by
    have hheld := h.held
    omega
  queued := h.queued

theorem goto (h : m.Paid spare) (next : State) : (m.goto next).Paid spare := by
  unfold Machine.goto
  split
  · exact h
  · exact { h with }

theorem skip (h : m.Paid spare) (n : Nat) : (m.skip n).Paid (spare + n) where
  held := by
    have hheld := Nat.add_le_add_right h.held n
    rwa [Nat.add_assoc] at hheld
  queued := fun t ht => (h.queued t ht).trans (Nat.le_add_right _ n)

theorem advance (h : m.Paid spare) : m.advance.Paid (spare + 1) := { h.skip 1 with }

/-- What is queued was paid for. -/
theorem emit (h : m.Paid spare) {t : Token} (ht : t.attributeCount ≤ m.input.consumed) :
    (m.emit t).Paid spare := by
  have hinput : (m.emit t).input = m.input := congrArg Course.input (m.course_emit t)
  refine ⟨?_, ?_⟩
  · rw [hinput, Clean.emit_eq]
    exact h.held
  · rw [hinput, toList_queue_emit]
    intro u hu
    rw [List.mem_append, List.mem_append, List.mem_singleton] at hu
    rcases hu with hu | hu | rfl
    · exact h.queued u hu
    · unfold heldBack textTokens at hu
      split at hu
      · cases hu
      · rw [List.mem_singleton.mp hu]
        exact Nat.zero_le _
    · exact ht

theorem report (h : m.Paid spare) (code : ErrorCode) : (m.report code).Paid spare :=
  Paid.emit (m := { m with errors := m.errors + 1 }) { h with } (Nat.zero_le _)

theorem dropAttribute (h : m.Paid spare) : m.dropAttribute.Paid spare where
  held := by
    have hheld := h.held
    simp only [Machine.dropAttribute, Option.toList_none, List.length_nil]
    omega
  queued := h.queued

/-- An attribute that is finished was paid for when it began. -/
theorem closeAttribute (h : m.Paid spare) : m.closeAttribute.Paid spare := by
  unfold Machine.closeAttribute
  split
  · exact h
  · rename_i a ha
    split
    · exact h.dropAttribute.report _
    · have hheld := h.held
      rw [ha, Option.toList_some, List.length_singleton] at hheld
      refine ⟨?_, h.queued⟩
      simp only [Machine.dropAttribute, Array.size_push, Option.toList_none, List.length_nil]
      exact hheld

theorem currentAttribute_closeAttribute (m : Machine) : m.closeAttribute.currentAttribute = none := by
  unfold Machine.closeAttribute
  split
  · assumption
  · split
    · rw [Machine.report, Clean.emit_eq]
      rfl
    · rfl

/-- **An attribute that begins** is paid for by a character. -/
theorem openAttribute (h : m.Paid (spare + 1)) (c : Char) : (m.openAttribute c).Paid spare := by
  have hheld := h.closeAttribute.held
  rw [currentAttribute_closeAttribute, Option.toList_none, List.length_nil] at hheld
  refine ⟨?_, h.closeAttribute.queued⟩
  simp only [Machine.openAttribute, Option.toList_some, List.length_singleton]
  omega

theorem beginAttribute (h : m.Paid (spare + 1)) (c : Char) : (m.beginAttribute c).Paid spare := by
  unfold Machine.beginAttribute
  refine Paid.goto ?_ _
  repeat' split
  · exact (h.report _).openAttribute _
  · exact (h.report _).openAttribute _
  · exact (h.report _).openAttribute _
  · exact h.openAttribute _

/-- What happens to the attribute under construction costs nothing. -/
theorem mapAttribute (h : m.Paid spare) (f : Attribute → Attribute) :
    { m with currentAttribute := m.currentAttribute.map f }.Paid spare := by
  refine ⟨?_, h.queued⟩
  have hheld := h.held
  cases hcurrent : m.currentAttribute with
  | none =>
    rw [hcurrent] at hheld
    simpa using hheld
  | some a =>
    rw [hcurrent] at hheld
    simpa using hheld

theorem reset (h : m.Paid spare) (t : Tag) (ht : t.attributes = #[]) :
    { m with tag := t, currentAttribute := none }.Paid spare := by
  refine ⟨?_, h.queued⟩
  have hheld := h.held
  simp only [ht, Option.toList_none, List.length_nil]
  show 0 + 0 + spare ≤ m.input.consumed
  omega

theorem reportTag (h : m.Paid spare) (t : Tag) : (m.reportTag t).Paid spare := by
  unfold Machine.reportTag
  cases t.kind with
  | opening => exact { h with }
  | closing =>
    simp only
    repeat' split
    · exact h.report _
    · exact (h.report _).report _
    · exact h
    · exact h.report _

/-- **A tag that is queued** was paid for. -/
theorem emitTag (h : m.Paid spare) : m.emitTag.Paid spare := by
  have hclosed := h.closeAttribute
  have hreset : m.closeAttribute.resetTag.Paid spare := by
    have hreset := hclosed.reset { kind := .opening } rfl
    rwa [← currentAttribute_closeAttribute m] at hreset
  have hreported := hreset.reportTag m.closeAttribute.tag
  refine (hreported.emit (t := .tag m.closeAttribute.tag) ?_).goto _
  have hinput : (m.closeAttribute.resetTag.reportTag m.closeAttribute.tag).input
      = m.closeAttribute.input := congrArg Course.input (course_reportTag _ _)
  have hheld := hclosed.held
  rw [hinput]
  show m.closeAttribute.tag.attributes.size ≤ _
  omega

theorem closeReference (h : m.Paid spare) (r : Reference) (s : String) :
    (m.closeReference r s).Paid spare := by
  unfold Machine.closeReference
  show (if r.inAttribute then _ else _ : Machine).Paid spare
  split
  · exact Paid.mapAttribute (m := { m with reference := none }) { h with } _
  · exact { h with }

end Paid

/-- **Elementary actions** have their attributes paid for. -/
theorem paid_of_acts {k : Machine} (h : m.Paid 0) (hacts : m.Acts k) : k.Paid 0 := by
  induction hacts with
  | refl => exact h
  | goto _ next ih => exact ih.goto next
  | advance _ ih => exact ih.advance.less
  | skip _ n ih =>
    have hskip := ih.skip n
    exact ⟨by have hheld := hskip.held; omega, hskip.queued⟩
  | report _ code ih => exact ih.report code
  | emitNull _ ih => exact ih.emit (Nat.zero_le _)
  | emitEnd _ ih =>
    have hemit := ih.emit (t := .endOfInput) (Nat.zero_le _)
    exact { hemit with }
  | openTag _ kind c ih => exact ih.reset _ rfl
  | beginAttribute _ c ih => exact ih.advance.beginAttribute c
  | putAttributeName _ c ih => exact ih.mapAttribute _
  | putAttributeValue _ c ih => exact ih.mapAttribute _
  | dropAttribute _ ih => exact ih.dropAttribute
  | emitTag _ ih => exact ih.emitTag
  | @emitComment k _ ih =>
    have hemit := Paid.emit (m := k.openComment "") (t := .comment k.comment) { ih with } (Nat.zero_le _)
    exact hemit.goto _
  | openIdentifier _ kind ih => cases kind <;> exact { ih with }
  | putIdentifier _ c kind ih => cases kind <;> exact { ih with }
  | @emitDoctype k _ ih =>
    have hemit := Paid.emit (m := k.resetDoctype) (t := .doctype k.doctype) { ih with } (Nat.zero_le _)
    exact hemit.goto _
  | closeReference _ r s ih => exact ih.closeReference r s
  -- the others do nothing to tags, attributes, the queue and the input
  | _ =>
    rename_i ih
    exact { ih with }

theorem paid_leads {k : Machine} (h : m.Paid 0) (hleads : m.Leads k) : k.Paid 0 := by
  induction hleads with
  | refl => exact h
  | tail _ hstep ih => exact paid_of_acts ih (acts_step hstep)

end Machine

/-! ## (2) Bytes -/

theorem Utf8.length_lossyFrom_le (acc : String) (skip : Nat) (bs : Bytes) :
    (lossyFrom acc skip bs).toList.length ≤ acc.toList.length + bs.length := by
  induction bs generalizing acc skip with
  | nil => exact Nat.le_refl _
  | cons b rest ih =>
    cases skip with
    | zero =>
      have hrest := ih (acc.push (Piece.first (b :: rest)).text) ((Piece.first (b :: rest)).size - 1)
      rw [String.toList_push, List.length_append, List.length_singleton] at hrest
      rw [lossyFrom, List.length_cons]
      omega
    | succ skip =>
      have hrest := ih acc skip
      rw [lossyFrom, List.length_cons]
      omega

/-- **There are no more characters than bytes.** -/
theorem Utf8.length_lossy_le (bs : Bytes) : (lossy bs).toList.length ≤ bs.length := by
  have hlength := length_lossyFrom_le "" 0 bs
  rwa [String.toList_empty, List.length_nil, Nat.zero_add] at hlength

theorem length_normalizeNewlines_le (cs : List Char) :
    (normalizeNewlines cs).length ≤ cs.length := by
  induction cs using normalizeNewlines.induct with
  | case1 => exact Nat.le_refl _
  | case2 rest ih =>
    rw [normalizeNewlines, List.length_cons, List.length_cons, List.length_cons]
    omega
  | case3 rest hpair ih =>
    rw [normalizeNewlines, List.length_cons, List.length_cons]
    · omega
    · exact fun tail htail => hpair tail htail
  | case4 c rest hpair hreturn ih =>
    rw [normalizeNewlines_cons hreturn, List.length_cons, List.length_cons]
    omega

theorem length_stripBom_le (discardBom : Bool) (cs : List Char) :
    (stripBom discardBom cs).length ≤ cs.length := by
  cases cs with
  | nil => exact Nat.le_refl _
  | cons c rest =>
    rw [stripBom]
    split
    · exact Nat.le_succ _
    · exact Nat.le_refl _

/-- What a whole run has read is no more than there are bytes. -/
theorem Machine.consumed_whole_le (config : Config) (bytes : Bytes) :
    (whole config bytes).run.input.consumed ≤ bytes.length := by
  have hcounted := counted_leads (whole config bytes).leads_run
  have hstart : (whole config bytes).input.counted = (whole config bytes).input.pending.length :=
    Nat.zero_add _
  rw [hstart, pending_whole] at hcounted
  calc (whole config bytes).run.input.consumed
      ≤ (whole config bytes).run.input.counted := Nat.le_add_right _ _
    _ = (normalizeNewlines (stripBom config.discardBom (Utf8.lossy bytes).toList)).length := hcounted
    _ ≤ (stripBom config.discardBom (Utf8.lossy bytes).toList).length :=
        length_normalizeNewlines_le _
    _ ≤ (Utf8.lossy bytes).toList.length := length_stripBom_le _ _
    _ ≤ bytes.length := Utf8.length_lossy_le bytes

/-- **No tag has more attributes than there are bytes.** -/
theorem attributeCount_le (config : Config) (bytes : Bytes) {t : Token}
    (ht : t ∈ (Machine.whole config bytes).run.queue.toList) : t.attributeCount ≤ bytes.length :=
  ((Machine.paid_leads (Machine.paid_start config bytes)
    (Machine.whole config bytes).leads_run).queued t ht).trans (Machine.consumed_whole_le config bytes)

end HtmlStream

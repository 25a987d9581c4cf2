import HtmlStream.Proofs.Machine.Episodes
import HtmlStream.Proofs.Tags.Written

/-! # Machines in a tag

An attribute is finished only when the next one begins or the tag ends, and its value goes on growing
meanwhile. What a machine has of a tag is therefore the attributes that are finished, of which it keeps the
first of each name, and the one under construction.

* **`Spot`**: the state, what is to be read, the attributes that are finished, and the one under
  construction. **`Machine.At`**: a machine stands there, and has reported each attribute it has not kept.
* **`At.goto`**, **`At.closeAttribute`**, …: each action leads to another spot.
* **`Spot.Goes`**: from one spot machines get to another. **`goes_of_stepChar`**: with one step. -/

namespace HtmlStream

/-- Whether the error is about attributes that are dropped, or about an end tag that is more than a name. -/
def ErrorCode.concernsTags : ErrorCode → Bool
  | .duplicateAttribute | .endTagWithAttributes | .endTagWithTrailingSolidus => true
  | _ => false

/-- Whether the state is behind the name of a tag. -/
def State.insideTag : State → Bool
  | .beforeAttributeName | .attributeName | .afterAttributeName | .beforeAttributeValue
  | .attributeValue _ | .afterAttributeValueQuoted | .selfClosingStartTag => true
  | _ => false

/-- What is known of a tag when its name ends: its kind, its name, and what has been put out before. -/
structure TagStart where
  /-- The kind. -/
  kind : TagKind
  /-- The name. -/
  name : String
  /-- Whether `/` has been read in front of the `>`. -/
  selfClosing : Bool := false
  /-- What has been put out before. -/
  base : List Token

/-- **A place in a tag**: the state, what is to be read, the attributes that are finished, and the one under
construction. -/
structure Spot where
  /-- The state. -/
  state : State
  /-- What is to be read. -/
  rest : List Char
  /-- The attributes that are finished. -/
  closed : List Attribute := []
  /-- The attribute under construction. -/
  current : Option Attribute := none

/-- The tag with attributes of which the first of each name are kept. -/
def TagStart.tag (o : TagStart) (attributes : List Attribute) : Tag :=
  ⟨o.kind, o.name, o.selfClosing, (Attribute.firsts attributes).toArray⟩

/-- The attribute under construction is finished. -/
def Spot.close (p : Spot) : Spot :=
  { p with closed := p.closed ++ p.current.toList, current := none }

namespace Attribute

/-- The number of attributes that are dropped. -/
def dropped (as : List Attribute) : Nat := as.length - (firsts as).length

/-- An attribute is dropped if its name is that of a former one. -/
theorem dropped_concat (as : List Attribute) (a : Attribute) :
    dropped (as ++ [a]) = if (firsts as).any (·.name == a.name) then dropped as + 1 else dropped as := by
  have hle := length_firsts_le as
  rw [dropped, firsts_concat, List.length_append, List.length_singleton]
  split
  · rw [dropped]
    omega
  · rw [List.length_append, List.length_singleton, Nat.add_sub_add_right, dropped]

end Attribute

namespace Machine

open Attribute

/-- **A machine stands at a place in a tag.** It keeps the first attributes of each name, and of the errors
that concern tags has reported one for each attribute it has not kept, and no other. -/
structure At (o : TagStart) (p : Spot) (m : Machine) : Prop where
  /-- The state. -/
  state : m.state = p.state
  /-- What is to be read. -/
  pending : m.input.pending = p.rest
  /-- No reference is under construction. -/
  reference : m.reference = none
  /-- The end of the input has not been queued. -/
  ended : m.ended = false
  /-- No more bytes will come. -/
  finished : m.input.finished = true
  /-- The attribute under construction. -/
  current : m.currentAttribute = p.current
  /-- The tag. -/
  tag : m.tag = o.tag p.closed
  /-- The errors. -/
  told : ∃ codes, m.Told o.base codes ∧
    codes.filter ErrorCode.concernsTags = List.replicate (dropped p.closed) .duplicateAttribute

/-! ## (1) Actions -/

variable {o : TagStart} {p : Spot} {m : Machine}

namespace At

theorem goto (h : m.At o p) (next : State) : (m.goto next).At o { p with state := next } := by
  unfold Machine.goto
  split
  · exact { h with state := ‹_› }
  · exact { h with state := rfl }

theorem input (h : m.At o p) {i : Input} (hfinished : i.finished = m.input.finished) :
    At o { p with rest := i.pending } { m with input := i } :=
  { h with pending := rfl, finished := hfinished.trans h.finished }

theorem advance (h : m.At o p) : m.advance.At o { p with rest := p.rest.tail } := by
  rw [← h.pending]
  exact h.input (i := m.input.advance) rfl

theorem skip (h : m.At o p) (n : Nat) : (m.skip n).At o { p with rest := p.rest.drop n } := by
  rw [← h.pending]
  exact h.input (i := m.input.skip n) rfl

/-- An error that does not concern tags. -/
theorem report (h : m.At o p) {code : ErrorCode} (hcode : code.concernsTags = false) :
    (m.report code).At o p := by
  have htold : ∃ codes, (m.report code).Told o.base codes ∧
      codes.filter ErrorCode.concernsTags = List.replicate (dropped p.closed) .duplicateAttribute := by
    obtain ⟨codes, htold, hcodes⟩ := h.told
    refine ⟨_, htold.report code, ?_⟩
    rw [List.filter_append, hcodes, List.filter_singleton, hcode]
    exact List.append_nil _
  rw [Machine.report, Clean.emit_eq] at htold ⊢
  exact { h with told := htold }

theorem mapAttribute (h : m.At o p) (f : Attribute → Attribute) :
    At o { p with current := p.current.map f } { m with currentAttribute := m.currentAttribute.map f } :=
  { h with current := congrArg (Option.map f) h.current }

/-- **The attribute under construction is finished**: it is kept, or an error is reported. -/
theorem closeAttribute (h : m.At o p) : m.closeAttribute.At o p.close := by
  have hp : p.close = { p with closed := p.closed ++ p.current.toList, current := none } := rfl
  unfold Machine.closeAttribute
  rw [hp, ← h.current]
  cases hcurrent : m.currentAttribute with
  | none =>
    rw [Option.toList_none, List.append_nil]
    exact { h with current := hcurrent }
  | some a =>
    have hany : (m.tag.attributes.any fun b => b.name == a.name)
        = (firsts p.closed).any (·.name == a.name) := by
      rw [h.tag, TagStart.tag, List.any_toArray]
    obtain ⟨codes, htold, hcodes⟩ := h.told
    simp only [Option.toList_some, hany]
    split
    · rename_i hdropped
      have htold' : ∃ codes, (m.dropAttribute.report .duplicateAttribute).Told o.base codes ∧
          codes.filter ErrorCode.concernsTags
            = List.replicate (dropped (p.closed ++ [a])) .duplicateAttribute := by
        refine ⟨_, Told.report (m := m.dropAttribute) htold .duplicateAttribute, ?_⟩
        rw [dropped_concat, if_pos hdropped, List.replicate_succ', List.filter_append, hcodes]
        rfl
      have htag : m.tag = o.tag (p.closed ++ [a]) := by
        rw [TagStart.tag, firsts_concat, if_pos hdropped, h.tag, TagStart.tag]
      rw [Machine.report, Clean.emit_eq] at htold' ⊢
      exact { h with current := rfl, tag := htag, told := htold' }
    · rename_i hkept
      refine { h with current := rfl, tag := ?_, told := ⟨codes, htold, ?_⟩ }
      · rw [TagStart.tag, firsts_concat, if_neg hkept, h.tag, TagStart.tag, List.push_toArray]
      · rw [hcodes, dropped_concat, if_neg hkept]

/-- An attribute begins. -/
theorem openAttribute (h : m.At o p) (c : Char) :
    (m.openAttribute c).At o { p.close with current := some { name := String.singleton c } } :=
  { h.closeAttribute with current := rfl }

theorem markSelfClosing (h : m.At o p) : m.markSelfClosing.At { o with selfClosing := true } p := by
  refine { h with tag := ?_ }
  rw [Machine.markSelfClosing, h.tag]
  rfl

/-- **Text for the value** goes to the attribute under construction. -/
theorem putHere (h : m.At o p) (hstate : p.state.isAttributeValue = true) (s : String) :
    (m.putHere s).At o
      { p with current := p.current.map fun a => { a with value := a.value ++ s } } := by
  rw [Machine.putHere, if_pos (by rwa [h.state])]
  exact h.mapAttribute _

/-- What a step at a character is. -/
theorem step_eq {c : Char} {s : List Char} (h : m.At o p) (hrest : p.rest = c :: s) :
    step .byChar m = m.stepChar c :=
  (step_of_char h.ended h.reference (h.pending.trans hrest)).trans (stepAt_byChar m c)

end At

/-! ## (2) Steps -/

end Machine

/-- **From one place machines get to another.** -/
def Spot.Goes (p q : Spot) : Prop :=
  ∀ o (m : Machine), m.At o p → ∃ k, m.Leads k ∧ k.At o q

namespace Spot

variable {p q r : Spot}

theorem Goes.refl (p : Spot) : p.Goes p := fun _ m h => ⟨m, Relation.ReflTransGen.refl, h⟩

theorem Goes.trans (h : p.Goes q) (h' : q.Goes r) : p.Goes r := by
  intro o m hm
  obtain ⟨k, hk, hq⟩ := h o m hm
  obtain ⟨k', hk', hr⟩ := h' o k hq
  exact ⟨k', hk.trans hk', hr⟩

/-- **With one step.** -/
theorem goes_of_stepChar {c : Char} {s : List Char} (hrest : p.rest = c :: s)
    (h : ∀ o (m : Machine), m.At o p → ∃ k, m.stepChar c = some k ∧ k.At o q) : p.Goes q := by
  intro o m hm
  obtain ⟨k, hk, hq⟩ := h o m hm
  exact ⟨k, Machine.Leads.single ((hm.step_eq hrest).trans hk), hq⟩

end Spot

end HtmlStream

import HtmlStream.Proofs.Machine.Pose
import HtmlStream.Proofs.Markup

/-! # Reading text and values back

Text between tags and values between quotation marks are read in the same way: a character stands for
itself, and the three that cannot are written as references.

* **`Place.state`** and **`Pose.put`**: where a place is read and where its text goes.
* **`leads_reference`**: a reference stands for its character.
* **`leads_write`**: what is written in a place is read back. -/

namespace HtmlStream

open Machine (stepData stepAttributeValue)

/-! ## (1) Places -/

/-- The state in which a place is read. -/
def Place.state : Place → State
  | .text => .data
  | .value => .attributeValue .doubleQuoted

/-- The reference a place begins. -/
def Place.opened (place : Place) : Reference := { inAttribute := place.state.isAttributeValue }

/-- The reference of a place of which `raw` has been read. -/
def Place.named (place : Place) (raw : String) : Reference :=
  { place.opened with phase := .named, raw }

/-- What was read in a place goes to the text held back or to the value of the attribute. -/
def Pose.put (p : Pose) (place : Place) (s : String) : Pose :=
  match place with
  | .text => { p with held := p.held ++ s }
  | .value => { p with current := p.current.map fun a => { a with value := a.value ++ s } }

namespace Pose

variable {p : Pose} {place : Place} {cs : List Char}

@[simp] theorem put_empty : p.put place "" = p := by
  cases place with
  | text => simp [put]
  | value =>
    obtain ⟨_, _, _, _, _, _, current, _, _, _⟩ := p
    cases current <;> simp [put]

theorem put_put (s t : String) : (p.put place s).put place t = p.put place (s ++ t) := by
  cases place with
  | text => simp [put, String.append_assoc]
  | value => simp [put, Option.map_map, Function.comp_def, String.append_assoc]

@[simp] theorem state_put (s : String) : (p.put place s).state = p.state := by
  cases place <;> rfl

@[simp] theorem reference_put (s : String) : (p.put place s).reference = p.reference := by
  cases place <;> rfl

@[simp] theorem rest_put (s : String) : (p.put place s).rest = p.rest := by
  cases place <;> rfl

theorem put_rest (s : String) :
    { p.put place s with rest := cs } = { p with rest := cs }.put place s := by
  cases place <;> rfl

/-- A reference ends by putting its text. -/
theorem pose_closeReference {m : Machine} (raw s : String) :
    (m.closeReference (place.named raw) s).pose = { m.pose with reference := none }.put place s := by
  cases place <;> rfl

/-- **A character that stands for itself.** -/
theorem leads_plain {c : Char} (hstate : p.state = place.state) (hreference : p.reference = none)
    (hrest : p.rest = c :: cs) (hamp : c ≠ '&') (hspecial : c ≠ place.special) (hnull : c ≠ '\x00') :
    p.Leads ({ p with rest := cs }.put place (String.singleton c)) := by
  refine leads_of_stepChar hreference hrest ?_
  intro m hm hpose
  have hadvance : m.advance.pose = { p with rest := cs } := by
    rw [Machine.pose_advance, hpose, hrest, List.tail_cons]
  cases place with
  | text =>
    refine ⟨m.advance.putChar c, ?_, ?_⟩
    · rw [Machine.stepChar, hm, hstate]
      exact congrArg some (Machine.stepData_of_plain hspecial hamp hnull)
    · rw [Machine.pose_putChar, hadvance, String.push_eq_append]
      rfl
  | value =>
    refine ⟨m.advance.putAttributeValue c, ?_, ?_⟩
    · have hquote : Machine.closesValue .doubleQuoted c = false := decide_eq_false hspecial
      rw [Machine.stepChar, hm, hstate]
      simp [Place.state, Machine.stepAttributeValue, hquote, hamp, hnull]
    · rw [Machine.pose_putAttributeValue, hadvance]
      simp only [String.push_eq_append]
      rfl

end Pose

/-! ## (2) References -/

/-- **A name that stands for one character**, with its semicolon. -/
structure Names (name : List Char) (c : Char) : Prop where
  /-- The name is not empty. -/
  nonempty : name ≠ []
  /-- It has only letters and digits. -/
  letters : ∀ d ∈ name, d.isAlphanum = true
  /-- It is read in full. -/
  short : name.length < Reference.nameLimit
  /-- No longer name is there, and the character is what it stands for. -/
  entry : Reference.longestMatch (name ++ [';']) = some ⟨name ++ [';'], String.singleton c⟩

theorem names_amp : Names "amp".toList '&' :=
  ⟨by decide, List.all_eq_true.mp (by decide), by decide, rfl⟩

/-- The reference of a place stands for its special character. -/
theorem names_special (place : Place) : Names place.name.toList place.special := by
  cases place <;> exact ⟨by decide, List.all_eq_true.mp (by decide), by decide, rfl⟩

namespace Pose

section

variable {p : Pose} {place : Place} {cs : List Char}

/-- At `&` a reference begins. -/
theorem leads_ampersand (hstate : p.state = place.state) (hreference : p.reference = none)
    (hrest : p.rest = '&' :: cs) :
    p.Leads { p with rest := cs, reference := some place.opened } := by
  refine leads_of_stepChar hreference hrest ?_
  intro m hm hpose
  refine ⟨m.advance.beginReference, ?_, ?_⟩
  · rw [Machine.stepChar, hm, hstate]
    cases place with
    | text => rfl
    | value => simp [Place.state, Machine.stepAttributeValue, Machine.closesValue, Ascii.doubleQuote]
  · rw [Machine.pose_beginReference, Machine.pose_advance, hpose, hrest, hstate]
    simp only [List.tail_cons, Place.opened]
    rw [← hstate]

/-- A letter behind it begins a name. -/
theorem leads_opened {c : Char} (hreference : p.reference = some place.opened)
    (hrest : p.rest = c :: cs) (hc : c.isAlphanum = true) :
    p.Leads { p with reference := some (place.named "") } := by
  refine leads_of_stepReference hreference hrest ?_
  intro m hpose
  have hhash : c ≠ '#' := by
    intro hhash
    rw [hhash] at hc
    cases hc
  -- the letter stays unread: it is the first one of the name
  have hstep : m.stepReference place.opened (some c) = m.keepReference (place.named "") := by
    show m.stepOpened place.opened (some c) = _
    unfold Machine.stepOpened
    split
    · rename_i heq
      exact absurd (Option.some.inj heq) hhash
    · rename_i heq
      rw [← Option.some.inj heq, if_pos hc]
      rfl
    · rename_i heq
      cases heq
  rw [hstep, Machine.pose_keepReference, hpose]

/-- A letter of the name. -/
theorem leads_letter {raw : String} {c : Char} (hreference : p.reference = some (place.named raw))
    (hrest : p.rest = c :: cs) (hc : c.isAlphanum = true) (hshort : raw.length < Reference.nameLimit) :
    p.Leads { p with rest := cs, reference := some (place.named (raw.push c)) } := by
  refine leads_of_stepReference hreference hrest ?_
  intro m hpose
  have hstep : m.stepReference (place.named raw) (some c)
      = m.advance.keepReference (place.named (raw.push c)) := by
    show m.stepNamed (place.named raw) (some c) = _
    exact if_pos (by simp [Place.named, hshort, hc])
  rw [hstep, Machine.pose_keepReference, Machine.pose_advance, hpose, hrest, List.tail_cons]

/-- **The name** is read to its end. -/
theorem leads_name {raw : String} {name : List Char} (hreference : p.reference = some (place.named raw))
    (hrest : p.rest = name ++ cs) (hletters : ∀ c ∈ name, c.isAlphanum = true)
    (hshort : raw.length + name.length < Reference.nameLimit) :
    p.Leads { p with rest := cs, reference := some (place.named (raw ++ String.ofList name)) } := by
  -- the names looked for here are short, so the limit on the letters is never met
  induction name generalizing p raw with
  | nil =>
    rw [List.nil_append] at hrest
    rw [String.ofList_nil, String.append_empty, ← hrest, ← hreference]
    exact Leads.refl p
  | cons c name ih =>
    rw [List.length_cons] at hshort
    rw [List.forall_mem_cons] at hletters
    have hfirst := leads_letter hreference hrest hletters.1 (by omega)
    have hothers := @ih { p with rest := name ++ cs, reference := some (place.named (raw.push c)) }
      (raw.push c) rfl rfl hletters.2 (by rw [String.length_push]; omega)
    have hraw : raw.push c ++ String.ofList name = raw ++ String.ofList (c :: name) := by
      rw [String.push_eq_append, String.ofList_cons, String.append_assoc]
    rw [hraw] at hothers
    exact hfirst.trans hothers

/-- **At the semicolon** the reference ends and stands for its character. -/
theorem leads_semicolon {name : List Char} {c : Char} (hname : Names name c)
    (hreference : p.reference = some (place.named (String.ofList name))) (hrest : p.rest = ';' :: cs) :
    p.Leads ({ p with rest := cs, reference := none }.put place (String.singleton c)) := by
  refine leads_of_stepReference hreference hrest ?_
  intro m hpose
  have hpush : ((String.ofList name).push ';').toList = name ++ [';'] := by
    rw [String.toList_push, String.toList_ofList]
  -- the semicolon belongs to the match, so no letters are left to go behind the character
  have hclose (k : Machine) : k.closeName (place.named ((String.ofList name).push ';')) none
      = k.closeReference (place.named ((String.ofList name).push ';')) (String.singleton c) := by
    simp only [Machine.closeName, Place.named, hpush, hname.entry]
    simp [Reference.Entry.isClosed]
  have hstep : m.stepReference (place.named (String.ofList name)) (some ';')
      = m.advance.closeReference (place.named ((String.ofList name).push ';'))
          (String.singleton c) := by
    show m.stepNamed (place.named (String.ofList name)) (some ';') = _
    rw [← hclose]
    have hletter : (';' : Char).isAlphanum = false := by decide
    simp [Machine.stepNamed, Place.named, hname.short, hletter]
  rw [hstep, pose_closeReference, Machine.pose_advance, hpose, hrest]
  rfl

/-- **A reference stands for its character.** -/
theorem leads_reference {name : List Char} {c : Char} (hname : Names name c)
    (hstate : p.state = place.state) (hreference : p.reference = none)
    (hrest : p.rest = '&' :: (name ++ ';' :: cs)) :
    p.Leads ({ p with rest := cs }.put place (String.singleton c)) := by
  -- `&`, the first letter seen, all letters read, the semicolon
  obtain ⟨first, others, hcons⟩ := List.exists_cons_of_ne_nil hname.nonempty
  have hfirst : first.isAlphanum = true := hname.letters first (hcons ▸ List.mem_cons_self)
  have hsplit : name ++ ';' :: cs = first :: (others ++ ';' :: cs) := by
    rw [hcons, List.cons_append]
  have hread : Leads { p with rest := name ++ ';' :: cs, reference := some (place.named "") }
      { p with rest := ';' :: cs, reference := some (place.named ("" ++ String.ofList name)) } :=
    leads_name rfl rfl hname.letters (by simpa using hname.short)
  rw [String.empty_append] at hread
  have hclosed := @leads_semicolon
    { p with rest := ';' :: cs, reference := some (place.named (String.ofList name)) }
    place cs name c hname rfl rfl
  rw [← hreference] at hclosed
  calc p.Leads { p with rest := name ++ ';' :: cs, reference := some place.opened } :=
        leads_ampersand hstate hreference hrest
    Leads _ { p with rest := name ++ ';' :: cs, reference := some (place.named "") } :=
        leads_opened rfl hsplit hfirst
    Leads _ _ := hread
    Leads _ _ := hclosed

/-! ## (3) Texts -/

/-- **A character is read back** as it is written. -/
theorem leads_escape {c : Char} (hstate : p.state = place.state) (hreference : p.reference = none)
    (hrest : p.rest = (place.escape c).toList ++ cs) (hc : isTextChar c = true) :
    p.Leads ({ p with rest := cs }.put place (String.singleton c)) := by
  unfold Place.escape at hrest
  split at hrest
  · rename_i hamp
    rw [hamp]
    exact leads_reference names_amp hstate hreference hrest
  · split at hrest
    · rename_i hspecial
      rw [hspecial]
      refine leads_reference (names_special place) hstate hreference (hrest.trans ?_)
      simp [String.toList_append]
    · rename_i hamp hspecial
      rw [String.toList_singleton] at hrest
      exact leads_plain hstate hreference hrest hamp hspecial (isTextChar_iff.mp hc).1

/-- **What is written in a place is read back.** -/
theorem leads_write {s : String} (hstate : p.state = place.state) (hreference : p.reference = none)
    (hrest : p.rest = (place.write s).toList ++ cs) (hs : ∀ c ∈ s.toList, isTextChar c = true) :
    p.Leads ({ p with rest := cs }.put place s) := by
  rw [Place.toList_write] at hrest
  rw [← @String.ofList_toList s]
  generalize s.toList = text at hrest hs
  -- induction on the text; putting a character leaves the pose ready for the next one
  induction text generalizing p with
  | nil =>
    rw [List.flatMap_nil, List.nil_append] at hrest
    rw [String.ofList_nil, put_empty, ← hrest]
    exact Leads.refl p
  | cons c text ih =>
    rw [List.flatMap_cons, List.append_assoc] at hrest
    rw [List.forall_mem_cons] at hs
    have hfirst := leads_escape hstate hreference hrest hs.1
    have hothers := @ih ({ p with rest := text.flatMap (fun c => (place.escape c).toList) ++ cs }.put
      place (String.singleton c)) (by rw [state_put, hstate]) (by rw [reference_put, hreference])
      (rest_put _) hs.2
    rw [put_rest, put_put, ← String.ofList_cons] at hothers
    exact hfirst.trans hothers

end

end Pose

end HtmlStream

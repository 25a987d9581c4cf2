import HtmlStream.Proofs.Machine.Progress
import HtmlStream.Proofs.Machine.Surroundings
import Mathlib.Computability.StateTransition
import Mathlib.Data.List.TakeWhile

/-! # Runs

A run of the machine is a chain of steps that each take one character, whatever the pace, and it has
one end. So two machines of which one leads to the other run to the same end.

* **`Machine.Leads`**: chains of steps by character.
* **`leads_of_step`**: a step of either pace is such a chain.
* **`run_eq_of_leads`**: a machine that leads to another runs to the same end.
* **`leads_within`**: chains in any surroundings.
* **`ended_of_step_eq_none`**: behind the last byte, only the end of the input stops a machine. -/

namespace HtmlStream.Machine

open StateTransition

variable {m m' k : Machine}

/-! ## (1) Characters that stop no run -/

theorem stepData_of_plain {c : Char} (hlt : c ≠ '<') (hamp : c ≠ '&') (hnull : c ≠ '\x00') :
    m.stepData c = m.advance.putChar c := by
  unfold stepData
  split <;> simp_all

theorem stepPlaintext_of_plain {c : Char} (hnull : c ≠ '\x00') :
    m.stepPlaintext c = m.advance.putChar c := by
  unfold stepPlaintext
  split <;> simp_all

theorem stepRawData_of_plain {kind : RawKind} {c : Char} (h : stopsRaw kind c = false) :
    m.stepRawData kind c = m.advance.putChar c := by
  cases kind with
  | scriptDataEscaped kind =>
    unfold stepRawData
    split <;> simp_all [stopsRaw]
  | _ =>
    unfold stepRawData
    split <;> simp_all [stopsRaw]

theorem stepCommentText_of_plain {c : Char} (hstate : m.state = .comment) (hdash : c ≠ '-')
    (hnull : c ≠ '\x00') : m.stepCommentText c = m.advance.putComment c := by
  have hheld : heldDashes m.advance.state = "" := by
    rw [show m.advance.state = .comment from hstate]
    rfl
  rw [stepCommentText, if_neg hdash, putCommentChar, if_neg hnull, putBackDashes, hheld,
    putCommentText, String.append_empty]
  exact if_pos hstate

theorem putRun_singleton (hstate : m.state ≠ .comment) (c : Char) :
    m.putRun (String.singleton c) = m.putChar c := by
  rw [putRun, if_neg hstate, putText, putChar, String.push_eq_append]

/-- **A character that stops no run** is put where runs are put. -/
theorem stepChar_of_runStop {stop : Char → Bool} {c : Char} (hstop : runStop? m.state = some stop)
    (hc : stop c = false) : m.stepChar c = some ((m.skip 1).putRun (String.singleton c)) := by
  have hadvance : m.skip 1 = m.advance := by
    rw [skip, advance, Input.skip, Input.advance, List.drop_one]
  rw [hadvance]
  -- the states that take runs; each puts a character that does not stop one and stays where it is
  cases hstate : m.state with
  | data =>
    rw [hstate] at hstop
    cases hstop
    simp only [Bool.or_eq_false_iff, decide_eq_false_iff_not] at hc
    rw [stepChar, hstate, putRun_singleton (by simp [advance, hstate])]
    exact congrArg some (stepData_of_plain hc.1.1 hc.1.2 hc.2)
  | plaintext =>
    rw [hstate] at hstop
    cases hstop
    rw [stepChar, hstate, putRun_singleton (by simp [advance, hstate])]
    exact congrArg some (stepPlaintext_of_plain (by simpa using hc))
  | rawData kind =>
    rw [hstate] at hstop
    cases hstop
    rw [stepChar, hstate, putRun_singleton (by simp [advance, hstate])]
    exact congrArg some (stepRawData_of_plain hc)
  | comment =>
    rw [hstate] at hstop
    cases hstop
    simp only [Bool.or_eq_false_iff, decide_eq_false_iff_not] at hc
    rw [stepChar, hstate, putRun, if_pos (by exact hstate), putCommentText,
      ← String.push_eq_append]
    exact congrArg some (stepCommentText_of_plain hstate hc.1 hc.2)
  | _ =>
    -- the others take no runs
    simp [hstate, runStop?] at hstop

/-! ## (2) Chains of steps -/

/-- **The machine leads to another** by steps that each take one character. -/
abbrev Leads : Machine → Machine → Prop := Reaches (step .byChar)

theorem Leads.single (h : step .byChar m = some m') : m.Leads m' := Relation.ReflTransGen.single h

theorem putRun_putRun (s t : String) (n : Nat) :
    ((m.putRun s).skip n).putRun t = (m.skip n).putRun (s ++ t) := by
  have hstate : ((m.putRun s).skip n).state = m.state :=
    congrArg Course.state (m.course_putRun s)
  by_cases h : m.state = .comment
  · rw [putRun, if_pos (hstate.trans h), putRun, if_pos h, putRun, if_pos (by exact h)]
    simp [putCommentText, skip, String.append_assoc]
  · rw [putRun, if_neg (hstate ▸ h), putRun, if_neg h, putRun, if_neg (by exact h)]
    simp [putText, skip, String.append_assoc]

theorem skip_skip (n n' : Nat) : (m.skip n).skip n' = m.skip (n + n') := by
  simp [skip, Input.skip, List.drop_drop, Nat.add_assoc]

theorem putRun_skip_zero : (m.skip 0).putRun "" = m := by
  unfold putRun putCommentText putText
  split <;> simp [skip, Input.skip]

/-- **A run is its characters, one after another.** -/
theorem leads_putRun {stop : Char → Bool} (hended : m.ended = false) (href : m.reference = none)
    (hstop : runStop? m.state = some stop) {run rest : List Char}
    (hpending : m.input.pending = run ++ rest) (hrun : ∀ c ∈ run, stop c = false) :
    m.Leads ((m.skip run.length).putRun (String.ofList run)) := by
  -- induction on the run; a character put leaves the course behind it as the hypotheses have it
  induction run generalizing m with
  | nil =>
    rw [List.length_nil, String.ofList_nil, putRun_skip_zero]
    exact Relation.ReflTransGen.refl
  | cons c run ih =>
    have hcourse := course_putRun (m.skip 1) (String.singleton c)
    have hfirst : step .byChar m = some ((m.skip 1).putRun (String.singleton c)) := by
      rw [step, if_neg (by simp [hended]), href, hpending]
      exact stepChar_of_runStop hstop (hrun c List.mem_cons_self)
    have hrest := @ih ((m.skip 1).putRun (String.singleton c))
      (by rw [← hended]; exact congrArg Course.ended hcourse)
      (by rw [← href]; exact congrArg Course.reference hcourse)
      (by rw [← hstop]; exact congrArg (runStop? ·.state) hcourse)
      (by
        have hinput := congrArg Course.input hcourse
        show ((m.skip 1).putRun (String.singleton c)).course.input.pending = run ++ rest
        rw [hinput]
        show m.input.pending.drop 1 = run ++ rest
        rw [hpending]
        rfl)
      (fun d hd => hrun d (List.mem_cons_of_mem c hd))
    -- putting the first and then the others is putting them all
    rw [putRun_putRun, skip_skip, ← String.ofList_cons, Nat.add_comm] at hrest
    exact Relation.ReflTransGen.head hfirst hrest

/-- What a step is at a character outside references. -/
theorem step_of_char {pace : Pace} (hended : m.ended = false) (href : m.reference = none) {c : Char}
    {rest : List Char} (hpending : m.input.pending = c :: rest) :
    step pace m = stepAt pace m c := by
  rw [step, if_neg (by simp [hended]), href, hpending]

theorem step_of_end {pace : Pace} (hended : m.ended = false) (href : m.reference = none)
    (hpending : m.input.pending = []) (hfinished : m.input.finished = true) :
    step pace m = some m.stepEnd := by
  rw [step, if_neg (by simp [hended]), href, hpending]
  exact if_pos hfinished

/-- Everywhere else the pace plays no part. -/
theorem step_eq_byChar {pace : Pace} (m : Machine)
    (h : m.ended = true ∨ m.reference ≠ none ∨ m.input.pending = []) :
    step pace m = step .byChar m := by
  unfold step
  split
  · rfl
  · rename_i hended
    cases href : m.reference with
    | some r => cases m.input.pending <;> rfl
    | none =>
      rw [(h.resolve_left hended).resolve_left (by simp [href])]

/-- **The pace does not show**: a step of either pace is a chain of steps by character. -/
theorem leads_of_step {pace : Pace} (h : step pace m = some m') : m.Leads m' := by
  -- the pace plays a part only at a character outside references
  by_cases hplain : m.ended = true ∨ m.reference ≠ none ∨ m.input.pending = []
  · rw [step_eq_byChar m hplain] at h
    exact Leads.single h
  · simp only [not_or, Bool.not_eq_true, not_not] at hplain
    obtain ⟨hended, href, hpending⟩ := hplain
    obtain ⟨c, rest, hpending⟩ := List.exists_cons_of_ne_nil hpending
    rw [step_of_char hended href hpending, stepAt] at h
    by_cases hrun : (runAhead pace m).isEmpty = true
    · rw [if_pos hrun] at h
      refine Leads.single ?_
      rw [step_of_char hended href hpending, stepAt_byChar, h]
    · -- a run that is not empty is the longest front that holds no stop
      rw [if_neg hrun] at h
      cases h
      unfold runAhead at hrun ⊢
      split at hrun
      · rename_i stop hstop
        refine leads_putRun hended href hstop
          (List.takeWhile_append_dropWhile (l := m.input.pending)).symm ?_
        intro d hd
        simpa using List.mem_takeWhile_imp hd
      · exact absurd rfl hrun

/-- Whether a machine goes on does not depend on the pace. -/
theorem step_eq_none_of_byRun (h : step .byRun m = none) : step .byChar m = none := by
  by_cases hplain : m.ended = true ∨ m.reference ≠ none ∨ m.input.pending = []
  · rw [← step_eq_byChar m hplain, h]
  · simp only [not_or, Bool.not_eq_true, not_not] at hplain
    obtain ⟨hended, href, hpending⟩ := hplain
    obtain ⟨c, rest, hpending⟩ := List.exists_cons_of_ne_nil hpending
    rw [step_of_char hended href hpending, stepAt] at h
    rw [step_of_char hended href hpending, stepAt_byChar]
    -- a run that is not empty is a step, so there is none and the character decides
    split at h
    · exact h
    · cases h

theorem leads_runFor (pace : Pace) (fuel : Nat) (m : Machine) : m.Leads (runFor pace fuel m) := by
  induction fuel generalizing m with
  | zero => exact Relation.ReflTransGen.refl
  | succ fuel ih =>
    rw [runFor]
    cases hstep : step pace m with
    | none => exact Relation.ReflTransGen.refl
    | some next => exact (leads_of_step hstep).trans (ih next)

/-- **A machine leads to the end of its run.** -/
theorem leads_run (m : Machine) : m.Leads m.run := leads_runFor .byRun m.stepBound m

/-- **There is one end**: a machine at which a chain stops is the end of the run. -/
theorem eq_run_of_leads (h : m.Leads k) (hstop : step .byChar k = none) : k = m.run :=
  Part.mem_unique (mem_eval.mpr ⟨h, hstop⟩)
    (mem_eval.mpr ⟨m.leads_run, step_eq_none_of_byRun m.step_run⟩)

/-- **A machine that leads to another runs to the same end.** -/
theorem run_eq_of_leads (h : m.Leads k) : m.run = k.run :=
  (eq_run_of_leads (h.trans k.leads_run) (step_eq_none_of_byRun k.step_run)).symm

/-! ## (3) Surroundings -/

/-- The surroundings a machine is in anyway. -/
def surroundings (m : Machine) : Surroundings := ⟨#[], [], m.input.decoder, m.input.finished⟩

theorem within_surroundings (m : Machine) : m.within m.surroundings = m := by
  simp [within, surroundings, Input.within]

theorem suits_surroundings (m : Machine) : m.Suits m.surroundings := fun h => ⟨rfl, h⟩

/-- **Steps read their input and do nothing else to it**: they neither decode nor end it. -/
theorem input_of_step (h : step .byChar m = some m') :
    m'.input.decoder = m.input.decoder ∧ m'.input.finished = m.input.finished := by
  -- in its own surroundings the step ends in a machine that has their decoder and their end
  have hwithin := step_within m.suits_surroundings h
  rw [within_surroundings, h, Option.some.injEq] at hwithin
  rw [hwithin]
  exact ⟨rfl, rfl⟩

theorem input_of_leads (h : m.Leads m') :
    m'.input.decoder = m.input.decoder ∧ m'.input.finished = m.input.finished := by
  induction h with
  | refl => exact ⟨rfl, rfl⟩
  | tail _ hstep ih =>
    have hinput := input_of_step hstep
    exact ⟨hinput.1.trans ih.1, hinput.2.trans ih.2⟩

/-- **A chain of steps is one in any surroundings** that add nothing at the end of the input. -/
theorem leads_within {s : Surroundings} (hs : m.Suits s) (h : m.Leads m') :
    (m.within s).Leads (m'.within s) := by
  induction h with
  | refl => exact Relation.ReflTransGen.refl
  | @tail k k' hk hstep ih =>
    have hsuits : k.Suits s := fun hfinished => hs ((input_of_leads hk).2 ▸ hfinished)
    exact Relation.ReflTransGen.tail ih (step_within hsuits hstep)

/-! ## (4) The end of the input -/

/-- A comparison with a keyword is decided at the end of the input. -/
theorem lookahead_ne_undecided (hfinished : m.input.finished = true)
    (same : Char → Char → Bool) (keyword : String) :
    m.input.lookahead same keyword ≠ .undecided := by
  unfold Input.lookahead
  rw [hfinished]
  generalize m.input.pending = pending
  induction keyword.toList generalizing pending with
  | nil => simp [Lookahead.compare]
  | cons k keyword ih =>
    cases pending with
    | nil => simp [Lookahead.compare]
    | cons c pending =>
      rw [Lookahead.compare]
      split
      · exact ih pending
      · simp

theorem stepChar_ne_none (hfinished : m.input.finished = true) (c : Char) :
    m.stepChar c ≠ none := by
  have hdecided := fun same keyword => lookahead_ne_undecided hfinished same keyword
  have hmarkup : m.stepMarkupDeclarationOpen ≠ none := by
    unfold stepMarkupDeclarationOpen
    split
    · simp
    · exact absurd (by assumption) (hdecided _ _)
    · split
      · simp
      · exact absurd (by assumption) (hdecided _ _)
      · split
        · simp
        · exact absurd (by assumption) (hdecided _ _)
        · simp
  have hdoctype : m.stepAfterDoctypeName c ≠ none := by
    unfold stepAfterDoctypeName
    split
    · simp
    · split
      · simp
      · split
        · simp
        · exact absurd (by assumption) (hdecided _ _)
        · split
          · simp
          · exact absurd (by assumption) (hdecided _ _)
          · simp
  unfold stepChar
  split
  all_goals first
    | exact hmarkup
    | exact hdoctype
    | exact Option.some_ne_none _

/-- **Behind the last byte only the end stops a machine.** -/
theorem ended_of_step_eq_none (hfinished : m.input.finished = true)
    (h : step .byChar m = none) : m.ended = true := by
  by_contra hended
  rw [step, if_neg hended] at h
  -- with or without a reference and a character, a machine that has not ended makes a step
  split at h
  · cases h
  · rw [if_pos hfinished] at h
    cases h
  · exact stepChar_ne_none hfinished _ h
  · rw [if_pos hfinished] at h
    cases h

/-- A machine that has ended runs no further. -/
theorem step_of_ended {pace : Pace} (h : m.ended = true) : step pace m = none := by
  rw [step, if_pos h]

/-- A machine that makes a step has not ended. -/
theorem ended_of_step {pace : Pace} (h : step pace m = some k) : m.ended = false := by
  rw [Bool.eq_false_iff]
  intro hended
  rw [step_of_ended hended] at h
  cases h

/-- **A run behind the last byte ends.** -/
theorem ended_run (hfinished : m.input.finished = true) : m.run.ended = true :=
  ended_of_step_eq_none ((input_of_leads m.leads_run).2.trans hfinished)
    (step_eq_none_of_byRun m.step_run)

end HtmlStream.Machine

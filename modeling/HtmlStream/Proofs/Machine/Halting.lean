import HtmlStream.Proofs.Machine.Emission

/-! # The loop ends

The machine is driven by a loop that makes steps while there are any. It has no bound of its own; that
it ends is a property of the steps. Behind the last byte it ends with the end of the input queued and
everything read, wherever in the markup the input breaks off.

* **`wellFounded_step`**: no machine makes steps for ever.
* **`Stops`**: the loop ends at a machine, within `stepBound` steps. `stops_run`: at the end of the run.
* **`pending_of_leads`**: the end of the input is queued behind all that can be read.
* **`loop_stops`**: the loop of a chunk, and that of the end. -/

namespace HtmlStream.Machine

variable {pace : Pace} {m k : Machine}

/-! ## (1) The loop -/

/-- **Steps are well-founded**: from no machine, reachable or not, can steps be made for ever. -/
theorem wellFounded_step (pace : Pace) :
    WellFounded fun next m : Machine => step pace m = some next :=
  Subrelation.wf (fun h => rank_step h) (measure fun m : Machine => m.course.rank).wf

/-- The machine after `n` steps, none if fewer can be made. -/
def after? (pace : Pace) : Nat → Machine → Option Machine
  | 0, m => some m
  | n + 1, m => (step pace m).bind (after? pace n)

/-- **The loop stops at `k`**: fewer than `stepBound` steps lead there, and none leads on. -/
def Stops (pace : Pace) (m k : Machine) : Prop :=
  ∃ n < m.stepBound, after? pace n m = some k ∧ step pace k = none

/-- Each step made is one of those that the rank allows. -/
theorem rank_after? {n : Nat} (h : after? pace n m = some k) :
    n + k.course.rank ≤ m.course.rank := by
  induction n generalizing m with
  | zero =>
    cases h
    omega
  | succ n ih =>
    rw [after?, Option.bind_eq_some_iff] at h
    obtain ⟨next, hstep, hrest⟩ := h
    have hlt := rank_step hstep
    have hle := ih hrest
    omega

/-- Fuel is spent on steps: a run with fuel is as many steps as it allows or as can be made. -/
theorem exists_after?_runFor (pace : Pace) (fuel : Nat) (m : Machine) :
    ∃ n, after? pace n m = some (runFor pace fuel m) := by
  induction fuel generalizing m with
  | zero => exact ⟨0, rfl⟩
  | succ fuel ih =>
    rw [runFor]
    cases hstep : step pace m with
    | none => exact ⟨0, rfl⟩
    | some next =>
      obtain ⟨n, hn⟩ := ih next
      refine ⟨n + 1, ?_⟩
      rw [after?, hstep]
      exact hn

/-- **The loop stops at the end of the run.** -/
theorem stops_run (m : Machine) : m.Stops .byRun m.run := by
  obtain ⟨n, hn⟩ := exists_after?_runFor .byRun m.stepBound m
  have hle := rank_after? hn
  have hlt := m.rank_lt_stepBound
  exact ⟨n, by omega, hn, m.step_run⟩

/-! ## (2) Behind the last byte -/

@[simp] theorem input_stepEnd (m : Machine) : m.stepEnd.input = m.input := by
  have hcourse : m.stepEnd.course.input = m.course.input := by
    unfold stepEnd
    split <;> simp [putBackEndTag, endDoctype]
  exact hcourse

/-- The step that ends a machine finds nothing left to read. -/
theorem pending_of_step (hended : m.ended = false) (h : step .byChar m = some k)
    (hk : k.ended = true) : k.input.pending = [] := by
  have hnot : ¬Adds m k := by
    intro hadds
    rw [hadds.1, hended] at hk
    cases hk
  -- with a reference or a character the step only queues tokens, and so does not end the machine
  unfold step at h
  rw [if_neg (by simp [hended])] at h
  split at h
  · cases h
    exact absurd (adds_stepReference m _ _) hnot
  · split at h
    · cases h
      exact absurd (adds_stepReference m _ _) hnot
    · cases h
  · exact absurd (adds_stepChar m _ h) hnot
  · rename_i hpending
    split at h
    · cases h
      rw [input_stepEnd, hpending]
    · cases h

/-- **The end is queued behind all that can be read.** -/
theorem pending_of_leads (hended : m.ended = false) (h : m.Leads k) (hk : k.ended = true) :
    k.input.pending = [] := by
  -- induction on the chain: only its last step can be the one that ends the machine
  induction h with
  | refl =>
    rw [hended] at hk
    cases hk
  | @tail last k _ hstep _ =>
    exact pending_of_step (ended_of_step hstep) hstep hk

/-- **The loop ends.** No machine makes steps for ever; the loop that a chunk starts stops at the
machine that has taken the chunk; and the loop that the end of the input starts stops with the end
queued, in whatever state, reference or unfinished byte sequence the input breaks off. -/
theorem loop_stops :
    (∀ pace, WellFounded fun next m : Machine => step pace m = some next) ∧
      (∀ (m : Machine) (chunk : Bytes), (m.receive chunk).Stops .byRun (m.feed chunk)) ∧
      ∀ m : Machine, m.close.Stops .byRun m.finish ∧ m.finish.ended = true := by
  refine ⟨wellFounded_step, ?_, ?_⟩
  · intro m chunk
    exact (m.receive chunk).stops_run
  · intro m
    exact ⟨m.close.stops_run, ended_run (show m.close.input.finished = true from rfl)⟩

end HtmlStream.Machine

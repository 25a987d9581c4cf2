import HtmlStream.Proofs.Machine.Marks
import HtmlStream.Proofs.UnknownNames

/-! # Pieces of markup in a run

A run goes through text and through pieces of markup. If it is known where pieces of a kind open and what a
run from there reads, it is known of every token of that kind where it comes from, however many pieces
came before it.

* **`exists_opening`**: a token in the queue of a run comes from a machine at which its piece opens.
* **`reference_of_leads`**: references are read where they are taken and nowhere else.
* **`State.sources?`**, **`exists_before`**: the states that can be got to from few states.
* **`Config.exists_of_calls`**: the token that a call is of. -/

namespace HtmlStream

/-- The states that a state can be got to from, if they are few. -/
def State.sources? : State → Option (List State)
  | .tagOpen => some [.data]
  | .tagName => some [.tagOpen, .endTagOpen, .tagName]
  | .rawEndTagName kind => some [.rawEndTagOpen kind, .rawEndTagName kind]
  | .markupDeclarationOpen => some [.tagOpen]
  | .doctype => some [.markupDeclarationOpen]
  | _ => none

namespace Machine

variable {m k : Machine} {c : Char}

/-! ## (1) Openings -/

/-- Steps do not raise the rank. -/
theorem rank_le_of_leads (h : m.Leads k) : k.course.rank ≤ m.course.rank := by
  induction h with
  | refl => exact Nat.le_refl _
  | tail _ hstep ih => exact (rank_step hstep).le.trans ih

/-- What a chain of steps has queued stays in front. -/
theorem exists_added (h : m.Leads k) : ∃ added, k.queue.toList = m.queue.toList ++ added := by
  rcases adds_or_ends_of_leads h with ⟨-, added, hqueue, -⟩ | ⟨-, added, hqueue, -⟩
  · exact ⟨_, hqueue⟩
  · exact ⟨_, hqueue⟩

/-- **Where a token comes from.** If steps outside queue no tokens of a kind and stay outside or get to where
a piece opens, and what opens is read up to a machine outside, then each token of the kind in the queue of
a run was read from an opening. -/
theorem exists_opening {p : Token → Prop} {Outside Opens : Machine → Prop}
    {Reads : Machine → List Token → Token → Prop}
    (hquiet : ∀ m k, Outside m → ¬Opens m → step .byChar m = some k → Outside k ∧
      ∀ added, k.queue.toList = m.queue.toList ++ added → ∀ t ∈ added, ¬p t)
    (hopen : ∀ m, Outside m → Opens m → ∃ k, m.Leads k ∧ Outside k ∧ ¬Opens k ∧
      ∀ added, k.queue.toList = m.queue.toList ++ added →
        ∀ front t back, added = front ++ t :: back → p t → Reads m front t)
    (hm : Outside m) {front back : List Token} {t : Token} (ht : p t)
    (hrun : m.run.queue.toList = m.queue.toList ++ (front ++ t :: back)) :
    ∃ k before, m.Leads k ∧ Outside k ∧ Opens k ∧ Reads k before t ∧
      m.queue.toList ++ front = k.queue.toList ++ before := by
  induction hrank : m.course.rank using Nat.strong_induction_on generalizing m front with
  | _ n ih =>
    -- either the token is queued on the way to `k`, or the run from there is a shorter one
    have hlater {k : Machine} (hk : m.Leads k) (hne : m ≠ k) (houtside : Outside k)
        (hhere : ∀ added, k.queue.toList = m.queue.toList ++ added →
          ∀ front t back, added = front ++ t :: back → p t → Opens m ∧ Reads m front t) :
        ∃ k before, m.Leads k ∧ Outside k ∧ Opens k ∧ Reads k before t ∧
          m.queue.toList ++ front = k.queue.toList ++ before := by
      obtain ⟨next, hfirst, hothers⟩ := (Relation.ReflTransGen.cases_head hk).resolve_left hne
      have hless : k.course.rank < n :=
        hrank ▸ (rank_le_of_leads hothers).trans_lt (rank_step hfirst)
      obtain ⟨added, hadded⟩ := exists_added hk
      obtain ⟨later, hqueue⟩ := exists_added k.leads_run
      rw [run_eq_of_leads hk, hqueue, hadded, List.append_assoc, List.append_cancel_left_eq] at hrun
      have hrest (rest : List Token) (hfront : front = added ++ rest)
          (hrest : later = rest ++ t :: back) :
          ∃ k before, m.Leads k ∧ Outside k ∧ Opens k ∧ Reads k before t ∧
            m.queue.toList ++ front = k.queue.toList ++ before := by
        obtain ⟨k', before, hleads, houtside', hopens, hreads, hbefore⟩ :=
          ih _ hless houtside (by rw [hqueue, hrest]) rfl
        refine ⟨k', before, hk.trans hleads, houtside', hopens, hreads, ?_⟩
        rw [← hbefore, hadded, hfront, List.append_assoc]
      rcases List.append_eq_append_iff.mp hrun with ⟨rest, hfront, hlater⟩ | ⟨rest, hadded', hback⟩
      · exact hrest rest hfront hlater
      · cases rest with
        | nil => exact hrest [] (by rw [hadded', List.append_nil, List.append_nil]) hback.symm
        | cons u rest =>
          obtain ⟨rfl, -⟩ := List.cons.inj hback
          obtain ⟨hopens, hreads⟩ := hhere added hadded front t rest hadded' ht
          exact ⟨m, front, Relation.ReflTransGen.refl, hm, hopens, hreads, rfl⟩
    by_cases hopens : Opens m
    · obtain ⟨k, hk, houtside, hclosed, hreads⟩ := hopen m hm hopens
      exact hlater hk (fun h => hclosed (h ▸ hopens)) houtside fun added hadded front t back ht' hp =>
        ⟨hopens, hreads added hadded front t back ht' hp⟩
    · cases hstep : step .byChar m with
      | none =>
        -- nothing is queued any more
        rw [← eq_run_of_leads Relation.ReflTransGen.refl hstep] at hrun
        simp at hrun
      | some k =>
        obtain ⟨houtside, hnone⟩ := hquiet m k hm hopens hstep
        refine hlater (Leads.single hstep) ?_ houtside fun added hadded front t back ht' hp =>
          absurd hp (hnone added hadded t (by rw [ht']; simp))
        rintro rfl
        exact absurd (rank_step hstep) (Nat.lt_irrefl _)

/-- Text held back and errors are of no other kind. -/
theorem not_of_mem_told {p : Token → Prop} {codes : List ErrorCode} {errors : List Token}
    (htext : ∀ s, ¬p (.characters s)) (herror : ∀ e state, ¬p (.error e state))
    (herrors : AreErrors codes errors) : ∀ t ∈ m.heldBack ++ errors, ¬p t := by
  intro t ht
  rcases List.mem_append.mp ht with ht | ht
  · unfold heldBack textTokens at ht
    split at ht
    · cases ht
    · rw [List.mem_singleton.mp ht]
      exact htext _
  · obtain ⟨e, state, rfl, -⟩ := herrors.exists_of_mem ht
    exact herror e state

/-- **The last token is the only one of its kind** behind text held back and errors. -/
theorem eq_last_of_added {p : Token → Prop} {codes : List ErrorCode} {errors added : List Token}
    {last : Token} (htext : ∀ s, ¬p (.characters s)) (herror : ∀ e state, ¬p (.error e state))
    (herrors : AreErrors codes errors) (hqueue : k.queue.toList = m.output ++ errors ++ [last])
    (hadded : k.queue.toList = m.queue.toList ++ added) {front back : List Token} {t : Token}
    (hsplit : added = front ++ t :: back) (ht : p t) :
    m.queue.toList ++ front = m.output ++ errors ∧ t = last := by
  have hnone := not_of_mem_told (m := m) htext herror herrors
  have hsame : (m.heldBack ++ errors) ++ [last] = front ++ t :: back := by
    rw [hqueue, output, List.append_assoc, List.append_assoc, List.append_cancel_left_eq] at hadded
    rw [← hsplit, ← hadded, List.append_assoc]
  suffices hfront : front = m.heldBack ++ errors ∧ t = last by
    rw [hfront.1, output, List.append_assoc]
    exact ⟨rfl, hfront.2⟩
  rcases List.append_eq_append_iff.mp hsame with ⟨rest, hfront, hlast⟩ | ⟨rest, hbefore, hback⟩
  · cases rest with
    | nil =>
      rw [hfront, List.append_nil]
      exact ⟨rfl, (List.cons.inj hlast).1.symm⟩
    | cons u rest => simp at hlast
  · cases rest with
    | nil =>
      rw [hbefore, List.append_nil]
      exact ⟨rfl, (List.cons.inj hback).1⟩
    | cons u rest =>
      obtain ⟨rfl, -⟩ := List.cons.inj hback
      exact absurd ht (hnone t (by rw [hbefore]; simp))

/-- If the tokens of a kind are the same, none of the others is of that kind. -/
theorem not_isSome_of_filterMap_eq {α : Type} {f : Token → Option α} {added : List Token}
    (h : k.queue.toList.filterMap f = m.queue.toList.filterMap f)
    (hadded : k.queue.toList = m.queue.toList ++ added) : ∀ t ∈ added, ¬(f t).isSome := by
  rw [hadded, List.filterMap_append] at h
  have hnone : added.filterMap f = [] := List.append_cancel_left (h.trans (List.append_nil _).symm)
  intro t ht
  rw [List.filterMap_eq_nil_iff.mp hnone t ht]
  exact Bool.false_ne_true

/-! ## (2) How states are got to -/

/-- **What a step at a character leaves**: no reference but where references are taken, and a state that can
be got to from the one before. -/
theorem reference_stepChar (href : m.reference = none) (hk : m.stepChar c = some k) :
    (k.reference = none ∨ k.state.takesReferences = true) ∧
      ∀ states, k.state.sources? = some states → m.state ∈ states := by
  have hreference : m.course.reference = none := href
  show (k.course.reference = none ∨ k.course.state.takesReferences = true) ∧
    ∀ states, k.course.state.sources? = some states → m.state ∈ states
  unfold stepChar at hk
  cases hstate : m.state <;> simp only [hstate, Option.some.injEq] at hk
  case markupDeclarationOpen =>
    unfold stepMarkupDeclarationOpen at hk
    repeat' split at hk
    all_goals cases hk
    all_goals simp [hreference, State.sources?]
  case afterDoctypeName =>
    unfold stepAfterDoctypeName at hk
    repeat' split at hk
    all_goals cases hk
    all_goals rw [state_eq_course] at hstate
    all_goals simp [hreference, hstate, abandonDoctype, State.sources?]
  case afterDoctypeIdentifier kind =>
    cases kind
    all_goals
      cases hk
      rw [state_eq_course] at hstate
      simp only [stepAfterPublicIdentifier, stepAfterSystemIdentifier, abandonDoctype,
        beginIdentifier]
      repeat' split
      all_goals simp [hreference, hstate, State.sources?]
  all_goals
    subst hk
    rw [state_eq_course] at hstate
    simp only [stepData, stepPlaintext, stepRawData, stepRawLessThanSign, stepRawEndTagOpen,
      stepRawEndTagName, putBackEndTag, stepEscapeStart, stepEscapeStartDash, stepEscapedDash,
      stepEscapedDashDash, stepDoubleEscapeEnd, escapeDash, escapeBoundary, afterDashes,
      escapedLessThan, replaceNull, stepTagOpen, stepEndTagOpen, stepTagName,
      stepBeforeAttributeName, stepAttributeName, stepAfterAttributeName, stepBeforeAttributeValue,
      stepAttributeValue, stepAfterAttributeValueQuoted, stepSelfClosingStartTag, beginAttribute,
      stepBogusComment, stepCommentStart, stepCommentStartDash, stepCommentText, stepCommentEndDash,
      stepCommentEnd, stepCommentEndBang, putCommentChar, putBackDashes, stepDoctype,
      stepBeforeDoctypeName, beforeDoctypeName, stepDoctypeName, stepAfterDoctypeKeyword,
      stepBeforeDoctypeIdentifier, stepDoctypeIdentifier, stepBetweenIdentifiers, stepBogusDoctype,
      abandonDoctype, cutDoctype, beginIdentifier]
    repeat' split
    all_goals simp [hreference, hstate, State.sources?, State.takesReferences]

theorem reference_stepEnd (href : m.reference = none) :
    m.stepEnd.reference = none ∧ m.stepEnd.state.sources? = none := by
  have hreference : m.course.reference = none := href
  show m.stepEnd.course.reference = none ∧ m.stepEnd.course.state.sources? = none
  unfold stepEnd
  cases hstate : m.state
  all_goals
    rw [state_eq_course] at hstate
    simp only [putBackEndTag, endDoctype]
    repeat' split
    all_goals simp_all [State.sources?]

variable {config : Config} {bs : Bytes}

/-- **A reference is read only where references are taken.** -/
theorem reference_of_leads (h : (whole config bs).Leads m) (href : m.reference ≠ none) :
    m.state.takesReferences = true := by
  induction h with
  | refl => exact absurd rfl href
  | @tail m k _ hstep ih =>
    rcases step_cases hstep with ⟨r, next, hr, rfl⟩ | ⟨hnone, c, cs, -, hchar⟩ | ⟨hnone, -, rfl⟩
    · rw [show (m.stepReference r next).state = m.state from (course_stepReference m r next).1]
      exact ih (by simp [hr])
    · exact (reference_stepChar hnone hchar).1.resolve_left href
    · exact absurd (reference_stepEnd hnone).1 href

/-- **The step in front of a state that can be got to from one state only.** -/
theorem exists_before {state : State} (h : (whole config bs).Leads k)
    (hstate : k.state.sources? = some [state]) :
    ∃ m c cs, (whole config bs).Leads m ∧ m.state = state ∧ m.reference = none ∧ m.ended = false ∧
      m.input.pending = c :: cs ∧ m.stepChar c = some k := by
  rcases Relation.ReflTransGen.cases_tail h with rfl | ⟨m, hm, hstep⟩
  · -- no run begins in such a state
    have hinitial : (whole config bs).state = config.initialState.state := rfl
    rw [hinitial] at hstate
    cases hkind : config.initialState <;> rw [hkind] at hstate <;> cases hstate
  · have hended : m.ended = false := ended_of_step hstep
    rcases step_cases hstep with ⟨r, next, hr, rfl⟩ | ⟨hnone, c, cs, hpending, hchar⟩ | ⟨hnone, -, rfl⟩
    · have hsame : (m.stepReference r next).state = m.state := (course_stepReference m r next).1
      have htakes := reference_of_leads hm (by simp [hr])
      rw [hsame] at hstate
      cases hm' : m.state <;> rw [hm'] at hstate htakes <;> first | cases hstate; done | cases htakes
    · have hbefore := (reference_stepChar hnone hchar).2 _ hstate
      exact ⟨m, c, cs, hm, List.mem_singleton.mp hbefore, hnone, hended, hpending, hchar⟩
    · rw [(reference_stepEnd hnone).2] at hstate
      cases hstate

end Machine

/-! ## (3) Calls -/

/-- **Which token a call is of.** -/
theorem Config.exists_of_calls {config : Config} {tokens : List Token} {before after : List TextCallback}
    {call : TextCallback} (h : config.calls tokens = before ++ call :: after) :
    ∃ front t back pre post, tokens = front ++ t :: back ∧
      t.callbacks config.exactErrors = pre ++ call :: post ∧ before = config.calls front ++ pre ∧
      after = post ++ config.calls back := by
  induction tokens generalizing before with
  | nil => simp [Config.calls] at h
  | cons t tokens ih =>
    have hcons : config.calls (t :: tokens)
        = t.callbacks config.exactErrors ++ config.calls tokens := List.flatMap_cons
    rw [hcons] at h
    rcases List.append_eq_append_iff.mp h with ⟨rest, hbefore, hrest⟩ | ⟨rest, ht, hrest⟩
    · -- the call is of a later token
      obtain ⟨front, u, back, pre, post, rfl, hu, rfl, hafter⟩ := ih hrest
      refine ⟨t :: front, u, back, pre, post, rfl, hu, ?_, hafter⟩
      rw [hbefore, ← List.append_assoc]
      rfl
    · cases rest with
      | nil =>
        obtain ⟨front, u, back, pre, post, rfl, hu, hpre, hafter⟩ := @ih [] hrest.symm
        refine ⟨t :: front, u, back, pre, post, rfl, hu, ?_, hafter⟩
        rw [List.append_nil] at ht
        have hsame : config.calls (t :: front)
            = t.callbacks config.exactErrors ++ config.calls front := List.flatMap_cons
        rw [hsame, List.append_assoc, ← hpre, List.append_nil, ht]
      | cons u rest =>
        obtain ⟨rfl, rfl⟩ := List.cons.inj hrest
        exact ⟨[], t, tokens, before, rest, rfl, ht, rfl, rfl⟩

end HtmlStream

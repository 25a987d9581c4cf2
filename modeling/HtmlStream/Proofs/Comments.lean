import HtmlStream.Proofs.Machine.Reports
import HtmlStream.Proofs.RawText.Conservation
import HtmlStream.Proofs.UnknownNames
import Mathlib.Order.Bounds.Defs

/-! # Where comments end

A comment is the text up to its first terminator, whatever dashes stand in it or in front of the
terminator. The dashes and the exclamation mark that may yet belong to a terminator are in no string while
they are undecided: they are implied by the state, and the state by the last characters read.

* **`Comment.Behind past state`**: the state in a comment of which `past` has been read.
* **`Machine.InComment past`**: the machine there. **`exists_commentChar`**, **`exists_commentText`**: a
  character and a text that do not close the comment.
* **`Comment.Terminated`**, **`Comment.Cuts`**: a terminator, and what the end of the input cuts off.
* **`ReadsComment`**: what becomes of a comment in a session. **`comment_exact`**: for every text. -/

namespace HtmlStream

/-! ## (1) The state behind a text -/

namespace Comment

/-- **The state in a comment** of which `past` has been read, its last character first. -/
inductive Behind : List Char → State → Prop
  /-- Nothing has been read. -/
  | start : Behind [] .commentStart
  /-- A dash right at the start. -/
  | startDash : Behind ['-'] .commentStartDash
  /-- The last character belongs to no terminator. -/
  | text {c : Char} {past : List Char} (hdash : c ≠ '-') (hbang : c = '!' → ¬['-', '-'] <+: past) :
    Behind (c :: past) .comment
  /-- One dash behind another character. -/
  | dash {c : Char} {past : List Char} (h : c ≠ '-') : Behind ('-' :: c :: past) .commentEndDash
  /-- Two dashes or more. -/
  | dashes (past : List Char) : Behind ('-' :: '-' :: past) .commentEnd
  /-- An exclamation mark behind them. -/
  | bang (past : List Char) : Behind ('!' :: '-' :: '-' :: past) .commentEndBang

variable {past : List Char} {state : State}

theorem Behind.eq_start (h : Behind [] state) : state = .commentStart := by
  cases h
  rfl

theorem Behind.eq_startDash (h : Behind ['-'] state) : state = .commentStartDash := by
  cases h with
  | startDash => rfl
  | text hdash => exact absurd rfl hdash

/-- Two dashes lead to one state only. -/
theorem Behind.eq_dashes (h : Behind ('-' :: '-' :: past) state) : state = .commentEnd := by
  cases h with
  | text hdash => exact absurd rfl hdash
  | dash h => exact absurd rfl h
  | dashes => rfl

/-- So does an exclamation mark behind them. -/
theorem Behind.eq_bang (h : Behind ('!' :: '-' :: '-' :: past) state) : state = .commentEndBang := by
  cases h with
  | text _ hbang => exact absurd ⟨past, rfl⟩ (hbang rfl)
  | bang => rfl

end Comment

/-! ## (2) Reading a comment -/

/-- The errors of the U+0000 in a text. -/
def nullErrors (cs : List Char) : List ErrorCode :=
  List.replicate (cs.count '\x00') .unexpectedNullCharacter

theorem nullErrors_append (cs cs' : List Char) :
    nullErrors (cs ++ cs') = nullErrors cs ++ nullErrors cs' := by
  rw [nullErrors, List.count_append, List.replicate_add]
  rfl

namespace Machine

/-- **The machine in a comment** of which `past` has been read, its last character first: what is put into
the comment and the dashes held back are that text. -/
structure InComment (m : Machine) (past : List Char) : Prop where
  /-- It has not ended. -/
  ended : m.ended = false
  /-- No reference is read in a comment. -/
  reference : m.reference = none
  /-- Its state. -/
  behind : Comment.Behind past m.state
  /-- The text. -/
  text : (m.comment ++ heldDashes m.state).toList = past.reverse.map mend

variable {m k : Machine} {past cs : List Char} {c : Char}

/-- **One character more** is read, and is put into the comment or held back. -/
theorem InComment.next {state : State} (h : m.InComment past) (hpending : m.input.pending = c :: cs)
    (hcourse : k.course = { m.course with state, input := m.input.advance })
    (hbehind : Comment.Behind (c :: past) state)
    (htext : (k.comment ++ heldDashes state).toList
      = (m.comment ++ heldDashes m.state).toList ++ [mend c]) :
    k.InComment (c :: past) ∧ k.input.pending = cs := by
  have hstate : k.state = state := congrArg Course.state hcourse
  refine ⟨⟨?_, ?_, ?_, ?_⟩, ?_⟩
  · exact (congrArg Course.ended hcourse).trans h.ended
  · exact (congrArg Course.reference hcourse).trans h.reference
  · rwa [hstate]
  · rw [hstate, htext, h.text, List.reverse_cons, List.map_append, List.map_singleton]
  · refine (congrArg (·.input.pending) hcourse).trans ?_
    show m.input.pending.tail = cs
    rw [hpending]
    rfl

/-- Other characters than U+0000 are no errors. -/
theorem nullErrors_singleton (h : c ≠ '\x00') : nullErrors [c] = [] := by
  rw [nullErrors, List.count_singleton, beq_eq_false_iff_ne.mpr h]
  rfl

theorem comment_goto (next : State) : (m.goto next).comment = m.comment :=
  congrArg Pose.comment (m.pose_goto next)

/-- A character that closes nothing is put behind the dashes held back. -/
theorem comment_putCommentChar (c : Char) :
    (m.putCommentChar c).comment = (m.comment ++ heldDashes m.state).push (mend c) := by
  unfold Machine.putCommentChar putBackDashes mend
  split
  · rw [comment_goto, state_report, report, Clean.emit_eq]
    rfl
  · rw [comment_goto]
    rfl

/-- **A character that closes nothing.** -/
theorem InComment.putCommentChar (h : m.InComment past) (hpending : m.input.pending = c :: cs)
    (hstep : m.stepChar c = some (m.advance.putCommentChar c))
    (hdash : c ≠ '-') (hbang : c = '!' → ¬['-', '-'] <+: past) :
    ∃ k, m.Reports (nullErrors [c]) k ∧ k.InComment (c :: past) ∧ k.input.pending = cs := by
  have hgo : step .byChar m = some (m.advance.putCommentChar c) := by
    rw [step_of_char h.ended h.reference hpending, stepAt_byChar, hstep]
  have hcourse : (m.advance.putCommentChar c).course
      = { m.course with state := .comment, input := m.input.advance } := by
    simp [Machine.putCommentChar, putBackDashes]
    rfl
  refine ⟨_, ?_, h.next hpending hcourse (.text hdash hbang) ?_⟩
  · by_cases hnull : c = '\x00'
    · rw [hnull] at hgo ⊢
      refine @Reports.of_error _ _ hgo ⟨.unexpectedNullCharacter, m.advance.input.consumed⟩ m.state ?_
      simp [Machine.putCommentChar, putBackDashes]
      rfl
    · rw [nullErrors_singleton hnull]
      refine .of_silent hgo ?_
      simp [Machine.putCommentChar, putBackDashes, hnull]
  · rw [comment_putCommentChar]
    simp [heldDashes, advance]

/-- **A dash or an exclamation mark that may belong to a terminator** is held back. -/
theorem InComment.goto {next : State} (h : m.InComment past) (hpending : m.input.pending = c :: cs)
    (hstep : m.stepChar c = some (m.advance.goto next)) (hbehind : Comment.Behind (c :: past) next)
    (hheld : heldDashes next = (heldDashes m.state).push c) (hnull : c ≠ '\x00') :
    ∃ k, m.Reports (nullErrors [c]) k ∧ k.InComment (c :: past) ∧ k.input.pending = cs := by
  refine ⟨_, ?_, h.next hpending (m.advance.course_goto next) hbehind ?_⟩
  · rw [nullErrors_singleton hnull]
    refine .of_silent ?_ (output_goto _ _)
    rw [step_of_char h.ended h.reference hpending, stepAt_byChar, hstep]
  · rw [comment_goto, hheld, mend_of_ne hnull]
    simp [advance]

/-- **A dash with which those held back are too many**: the first of them, or all of them, are text. -/
theorem InComment.putBack {state : State} {k : Machine} (h : m.InComment past)
    (hpending : m.input.pending = '-' :: cs) (hstep : m.stepChar '-' = some k)
    (hbehind : Comment.Behind ('-' :: past) state)
    (hcourse : k.course = { m.course with state, input := m.input.advance })
    (houtput : k.output = m.output)
    (htext : (k.comment ++ heldDashes state).toList
      = (m.comment ++ heldDashes m.state).toList ++ ['-']) :
    ∃ k, m.Reports (nullErrors ['-']) k ∧ k.InComment ('-' :: past) ∧ k.input.pending = cs := by
  refine ⟨k, ?_, h.next hpending hcourse hbehind htext⟩
  rw [nullErrors_singleton (by decide)]
  refine .of_silent ?_ houtput
  rw [step_of_char h.ended h.reference hpending, stepAt_byChar, hstep]

/-- **A character that does not close the comment.** -/
theorem InComment.exists_commentChar (h : m.InComment past) (hpending : m.input.pending = c :: cs)
    (hopen : ¬ClosesComment (past.reverse ++ [c])) :
    ∃ k, m.Reports (nullErrors [c]) k ∧ k.InComment (c :: past) ∧ k.input.pending = cs := by
  have hnull : '-' ≠ '\x00' := by decide
  have hbehind := h.behind
  generalize hstate : m.state = state at hbehind
  -- a dash is held back in each state, another character puts back what was held
  cases hbehind with
  | start =>
    have hbracket : c ≠ '>' := fun hc => hopen (Or.inl (by rw [hc]; rfl))
    by_cases hdash : c = '-'
    · subst hdash
      exact h.goto hpending (by rw [stepChar, hstate]; rfl) .startDash (by rw [hstate]; rfl) hnull
    · refine h.putCommentChar hpending ?_ hdash (by simp)
      rw [stepChar, hstate]
      simp [stepCommentStart, hdash, hbracket]
  | startDash =>
    have hbracket : c ≠ '>' := fun hc => hopen (Or.inr (Or.inl (by rw [hc]; rfl)))
    by_cases hdash : c = '-'
    · subst hdash
      exact h.goto hpending (by rw [stepChar, hstate]; rfl) (.dashes []) (by rw [hstate]; rfl) hnull
    · refine h.putCommentChar hpending ?_ hdash (by simp)
      rw [stepChar, hstate]
      simp [stepCommentStartDash, hdash, hbracket]
  | text hlast =>
    by_cases hdash : c = '-'
    · subst hdash
      exact h.goto hpending (by rw [stepChar, hstate]; rfl) (.dash hlast) (by rw [hstate]; rfl) hnull
    · refine h.putCommentChar hpending ?_ hdash (by simp [Ne.symm hlast])
      rw [stepChar, hstate]
      simp [stepCommentText, hdash]
  | dash hlast =>
    by_cases hdash : c = '-'
    · subst hdash
      exact h.goto hpending (by rw [stepChar, hstate]; rfl) (.dashes _) (by rw [hstate]; rfl) hnull
    · refine h.putCommentChar hpending ?_ hdash (by simp [Ne.symm hlast])
      rw [stepChar, hstate]
      simp [stepCommentEndDash, hdash]
  | dashes past =>
    have hbracket : c ≠ '>' :=
      fun hc => hopen (Or.inr (Or.inr (Or.inl ⟨past.reverse, by rw [hc]; simp⟩)))
    by_cases hdash : c = '-'
    · -- of three dashes the first is text, whatever follows
      subst hdash
      refine h.putBack (k := m.advance.putComment '-') hpending (by rw [stepChar, hstate]; rfl)
        (.dashes _) ?_ rfl ?_
      · rw [← hstate]
        rfl
      · simp [putComment, advance, hstate, heldDashes]
    · by_cases hbang : c = '!'
      · subst hbang
        exact h.goto hpending (by rw [stepChar, hstate]; rfl) (.bang past) (by rw [hstate]; rfl)
          (by decide)
      · refine h.putCommentChar hpending ?_ hdash (fun hc => absurd hc hbang)
        rw [stepChar, hstate]
        simp [stepCommentEnd, hdash, hbang, hbracket]
  | bang past =>
    have hbracket : c ≠ '>' :=
      fun hc => hopen (Or.inr (Or.inr (Or.inr ⟨past.reverse, by rw [hc]; simp⟩)))
    by_cases hdash : c = '-'
    · -- the exclamation mark and the dashes before it are text, and the new dash is the only one held
      subst hdash
      refine h.putBack (k := (m.advance.putCommentText "--!").goto .commentEndDash) hpending
        (by rw [stepChar, hstate]; rfl) (.dash (by decide)) (course_goto _ _) (output_goto _ _) ?_
      · simp [comment_goto, putCommentText, advance, hstate, heldDashes]
    · refine h.putCommentChar hpending ?_ hdash (by simp)
      rw [stepChar, hstate]
      simp [stepCommentEndBang, hdash, hbracket]

/-- **A text that does not close the comment**, however far one reads it. -/
theorem InComment.exists_commentText {text : List Char} (h : m.InComment past)
    (hpending : m.input.pending = text ++ cs)
    (hopen : ∀ front, front <+: past.reverse ++ text → ¬ClosesComment front) :
    ∃ k, m.Reports (nullErrors text) k ∧ k.InComment (text.reverse ++ past) ∧
      k.input.pending = cs := by
  induction text generalizing m past with
  | nil => exact ⟨m, .refl m, h, hpending⟩
  | cons c text ih =>
    have hfront : past.reverse ++ c :: text = (c :: past).reverse ++ text := by simp
    obtain ⟨k, hreports, hk, hrest⟩ := h.exists_commentChar hpending
      (hopen _ ⟨text, by simp⟩)
    obtain ⟨k', hreports', hk', hrest'⟩ := ih hk hrest (hfront ▸ hopen)
    refine ⟨k', ?_, ?_, hrest'⟩
    · rw [← List.singleton_append, nullErrors_append]
      exact hreports.trans hreports'
    · rwa [List.reverse_cons, List.append_assoc]

end Machine

/-! ## (3) The end of a comment -/

namespace Comment

/-- **A terminator** stands at the front of `cs`. -/
def Terminated (cs : List Char) : Prop := ['-', '-', '>'] <+: cs ∨ ['-', '-', '!', '>'] <+: cs

/-- A comment that is empty although no terminator stands at its front. -/
def Abrupt (cs : List Char) : Prop := ['>'] <+: cs ∨ ['-', '>'] <+: cs

/-- What may be the beginning of a terminator. -/
def unclosed : List (List Char) := [[], ['-'], ['-', '-'], ['-', '-', '!']]

/-- **The end of the input cuts** the longest beginning of a terminator off the text. -/
structure Cuts (cs kept tail : List Char) : Prop where
  /-- It is at the end. -/
  split : cs = kept ++ tail
  /-- It is the beginning of a terminator. -/
  unclosed : tail ∈ unclosed
  /-- It is the longest. -/
  longest : ∀ other ∈ Comment.unclosed, other <:+ cs → other.length ≤ tail.length

/-- **What is cut off is what the state holds back.** -/
theorem Behind.heldDashes_eq {past : List Char} {state : State} (h : Behind past state)
    {kept tail : List Char} (hcuts : Cuts past.reverse kept tail) :
    (Machine.heldDashes state).toList = tail := by
  have hheld : (Machine.heldDashes state).toList ∈ unclosed := by
    cases h <;> simp [Machine.heldDashes, unclosed]
  have hsuffix : (Machine.heldDashes state).toList <:+ past.reverse := by
    rw [← List.reverse_prefix, List.reverse_reverse]
    cases h <;> simp [Machine.heldDashes]
  have hmost : ∀ other ∈ unclosed, other <:+ past.reverse →
      other.length ≤ (Machine.heldDashes state).toList.length := by
    intro other hother hend
    rw [← List.reverse_prefix, List.reverse_reverse] at hend
    simp only [unclosed, List.mem_cons, List.not_mem_nil, or_false] at hother
    cases h <;> rcases hother with rfl | rfl | rfl | rfl <;>
      simp_all [Machine.heldDashes, List.cons_prefix_cons] <;> grind
  have hlength : (Machine.heldDashes state).toList.length = tail.length :=
    (hcuts.longest _ hheld hsuffix).antisymm (hmost _ hcuts.unclosed ⟨kept, hcuts.split.symm⟩)
  exact (List.suffix_of_suffix_length_le hsuffix ⟨kept, hcuts.split.symm⟩ hlength.le).eq_of_length
    hlength

/-- A bracket is not in what may be the beginning of a terminator. -/
theorem prefix_of_bracket {front kept tail : List Char} (h : front ++ ['>'] <+: kept ++ tail)
    (htail : '>' ∉ tail) : front ++ ['>'] <+: kept := by
  rcases List.prefix_or_prefix_of_prefix h (List.prefix_append kept tail) with hkept | ⟨rest, hrest⟩
  · exact hkept
  · -- what stands behind the text is in the tail, and so has no bracket at its end
    rw [← hrest, List.prefix_append_right_inj] at h
    cases hlast : rest.getLast? with
    | none =>
      rw [List.getLast?_eq_none_iff.mp hlast, List.append_nil] at hrest
      rw [hrest]
    | some c =>
      have hc := congrArg List.getLast? hrest
      rw [List.getLast?_append, hlast, List.getLast?_concat] at hc
      cases hc
      exact absurd (h.subset (List.mem_of_getLast? hlast)) htail

/-- **Nothing closes a comment in front of its first terminator.** -/
theorem not_closes {s kept tail front : List Char} (habrupt : ¬Abrupt s) (hs : kept ++ tail <+: s)
    (htail : '>' ∉ tail) (hfirst : ∀ i < kept.length, ¬Terminated (s.drop i))
    (hfront : front <+: kept ++ tail) : ¬ClosesComment front := by
  -- a terminator that ends in the text begins in it
  have hends {start : List Char} (hclosing : start ++ ['>'] <+: kept) {before : List Char}
      (hstart : start ++ ['>'] = before ++ ['-', '-', '>'] ∨
        start ++ ['>'] = before ++ ['-', '-', '!', '>']) : False := by
    obtain ⟨after, hafter⟩ := hclosing.trans ((List.prefix_append kept tail).trans hs)
    have hlength := hclosing.length_le
    rcases hstart with hstart | hstart
    · rw [hstart, List.length_append] at hlength
      refine hfirst before.length (by simp at hlength; omega) (.inl ⟨after, ?_⟩)
      rw [← hafter, hstart, List.append_assoc, List.drop_left]
    · rw [hstart, List.length_append] at hlength
      refine hfirst before.length (by simp at hlength; omega) (.inr ⟨after, ?_⟩)
      rw [← hafter, hstart, List.append_assoc, List.drop_left]
  rintro (rfl | rfl | ⟨before, rfl⟩ | ⟨before, rfl⟩)
  · exact habrupt (.inl (hfront.trans hs))
  · exact habrupt (.inr (hfront.trans hs))
  · have hclosing := @prefix_of_bracket (before ++ ['-', '-']) kept tail (by simpa using hfront) htail
    exact @hends _ hclosing before (.inl (by simp))
  · have hclosing := @prefix_of_bracket (before ++ ['-', '-', '!']) kept tail (by simpa using hfront) htail
    exact @hends _ hclosing before (.inr (by simp))

/-- A dash alone closes nothing. -/
theorem not_closes_dash {front : List Char} (h : front <+: ['-']) : ¬ClosesComment front := by
  rintro (rfl | rfl | ⟨before, rfl⟩ | ⟨before, rfl⟩)
  · exact absurd h (by decide)
  · exact absurd h (by decide)
  · exact absurd h.length_le (by simp)
  · exact absurd h.length_le (by simp)

end Comment

/-! ## (4) Sessions -/

/-- **A session reads a comment** whose `<!--` is in front of the machine `m`: behind what has been put out
before are queued errors, those of the U+0000 in the text `raw` and others with the given codes, and then
the comment; the session goes on in text with `rest`. -/
def ReadsComment (config : Config) (bs : Bytes) (m : Machine) (raw : List Char)
    (codes : List ErrorCode) (rest : List Char) : Prop :=
  ∃ k errors, GoesThrough config bs k ∧ AreErrors (nullErrors raw ++ codes) errors ∧
    k.queue.toList = m.output ++ errors ++ [.comment (String.ofList (raw.map mend))] ∧ k.text = "" ∧
    k.state = .data ∧ k.reference = none ∧ k.input.pending = rest

namespace Machine

variable {config : Config} {bs : Bytes} {m m₀ k : Machine} {past raw s rest : List Char}
  {codes : List ErrorCode}

/-- What has been put into a comment is what was read of it less what is held back. -/
theorem InComment.comment_eq (h : m.InComment past)
    (hpast : past.reverse = raw ++ (heldDashes m.state).toList) :
    m.comment = String.ofList (raw.map mend) := by
  have hheld : (heldDashes m.state).toList.map mend = (heldDashes m.state).toList := by
    unfold heldDashes
    split <;> rfl
  have htext := h.text
  rw [hpast, List.map_append, hheld, String.toList_append] at htext
  rw [← String.toList_inj, String.toList_ofList]
  exact List.append_cancel_right htext

/-- **The comment is queued**, behind an error or none. -/
theorem InComment.reads (h : m.InComment past) (hwhole : (whole config bs).Leads m₀)
    (hreports : m₀.Reports (nullErrors past.reverse) m)
    (hpast : past.reverse = raw ++ (heldDashes m.state).toList)
    (hstep : step .byChar m = some k.emitComment) (hcomment : k.comment = m.comment)
    (houtput : ∃ errors, AreErrors codes errors ∧ k.output = m.output ++ errors)
    (hcourse : k.reference = none ∧ k.input.pending = rest) :
    ReadsComment config bs m₀ raw codes rest := by
  have hnulls : nullErrors past.reverse = nullErrors raw := by
    have hheld : (heldDashes m.state).toList.count '\x00' = 0 := by
      unfold heldDashes
      split <;> rfl
    rw [hpast, nullErrors_append, nullErrors, nullErrors, hheld]
    exact List.append_nil _
  obtain ⟨errors, herrors, hbefore⟩ := hreports.output
  obtain ⟨errors', herrors', hlast⟩ := houtput
  rw [hnulls] at herrors
  have hend := k.course_emitComment
  have htext : k.emitComment.text = "" := congrArg Pose.held k.pose_emitComment
  refine ⟨k.emitComment, errors ++ errors', ?_, herrors.append herrors', ?_, htext,
    congrArg Course.state hend, (congrArg Course.reference hend).trans hcourse.1,
    (congrArg (·.input.pending) hend).trans hcourse.2⟩
  · exact goesThrough_of_leads ((hwhole.trans hreports.leads).trans (Leads.single hstep))
  · refine toList_queue_of_output _ htext ?_
    rw [output_emitComment, hlast, hbefore, hcomment, h.comment_eq hpast]
    simp

/-- **A bracket closes the comment.** -/
theorem InComment.reads_bracket (h : m.InComment past) (hwhole : (whole config bs).Leads m₀)
    (hreports : m₀.Reports (nullErrors past.reverse) m)
    (hpast : past.reverse = raw ++ (heldDashes m.state).toList)
    (hpending : m.input.pending = '>' :: rest) (hclose : m.stepChar '>' = some m.advance.emitComment) :
    ReadsComment config bs m₀ raw [] rest := by
  refine h.reads (k := m.advance) hwhole hreports hpast ?_ rfl ⟨[], .nil, (List.append_nil _).symm⟩
    ⟨h.reference, congrArg List.tail hpending⟩
  rw [step_of_char h.ended h.reference hpending, stepAt_byChar, hclose]

/-- **A bracket closes the comment with an error.** -/
theorem InComment.reads_error {code : ErrorCode} (h : m.InComment past)
    (hwhole : (whole config bs).Leads m₀) (hreports : m₀.Reports (nullErrors past.reverse) m)
    (hpast : past.reverse = raw ++ (heldDashes m.state).toList)
    (hpending : m.input.pending = '>' :: rest)
    (hclose : m.stepChar '>' = some (m.advance.report code).emitComment) :
    ReadsComment config bs m₀ raw [code] rest := by
  have hcourse := m.advance.course_report code
  refine h.reads hwhole hreports hpast ?_ ?_
    ⟨_, .single ⟨code, m.advance.input.consumed⟩ m.state, m.advance.output_report code⟩
    ⟨(congrArg Course.reference hcourse).trans h.reference,
      (congrArg (·.input.pending) hcourse).trans (congrArg List.tail hpending)⟩
  · rw [step_of_char h.ended h.reference hpending, stepAt_byChar, hclose]
  · rw [report, Clean.emit_eq]
    rfl

/-- **The input ends in a comment.** -/
theorem InComment.reads_end (h : m.InComment past) (hwhole : (whole config bs).Leads m₀)
    (hreports : m₀.Reports (nullErrors past.reverse) m)
    (hpast : past.reverse = raw ++ (heldDashes m.state).toList) (hpending : m.input.pending = []) :
    ReadsComment config bs m₀ raw [.eofInComment] [] := by
  have hcourse := m.course_report .eofInComment
  have hend : m.stepEnd = (m.report .eofInComment).emitComment := by
    have hbehind := h.behind
    unfold stepEnd
    generalize m.state = state at hbehind
    cases hbehind <;> rfl
  refine h.reads hwhole hreports hpast ?_ ?_
    ⟨_, .single ⟨.eofInComment, m.input.consumed⟩ m.state, m.output_report .eofInComment⟩
    ⟨(congrArg Course.reference hcourse).trans h.reference,
      (congrArg (·.input.pending) hcourse).trans hpending⟩
  · have hfinished : m.input.finished = true := (input_of_leads (hwhole.trans hreports.leads)).2
    rw [step_of_end h.ended h.reference hpending hfinished, hend]
  · rw [report, Clean.emit_eq]

/-- `<!` begins a declaration. -/
theorem exists_declaration (hended : m.ended = false) (href : m.reference = none)
    (hstate : m.state = .data) (hpending : m.input.pending = '<' :: '!' :: s) :
    ∃ k, m.Reports [] k ∧
      k.course = { m.course with state := .markupDeclarationOpen, input := m.input.skip 2 } := by
  let k : Machine := m.advance.goto .tagOpen
  have hcourse : k.course = { m.course with state := .tagOpen, input := m.input.advance } :=
    m.advance.course_goto _
  have hopen : step .byChar m = some k := by
    rw [step_of_char hended href hpending, stepAt_byChar, stepChar, hstate]
    rfl
  have hdeclare : step .byChar k = some (k.advance.goto .markupDeclarationOpen) := by
    have hrest : k.input.pending = '!' :: s :=
      (congrArg (·.input.pending) hcourse).trans (congrArg List.tail hpending)
    rw [step_of_char ((congrArg Course.ended hcourse).trans hended)
      ((congrArg Course.reference hcourse).trans href) hrest, stepAt_byChar, stepChar,
      show k.state = .tagOpen from congrArg Course.state hcourse]
    rfl
  refine ⟨_, (Reports.of_silent hopen (output_goto _ _)).trans
    (.of_silent hdeclare (output_goto _ _)), ?_⟩
  have hinput : m.input.advance.advance = m.input.skip 2 := by
    simp [Input.advance, Input.skip, hpending]
  rw [course_goto, course_advance, hcourse, ← hinput]

/-- **Behind `<!--`** a comment begins. -/
theorem exists_commentStart (hended : m.ended = false) (href : m.reference = none)
    (hstate : m.state = .data) (hpending : m.input.pending = '<' :: '!' :: '-' :: '-' :: s) :
    ∃ k, m.Reports [] k ∧ k.InComment [] ∧ k.input.pending = s := by
  obtain ⟨k, hreports, hcourse⟩ := exists_declaration hended href hstate hpending
  have hrest : k.input.pending = '-' :: '-' :: s :=
    (congrArg (·.input.pending) hcourse).trans (congrArg (List.drop 2) hpending)
  have hstart : step .byChar k = some (((k.skip 2).openComment "").goto .commentStart) := by
    have hfound : k.input.lookahead sameChar "--" = .found := by
      rw [Input.lookahead, hrest]
      rfl
    rw [step_of_char ((congrArg Course.ended hcourse).trans hended)
      ((congrArg Course.reference hcourse).trans href) hrest, stepAt_byChar, stepChar,
      show k.state = .markupDeclarationOpen from congrArg Course.state hcourse]
    simp only [stepMarkupDeclarationOpen, hfound]
  have hcourse' := ((k.skip 2).openComment "").course_goto .commentStart
  have hbehind : (((k.skip 2).openComment "").goto .commentStart).state = .commentStart :=
    congrArg Course.state hcourse'
  refine ⟨_, hreports.trans (.of_silent hstart (output_goto _ _)), ⟨?_, ?_, ?_, ?_⟩, ?_⟩
  · have hended' : k.ended = m.ended := congrArg Course.ended hcourse
    exact (congrArg Course.ended hcourse').trans (hended'.trans hended)
  · have href' : k.reference = m.reference := congrArg Course.reference hcourse
    exact (congrArg Course.reference hcourse').trans (href'.trans href)
  · rw [hbehind]
    exact .start
  · rw [hbehind, comment_goto]
    rfl
  · exact (congrArg (·.input.pending) hcourse').trans (congrArg (List.drop 2) hrest)

/-- **A text behind `<!--` that closes nothing** is read. -/
theorem exists_commentRead {text : List Char} (hended : m.ended = false) (href : m.reference = none)
    (hstate : m.state = .data) (hpending : m.input.pending = '<' :: '!' :: '-' :: '-' :: (text ++ rest))
    (hopen : ∀ front, front <+: text → ¬ClosesComment front) :
    ∃ k, m.Reports (nullErrors text.reverse.reverse) k ∧ k.InComment text.reverse ∧
      k.input.pending = rest := by
  obtain ⟨k, hstart, hk, hs⟩ := exists_commentStart hended href hstate hpending
  obtain ⟨k', hread, hk', hrest⟩ := hk.exists_commentText hs hopen
  rw [List.append_nil] at hk'
  rw [List.reverse_reverse]
  exact ⟨k', hstart.trans hread, hk', hrest⟩

end Machine

section

variable {config : Config} {bs : Bytes} {m : Machine} {s : List Char}
  (hreach : (Machine.whole config bs).Leads m) (hended : m.ended = false) (href : m.reference = none)
  (hstate : m.state = .data) (hpending : m.input.pending = '<' :: '!' :: '-' :: '-' :: s)
include hreach hended href hstate hpending

/-- **A comment that is closed at once.** -/
theorem readsComment_abrupt {rest : List Char} (hs : s = '>' :: rest ∨ s = '-' :: '>' :: rest) :
    ReadsComment config bs m [] [.abruptClosingOfEmptyComment] rest := by
  rcases hs with rfl | rfl
  · obtain ⟨k, hreports, hk, hrest⟩ := @Machine.exists_commentRead m ('>' :: rest) [] hended href hstate
      hpending fun front hfront => Comment.not_closes_dash (hfront.trans (List.nil_prefix))
    have hstart : k.state = .commentStart := hk.behind.eq_start
    refine hk.reads_error hreach hreports ?_ hrest ?_
    · rw [hstart]
      rfl
    · rw [Machine.stepChar, hstart]
      rfl
  · obtain ⟨k, hreports, hk, hrest⟩ := @Machine.exists_commentRead m ('>' :: rest) ['-'] hended href
      hstate hpending fun front hfront => Comment.not_closes_dash hfront
    have hstart : k.state = .commentStartDash := hk.behind.eq_startDash
    refine hk.reads_error hreach hreports ?_ hrest ?_
    · rw [hstart]
      rfl
    · rw [Machine.stepChar, hstart]
      rfl

/-- **A comment with a terminator**, of either form. -/
theorem readsComment_terminated (habrupt : ¬Comment.Abrupt s) {i : Nat}
    (hi : IsLeast {i | Comment.Terminated (s.drop i)} i) (rest : List Char) :
    (s.drop i = '-' :: '-' :: '>' :: rest → ReadsComment config bs m (s.take i) [] rest) ∧
      (s.drop i = '-' :: '-' :: '!' :: '>' :: rest →
        ReadsComment config bs m (s.take i) [.incorrectlyClosedComment] rest) := by
  -- in front of the first terminator nothing closes the comment
  have hopen {tail rest : List Char} (hrest : s.drop i = tail ++ '>' :: rest) (htail : '>' ∉ tail) :
      s = s.take i ++ tail ++ '>' :: rest ∧
        ∀ front, front <+: s.take i ++ tail → ¬ClosesComment front := by
    have hsplit : s = s.take i ++ tail ++ '>' :: rest := by
      rw [List.append_assoc, ← hrest, List.take_append_drop]
    refine ⟨hsplit, fun front => Comment.not_closes habrupt ⟨'>' :: rest, hsplit.symm⟩ htail ?_⟩
    intro j hj hterminated
    exact absurd (hi.2 hterminated) (by rw [List.length_take] at hj; omega)
  constructor
  · intro hrest
    obtain ⟨hsplit, hopen⟩ := @hopen ['-', '-'] rest hrest (by decide)
    rw [hsplit] at hpending
    obtain ⟨k, hreports, hk, hrest⟩ := Machine.exists_commentRead hended href hstate hpending hopen
    have hend : k.state = .commentEnd := Comment.Behind.eq_dashes (by simpa using hk.behind)
    refine hk.reads_bracket hreach hreports ?_ hrest ?_
    · rw [hend, List.reverse_reverse]
      rfl
    · rw [Machine.stepChar, hend]
      rfl
  · intro hrest
    obtain ⟨hsplit, hopen⟩ := @hopen ['-', '-', '!'] rest hrest (by decide)
    rw [hsplit] at hpending
    obtain ⟨k, hreports, hk, hrest⟩ := Machine.exists_commentRead hended href hstate hpending hopen
    have hend : k.state = .commentEndBang := Comment.Behind.eq_bang (by simpa using hk.behind)
    refine hk.reads_error hreach hreports ?_ hrest ?_
    · rw [hend, List.reverse_reverse]
      rfl
    · rw [Machine.stepChar, hend]
      rfl

/-- **A comment without one.** -/
theorem readsComment_unterminated (habrupt : ¬Comment.Abrupt s)
    (hnone : ∀ i, ¬Comment.Terminated (s.drop i)) {kept tail : List Char} (hcuts : Comment.Cuts s kept tail) :
    ReadsComment config bs m kept [.eofInComment] [] := by
  -- nothing closes the comment at all
  have hopen (front : List Char) (hfront : front <+: s) : ¬ClosesComment front := by
    rw [← List.append_nil s] at hfront
    exact Comment.not_closes habrupt ⟨[], by simp⟩ (by simp) (fun j _ => hnone j) hfront
  rw [← List.append_nil s] at hpending
  obtain ⟨k, hreports, hk, hrest⟩ := Machine.exists_commentRead hended href hstate hpending hopen
  refine hk.reads_end hreach hreports ?_ hrest
  have hheld := hk.behind.heldDashes_eq (by rwa [List.reverse_reverse])
  rw [hheld, List.reverse_reverse, hcuts.split]

end

/-- **Comments are exact.** Wherever a session of any input reads `<!--` in text, let `s` be what is
behind it. If `s` begins with `>` or `->`, the comment is empty and ends there, with an error. Otherwise, if
a terminator stands anywhere in `s`, the comment is the text in front of the first one, and the session goes
on right behind it; `--!>` is an error. If there is none, the comment is all of `s` but the longest beginning
of a terminator at its end, with an error for the end of the input. -/
theorem comment_exact {config : Config} {bs : Bytes} {m : Machine}
    (hreach : (Machine.whole config bs).Leads m) (href : m.reference = none) (hstate : m.state = .data)
    {s : List Char} (hpending : m.input.pending = '<' :: '!' :: '-' :: '-' :: s) :
    (∀ rest, s = '>' :: rest ∨ s = '-' :: '>' :: rest →
      ReadsComment config bs m [] [.abruptClosingOfEmptyComment] rest) ∧
    (¬Comment.Abrupt s →
      (∀ i, IsLeast {i | Comment.Terminated (s.drop i)} i → ∀ rest,
        (s.drop i = '-' :: '-' :: '>' :: rest → ReadsComment config bs m (s.take i) [] rest) ∧
        (s.drop i = '-' :: '-' :: '!' :: '>' :: rest →
          ReadsComment config bs m (s.take i) [.incorrectlyClosedComment] rest)) ∧
      ((∀ i, ¬Comment.Terminated (s.drop i)) → ∀ kept tail, Comment.Cuts s kept tail →
        ReadsComment config bs m kept [.eofInComment] [])) := by
  have hended : m.ended = false := by
    cases hended : m.ended with
    | false => rfl
    | true =>
      rw [Machine.pending_of_leads rfl hreach hended] at hpending
      cases hpending
  refine ⟨fun rest hs => readsComment_abrupt hreach hended href hstate hpending hs,
    fun habrupt => ⟨fun i hi rest => ?_, fun hnone kept tail hcuts => ?_⟩⟩
  · exact readsComment_terminated hreach hended href hstate hpending habrupt hi rest
  · exact readsComment_unterminated hreach hended href hstate hpending habrupt hnone hcuts

/-- Dashes, an exclamation mark and a U+0000 that belong to no terminator, behind text and in front of a
terminator that is an error. -/
theorem comment_exact_bang :
    ∃ m, (Machine.whole {} (Utf8.encode "x<!--a-\x00--!->--!>b")).Leads m ∧ m.reference = none ∧
      m.state = .data ∧ m.input.pending = "<!--a-\x00--!->--!>b".toList ∧
      ReadsComment {} (Utf8.encode "x<!--a-\x00--!->--!>b") m "a-\x00--!->".toList
        [.incorrectlyClosedComment] ['b'] := by
  let s : List Char := "a-\x00--!->--!>b".toList
  have hreach := Machine.leads_runFor .byChar 1
    (Machine.whole {} (Utf8.encode "x<!--a-\x00--!->--!>b"))
  have hpending : (Machine.runFor .byChar 1 (Machine.whole {}
      (Utf8.encode "x<!--a-\x00--!->--!>b"))).input.pending = '<' :: '!' :: '-' :: '-' :: s := by
    decide +kernel
  have hstate : (Machine.runFor .byChar 1 (Machine.whole {}
      (Utf8.encode "x<!--a-\x00--!->--!>b"))).state = .data := by decide +kernel
  have href : (Machine.runFor .byChar 1 (Machine.whole {}
      (Utf8.encode "x<!--a-\x00--!->--!>b"))).reference = none := by decide +kernel
  have hfirst : IsLeast {i | Comment.Terminated (s.drop i)} 8 := by
    have hbefore : ∀ i < 8, ¬Comment.Terminated (s.drop i) := by
      unfold Comment.Terminated
      decide +kernel
    refine ⟨.inr (by decide +kernel), fun i hi => not_lt.mp fun hlt => hbefore i hlt hi⟩
  have habrupt : ¬Comment.Abrupt s := by
    unfold Comment.Abrupt
    decide +kernel
  exact ⟨_, hreach, href, hstate, hpending,
    (((comment_exact hreach href hstate hpending).2 habrupt).1 8 hfirst ['b']).2 (by decide +kernel)⟩

end HtmlStream

import HtmlStream.Proofs.Reading.Tag

/-! # Reading comments back

A comment state holds dashes that may yet close the comment. Which state it is and what it has put into
the comment are decided by the text read so far, so that a comment is read back whatever dashes it has,
as long as it does not close before its end.

* **`Seen`**: the states in which a text may have been read.
* **`leads_commentChar`**, **`leads_commentText`**: a character and a text that do not close the comment.
* **`leads_comment`**: a canonical comment is read back. -/

namespace HtmlStream

/-! ## (1) Canonical comments do not close early -/

/-- A bracket in front of the two dashes at the end is in the text. -/
theorem bracket_before_dashes {front behind text : List Char}
    (h : front ++ '>' :: behind = text ++ ['-', '-']) : front ++ ['>'] <+: text := by
  -- the bracket stands in the text, or in what the text leaves of the two dashes
  rcases List.append_eq_append_iff.mp h with ⟨rest, htext, hrest⟩ | ⟨rest, -, hrest⟩
  · cases rest with
    | nil => cases hrest
    | cons c rest =>
      cases hrest
      exact ⟨rest, by rw [htext, List.append_assoc, List.singleton_append]⟩
  · have hmem : '>' ∈ ['-', '-'] := by
      rw [hrest]
      simp
    exact absurd hmem (by decide)

/-- **No beginning of a canonical comment closes it**, nor does one that has a dash of its end. -/
theorem CanonicalComment.not_closes {text front : List Char} (h : CanonicalComment text)
    (hfront : front <+: text ++ ['-', '-']) : ¬ClosesComment front := by
  obtain ⟨behind, hbehind⟩ := hfront
  have hinside {start : List Char} (hstart : front = start ++ ['>']) : front <+: text := by
    rw [hstart] at hbehind ⊢
    rw [List.append_assoc, List.singleton_append] at hbehind
    exact bracket_before_dashes hbehind
  -- all four ways of closing end in a bracket, so they stand in the text, which has none of them
  rintro (hbracket | harrow | ⟨start, hclosing⟩ | ⟨start, hbang⟩)
  · exact h.bracket (hbracket ▸ @hinside [] hbracket)
  · exact h.arrow (harrow ▸ @hinside ['-'] harrow)
  · have hprefix := @hinside (start ++ ['-', '-']) (by rw [← hclosing]; simp)
    exact h.closing (List.IsInfix.trans ⟨start, [], by rw [← hclosing]; simp⟩ hprefix.isInfix)
  · have hprefix := @hinside (start ++ ['-', '-', '!']) (by rw [← hbang]; simp)
    exact h.bang (List.IsInfix.trans ⟨start, [], by rw [← hbang]; simp⟩ hprefix.isInfix)

/-! ## (2) The states of a comment -/

/-- **What has been read of a comment in a state**: what was put into the comment and the dashes held
back. A text that ends in a dash is not all put into the comment. -/
inductive Seen : State → String → List Char → Prop
  /-- Nothing has been read. -/
  | start : Seen .commentStart "" []
  /-- A dash right at the start. -/
  | startDash : Seen .commentStartDash "" ['-']
  /-- A text that does not end in a dash. -/
  | text (comment : String) (h : comment.toList.getLast? ≠ some '-') :
    Seen .comment comment comment.toList
  /-- One dash behind such a text. -/
  | endDash (comment : String) (h : comment.toList.getLast? ≠ some '-') :
    Seen .commentEndDash comment (comment.toList ++ ['-'])
  /-- Two dashes or more. -/
  | endDashes (comment : String) : Seen .commentEnd comment (comment.toList ++ ['-', '-'])
  /-- An exclamation mark behind them. -/
  | bang (comment : String) : Seen .commentEndBang comment (comment.toList ++ ['-', '-', '!'])

/-- **Behind two dashes** the state is the one that a bracket closes. -/
theorem Seen.of_dashes {state : State} {comment : String} {text : List Char}
    (h : Seen state comment (text ++ ['-', '-'])) : state = .commentEnd ∧ comment.toList = text := by
  generalize hseen : text ++ ['-', '-'] = seen at h
  -- in every other state the text ends in fewer dashes than two
  cases h with
  | start => simp at hseen
  | startDash =>
    have hlength := congrArg List.length hseen
    simp at hlength
  | text comment hlast =>
    rw [← hseen] at hlast
    simp at hlast
  | endDash comment hlast =>
    have hcomment : comment.toList = text ++ ['-'] := by
      rw [List.append_cons text '-' ['-']] at hseen
      exact (List.append_cancel_right hseen).symm
    rw [hcomment] at hlast
    simp at hlast
  | endDashes comment => exact ⟨rfl, (List.append_cancel_right hseen).symm⟩
  | bang comment =>
    have hlast := congrArg List.getLast? hseen
    simp at hlast

/-- What was read is what was put into the comment and what is held. -/
theorem Seen.toList {state : State} {comment : String} {seen : List Char}
    (h : Seen state comment seen) : (comment ++ Machine.heldDashes state).toList = seen := by
  cases h <;> simp [Machine.heldDashes]

/-- Behind another character than a dash, all that was read is put into the comment. -/
theorem Seen.put {state : State} {comment : String} {seen : List Char} {c : Char}
    (h : Seen state comment seen) (hc : c ≠ '-') :
    Seen .comment ((comment ++ Machine.heldDashes state).push c) (seen ++ [c]) := by
  have hpush : ((comment ++ Machine.heldDashes state).push c).toList = seen ++ [c] := by
    rw [String.toList_push, h.toList]
  have htext := Seen.text ((comment ++ Machine.heldDashes state).push c)
    (by rw [hpush]; simpa using hc)
  rw [hpush] at htext
  exact htext

namespace Machine

variable (m : Machine)

/-- A character that closes nothing puts the dashes held before it into the comment. -/
theorem pose_putCommentChar {c : Char} (h : c ≠ '\x00') :
    (m.putCommentChar c).pose
      = { m.pose with
          state := .comment
          comment := (m.pose.comment ++ heldDashes m.pose.state).push c } := by
  rw [putCommentChar, if_neg h, putBackDashes, pose_goto, pose_putComment, pose_putCommentText]
  rfl

@[simp] theorem pose_emitComment :
    m.emitComment.pose
      = { m.pose with
          state := .data
          done := m.pose.done ++ (textTokens m.pose.held ++ [.comment m.pose.comment])
          held := ""
          comment := "" } := by
  rw [emitComment, pose_goto, pose_emit]
  rfl

end Machine

namespace Pose

variable {done : List Token} {held comment : String} {seen cs : List Char} {c : Char} {state : State}

/-- A character that closes nothing. -/
theorem leads_putBack (hnull : c ≠ '\x00')
    (hstep : ∀ m : Machine, m.state = state → m.stepChar c = some (m.advance.putCommentChar c)) :
    Leads { state, rest := c :: cs, done, held, comment }
      { state := .comment, rest := cs, done, held,
        comment := (comment ++ Machine.heldDashes state).push c } := by
  refine leads_of_stepChar rfl rfl ?_
  intro m hm hpose
  refine ⟨_, hstep m hm, ?_⟩
  rw [Machine.pose_putCommentChar _ hnull, Machine.pose_advance, hpose]
  rfl

/-- **A character that does not close the comment.** -/
theorem leads_commentChar (done : List Token) (held : String) (cs : List Char)
    (hseen : Seen state comment seen) (hnull : c ≠ '\x00')
    (hopen : ¬ClosesComment (seen ++ [c])) : ∃ state' comment', Seen state' comment' (seen ++ [c]) ∧
      Leads { state, rest := c :: cs, done, held, comment }
        { state := state', rest := cs, done, held, comment := comment' } := by
  have hput := fun hdash => hseen.put (c := c) hdash
  -- in each state a dash is held, and any other character puts back the dashes held before it
  cases hseen with
  | start =>
    have hbracket : c ≠ '>' := fun hc => hopen (Or.inl (by rw [hc]; rfl))
    by_cases hdash : c = '-'
    · rw [hdash]
      refine ⟨_, _, Seen.startDash, leads_goto rfl rfl ?_⟩
      intro m hm
      rw [Machine.stepChar, hm]
      rfl
    · refine ⟨_, _, hput hdash, leads_putBack hnull ?_⟩
      intro m hm
      rw [Machine.stepChar, hm]
      simp [Machine.stepCommentStart, hdash, hbracket]
  | startDash =>
    have hbracket : c ≠ '>' := fun hc => hopen (Or.inr (Or.inl (by rw [hc]; rfl)))
    by_cases hdash : c = '-'
    · rw [hdash]
      refine ⟨_, _, Seen.endDashes "", leads_goto rfl rfl ?_⟩
      intro m hm
      rw [Machine.stepChar, hm]
      rfl
    · refine ⟨_, _, hput hdash, leads_putBack hnull ?_⟩
      intro m hm
      rw [Machine.stepChar, hm]
      simp [Machine.stepCommentStartDash, hdash, hbracket]
  | text comment hlast =>
    by_cases hdash : c = '-'
    · rw [hdash]
      refine ⟨_, _, Seen.endDash comment hlast, leads_goto rfl rfl ?_⟩
      intro m hm
      rw [Machine.stepChar, hm]
      rfl
    · refine ⟨_, _, hput hdash, leads_putBack hnull ?_⟩
      intro m hm
      rw [Machine.stepChar, hm]
      simp [Machine.stepCommentText, hdash]
  | endDash comment hlast =>
    by_cases hdash : c = '-'
    · rw [hdash, List.append_assoc]
      refine ⟨_, _, Seen.endDashes comment, leads_goto rfl rfl ?_⟩
      intro m hm
      rw [Machine.stepChar, hm]
      rfl
    · refine ⟨_, _, hput hdash, leads_putBack hnull ?_⟩
      intro m hm
      rw [Machine.stepChar, hm]
      simp [Machine.stepCommentEndDash, hdash]
  | endDashes comment =>
    have hbracket : c ≠ '>' := by
      intro hc
      exact hopen (Or.inr (Or.inr (Or.inl ⟨comment.toList, by rw [hc]; simp⟩)))
    by_cases hdash : c = '-'
    · -- of three dashes the first is text, whatever follows
      have hmore := Seen.endDashes (comment.push '-')
      rw [String.toList_push, List.append_assoc] at hmore
      rw [hdash, List.append_assoc]
      refine ⟨_, _, hmore, leads_of_stepChar rfl rfl ?_⟩
      intro m hm hpose
      refine ⟨m.advance.putComment '-', ?_, ?_⟩
      · rw [Machine.stepChar, hm]
        rfl
      · simp [hpose]
    · by_cases hbang : c = '!'
      · rw [hbang, List.append_assoc]
        refine ⟨_, _, Seen.bang comment, leads_goto rfl rfl ?_⟩
        intro m hm
        rw [Machine.stepChar, hm]
        rfl
      · refine ⟨_, _, hput hdash, leads_putBack hnull ?_⟩
        intro m hm
        rw [Machine.stepChar, hm]
        simp [Machine.stepCommentEnd, hdash, hbang, hbracket]
  | bang comment =>
    have hbracket : c ≠ '>' := by
      intro hc
      exact hopen (Or.inr (Or.inr (Or.inr ⟨comment.toList, by rw [hc]; simp⟩)))
    by_cases hdash : c = '-'
    · -- `--!` is text now, and the new dash is the only one held
      have hmore := Seen.endDash (comment ++ "--!") (by simp)
      rw [String.toList_append] at hmore
      rw [hdash]
      refine ⟨_, _, hmore, leads_of_stepChar rfl rfl ?_⟩
      intro m hm hpose
      refine ⟨(m.advance.putCommentText "--!").goto .commentEndDash, ?_, ?_⟩
      · rw [Machine.stepChar, hm]
        rfl
      · simp [hpose]
    · refine ⟨_, _, hput hdash, leads_putBack hnull ?_⟩
      intro m hm
      rw [Machine.stepChar, hm]
      simp [Machine.stepCommentEndBang, hdash, hbracket]

/-- **A text that does not close the comment**, however far one reads it. -/
theorem leads_commentText (done : List Token) (held : String) (cs : List Char) {text : List Char}
    (hseen : Seen state comment seen)
    (hnull : '\x00' ∉ text) (hopen : ∀ front, front <+: seen ++ text → ¬ClosesComment front) :
    ∃ state' comment', Seen state' comment' (seen ++ text) ∧
      Leads { state, rest := text ++ cs, done, held, comment }
        { state := state', rest := cs, done, held, comment := comment' } := by
  induction text generalizing state comment seen with
  | nil =>
    rw [List.append_nil]
    exact ⟨state, comment, hseen, Leads.refl _⟩
  | cons c text ih =>
    rw [List.mem_cons, not_or] at hnull
    rw [List.append_cons] at hopen ⊢
    obtain ⟨state₁, comment₁, hseen₁, hfirst⟩ := leads_commentChar done held (text ++ cs) hseen
      (Ne.symm hnull.1) (hopen _ (List.prefix_append _ _))
    obtain ⟨state₂, comment₂, hseen₂, hothers⟩ := ih hseen₁ hnull.2 hopen
    exact ⟨state₂, comment₂, hseen₂, hfirst.trans hothers⟩

/-! ## (3) Whole comments -/

/-- `<!` begins a declaration. -/
theorem leads_declaration :
    Leads { state := .data, rest := '<' :: '!' :: cs, done, held }
      { state := .markupDeclarationOpen, rest := cs, done, held } := by
  refine leads_lessThan.trans (leads_goto rfl rfl ?_)
  intro m hm
  rw [Machine.stepChar, hm]
  rfl

/-- `--` behind it begins a comment. -/
theorem leads_commentStart :
    Leads { state := .markupDeclarationOpen, rest := '-' :: '-' :: cs, done, held }
      { state := .commentStart, rest := cs, done, held } := by
  refine leads_of_stepChar rfl rfl ?_
  intro m hm hpose
  refine ⟨((m.skip 2).openComment "").goto .commentStart, ?_, ?_⟩
  · have hpending : m.input.pending = '-' :: '-' :: cs := congrArg rest hpose
    have hfound : m.input.lookahead sameChar "--" = .found := by
      rw [Input.lookahead, hpending]
      rfl
    rw [Machine.stepChar, hm]
    simp only [Machine.stepMarkupDeclarationOpen, hfound]
  · simp [hpose]

/-- **A canonical comment is read back.** -/
theorem leads_comment {text : String} (h : CanonicalComment text.toList) :
    Leads { state := .data, rest := (Token.comment text).markup.toList ++ cs, done, held }
      { state := .data, rest := cs, done := done ++ (textTokens held ++ [.comment text]),
        held := "" } := by
  have hrest : (Token.comment text).markup.toList ++ cs
      = '<' :: '!' :: '-' :: '-' :: ((text.toList ++ ['-', '-']) ++ '>' :: cs) := by
    simp [Token.markup]
  have hnull : '\x00' ∉ text.toList ++ ['-', '-'] := by
    rw [List.mem_append, not_or]
    exact ⟨fun hmem => (isTextChar_iff.mp (h.chars _ hmem)).1 rfl, by decide⟩
  -- the two dashes of the end are read like the text before them
  obtain ⟨state, comment, hseen, htext⟩ := leads_commentText done held ('>' :: cs) Seen.start hnull
    fun front hfront => h.not_closes hfront
  obtain ⟨rfl, hcomment⟩ := hseen.of_dashes
  have hend : Leads { state := .commentEnd, rest := '>' :: cs, done, held, comment }
      { state := .data, rest := cs, done := done ++ (textTokens held ++ [.comment text]),
        held := "" } := by
    refine leads_of_stepChar rfl rfl ?_
    intro m hm hpose
    refine ⟨m.advance.emitComment, ?_, ?_⟩
    · rw [Machine.stepChar, hm]
      rfl
    · have htoken : comment = text := String.toList_inj.mp hcomment
      simp [hpose, htoken]
  rw [hrest]
  calc Leads _ _ := leads_declaration
    Leads _ _ := leads_commentStart
    Leads _ _ := htext
    Leads _ _ := hend

end Pose

end HtmlStream

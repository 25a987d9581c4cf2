import HtmlStream.Proofs.Clean.Actions

/-! # Stretches of a run on which errors are all that is queued

Inside a tag, a comment or a document type no text is put out, and nothing is queued but errors. What was
held back before stays in front of them, whether an error has made it queued or not.

* **`Machine.output`**: what has been queued, and the text held back behind it; one equation for each
  action.
* **`AreErrors codes`**: errors with those codes, one for one.
* **`Machine.Told base codes`**: such errors are all that has been put out since `base`.
* **`Machine.Reports codes`**: one machine leads to another by way of such errors. -/

namespace HtmlStream

/-! ## (1) What has been put out -/

namespace Machine

/-- What has been queued, and the text held back behind it. -/
def output (m : Machine) : List Token := m.queue.toList ++ m.heldBack

variable (m : Machine)

/-- **A token that is not text** is put out behind the text. -/
@[simp] theorem output_emit (t : Token) : (m.emit t).output = m.output ++ [t] := by
  have hheld : (m.emit t).heldBack = [] := by
    rw [heldBack, text_emit]
    rfl
  rw [output, toList_queue_emit, hheld, List.append_nil, output, List.append_assoc]

@[simp] theorem output_report (code : ErrorCode) :
    (m.report code).output = m.output ++ [.error ⟨code, m.input.consumed⟩ m.state] :=
  output_emit _ _

@[simp] theorem output_goto (next : State) : (m.goto next).output = m.output := by
  unfold goto
  split <;> rfl

@[simp] theorem output_advance : m.advance.output = m.output := rfl

@[simp] theorem output_skip (n : Nat) : (m.skip n).output = m.output := rfl

@[simp] theorem output_putComment (c : Char) : (m.putComment c).output = m.output := rfl

@[simp] theorem output_putCommentText (s : String) : (m.putCommentText s).output = m.output := rfl

@[simp] theorem output_openComment (s : String) : (m.openComment s).output = m.output := rfl

@[simp] theorem output_emitComment : m.emitComment.output = m.output ++ [.comment m.comment] := by
  rw [emitComment, output_goto, output_emit, output_openComment]

@[simp] theorem output_putDoctypeName (c : Char) : (m.putDoctypeName c).output = m.output := rfl

@[simp] theorem output_openIdentifier (kind : IdentifierKind) :
    (m.openIdentifier kind).output = m.output := by
  cases kind <;> rfl

@[simp] theorem output_putIdentifier (c : Char) (kind : IdentifierKind) :
    (m.putIdentifier c kind).output = m.output := by
  cases kind <;> rfl

@[simp] theorem output_resetDoctype : m.resetDoctype.output = m.output := rfl

@[simp] theorem output_forceQuirks : m.forceQuirks.output = m.output := rfl

@[simp] theorem output_emitDoctype : m.emitDoctype.output = m.output ++ [.doctype m.doctype] := by
  rw [emitDoctype, output_goto, output_emit, output_resetDoctype]

/-- With no text held back, all has been queued. -/
theorem toList_queue_of_output {tokens : List Token} (htext : m.text = "") (h : m.output = tokens) :
    m.queue.toList = tokens := by
  rw [← h, output, heldBack, htext]
  exact (List.append_nil _).symm

end Machine

/-! ## (2) Errors -/

/-- The code of an error. -/
def Token.code? : Token → Option ErrorCode
  | .error e _ => some e.code
  | _ => none

/-- **Errors with the given codes**, one for one. -/
def AreErrors (codes : List ErrorCode) (tokens : List Token) : Prop :=
  tokens.map Token.code? = codes.map some

namespace AreErrors

variable {codes codes' : List ErrorCode} {tokens tokens' : List Token}

theorem nil : AreErrors [] [] := rfl

theorem single (e : ParseError) (state : State) : AreErrors [e.code] [.error e state] := rfl

theorem append (h : AreErrors codes tokens) (h' : AreErrors codes' tokens') :
    AreErrors (codes ++ codes') (tokens ++ tokens') := by
  rw [AreErrors, List.map_append, List.map_append, h, h']

/-- Each of them is an error with one of the codes. -/
theorem exists_of_mem (h : AreErrors codes tokens) {t : Token} (ht : t ∈ tokens) :
    ∃ e state, t = .error e state ∧ e.code ∈ codes := by
  have hcode : t.code? ∈ codes.map some := by
    rw [← h]
    exact List.mem_map_of_mem ht
  obtain ⟨code, hmem, hcode⟩ := List.mem_map.mp hcode
  cases t with
  | error e state => exact ⟨e, state, rfl, Option.some.inj hcode ▸ hmem⟩
  | _ => cases hcode

end AreErrors

/-! ## (3) Stretches -/

namespace Machine

/-- **Since `base` was put out** errors with the given codes were, and nothing else. -/
def Told (base : List Token) (codes : List ErrorCode) (m : Machine) : Prop :=
  ∃ errors, AreErrors codes errors ∧ m.output = base ++ errors

section

variable {base : List Token} {codes : List ErrorCode} {m k : Machine}

theorem Told.congr (h : m.Told base codes) (houtput : k.output = m.output) : k.Told base codes := by
  obtain ⟨errors, herrors, hm⟩ := h
  exact ⟨errors, herrors, houtput.trans hm⟩

theorem Told.report (h : m.Told base codes) (code : ErrorCode) :
    (m.report code).Told base (codes ++ [code]) := by
  obtain ⟨errors, herrors, hm⟩ := h
  refine ⟨_, herrors.append (.single ⟨code, m.input.consumed⟩ m.state), ?_⟩
  rw [output_report, hm, List.append_assoc]

end

/-- **One machine leads to another and queues errors with the given codes** on its way, behind the text
held back, and nothing else. -/
structure Reports (m : Machine) (codes : List ErrorCode) (k : Machine) : Prop where
  /-- It leads there. -/
  leads : m.Leads k
  /-- The errors. -/
  output : ∃ errors, AreErrors codes errors ∧ k.output = m.output ++ errors

variable {m k k' : Machine} {codes codes' : List ErrorCode}

theorem Reports.refl (m : Machine) : m.Reports [] m :=
  ⟨Relation.ReflTransGen.refl, [], .nil, (List.append_nil _).symm⟩

theorem Reports.trans (h : m.Reports codes k) (h' : k.Reports codes' k') :
    m.Reports (codes ++ codes') k' := by
  obtain ⟨errors, herrors, houtput⟩ := h.output
  obtain ⟨errors', herrors', houtput'⟩ := h'.output
  refine ⟨h.leads.trans h'.leads, errors ++ errors', herrors.append herrors', ?_⟩
  rw [houtput', houtput, List.append_assoc]

/-- A step that queues nothing. -/
theorem Reports.of_silent (h : step .byChar m = some k) (houtput : k.output = m.output) :
    m.Reports [] k :=
  ⟨Leads.single h, [], .nil, by rw [houtput, List.append_nil]⟩

/-- A step that queues one error. -/
theorem Reports.of_error (h : step .byChar m = some k) {e : ParseError} {state : State}
    (houtput : k.output = m.output ++ [.error e state]) : m.Reports [e.code] k :=
  ⟨Leads.single h, _, .single e state, houtput⟩

end Machine

end HtmlStream

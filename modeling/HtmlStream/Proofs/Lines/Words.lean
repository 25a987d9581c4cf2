import HtmlStream.Printer
import HtmlStream.Proofs.Clean.Calls
import HtmlStream.Proofs.Lines.Written

/-! # Lines of words

Names and messages stand in a line of words as they are. That no two calls are one line rests on what
names there are: that of a tag has no space in it, and that of an attribute `=` at most in front.

* **`Callback.FitsLine`**: calls of which this is so. **`Token.fitsLine_callbacks`**: those of clean
  tokens.
* **`CallbackKind.word`**: the word that a line begins with. **`kind_eq_of_textLine_eq`**: it tells the
  kinds of calls apart.
* **`textLine_inj`**: a line of words determines the call.
* **`newline_notMem_textLine`**: it has no newline in it. -/

namespace HtmlStream

/-! ## (1) Calls that fit in a line -/

/-- **A call that fits in a line**: its names are normalised and its message has no control
characters. -/
structure Callback.FitsLine (call : TextCallback) : Prop where
  /-- Names are normalised. -/
  normalised : call.Normalised
  /-- A message has no control characters. -/
  message : ∀ message, call = .error message → ControlFree message

/-- **The calls of a clean token** fit in a line. -/
theorem Token.fitsLine_callbacks (exact : Bool) {t : Token} (ht : t.Clean ∨ t = .nullCharacter)
    {call : TextCallback} (hcall : call ∈ t.callbacks exact) : call.FitsLine := by
  refine ⟨t.normalised_callbacks exact ht hcall, ?_⟩
  rintro message rfl
  cases t with
  | error e state =>
    cases List.mem_singleton.mp hcall
    exact e.controlFree_message exact state
  | tag t =>
    rw [callbacks, Tag.callbacks] at hcall
    cases hkind : t.kind <;> simp [hkind] at hcall
  | _ => cases List.mem_singleton.mp hcall

/-! ## (2) Parts of lines -/

/-- What stands in front of the first of two equal separators. -/
theorem append_cons_inj {α : Type} {a : α} {l l' rest rest' : List α} (hl : a ∉ l) (hl' : a ∉ l')
    (h : l ++ a :: rest = l' ++ a :: rest') : l = l' ∧ rest = rest' := by
  induction l generalizing l' with
  | nil =>
    cases l' with
    | nil => exact ⟨rfl, (List.cons.inj h).2⟩
    | cons b l' => exact absurd (List.cons.inj h).1 (List.ne_of_not_mem_cons hl')
  | cons b l ih =>
    cases l' with
    | nil => exact absurd (List.cons.inj h).1.symm (List.ne_of_not_mem_cons hl)
    | cons b' l' =>
      obtain ⟨rfl, htail⟩ := List.cons.inj h
      obtain ⟨rfl, hrest⟩ := ih (List.not_mem_of_not_mem_cons hl) (List.not_mem_of_not_mem_cons hl')
        htail
      exact ⟨rfl, hrest⟩

/-- What determines each member of a list determines the list. -/
theorem eq_of_map_eq {α β : Type} {f : α → β} {l l' : List α}
    (h : ∀ a ∈ l, ∀ a' ∈ l', f a = f a' → a = a') (heq : l.map f = l'.map f) : l = l' := by
  induction l generalizing l' with
  | nil => exact (List.map_eq_nil_iff.mp heq.symm).symm
  | cons a l ih =>
    obtain ⟨a', rest, rfl, hhead, htail⟩ := List.map_eq_cons_iff.mp heq.symm
    have ha := h a List.mem_cons_self a' List.mem_cons_self hhead.symm
    have hl := ih (fun b hb b' hb' => h b (List.mem_cons_of_mem a hb) b' (List.mem_cons_of_mem a' hb'))
      htail.symm
    rw [ha, hl]

/-- White space in tags is in no name. -/
theorem notMem_of_isTagName {name : String} (h : IsTagName name) {c : Char}
    (hc : Ascii.isSpace c = true) : c ∉ name.toList := by
  obtain ⟨first, rest, hname, hfirst, hrest⟩ := h
  have hnot {d : Char} (hd : isNameChar d = true) : c ≠ d := by
    rintro rfl
    rw [(isNameChar_iff.mp hd).2.2.1] at hc
    cases hc
  rw [hname, List.mem_cons, not_or]
  exact ⟨hnot (isNameChar_of_isLower hfirst), fun hmem => hnot (hrest c hmem) rfl⟩

theorem notMem_of_isAttributeName {name : String} (h : IsAttributeName name) {c : Char}
    (hc : Ascii.isSpace c = true) : c ∉ name.toList := by
  obtain ⟨first, rest, hname, hfirst, hrest⟩ := h
  have hnot {d : Char} (hd : isNameChar d = true) : c ≠ d := by
    rintro rfl
    rw [(isNameChar_iff.mp hd).2.2.1] at hc
    cases hc
  rw [hname, List.mem_cons, not_or]
  exact ⟨hnot hfirst, fun hmem => hnot (hrest c hmem).1 rfl⟩

/-- **The name of a tag** ends at the first space. -/
theorem IsTagName.append_inj {name name' : String} (h : IsTagName name) (h' : IsTagName name')
    {rest rest' : List Char} (heq : name.toList ++ ' ' :: rest = name'.toList ++ ' ' :: rest') :
    name = name' ∧ rest = rest' := by
  obtain ⟨hname, hrest⟩ := append_cons_inj (notMem_of_isTagName h rfl) (notMem_of_isTagName h' rfl) heq
  exact ⟨String.toList_inj.mp hname, hrest⟩

/-- **The name of an attribute** ends at the first `=` that is not in front. -/
theorem IsAttributeName.append_inj {name name' : String} (h : IsAttributeName name)
    (h' : IsAttributeName name') {rest rest' : List Char}
    (heq : name.toList ++ '=' :: rest = name'.toList ++ '=' :: rest') :
    name = name' ∧ rest = rest' := by
  obtain ⟨first, others, hname, -, hothers⟩ := h
  obtain ⟨first', others', hname', -, hothers'⟩ := h'
  rw [hname, hname', List.cons_append, List.cons_append, List.cons.injEq] at heq
  obtain ⟨hrest, htail⟩ := append_cons_inj (fun hmem => (hothers _ hmem).2 rfl)
    (fun hmem => (hothers' _ hmem).2 rfl) heq.2
  refine ⟨String.toList_inj.mp ?_, htail⟩
  rw [hname, hname', heq.1, hrest]

theorem Text.truth_append_inj {b b' : Bool} {rest rest' : List Char}
    (h : (truth b).toList ++ rest = (truth b').toList ++ rest') : b = b' ∧ rest = rest' := by
  cases b <;> cases b' <;> simp_all [truth]

theorem Text.truth_inj {b b' : Bool} (h : (truth b).toList = (truth b').toList) : b = b' := by
  cases b <;> cases b' <;> simp_all [truth]

theorem toString_nat_inj {n n' : Nat} (h : toString n = toString n') : n = n' := by
  have hread := Text.readDigits?_toString n
  rw [h, Text.readDigits?_toString n', Option.some.injEq] at hread
  exact hread.symm

/-! ## (3) Kinds -/

/-- What stands in front of the first space of a line. -/
def CallbackKind.word (kind : CallbackKind) : List Char :=
  if kind = .tagAttr then [] else kind.text.toList

theorem CallbackKind.word_inj {kind kind' : CallbackKind} (h : kind.word = kind'.word) :
    kind = kind' := by
  cases kind <;> cases kind' <;> first | rfl | simp [word, text] at h

theorem takeWhile_textLine (call : TextCallback) :
    call.textLine.toList.takeWhile (· ≠ ' ') = call.kind.word := by
  unfold Callback.textLine
  cases call <;> simp [Callback.kind, CallbackKind.word, CallbackKind.text]

/-- **The first word tells the kinds apart.** -/
theorem kind_eq_of_textLine_eq {call call' : TextCallback} (h : call.textLine = call'.textLine) :
    call.kind = call'.kind := by
  refine CallbackKind.word_inj ?_
  rw [← takeWhile_textLine, ← takeWhile_textLine, h]

/-! ## (4) Lines -/

/-- **A line of words determines the call.** -/
theorem textLine_inj {call call' : TextCallback} (h : call.FitsLine) (h' : call'.FitsLine)
    (heq : call.textLine = call'.textLine) : call = call' := by
  have hkind := kind_eq_of_textLine_eq heq
  rw [← String.toList_inj] at heq
  unfold Callback.textLine at heq
  -- the kinds are the same, and the parts of the line are read one after another
  cases call with
  | doctype name publicId systemId quirks =>
    cases call' with
    | doctype name' publicId' systemId' quirks' =>
      simp only [String.toList_append, List.append_assoc] at heq
      obtain ⟨rfl, hpublic⟩ := Text.quote_append_inj (List.append_cancel_left heq)
      obtain ⟨rfl, hsystem⟩ := Text.quote_append_inj (List.append_cancel_left hpublic)
      obtain ⟨rfl, hquirks⟩ := Text.quote_append_inj (List.append_cancel_left hsystem)
      rw [Text.truth_inj (List.append_cancel_left hquirks)]
    | _ => cases hkind
  | startTag name selfClosing count =>
    cases call' with
    | startTag name' selfClosing' count' =>
      simp only [String.toList_append, List.append_assoc] at heq
      obtain ⟨rfl, hclosing⟩ := IsTagName.append_inj h.normalised h'.normalised
        (List.append_cancel_left heq)
      obtain ⟨rfl, hcount⟩ := Text.truth_append_inj (List.append_cancel_left hclosing)
      rw [toString_nat_inj (String.toList_inj.mp (List.append_cancel_left hcount))]
    | _ => cases hkind
  | tagAttr name value =>
    cases call' with
    | tagAttr name' value' =>
      simp only [String.toList_append, List.append_assoc] at heq
      obtain ⟨rfl, hvalue⟩ := IsAttributeName.append_inj h.normalised h'.normalised
        (List.append_cancel_left heq)
      rw [Text.quote_inj hvalue]
    | _ => cases hkind
  | endTag name =>
    cases call' with
    | endTag name' =>
      simp only [String.toList_append] at heq
      rw [String.toList_inj.mp (List.append_cancel_left heq)]
    | _ => cases hkind
  | comment text =>
    cases call' with
    | comment text' =>
      simp only [String.toList_append] at heq
      rw [Text.quote_inj (List.append_cancel_left heq)]
    | _ => cases hkind
  | chars text =>
    cases call' with
    | chars text' =>
      simp only [String.toList_append] at heq
      rw [Text.quote_inj (List.append_cancel_left heq)]
    | _ => cases hkind
  | nullChar =>
    cases call' with
    | nullChar => rfl
    | _ => cases hkind
  | eof =>
    cases call' with
    | eof => rfl
    | _ => cases hkind
  | error message =>
    cases call' with
    | error message' =>
      simp only [String.toList_append] at heq
      rw [String.toList_inj.mp (List.append_cancel_left heq)]
    | _ => cases hkind

/-- The second `=` ends the name, and the text ends at the second quotation mark without a backslash. -/
example : (Callback.tagAttr "=x" "\x22=\n").textLine = "  attr =x=\x22\\\x22=\\n\x22" := by
  decide +kernel

theorem Text.newline_notMem_truth (b : Bool) : '\n' ∉ (truth b).toList := by
  cases b <;> decide

theorem newline_notMem_toString (n : Nat) : '\n' ∉ (toString n).toList :=
  (controlFree_toString n).notMem (by decide)

/-- **A line of words has no newline in it.** -/
theorem newline_notMem_textLine {call : TextCallback} (h : call.FitsLine) :
    '\n' ∉ call.textLine.toList := by
  have happend {s t : String} := Text.newline_notMem_append (s := s) (t := t)
  unfold Callback.textLine
  cases call with
  | doctype name publicId systemId quirks =>
    exact happend (happend (happend (happend (happend (happend (happend (by decide)
      (Text.newline_notMem_quote name)) (by decide)) (Text.newline_notMem_quote publicId)) (by decide))
      (Text.newline_notMem_quote systemId)) (by decide)) (Text.newline_notMem_truth quirks)
  | startTag name selfClosing count =>
    exact happend (happend (happend (happend (happend (by decide)
      (notMem_of_isTagName h.normalised rfl)) (by decide)) (Text.newline_notMem_truth selfClosing))
      (by decide)) (newline_notMem_toString count)
  | tagAttr name value =>
    exact happend (happend (happend (by decide) (notMem_of_isAttributeName h.normalised rfl))
      (by decide)) (Text.newline_notMem_quote value)
  | endTag name => exact happend (by decide) (notMem_of_isTagName h.normalised rfl)
  | comment text | chars text => exact happend (by decide) (Text.newline_notMem_quote text)
  | nullChar | eof => decide
  | error message => exact happend (by decide) ((h.message message rfl).notMem (by decide))

end HtmlStream

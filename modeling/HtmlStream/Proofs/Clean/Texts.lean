import HtmlStream.Proofs.Markup
import HtmlStream.Proofs.Nulls

/-! # Texts without U+0000 and normalised names

What a sink is promised of the texts it is handed: none has a U+0000 in it, and names are in lower case
and have no character in them that would have ended them. The texts that the machine does not copy from
its input, namely what references stand for and the messages of errors, keep the promise by themselves.

* **`NullFree`**: no U+0000. **`IsAttributeName`**: the names of attributes; those of tags are
  `IsTagName`, and the characters of those of document types `isDoctypeNameChar`.
* **`isNameChar_toLower`**: a character that does not end a name, in lower case, belongs to one.
* **`numberChar_ne_null`**, **`nullFree_expansion`**: what references stand for.
* **`controlFree_message`**, **`nullFree_message`**: the messages of errors. -/

namespace HtmlStream

/-! ## (1) Texts -/

/-- A text without U+0000. -/
def NullFree (s : String) : Prop := '\x00' ∉ s.toList

instance (s : String) : Decidable (NullFree s) := inferInstanceAs (Decidable ('\x00' ∉ s.toList))

theorem nullFree_empty : NullFree "" := by decide

theorem NullFree.push {s : String} (hs : NullFree s) {c : Char} (hc : c ≠ '\x00') :
    NullFree (s.push c) := by
  simpa [NullFree, hc.symm] using hs

theorem NullFree.append {s t : String} (hs : NullFree s) (ht : NullFree t) : NullFree (s ++ t) := by
  rw [NullFree, String.toList_append, List.mem_append, not_or]
  exact ⟨hs, ht⟩

theorem nullFree_singleton {c : Char} (hc : c ≠ '\x00') : NullFree (String.singleton c) := by
  simpa [NullFree] using hc.symm

/-- A part of a text without U+0000 has none. -/
theorem NullFree.ofList {s : String} (hs : NullFree s) {cs : List Char} (hcs : cs ⊆ s.toList) :
    NullFree (String.ofList cs) := by
  rw [NullFree, String.toList_ofList]
  exact fun h => hs (hcs h)

theorem nullFree_of_forall {s : String} (h : ∀ c ∈ s.toList, c ≠ '\x00') : NullFree s :=
  fun hnull => h _ hnull rfl

/-! ## (2) Names -/

/-- The name of an attribute: it is not empty and has `=` at most in front. -/
def IsAttributeName (name : String) : Prop :=
  ∃ first rest, name.toList = first :: rest ∧ isNameChar first = true ∧
    ∀ c ∈ rest, isNameChar c = true ∧ c ≠ '='

theorem isTagName_singleton {c : Char} (hc : c.isLower = true) : IsTagName (String.singleton c) :=
  ⟨c, [], by simp, hc, by simp⟩

theorem IsTagName.push {name : String} (h : IsTagName name) {c : Char} (hc : isNameChar c = true) :
    IsTagName (name.push c) := by
  obtain ⟨first, rest, hname, hfirst, hrest⟩ := h
  refine ⟨first, rest ++ [c], by simp [hname], hfirst, ?_⟩
  intro d hd
  rcases List.mem_append.mp hd with hd | hd
  · exact hrest d hd
  · rw [List.mem_singleton.mp hd]
    exact hc

theorem isAttributeName_singleton {c : Char} (hc : isNameChar c = true) :
    IsAttributeName (String.singleton c) :=
  ⟨c, [], by simp, hc, by simp⟩

theorem IsAttributeName.push {name : String} (h : IsAttributeName name) {c : Char}
    (hc : isNameChar c = true) (heq : c ≠ '=') : IsAttributeName (name.push c) := by
  obtain ⟨first, rest, hname, hfirst, hrest⟩ := h
  refine ⟨first, rest ++ [c], by simp [hname], hfirst, ?_⟩
  intro d hd
  rcases List.mem_append.mp hd with hd | hd
  · exact hrest d hd
  · rw [List.mem_singleton.mp hd]
    exact ⟨hc, heq⟩

theorem ne_null_of_isNameChar {c : Char} (h : isNameChar c = true) : c ≠ '\x00' :=
  (isTextChar_iff.mp (isNameChar_iff.mp h).1).1

theorem IsTagName.nullFree {name : String} (h : IsTagName name) : NullFree name := by
  obtain ⟨first, rest, hname, hfirst, hrest⟩ := h
  refine nullFree_of_forall fun c hc => ?_
  rw [hname, List.mem_cons] at hc
  rcases hc with rfl | hc
  · exact ne_of_isLower hfirst rfl
  · exact ne_null_of_isNameChar (hrest c hc)

theorem IsAttributeName.nullFree {name : String} (h : IsAttributeName name) : NullFree name := by
  obtain ⟨first, rest, hname, hfirst, hrest⟩ := h
  refine nullFree_of_forall fun c hc => ?_
  rw [hname, List.mem_cons] at hc
  rcases hc with rfl | hc
  · exact ne_null_of_isNameChar hfirst
  · exact ne_null_of_isNameChar (hrest c hc).1

/-! ### Characters of names -/

section

variable {c : Char}

/-- Lower case makes no character that is no letter. -/
theorem toLower_ne {d : Char} (hc : c ≠ d) (hd : d.isAlpha = false) : c.toLower ≠ d := by
  by_cases hupper : c.isUpper = true
  · intro heq
    have halpha : c.toLower.isAlpha = true := by
      rw [Char.isAlpha_toLower_eq_isAlpha, Char.isAlpha, hupper, Bool.true_or]
    rw [heq, hd] at halpha
    cases halpha
  · rw [Char.toLower_eq_of_not_isUpper hupper]
    exact hc

/-- A character that ends no name of a document type, in lower case, belongs to one. -/
theorem isDoctypeNameChar_toLower (hspace : Ascii.isSpace c = false) (hgt : c ≠ '>')
    (hnull : c ≠ '\x00') (hreturn : c ≠ '\r') : isDoctypeNameChar c.toLower = true := by
  simp only [Ascii.isSpace, Bool.or_eq_false_iff, decide_eq_false_iff_not] at hspace
  obtain ⟨⟨⟨htab, hline⟩, hform⟩, hblank⟩ := hspace
  refine isDoctypeNameChar_iff.mpr ⟨isTextChar_iff.mpr ⟨toLower_ne hnull rfl, toLower_ne hreturn rfl⟩,
    Char.isUpper_toLower_eq_false c, ?_, toLower_ne hgt rfl⟩
  simp [Ascii.isSpace, toLower_ne htab rfl, toLower_ne hline rfl, toLower_ne hform rfl,
    toLower_ne hblank rfl]

/-- **A character that ends no name**, in lower case, belongs to one. -/
theorem isNameChar_toLower (hspace : Ascii.isSpace c = false) (hslash : c ≠ '/') (hgt : c ≠ '>')
    (hnull : c ≠ '\x00') (hreturn : c ≠ '\r') : isNameChar c.toLower = true := by
  have hchar := isDoctypeNameChar_iff.mp (isDoctypeNameChar_toLower hspace hgt hnull hreturn)
  exact isNameChar_iff.mpr ⟨hchar.1, hchar.2.1, hchar.2.2.1, toLower_ne hslash rfl, hchar.2.2.2⟩

/-- The characters that an attribute name should not have are left as they are. -/
theorem isNameChar_of_isOddInName (h : Machine.isOddInName c = true) : isNameChar c = true := by
  simp only [Machine.isOddInName, Bool.or_eq_true, decide_eq_true_eq] at h
  rcases h with (rfl | rfl) | rfl <;> rfl

theorem ne_null_of_isAlpha (h : c.isAlpha = true) : c ≠ '\x00' := by
  rintro rfl
  cases h

theorem ne_null_of_isAlphanum (h : c.isAlphanum = true) : c ≠ '\x00' := by
  rintro rfl
  cases h

theorem isNameChar_of_isLower (h : c.isLower = true) : isNameChar c = true := by
  refine isNameChar_iff.mpr ⟨isTextChar_iff.mpr ⟨ne_of_isLower h rfl, ne_of_isLower h rfl⟩,
    isUpper_of_isLower h, ?_, ne_of_isLower h rfl, ne_of_isLower h rfl⟩
  have hne (d : Char) (hd : d.isLower = false) : c ≠ d := ne_of_isLower h hd
  simp [Ascii.isSpace, hne '\t' rfl, hne '\n' rfl, hne '\x0c' rfl, hne ' ' rfl]

end

/-! ## (3) What references stand for -/

namespace Reference

/-- A number that is one of a character. -/
theorem toNat_ofNat {n : Nat} (hlimit : n < codePointLimit)
    (hsurrogate : ¬(0xD800 ≤ n ∧ n ≤ 0xDFFF)) : (Char.ofNat n).toNat = n := by
  unfold codePointLimit at hlimit
  rw [Char.toNat_ofNat, if_pos]
  unfold Nat.isValidChar
  omega

theorem ofNat_ne_null {n : Nat} (hzero : n ≠ 0) (hlimit : n < codePointLimit)
    (hsurrogate : ¬(0xD800 ≤ n ∧ n ≤ 0xDFFF)) : Char.ofNat n ≠ '\x00' := by
  intro hnull
  have htoNat := toNat_ofNat hlimit hsurrogate
  rw [hnull] at htoNat
  exact hzero htoNat.symm

theorem ne_null_of_windows1252? {n : Nat} {c : Char} (h : windows1252? n = some c) :
    c ≠ '\x00' := by
  unfold windows1252? at h
  split at h <;> cases h <;> decide

/-- **No number stands for U+0000**: zero stands for U+FFFD. -/
theorem numberChar_ne_null (n : Nat) : numberChar n ≠ '\x00' := by
  have hreplacement : '\uFFFD' ≠ '\x00' := by decide
  unfold numberChar NumberClass.ofNumber
  by_cases hzero : n = 0
  · rw [if_pos hzero]
    exact hreplacement
  · rw [if_neg hzero]
    by_cases hlimit : codePointLimit ≤ n
    · rw [if_pos hlimit]
      exact hreplacement
    · rw [if_neg hlimit]
      by_cases hsurrogate : 0xD800 ≤ n ∧ n ≤ 0xDFFF
      · rw [if_pos (by simpa using hsurrogate)]
        exact hreplacement
      · rw [if_neg (by simpa using hsurrogate)]
        -- what is left is a code point of its own, or that of a Windows character
        have hself := ofNat_ne_null hzero (Nat.lt_of_not_le hlimit) hsurrogate
        by_cases hnoncharacter : isNoncharacter n = true
        · rw [if_pos hnoncharacter]
          exact hself
        · rw [if_neg hnoncharacter]
          by_cases hcontrol : isControl n = true
          · rw [if_pos hcontrol]
            cases hwindows : windows1252? n with
            | none => exact hself
            | some c => exact ne_null_of_windows1252? hwindows
          · rw [if_neg hcontrol]
            exact hself

theorem Entry.longer_eq (best : Option Entry) (e : Entry) :
    Entry.longer best e = some e ∨ Entry.longer best e = best := by
  unfold longer
  split
  · exact .inl rfl
  · split
    · exact .inl rfl
    · exact .inr rfl

/-- The longest entry is one of those that were compared. -/
theorem mem_of_foldl_longer {entries : List Entry} {best : Option Entry} {e : Entry}
    (h : entries.foldl Entry.longer best = some e) : e ∈ entries ∨ best = some e := by
  induction entries generalizing best with
  | nil => exact .inr h
  | cons first rest ih =>
    rcases ih h with hrest | hbest
    · exact .inl (List.mem_cons_of_mem first hrest)
    · rcases Entry.longer_eq best first with hfirst | hkept
      · rw [hfirst, Option.some.injEq] at hbest
        exact .inl (hbest ▸ List.mem_cons_self)
      · exact .inr (hkept ▸ hbest)

theorem mem_of_longestMatch {c : Char} {cs : List Char} {e : Entry}
    (h : longestMatch (c :: cs) = some e) :
    e ∈ startingWith c ∧ e.name.isPrefixOf (c :: cs) = true := by
  rcases mem_of_foldl_longer h with hmem | hnone
  · exact List.mem_filter.mp hmem
  · cases hnone

/-- A text has no U+0000 if no byte of it is zero. -/
theorem nullFree_of_bytes {s : String} (h : s.toByteArray.data.toList.contains 0 = false) :
    NullFree s := by
  intro hnull
  have hzero : 0 ∈ s.toByteArray.data.toList := by
    rw [← String.utf8Encode_toList, List.utf8Encode, List.data_toByteArray, List.mem_flatMap]
    exact ⟨'\x00', hnull, by decide⟩
  rw [List.contains_eq_mem, decide_eq_false_iff_not] at h
  exact h hzero

/-- The table has no U+0000. -/
theorem nullFree_of_startingWith (c : Char) :
    (startingWith c).all (fun e => !e.expansion.toByteArray.data.toList.contains 0) = true := by
  unfold startingWith
  split <;> decide +kernel

/-- **No name stands for a text with a U+0000.** -/
theorem nullFree_expansion {cs : List Char} {e : Entry} (h : longestMatch cs = some e) :
    NullFree e.expansion := by
  cases cs with
  | nil => cases h
  | cons c cs =>
    have hall := List.all_eq_true.mp (nullFree_of_startingWith c)
    exact nullFree_of_bytes (Bool.not_eq_true' _ ▸ hall e (mem_of_longestMatch h).1)

end Reference

/-! ## (4) Messages -/

/-- A text without control characters. -/
def ControlFree (s : String) : Prop := ∀ c ∈ s.toList, 0x20 ≤ c.toNat

theorem ControlFree.append {s t : String} (hs : ControlFree s) (ht : ControlFree t) :
    ControlFree (s ++ t) := by
  intro c hc
  rw [String.toList_append, List.mem_append] at hc
  exact hc.elim (hs c) (ht c)

/-- A control character is not in it. -/
theorem ControlFree.notMem {s : String} (hs : ControlFree s) {c : Char} (hc : c.toNat < 0x20) :
    c ∉ s.toList :=
  fun hmem => absurd (hs c hmem) (Nat.not_le.mpr hc)

theorem controlFree_of_eq {s : String} {cs : List Char} (hs : s = String.ofList cs)
    (hcs : cs.all (0x20 ≤ ·.toNat) = true) : ControlFree s :=
  fun c hc => of_decide_eq_true (List.all_eq_true.mp (all_toList hs hcs) c hc)

theorem ErrorCode.controlFree_text (code : ErrorCode) : ControlFree code.text := by
  cases code <;> exact controlFree_of_eq rfl (by decide)

theorem controlFree_applied {name argument : String} (hname : ControlFree name)
    (hargument : ControlFree argument) : ControlFree (applied name argument) := by
  have hopen : ControlFree "(" := controlFree_of_eq rfl (by decide)
  have hclose : ControlFree ")" := controlFree_of_eq rfl (by decide)
  exact ((hname.append hopen).append hargument).append hclose

theorem EscapeKind.controlFree_text (kind : EscapeKind) : ControlFree kind.text := by
  cases kind <;> exact controlFree_of_eq rfl (by decide)

theorem RawKind.controlFree_text (kind : RawKind) : ControlFree kind.text := by
  cases kind with
  | scriptDataEscaped kind =>
    exact controlFree_applied (controlFree_of_eq rfl (by decide)) kind.controlFree_text
  | _ => exact controlFree_of_eq rfl (by decide)

theorem QuoteKind.controlFree_text (kind : QuoteKind) : ControlFree kind.text := by
  cases kind <;> exact controlFree_of_eq rfl (by decide)

theorem IdentifierKind.controlFree_text (kind : IdentifierKind) : ControlFree kind.text := by
  cases kind <;> exact controlFree_of_eq rfl (by decide)

theorem State.controlFree_text (state : State) : ControlFree state.text := by
  cases state with
  | rawData kind | rawLessThanSign kind | rawEndTagOpen kind | rawEndTagName kind =>
    exact controlFree_applied (controlFree_of_eq rfl (by decide)) kind.controlFree_text
  | scriptDataEscapeStart kind | scriptDataEscapedDash kind | scriptDataEscapedDashDash kind =>
    exact controlFree_applied (controlFree_of_eq rfl (by decide)) kind.controlFree_text
  | attributeValue kind =>
    exact controlFree_applied (controlFree_of_eq rfl (by decide)) kind.controlFree_text
  | afterDoctypeKeyword kind | beforeDoctypeIdentifier kind | doctypeIdentifierDoubleQuoted kind
  | doctypeIdentifierSingleQuoted kind | afterDoctypeIdentifier kind =>
    exact controlFree_applied (controlFree_of_eq rfl (by decide)) kind.controlFree_text
  | _ => exact controlFree_of_eq rfl (by decide)

theorem controlFree_toString (n : Nat) : ControlFree (toString n) := by
  intro c hc
  rw [Nat.toString_eq_ofList_toDigits, String.toList_ofList] at hc
  have hdigit : c.isDigit = true := Nat.isDigit_of_mem_toDigits (by omega) (by omega) hc
  simp only [Char.isDigit, Bool.and_eq_true, decide_eq_true_eq] at hdigit
  have hzero : '0'.toNat ≤ c.toNat := hdigit.1
  exact Nat.le_trans (by decide) hzero

/-- **No message has a control character in it.** -/
theorem ParseError.controlFree_message (exact : Bool) (e : ParseError) (state : State) :
    ControlFree (e.message exact state) := by
  cases exact with
  | false => exact e.code.controlFree_text
  | true =>
    have hin : ControlFree " in state " := controlFree_of_eq rfl (by decide)
    have hat : ControlFree " at character " := controlFree_of_eq rfl (by decide)
    exact (((e.code.controlFree_text.append hin).append state.controlFree_text).append hat).append
      (controlFree_toString e.position)

/-- So none has a U+0000 in it. -/
theorem ParseError.nullFree_message (exact : Bool) (e : ParseError) (state : State) :
    NullFree (e.message exact state) :=
  (e.controlFree_message exact state).notMem (by decide)

end HtmlStream

import HtmlStream.Proofs.References.Numeric
import HtmlStream.Proofs.Tags.Spots

/-! # Values of attributes

In the value of an attribute the machine reads references, which take characters ahead and may put some of
them back. None of this goes beyond the end of the value, so that what comes into the attribute is what the
text of the value says alone.

* **`Reference.EndsReference`**: no reference goes on at the beginning of a text, as it is behind a value.
* **`readsReference`**: a reference comes to what it stands for. **`goes_value`**: a whole value does. -/

namespace HtmlStream

namespace Reference

open Text Machine

/-! ## (1) Behind a value -/

/-- **No reference goes on** at the beginning of a text. -/
def EndsReference (tail : List Char) : Prop :=
  ∀ c ∈ tail.head?, isPlain c = false ∧ c ≠ '#' ∧ c ≠ '=' ∧ ∀ hex, digitValue? (base hex) c = none

theorem endsReference_of_endsValue {kind : QuoteKind} {tail : List Char}
    (h : ∀ c ∈ tail.head?, endsValue kind c = true) : EndsReference tail := by
  intro c hc
  have hends := h c hc
  have hcases : c = Ascii.doubleQuote ∨ c = Ascii.singleQuote ∨ c = '\t' ∨ c = '\n' ∨ c = '\x0c' ∨
      c = ' ' ∨ c = '>' := by
    cases kind <;> simp [endsValue, closesValue, Ascii.isSpace] at hends <;> tauto
  rcases hcases with rfl | rfl | rfl | rfl | rfl | rfl | rfl <;>
    exact ⟨by decide, by decide, by decide, by decide⟩

variable {raw tail : List Char}

/-- The first character of a text that does not end a reference, or of what is behind it. -/
theorem EndsReference.head?_append {p : Char → Prop} (h : EndsReference tail)
    (hraw : ∀ c ∈ raw.head?, p c) (htail : ∀ c, isPlain c = false → c ≠ '#' → c ≠ '=' →
      (∀ hex, digitValue? (base hex) c = none) → p c) : ∀ c ∈ (raw ++ tail).head?, p c := by
  cases raw with
  | nil =>
    intro c hc
    obtain ⟨hplain, hhash, hequals, hdigit⟩ := h c hc
    exact htail c hplain hhash hequals hdigit
  | cons d raw => exact hraw

theorem nameRun_append (h : EndsReference tail) : nameRun (raw ++ tail) = nameRun raw := by
  obtain ⟨letters, rest, rfl, hletters, hrest⟩ := exists_letters raw
  by_cases hclosed : rest.head? = some ';'
  · obtain ⟨cs, rfl⟩ := List.head?_eq_some_iff.mp hclosed
    rw [List.append_assoc, List.cons_append, nameRun_closed hletters, nameRun_closed hletters]
  · have hopen : ∀ c ∈ rest.head?, isPlain c = false := by
      intro c hc
      have hne : c ≠ ';' := by
        rintro rfl
        exact hclosed hc
      simp [isPlain, hrest c hc, hne]
    rw [List.append_assoc, nameRun_open hletters hopen,
      nameRun_open hletters (h.head?_append hopen fun c hc _ _ _ => hc)]

theorem collected_append (h : EndsReference tail) : collected (raw ++ tail) = collected raw := by
  rw [collected, nameRun_append h, collected]

/-- **What is behind the value has no part in the search.** -/
theorem isLongestName_append (h : EndsReference tail) {e : Entry} :
    IsLongestName (raw ++ tail) e ↔ IsLongestName raw e := by
  rw [← isLongestName_collected, collected_append h, isLongestName_collected]

theorem expands_append (h : EndsReference tail) {e : Entry} (hfront : e.name <+: raw) :
    Expands true (raw ++ tail) e ↔ Expands true raw e := by
  rw [Expands, Expands, List.drop_append_of_le_length hfront.length_le]
  refine or_congr_right (or_congr_right ⟨fun hall c hc => ?_, fun hall => ?_⟩)
  · cases hrest : raw.drop e.name.length with
    | nil =>
      rw [hrest] at hc
      cases hc
    | cons d rest =>
      rw [hrest] at hc hall
      exact hall c hc
  · refine h.head?_append hall fun c hplain _ hequals _ => ⟨hequals, ?_⟩
    rw [isPlain, Bool.or_eq_false_iff] at hplain
    exact hplain.1

/-- Only what begins with a letter or a digit is a name. -/
theorem longestMatch_eq_none (h : ∀ c ∈ raw.head?, c.isAlphanum = false) : longestMatch raw = none := by
  rw [longestMatch_eq_none_iff]
  rintro ⟨e, hmem, hfront, -⟩
  obtain ⟨c, -, he⟩ := List.mem_flatMap.mp hmem
  obtain ⟨word, hword, hname⟩ := exists_word he
  have hhead : e.name.head? = some c := by
    rcases hname with hname | hname <;> simp [hname, hword.initial]
  obtain ⟨rest, hrest⟩ := hfront
  have hraw : raw.head? = some c := by
    rw [← hrest, List.head?_append, hhead]
    rfl
  have halpha := hword.isAlphanum c (List.mem_of_head? hword.initial)
  rw [h c hraw] at halpha
  cases halpha

theorem exists_readDigits {b : Nat} {digits : List Char}
    (h : ∀ c ∈ digits, (digitValue? b c).isSome = true) (n : Nat) :
    ∃ v, readDigits? b n digits = some v := by
  induction digits generalizing n with
  | nil => exact ⟨n, rfl⟩
  | cons c digits ih =>
    rw [List.forall_mem_cons] at h
    obtain ⟨d, hd⟩ := Option.isSome_iff_exists.mp h.1
    obtain ⟨v, hv⟩ := ih h.2 (n * b + d)
    exact ⟨v, by rw [readDigits?, hd]; exact hv⟩

/-- **The parts of a number**: the mark of its base, its digits, and what is behind them. -/
theorem numeric?_cases (s : List Char) : ∃ mark digits rest, s = mark.toList ++ (digits ++ rest) ∧
    (∀ c ∈ mark, c = 'x' ∨ c = 'X') ∧
    (mark = none → ∀ c ∈ (digits ++ rest).head?, c ≠ 'x' ∧ c ≠ 'X') ∧
    (∀ c ∈ rest.head?, digitValue? (base mark.isSome) c = none) ∧
    (digits = [] ∧ numeric? s = none ∨
      digits ≠ [] ∧ ∃ n, readDigits? (base mark.isSome) 0 digits = some n ∧
        numeric? s = some ([numberChar n],
          1 + mark.toList.length + digits.length + (rest.head?.filter (· = ';')).toList.length)) := by
  obtain ⟨mark, tail, rfl, hmark, hnone, hdef⟩ : ∃ mark tail, s = mark.toList ++ tail ∧
      (∀ c ∈ mark, c = 'x' ∨ c = 'X') ∧ (mark = none → ∀ c ∈ tail.head?, c ≠ 'x' ∧ c ≠ 'X') ∧
      s.head?.filter (fun c => c = 'x' || c = 'X') = mark := by
    cases s with
    | nil => exact ⟨none, [], rfl, by simp, by simp, rfl⟩
    | cons c s =>
      by_cases hc : c = 'x' ∨ c = 'X'
      · exact ⟨some c, s, rfl, by simpa using hc, by simp, by simp [hc]⟩
      · exact ⟨none, c :: s, rfl, by simp, by simpa using hc, by simpa using hc⟩
  let isDigit (c : Char) : Bool := (digitValue? (base mark.isSome) c).isSome
  have hsplit : tail.takeWhile isDigit ++ tail.dropWhile isDigit = tail :=
    List.takeWhile_append_dropWhile
  refine ⟨mark, tail.takeWhile isDigit, tail.dropWhile isDigit, by rw [hsplit], hmark,
    by rw [hsplit]; exact hnone, fun c hc => ?_, ?_⟩
  · simpa [isDigit] using eq_false_of_mem_dropWhile hc
  · simp only [numeric?, hdef, List.drop_left]
    by_cases hempty : tail.takeWhile isDigit = []
    · exact .inl ⟨hempty, if_pos (List.isEmpty_iff.mpr hempty)⟩
    · obtain ⟨n, hn⟩ := exists_readDigits (fun c hc => List.mem_takeWhile_imp (p := isDigit) hc) 0
      refine .inr ⟨hempty, n, hn, ?_⟩
      rw [if_neg (mt List.isEmpty_iff.mp hempty), hn]
      rfl

/-- **The semicolon of a number** is one of the value. -/
theorem closing_eq (h : EndsReference tail) (rest : List Char) :
    (rest.head?.filter (· = ';')).toList.length ≤ rest.length ∧
      (if decide ((rest ++ tail).head? = some ';') then (rest ++ tail).tail else rest ++ tail)
        = rest.drop (rest.head?.filter (· = ';')).toList.length ++ tail := by
  cases rest with
  | nil =>
    have htail : ¬tail.head? = some ';' := fun htail => absurd (h ';' htail).1 (by decide)
    simp [htail]
  | cons c rest => by_cases hc : c = ';' <;> simp [hc, Option.filter_some]

end Reference

/-! ## (2) Reading what is none -/

namespace Machine

open Reference Text

variable {m k : Machine}

/-- A reference that is kept as it is written. -/
theorem closeLiteral_keepReference {r : Reference} (href : k.reference = none)
    (hplace : r.inAttribute = k.state.isAttributeValue) :
    (k.keepReference r).closeLiteral r = k.putHere ("&" ++ r.raw) :=
  closeReference_eq href hplace _

/-- **An ampersand in front of a character that begins no reference**, or at the end of the input. -/
theorem leads_ampersand_alone {s : List Char} (hended : m.ended = false) (href : m.reference = none)
    (hstate : m.state.takesReferences = true) (hfinished : m.input.finished = true)
    (hpending : m.input.pending = '&' :: s) (hs : ∀ c ∈ s.head?, c ≠ '#' ∧ c.isAlphanum = false) :
    m.Leads ((m.skip 1).putHere "&") := by
  have hampersand := leads_ampersand hended href hstate hpending
  rw [← skip_one] at hampersand
  let r : Reference := { inAttribute := m.state.isAttributeValue }
  have hread : (m.skip 1).input.pending = s := congrArg (List.drop 1) hpending
  have hstep := step_keepReference (k := m.skip 1) (r := r) hended fun _ => hfinished
  have hopened : ((m.skip 1).keepReference r).stepOpened r s.head? = (m.skip 1).putHere ("&" ++ r.raw) := by
    rw [← closeLiteral_keepReference (k := m.skip 1) (r := r) href rfl]
    unfold stepOpened
    split
    · exact absurd rfl (hs '#' (by assumption)).1
    · rename_i c _ hc
      rw [if_neg (by simp [(hs c hc).2])]
    · rfl
  rw [hread] at hstep
  exact hampersand.trans (Leads.single (hstep.trans (congrArg some hopened)))

/-- **A number without digits.** -/
theorem leads_noDigits {mark : Option Char} {rest : List Char} (hended : m.ended = false)
    (href : m.reference = none) (hstate : m.state.takesReferences = true)
    (hfinished : m.input.finished = true) (hmark : ∀ c ∈ mark, c = 'x' ∨ c = 'X')
    (hfirst : mark = none → ∀ c ∈ rest.head?, c ≠ 'x' ∧ c ≠ 'X')
    (hend : ∀ c ∈ rest.head?, digitValue? (base mark.isSome) c = none)
    (hpending : m.input.pending = '&' :: '#' :: (mark.toList ++ rest)) :
    m.Leads (((m.skip (2 + mark.toList.length)).report
      .absenceOfDigitsInNumericCharacterReference).putHere
        ("&" ++ String.ofList ('#' :: mark.toList))) := by
  have hhash := leads_hashed hended href hstate hpending
  have hbehind : (m.skip 2).input.pending = mark.toList ++ rest :=
    @pending_skip_of_append m ['&', '#'] _ hpending
  have hbase := leads_marked (k := m.skip 2) (r := m.hashed) hmark hended rfl hbehind
    (fun _ => hfinished) hfirst
  rw [skip_skip] at hbase
  have hrest : (m.skip (2 + mark.toList.length)).input.pending = rest := by
    rw [← skip_skip]
    exact pending_skip_of_append hbehind
  generalize 2 + mark.toList.length = size at hbase hrest ⊢
  let r : Reference := marked m.hashed mark
  have hstep := step_keepReference (k := m.skip size) (r := r) hended fun _ => hfinished
  have hraw : r.raw = String.ofList ('#' :: mark.toList) := by
    rw [String.ofList_cons]
    rfl
  have hcourse := (m.skip size).course_report .absenceOfDigitsInNumericCharacterReference
  have hdigits : ((m.skip size).keepReference r).stepReference r rest.head?
      = ((m.skip size).report .absenceOfDigitsInNumericCharacterReference).putHere ("&" ++ r.raw) := by
    rw [← closeLiteral_keepReference (r := r) ((congrArg Course.reference hcourse).trans href)
      (congrArg (·.state.isAttributeValue) hcourse).symm, ← report_keepReference]
    show ((m.skip size).keepReference r).stepDigits r mark.isSome rest.head? = _
    cases hnext : rest.head? with
    | none => rfl
    | some c =>
      simp only [stepDigits, hend c hnext]
      rfl
  rw [hrest, hdigits, hraw] at hstep
  exact hhash.trans (hbase.trans (Leads.single hstep))

end Machine

/-! ## (3) Reading a reference -/

namespace Machine.At

open Reference

variable {o : TagStart} {m : Machine} {kind : QuoteKind} {rest : List Char} {closed : List Attribute}
  {a : Attribute}

/-- A place in the value of an attribute. -/
theorem putHere_value (h : m.At o ⟨.attributeValue kind, rest, closed, some a⟩) (s : String) :
    (m.putHere s).At o ⟨.attributeValue kind, rest, closed, some { a with value := a.value ++ s }⟩ :=
  h.putHere rfl s

theorem expandCollected (h : m.At o ⟨.attributeValue kind, rest, closed, some a⟩) (e : Entry)
    (cs : List Char) : (m.expandCollected e cs).At o ⟨.attributeValue kind, rest.drop (cs.length + 1), closed,
      some { a with value := a.value ++ (e.expansion ++ String.ofList (cs.drop e.name.length)) }⟩ := by
  unfold Machine.expandCollected
  refine putHere_value ?_ _
  split
  · exact h.skip _
  · exact (h.skip _).report rfl

theorem keepLiteral (h : m.At o ⟨.attributeValue kind, rest, closed, some a⟩) (s : String)
    (reported : Bool) : (m.keepLiteral s reported).At o
      ⟨.attributeValue kind, rest.drop s.length, closed, some { a with value := a.value ++ s }⟩ := by
  unfold Machine.keepLiteral
  refine putHere_value ?_ _
  split
  · exact (h.skip _).report rfl
  · exact h.skip _

theorem readNumber (h : m.At o ⟨.attributeValue kind, rest, closed, some a⟩) (size n : Nat)
    (ended : Bool) : (m.readNumber size ended (NumberClass.ofNumber n).fault? (numberChar n)).At o
      ⟨.attributeValue kind, if ended then (rest.drop size).tail else rest.drop size, closed,
        some { a with value := a.value ++ String.singleton (numberChar n) }⟩ := by
  have hended : (if ended then (m.skip size).advance
      else (m.skip size).report .missingSemicolonAfterCharacterReference).At o
        ⟨.attributeValue kind, if ended then (rest.drop size).tail else rest.drop size, closed,
          some a⟩ := by
    cases ended
    · exact (h.skip size).report rfl
    · exact (h.skip size).advance
  unfold Machine.readNumber
  refine putHere_value ?_ _
  cases NumberClass.ofNumber n <;> first | exact hended | exact hended.report rfl

end Machine.At

namespace Spot

open Reference

variable {kind : QuoteKind} {raw tail : List Char} {closed : List Attribute} {a : Attribute}

/-- **A reference, or an ampersand that is none**, is read: some of the text behind the ampersand is, and the
text that is put into the value is what the value says up to there. -/
def ReadsReference (kind : QuoteKind) (raw tail : List Char) : Prop :=
  ∃ text n, n ≤ raw.length ∧ decode ('&' :: raw) = text ++ decode (raw.drop n) ∧
    ∀ closed a, Goes ⟨.attributeValue kind, '&' :: (raw ++ tail), closed, some a⟩
      ⟨.attributeValue kind, raw.drop n ++ tail, closed,
        some { a with value := a.value ++ String.ofList text }⟩

theorem drop_ampersand {n : Nat} (hn : n ≤ raw.length) :
    ('&' :: (raw ++ tail)).drop (n + 1) = raw.drop n ++ tail := by
  rw [List.drop_succ_cons, List.drop_append_of_le_length hn]

/-- **An ampersand that is none**, and the characters behind it that are kept with it. -/
theorem readsReference_of_literal {plain : List Char} (hplain : ∀ c ∈ plain, c ≠ '&' ∧ c ≠ '\x00')
    (hfront : plain <+: raw) (hnone : inValue? raw = none)
    (hgoes : ∀ closed a, Goes ⟨.attributeValue kind, '&' :: (raw ++ tail), closed, some a⟩
      ⟨.attributeValue kind, raw.drop plain.length ++ tail, closed,
        some { a with value := a.value ++ String.ofList ('&' :: plain) }⟩) :
    ReadsReference kind raw tail := by
  refine ⟨'&' :: plain, plain.length, hfront.length_le, ?_, hgoes⟩
  obtain ⟨rest, rfl⟩ := hfront
  rw [decode_ampersand hnone, decode_append hplain, List.drop_left, List.cons_append]

/-- Letters that are kept. -/
theorem goes_of_keepLiteral {plain : List Char} (hfront : plain <+: raw)
    (hleads : ∀ o (m : Machine), m.At o ⟨.attributeValue kind, '&' :: (raw ++ tail), closed, some a⟩ →
      ∃ reported, m.Leads (m.keepLiteral ("&" ++ String.ofList plain) reported)) :
    Goes ⟨.attributeValue kind, '&' :: (raw ++ tail), closed, some a⟩
      ⟨.attributeValue kind, raw.drop plain.length ++ tail, closed,
        some { a with value := a.value ++ String.ofList ('&' :: plain) }⟩ := by
  intro o m hm
  obtain ⟨reported, hleads⟩ := hleads o m hm
  have hkept := hm.keepLiteral ("&" ++ String.ofList plain) reported
  rw [Machine.length_ampersand, String.length_ofList, drop_ampersand hfront.length_le] at hkept
  rw [Machine.ampersand_append] at hleads hkept
  exact ⟨_, hleads, hkept⟩

/-- **What is collected behind an ampersand** is the same as if nothing stood behind the value. -/
theorem leads_collected_value (h : EndsReference tail) (hraw : ∃ c ∈ raw.head?, c.isAlphanum = true)
    {o : TagStart} {m : Machine} (hm : m.At o ⟨.attributeValue kind, '&' :: (raw ++ tail), closed, some a⟩) :
    m.Leads ((m.skip ((collected raw).length + 1)).closeName (m.naming (String.ofList (collected raw)))
      (if (collected raw).getLast? = some ';' then none
        else ((raw ++ tail).drop (collected raw).length).head?)) := by
  obtain ⟨c, hc, halpha⟩ := hraw
  have hfirst : ∃ c ∈ (raw ++ tail).head?, c.isAlphanum = true := by
    refine ⟨c, ?_, halpha⟩
    rw [List.head?_append, hc]
    rfl
  have hleads := Machine.leads_collected hm.ended hm.reference (by rw [hm.state]; rfl) hm.finished
    hm.pending hfirst
  rwa [collected_append h] at hleads

/-- What is collected stands for itself. -/
theorem ne_of_mem_collected : ∀ c ∈ collected raw, c ≠ '&' ∧ c ≠ '\x00' := fun _ hc =>
  have hplain := isPlain_of_mem_nameRun (List.mem_of_mem_take hc)
  ⟨Machine.ne_of_isPlain hplain rfl, Machine.ne_of_isPlain hplain rfl⟩

theorem inValue?_of_isAlphanum (hraw : ∃ c ∈ raw.head?, c.isAlphanum = true) :
    inValue? raw = named? raw := by
  refine if_neg fun hhash => ?_
  obtain ⟨c, hc, halpha⟩ := hraw
  obtain rfl : '#' = c := Option.some.inj (hhash.symm.trans hc)
  exact absurd halpha (by decide)

/-- **Letters that are no name.** -/
theorem readsReference_unknown (h : EndsReference tail) (hraw : ∃ c ∈ raw.head?, c.isAlphanum = true)
    (hlongest : longestMatch raw = none) : ReadsReference kind raw tail := by
  have hnone : longestMatch (collected raw) = none := by
    rw [longestMatch_eq_none_iff] at hlongest ⊢
    simpa only [isLongestName_collected] using hlongest
  have hread : inValue? raw = none := by
    rw [inValue?_of_isAlphanum hraw, named?, hlongest]
    rfl
  refine readsReference_of_literal ne_of_mem_collected (collected_begins raw) hread fun closed a =>
    goes_of_keepLiteral (collected_begins raw) fun o m hm =>
      ⟨decide ((collected raw).getLast? = some ';'), ?_⟩
  have hleads := leads_collected_value h hraw hm
  have hunknown := Machine.closeName_of_unknown hm.reference (String.ofList (collected raw))
  rw [String.length_ofList, String.toList_ofList] at hunknown
  rwa [hunknown _ hnone] at hleads

/-- **A name**, which is expanded or kept. -/
theorem readsReference_longest (h : EndsReference tail) (hraw : ∃ c ∈ raw.head?, c.isAlphanum = true)
    {e : Entry} (hlongest : longestMatch raw = some e) : ReadsReference kind raw tail := by
  have hname : IsLongestName raw e := longestMatch_eq_some_iff.mp hlongest
  have hname' : IsLongestName (raw ++ tail) e := (isLongestName_append h).mpr hname
  have hclose {o : TagStart} {m : Machine} {closed : List Attribute} {a : Attribute}
      (hm : m.At o ⟨.attributeValue kind, '&' :: (raw ++ tail), closed, some a⟩) :
      m.Leads (if Expands true raw e then m.expandCollected e (collected raw)
        else m.keepLiteral ("&" ++ String.ofList (collected raw)) false) := by
    have hstate : m.state.isAttributeValue = true := by
      rw [hm.state]
      rfl
    have hclosed := Machine.closeName_of_longest hm.reference hname'
    rw [hstate, collected_append h, if_congr (expands_append h hname.isPrefix) rfl rfl] at hclosed
    have hleads := leads_collected_value h hraw hm
    rwa [hclosed] at hleads
  by_cases hexpands : Expands true raw e
  · have hread : inValue? raw = some (e.expansion.toList, e.name.length) := by
      rw [inValue?_of_isAlphanum hraw, named?, hlongest, Option.filter_some,
        if_pos (decide_eq_true hexpands)]
      rfl
    refine ⟨e.expansion.toList ++ (collected raw).drop e.name.length, (collected raw).length,
      (collected_begins raw).length_le, ?_, fun closed a o m hm => ?_⟩
    · rw [decode_reference hread, Machine.drop_name_eq (isLongestName_collected.mpr hname).isPrefix,
        decode_append fun c hc => ne_of_mem_collected c (List.mem_of_mem_drop hc), List.append_assoc]
    · have hleads := hclose hm
      rw [if_pos hexpands] at hleads
      have hexpanded := hm.expandCollected e (collected raw)
      rw [drop_ampersand (collected_begins raw).length_le] at hexpanded
      refine ⟨_, hleads, ?_⟩
      rwa [String.ofList_append, String.ofList_toList]
  · have hread : inValue? raw = none := by
      rw [inValue?_of_isAlphanum hraw, named?, hlongest, Option.filter_some,
        if_neg (by simpa using hexpands)]
      rfl
    refine readsReference_of_literal ne_of_mem_collected (collected_begins raw) hread fun closed a =>
      goes_of_keepLiteral (collected_begins raw) fun o m hm => ⟨false, ?_⟩
    have hleads := hclose hm
    rwa [if_neg hexpands] at hleads

section

variable {mark : Option Char} {digits rest : List Char} (h : EndsReference tail)
  (hmark : ∀ c ∈ mark, c = 'x' ∨ c = 'X')
  (hend : ∀ c ∈ rest.head?, Text.digitValue? (base mark.isSome) c = none)
include h hmark hend

/-- **A number without digits.** -/
theorem readsReference_noDigits (hfirst : mark = none → ∀ c ∈ rest.head?, c ≠ 'x' ∧ c ≠ 'X')
    (hnone : numeric? (mark.toList ++ rest) = none) :
    ReadsReference kind ('#' :: (mark.toList ++ rest)) tail := by
  have hplain : ∀ c ∈ '#' :: mark.toList, c ≠ '&' ∧ c ≠ '\x00' := by
    rw [List.forall_mem_cons]
    refine ⟨by decide, fun c hc => ?_⟩
    rcases hmark c (Option.mem_toList.mp hc) with rfl | rfl <;> decide
  have hfront : '#' :: mark.toList <+: '#' :: (mark.toList ++ rest) := ⟨rest, rfl⟩
  have hread : inValue? ('#' :: (mark.toList ++ rest)) = none := (if_pos rfl).trans hnone
  have hfirst' : mark = none → ∀ c ∈ (rest ++ tail).head?, c ≠ 'x' ∧ c ≠ 'X' := fun hnone =>
    h.head?_append (hfirst hnone) fun c hplain _ _ _ => by
      constructor <;> rintro rfl <;> cases hplain
  have hend' : ∀ c ∈ (rest ++ tail).head?, Text.digitValue? (base mark.isSome) c = none :=
    h.head?_append hend fun c _ _ _ hdigit => hdigit _
  refine readsReference_of_literal hplain hfront hread fun closed a o m hm => ?_
  have hpending : m.input.pending = '&' :: '#' :: (mark.toList ++ (rest ++ tail)) := by
    rw [hm.pending]
    simp
  refine ⟨_, Machine.leads_noDigits hm.ended hm.reference (by rw [hm.state]; rfl) hm.finished hmark
    hfirst' hend' hpending, ?_⟩
  have hreported := @Machine.At.report _ _ _ (hm.skip (2 + mark.toList.length))
    .absenceOfDigitsInNumericCharacterReference rfl
  have hkept := hreported.putHere_value ("&" ++ String.ofList ('#' :: mark.toList))
  have hrest : ('&' :: ('#' :: (mark.toList ++ rest) ++ tail)).drop (2 + mark.toList.length)
      = ('#' :: (mark.toList ++ rest)).drop ('#' :: mark.toList).length ++ tail := by
    rw [Nat.add_comm]
    simp
  rw [Machine.ampersand_append, hrest] at hkept
  rw [Machine.ampersand_append]
  exact hkept

/-- **A number with digits.** -/
theorem readsReference_digits (hne : digits ≠ []) {n : Nat}
    (hvalue : Text.readDigits? (base mark.isSome) 0 digits = some n)
    (hsome : numeric? (mark.toList ++ (digits ++ rest)) = some ([numberChar n],
      1 + mark.toList.length + digits.length + (rest.head?.filter (· = ';')).toList.length)) :
    ReadsReference kind ('#' :: (mark.toList ++ (digits ++ rest))) tail := by
  have hend' : ∀ c ∈ (rest ++ tail).head?, Text.digitValue? (base mark.isSome) c = none :=
    h.head?_append hend fun c _ _ _ hdigit => hdigit _
  have hread := (if_pos rfl : inValue? ('#' :: (mark.toList ++ (digits ++ rest))) = _).trans hsome
  refine ⟨[numberChar n], _, ?_, decode_reference hread, fun closed a o m hm => ?_⟩
  · have hclosing := (closing_eq h rest).1
    simp only [List.length_cons, List.length_append]
    omega
  · have hpending : m.input.pending = '&' :: '#' :: (mark.toList ++ (digits ++ (rest ++ tail))) := by
      rw [hm.pending]
      simp
    have hnumber := hm.readNumber (2 + mark.toList.length + digits.length) n
      ((rest ++ tail).head? = some ';')
    have hdigits : ('&' :: ('#' :: (mark.toList ++ (digits ++ rest)) ++ tail)).drop
        (2 + mark.toList.length + digits.length) = rest ++ tail := by
      rw [Nat.add_assoc, Nat.add_comm]
      simp [List.drop_append]
    have hrest (size : Nat) : ('#' :: (mark.toList ++ (digits ++ rest))).drop
        (1 + mark.toList.length + digits.length + size) = rest.drop size := by
      have hsize : 1 + mark.toList.length + digits.length = ('#' :: (mark.toList ++ digits)).length := by
        rw [List.length_cons, List.length_append]
        omega
      rw [hsize, ← List.append_assoc]
      show (('#' :: (mark.toList ++ digits)) ++ rest).drop _ = _
      rw [List.drop_length_add_append]
    rw [hdigits, (closing_eq h rest).2] at hnumber
    rw [hrest]
    exact ⟨_, Machine.leads_readNumber hm.ended hm.reference (by rw [hm.state]; rfl) hm.finished hmark
      hne hvalue hend' hpending, hnumber⟩

end

/-- **Whatever stands behind an ampersand.** -/
theorem readsReference (h : EndsReference tail) : ReadsReference kind raw tail := by
  by_cases hhash : raw.head? = some '#'
  · obtain ⟨s, rfl⟩ := List.head?_eq_some_iff.mp hhash
    obtain ⟨mark, digits, rest, rfl, hmark, hfirst, hend, hcases⟩ := numeric?_cases s
    rcases hcases with ⟨rfl, hnone⟩ | ⟨hne, n, hvalue, hsome⟩
    · exact readsReference_noDigits h hmark hend (hfirst ·) hnone
    · exact readsReference_digits h hmark hend hne hvalue hsome
  · by_cases halpha : ∃ c ∈ raw.head?, c.isAlphanum = true
    · cases hlongest : longestMatch raw with
      | none => exact readsReference_unknown h halpha hlongest
      | some e => exact readsReference_longest h halpha hlongest
    · have hraw : ∀ c ∈ raw.head?, c ≠ '#' ∧ c.isAlphanum = false := by
        intro c hc
        refine ⟨?_, Bool.eq_false_iff.mpr fun hc' => halpha ⟨c, hc, hc'⟩⟩
        rintro rfl
        exact hhash hc
      have hnone : inValue? raw = none := by
        rw [inValue?, if_neg hhash, named?, longestMatch_eq_none fun c hc => (hraw c hc).2]
        rfl
      refine readsReference_of_literal (List.forall_mem_nil _) (List.nil_prefix) hnone
        fun closed a o m hm => ⟨_, Machine.leads_ampersand_alone hm.ended hm.reference
          (by rw [hm.state]; rfl) hm.finished hm.pending ?_, ?_⟩
      · refine h.head?_append hraw fun c hplain hhash _ _ => ⟨hhash, ?_⟩
        rw [Machine.isPlain, Bool.or_eq_false_iff] at hplain
        exact hplain.1
      · exact (hm.skip 1).putHere_value "&"

/-! ## (4) Whole values -/

/-- **A character of a value** that is no ampersand. -/
theorem goes_valueChar {c : Char} {rest : List Char} (hc : endsValue kind c = false) (hampersand : c ≠ '&') :
    Goes ⟨.attributeValue kind, c :: rest, closed, some a⟩
      ⟨.attributeValue kind, rest, closed, some { a with value := a.value.push (mend c) }⟩ := by
  refine goes_of_stepChar rfl fun o m hm => ⟨m.stepAttributeValue kind c, ?_, ?_⟩
  · rw [Machine.stepChar, hm.state]
  · obtain ⟨hcloses, hends⟩ : Machine.closesValue kind c = false ∧
        (kind = .unquoted → Ascii.isSpace c = false ∧ c ≠ '>') := by
      cases kind <;> simpa [endsValue, Machine.closesValue] using hc
    have hput {k : Machine} (hk : k.At o ⟨.attributeValue kind, rest, closed, some a⟩) (d : Char) :
        (k.putAttributeValue d).At o
          ⟨.attributeValue kind, rest, closed, some { a with value := a.value.push d }⟩ :=
      hk.mapAttribute fun a => { a with value := a.value.push d }
    have hadvance := hm.advance
    unfold Machine.stepAttributeValue
    simp only
    rw [if_neg (by simp [hcloses]), if_neg (by simpa using fun h => (hends h).1),
      if_neg (by simpa using fun h => (hends h).2), if_neg hampersand]
    split
    · rename_i hnull
      rw [mend, if_pos hnull]
      exact hput (hadvance.report rfl) _
    · rename_i hnull
      rw [mend_of_ne hnull]
      split
      · exact hput (hadvance.report rfl) _
      · exact hput hadvance _

/-- **A value** is read to its end, and what comes into the attribute is what its text says. -/
theorem goes_value (hraw : ∀ c ∈ raw, endsValue kind c = false)
    (htail : ∀ c ∈ tail.head?, endsValue kind c = true) :
    Goes ⟨.attributeValue kind, raw ++ tail, closed, some a⟩
      ⟨.attributeValue kind, tail, closed,
        some { a with value := a.value ++ String.ofList (decode raw) }⟩ := by
  -- a reference takes several characters at once
  induction hlength : raw.length using Nat.strong_induction_on generalizing raw a with
  | _ n ih =>
    cases raw with
    | nil =>
      rw [decode_nil, String.ofList_nil, String.append_empty]
      exact Goes.refl _
    | cons c raw =>
      rw [List.forall_mem_cons] at hraw
      by_cases hampersand : c = '&'
      · subst hampersand
        obtain ⟨text, size, -, hdecode, hgoes⟩ := @readsReference kind raw tail
          (endsReference_of_endsValue htail)
        have hless : (raw.drop size).length < n := by
          rw [← hlength, List.length_cons, List.length_drop]
          omega
        have hothers := ih _ hless (a := { a with value := a.value ++ String.ofList text })
          (fun c hc => hraw.2 c (List.mem_of_mem_drop hc)) rfl
        rw [String.append_assoc, ← String.ofList_append, ← hdecode] at hothers
        exact (hgoes closed a).trans hothers
      · have hothers := ih raw.length (by rw [← hlength]; exact Nat.lt_succ_self _)
          (a := { a with value := a.value.push (mend c) }) hraw.2 rfl
        rw [String.push_eq_append, String.append_assoc, ← String.ofList_cons,
          ← decode_cons hampersand, ← String.push_eq_append] at hothers
        exact (goes_valueChar hraw.1 hampersand).trans hothers

end Spot

end HtmlStream

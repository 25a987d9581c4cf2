import HtmlStream.Text.Quoted
import Mathlib.Tactic.SplitIfs

/-! # Reading written texts back

Texts that are written between quotation marks can be read back by someone who knows nothing of how
they were written, only what may stand behind a backslash: the end of the text is found, and what was
written is what is read.

* **`Escapes`**: what may stand behind a backslash. **`Escapes.quoted`**: in quoted texts and in those
  of snapshot lines. **`Escapes.json`**: in JSON strings.
* **`Scan`**, **`Escapes.step`**, **`Escapes.read`**: reading one character at a time up to the closing
  quotation mark.
* **`Escapes.Writes`**: a written character is read back. **`read_writeAll`**: so is a written text.
* **`quote_append_inj`**, **`snapshotQuote_append_inj`**, **`escape_inj`**: a written text
  determines the text, whatever stands behind it.
* **`Escapes.Writes.newline_notMem`**: none of them has a newline in it. -/

namespace HtmlStream.Text

/-! ## (1) Numbers -/

theorem readDigits?_append (base n : Nat) (ds ds' : List Char) :
    readDigits? base n (ds ++ ds') = (readDigits? base n ds).bind (readDigits? base · ds') := by
  induction ds generalizing n with
  | nil => rfl
  | cons c ds ih =>
    rw [List.cons_append, readDigits?, readDigits?]
    cases digitValue? base c with
    | none => rfl
    | some d => exact ih _

/-- **Digits are read back**, in whatever way `f` they are written. -/
theorem readDigits?_toDigits {base : Nat} (hbase : 1 < base) {f : Char → Char}
    (hf : ∀ d < base, digitValue? base (f d.digitChar) = some d) (n : Nat) :
    readDigits? base 0 ((Nat.toDigits base n).map f) = some n := by
  induction n using Nat.strongRecOn with
  | ind n ih =>
    by_cases hn : n < base
    · simp [Nat.toDigits_of_lt_base hn, readDigits?, hf n hn]
    · have hrest := ih (n / base) (Nat.div_lt_self (by omega) hbase)
      rw [Nat.toDigits_of_base_le hbase (by omega), List.map_append, readDigits?_append, hrest]
      simp only [Option.bind_some, List.map_cons, List.map_nil, readDigits?,
        hf (n % base) (Nat.mod_lt _ (by omega))]
      rw [Nat.mul_comm, Nat.div_add_mod]

theorem readDigits?_hex (n : Nat) : readDigits? 16 0 (hex n).toList = some n := by
  rw [hex, String.toList_ofList, ← List.map_id (Nat.toDigits 16 n)]
  exact readDigits?_toDigits (by omega) (by decide) n

theorem readDigits?_hexUpper (n : Nat) : readDigits? 16 0 (hexUpper n).toList = some n := by
  rw [hexUpper, String.toList_ofList]
  exact readDigits?_toDigits (by omega) (by decide) n

theorem readDigits?_toString (n : Nat) : readDigits? 10 0 (toString n).toList = some n := by
  rw [Nat.toString_eq_ofList_toDigits, String.toList_ofList, ← List.map_id (Nat.toDigits 10 n)]
  exact readDigits?_toDigits (by omega) (by decide) n

/-- Zeros in front change nothing. -/
theorem readDigits?_padLeft (width : Nat) (s : String) :
    readDigits? 16 0 (padLeft width '0' s).toList = readDigits? 16 0 s.toList := by
  have hzeros (n : Nat) : readDigits? 16 0 (List.replicate n '0') = some 0 := by
    induction n with
    | zero => rfl
    | succ n ih => exact ih
  rw [padLeft, String.toList_append, String.toList_ofList, readDigits?_append, hzeros]
  rfl

/-- What digits are read of is digits. -/
theorem digitValue?_of_readDigits? {base n v : Nat} {ds : List Char}
    (h : readDigits? base n ds = some v) {c : Char} (hc : c ∈ ds) : digitValue? base c ≠ none := by
  induction ds generalizing n with
  | nil => cases hc
  | cons d ds ih =>
    rw [readDigits?] at h
    cases hd : digitValue? base d with
    | none =>
      rw [hd] at h
      cases h
    | some k =>
      rw [hd] at h
      rcases List.mem_cons.mp hc with rfl | hc
      · rw [hd]
        exact Option.some_ne_none k
      · exact ih h hc

/-! ## (2) Reading -/

/-- What may stand behind a backslash. -/
structure Escapes where
  /-- What a letter stands for, `u` apart. -/
  letter : Char → Option Char
  /-- Whether the code point behind `u` stands in braces. If not, it has four digits. -/
  braces : Bool

/-- The escapes of quoted texts. -/
def Escapes.quoted : Escapes where
  letter
    | '\x22' => some '\x22'
    | '\\' => some '\\'
    | '0' => some '\x00'
    | 't' => some '\t'
    | 'r' => some '\r'
    | 'n' => some '\n'
    | _ => none
  braces := true

/-- The escapes of JSON strings. -/
def Escapes.json : Escapes where
  letter
    | '\x22' => some '\x22'
    | '\\' => some '\\'
    | '/' => some '/'
    | 'b' => some '\x08'
    | 'f' => some '\x0c'
    | 'n' => some '\n'
    | 'r' => some '\r'
    | 't' => some '\t'
    | _ => none
  braces := false

/-- How far a text has been read. -/
inductive Scan where
  /-- Between characters. -/
  | plain (read : String)
  /-- Behind a backslash. -/
  | escaped (read : String)
  /-- In front of the brace of a code point. -/
  | opening (read : String)
  /-- In the digits of a code point in braces. -/
  | braced (read : String) (number : Nat)
  /-- In the digits of a code point of a certain length, `more` of them behind the next one. -/
  | counted (read : String) (number more : Nat)
  /-- Behind the closing quotation mark. -/
  | closed (read : String)

namespace Escapes

variable (e : Escapes)

/-- One character further; none if it has no place there. -/
def step : Scan → Char → Option Scan
  | .plain read, c =>
    if c = '\x22' then some (.closed read)
    else if c = '\\' then some (.escaped read)
    else if c.toNat < 0x20 then none
    else some (.plain (read.push c))
  | .escaped read, c =>
    if c = 'u' then some (if e.braces then .opening read else .counted read 0 3)
    else (e.letter c).map fun d => .plain (read.push d)
  | .opening read, c => if c = '\x7b' then some (.braced read 0) else none
  | .braced read n, c =>
    if c = '\x7d' then some (.plain (read.push (Char.ofNat n)))
    else (digitValue? 16 c).map fun d => .braced read (n * 16 + d)
  | .counted read n more, c =>
    (digitValue? 16 c).map fun d =>
      match more with
      | 0 => .plain (read.push (Char.ofNat (n * 16 + d)))
      | more + 1 => .counted read (n * 16 + d) more
  | .closed _, _ => none

/-- The text up to its closing quotation mark, and what stands behind it. -/
def read (e : Escapes) : Scan → List Char → Option (String × List Char)
  | .closed text, rest => some (text, rest)
  | _, [] => none
  | s, c :: rest => (e.step s c).bind (e.read · rest)

variable {e} {r : String} {c : Char} {rest : List Char}

theorem read_closed : e.read (.closed r) rest = some (r, rest) := by
  cases rest <;> rfl

/-- In front of the end of the text it is a matter of one step. -/
theorem read_cons {s : Scan} (hopen : ∀ t, s ≠ .closed t) :
    e.read s (c :: rest) = (e.step s c).bind (e.read · rest) := by
  cases s with
  | closed t => exact absurd rfl (hopen t)
  | _ => rfl

theorem read_quotationMark : e.read (.plain r) ('\x22' :: rest) = some (r, rest) := by
  have hopen : ∀ t, Scan.plain r ≠ .closed t := nofun
  rw [read_cons hopen]
  exact read_closed

theorem read_plain (hquotation : c ≠ '\x22') (hbackslash : c ≠ '\\') (hcontrol : 0x20 ≤ c.toNat) :
    e.read (.plain r) (c :: rest) = e.read (.plain (r.push c)) rest := by
  simp [read, step, hquotation, hbackslash, Nat.not_lt.mpr hcontrol]

theorem read_letter {d : Char} (hletter : e.letter d = some c) (hd : d ≠ 'u') :
    e.read (.plain r) ('\\' :: d :: rest) = e.read (.plain (r.push c)) rest := by
  simp [read, step, hletter, hd]

/-- The digits in braces are read to the brace. -/
theorem read_braced {ds : List Char} {n v : Nat} (h : readDigits? 16 n ds = some v) :
    e.read (.braced r n) (ds ++ '\x7d' :: rest) = e.read (.plain (r.push (Char.ofNat v))) rest := by
  induction ds generalizing n with
  | nil =>
    cases h
    rfl
  | cons d ds ih =>
    have hd := digitValue?_of_readDigits? h List.mem_cons_self
    have hbrace : d ≠ '\x7d' := by
      rintro rfl
      exact hd rfl
    rw [readDigits?] at h
    cases hvalue : digitValue? 16 d with
    | none => exact absurd hvalue hd
    | some k =>
      rw [hvalue] at h
      rw [List.cons_append, ← ih h]
      simp [read, step, hbrace, hvalue]

/-- So many digits are read as there are to be. -/
theorem read_counted {ds : List Char} {n v more : Nat} (h : readDigits? 16 n ds = some v)
    (hlength : ds.length = more + 1) :
    e.read (.counted r n more) (ds ++ rest) = e.read (.plain (r.push (Char.ofNat v))) rest := by
  induction more generalizing ds n with
  | zero =>
    obtain ⟨d, rfl⟩ := List.length_eq_one_iff.mp hlength
    rw [readDigits?] at h
    cases hvalue : digitValue? 16 d with
    | none =>
      rw [hvalue] at h
      cases h
    | some k =>
      rw [hvalue] at h
      cases h
      simp [read, step, hvalue]
  | succ more ih =>
    obtain ⟨d, ds, rfl⟩ := List.exists_cons_of_length_eq_add_one hlength
    rw [readDigits?] at h
    cases hvalue : digitValue? 16 d with
    | none =>
      rw [hvalue] at h
      cases h
    | some k =>
      rw [hvalue] at h
      rw [List.cons_append, ← ih h (by simpa using hlength)]
      simp [read, step, hvalue]

/-! ## (3) What is written is read -/

/-- **Each character is read back** as it is written. -/
def Writes (e : Escapes) (write : Char → String) : Prop :=
  ∀ (c : Char) (r : String) (rest : List Char),
    e.read (.plain r) ((write c).toList ++ rest) = e.read (.plain (r.push c)) rest

end Escapes

theorem toList_writeAll (write : Char → String) (s : String) :
    (writeAll write s).toList = s.toList.flatMap fun c => (write c).toList := by
  have hfold (acc : String) (cs : List Char) :
      (cs.foldl (fun acc c => acc ++ write c) acc).toList
        = acc.toList ++ cs.flatMap fun c => (write c).toList := by
    induction cs generalizing acc with
    | nil => simp
    | cons c cs ih => rw [List.foldl_cons, ih, String.toList_append, List.flatMap_cons,
        List.append_assoc]
  exact hfold "" s.toList

theorem toList_enclose (s : String) : (enclose s).toList = '\x22' :: (s.toList ++ ['\x22']) := by
  simp [enclose, String.toList_append]

/-- **A written text is read back**, up to its closing quotation mark. -/
theorem Escapes.Writes.read_writeAll {e : Escapes} {write : Char → String} (h : e.Writes write)
    (s : String) (rest : List Char) :
    e.read (.plain "") ((writeAll write s).toList ++ '\x22' :: rest) = some (s, rest) := by
  have hread (r : String) (cs : List Char) :
      e.read (.plain r) ((cs.flatMap fun c => (write c).toList) ++ '\x22' :: rest)
        = some (r ++ String.ofList cs, rest) := by
    induction cs generalizing r with
    | nil => rw [String.ofList_nil, String.append_empty]; exact Escapes.read_quotationMark
    | cons c cs ih =>
      rw [List.flatMap_cons, List.append_assoc, h, ih, String.push_eq_append, String.ofList_cons,
        String.append_assoc]
  rw [toList_writeAll, hread, String.empty_append, String.ofList_toList]

section

variable {e : Escapes} {c : Char}

/-- A code point in braces is read as its character. -/
theorem Escapes.read_code (hbraces : e.braces = true) {digits : String}
    (h : readDigits? 16 0 digits.toList = some c.toNat) (r : String) (rest : List Char) :
    e.read (.plain r) ((braced digits).toList ++ rest) = e.read (.plain (r.push c)) rest := by
  have htext : (braced digits).toList ++ rest
      = '\\' :: 'u' :: '\x7b' :: (digits.toList ++ '\x7d' :: rest) := by
    simp [braced, String.toList_append]
  have hread : e.read (.braced r 0) (digits.toList ++ '\x7d' :: rest)
      = e.read (.plain (r.push c)) rest := by
    rw [Escapes.read_braced h, Char.ofNat_toNat]
  rw [htext, ← hread]
  simp [Escapes.read, Escapes.step, hbraces]

/-- Four digits are read as their character. -/
theorem Escapes.read_fourDigits (hbraces : e.braces = false) {digits : String}
    (h : readDigits? 16 0 digits.toList = some c.toNat) (hlength : digits.toList.length = 4)
    (r : String) (rest : List Char) :
    e.read (.plain r) (("\\u" ++ digits).toList ++ rest) = e.read (.plain (r.push c)) rest := by
  have htext : ("\\u" ++ digits).toList ++ rest = '\\' :: 'u' :: (digits.toList ++ rest) := by
    simp [String.toList_append]
  have hread : e.read (.counted r 0 3) (digits.toList ++ rest) = e.read (.plain (r.push c)) rest := by
    rw [Escapes.read_counted h hlength, Char.ofNat_toNat]
  rw [htext, ← hread]
  simp [Escapes.read, Escapes.step, hbraces]

/-- Controls are not shown as they are. -/
theorem toNat_of_isShown (h : isShown c = true) : 0x20 ≤ c.toNat := by
  unfold isShown at h
  split at h
  · exact of_decide_eq_true h
  · omega

end

/-- **Quoted texts** are read back. -/
theorem writes_quoteChar : Escapes.quoted.Writes quoteChar := by
  intro c r rest
  unfold quoteChar
  split_ifs with hquotation hbackslash hnull htab hreturn hline hshown
  · rw [hquotation]
    exact Escapes.read_letter rfl (by decide)
  · rw [hbackslash]
    exact Escapes.read_letter rfl (by decide)
  · rw [hnull]
    exact Escapes.read_letter rfl (by decide)
  · rw [htab]
    exact Escapes.read_letter rfl (by decide)
  · rw [hreturn]
    exact Escapes.read_letter rfl (by decide)
  · rw [hline]
    exact Escapes.read_letter rfl (by decide)
  · rw [String.toList_singleton]
    exact Escapes.read_plain hquotation hbackslash (toNat_of_isShown hshown)
  · exact Escapes.read_code rfl (readDigits?_hex _) r rest

/-- **The texts of snapshot lines** are read back. -/
theorem writes_escapeChar : Escapes.quoted.Writes escapeChar := by
  intro c r rest
  unfold escapeChar
  split_ifs with hbackslash hquotation hline hreturn htab hcontrol
  · rw [hbackslash]
    exact Escapes.read_letter rfl (by decide)
  · rw [hquotation]
    exact Escapes.read_letter rfl (by decide)
  · rw [hline]
    exact Escapes.read_letter rfl (by decide)
  · rw [hreturn]
    exact Escapes.read_letter rfl (by decide)
  · rw [htab]
    exact Escapes.read_letter rfl (by decide)
  · exact Escapes.read_code rfl (by rw [readDigits?_padLeft, readDigits?_hexUpper]) r rest
  · simp only [Bool.or_eq_true, decide_eq_true_eq, not_or] at hcontrol
    rw [String.toList_singleton]
    exact Escapes.read_plain hquotation hbackslash (Nat.le_of_not_lt hcontrol.1)

/-- The number of a control has at most two digits. -/
theorem length_padLeft_hex {n : Nat} (h : n < 0x20) :
    (padLeft 4 '0' (hex n)).toList.length = 4 := by
  have hdigits : (Nat.toDigits 16 n).length ≤ 2 :=
    (Nat.length_toDigits_le_iff (by omega) (by omega)).mpr (by omega)
  rw [padLeft, String.toList_append, String.toList_ofList, List.length_append,
    List.length_replicate, hex, String.toList_ofList, String.length_ofList]
  omega

/-- **JSON strings** are read back. -/
theorem writes_jsonChar : Escapes.json.Writes jsonChar := by
  intro c r rest
  unfold jsonChar
  split_ifs with hquotation hbackslash hbackspace hform hline hreturn htab hcontrol
  · rw [hquotation]
    exact Escapes.read_letter rfl (by decide)
  · rw [hbackslash]
    exact Escapes.read_letter rfl (by decide)
  · rw [hbackspace]
    exact Escapes.read_letter rfl (by decide)
  · rw [hform]
    exact Escapes.read_letter rfl (by decide)
  · rw [hline]
    exact Escapes.read_letter rfl (by decide)
  · rw [hreturn]
    exact Escapes.read_letter rfl (by decide)
  · rw [htab]
    exact Escapes.read_letter rfl (by decide)
  · exact Escapes.read_fourDigits rfl (by rw [readDigits?_padLeft, readDigits?_hex])
      (length_padLeft_hex hcontrol) r rest
  · rw [String.toList_singleton]
    exact Escapes.read_plain hquotation hbackslash (Nat.le_of_not_lt hcontrol)

/-! ## (4) Written texts determine what they say -/

/-- **A written text determines the text**, whatever stands behind it. -/
theorem Escapes.Writes.enclose_append_inj {e : Escapes} {write : Char → String} (h : e.Writes write)
    {s s' : String} {rest rest' : List Char}
    (heq : (enclose (writeAll write s)).toList ++ rest
      = (enclose (writeAll write s')).toList ++ rest') : s = s' ∧ rest = rest' := by
  simp only [toList_enclose, List.cons_append, List.append_assoc, List.nil_append,
    List.cons.injEq, true_and] at heq
  have hread := h.read_writeAll s rest
  rw [heq, h.read_writeAll s' rest', Option.some.injEq, Prod.mk.injEq] at hread
  exact ⟨hread.1.symm, hread.2.symm⟩

theorem quote_append_inj {s s' : String} {rest rest' : List Char}
    (h : (quote s).toList ++ rest = (quote s').toList ++ rest') : s = s' ∧ rest = rest' :=
  writes_quoteChar.enclose_append_inj h

theorem quote_inj {s s' : String} (h : (quote s).toList = (quote s').toList) : s = s' :=
  (quote_append_inj (congrArg (· ++ []) h)).1

theorem snapshotQuote_append_inj {s s' : String} {rest rest' : List Char}
    (h : (snapshotQuote s).toList ++ rest = (snapshotQuote s').toList ++ rest') :
    s = s' ∧ rest = rest' :=
  writes_escapeChar.enclose_append_inj h

theorem snapshotQuote_inj {s s' : String} (h : (snapshotQuote s).toList = (snapshotQuote s').toList) :
    s = s' :=
  (snapshotQuote_append_inj (congrArg (· ++ []) h)).1

/-- **No two texts are escaped alike.** -/
theorem escape_inj {s s' : String} (h : escape s = escape s') : s = s' :=
  snapshotQuote_inj (by rw [snapshotQuote, snapshotQuote, h])

/-! ## (5) No newlines -/

theorem newline_notMem_append {s t : String} (hs : '\n' ∉ s.toList) (ht : '\n' ∉ t.toList) :
    '\n' ∉ (s ++ t).toList := by
  rw [String.toList_append, List.mem_append, not_or]
  exact ⟨hs, ht⟩

/-- Texts without newlines have none with something between them that has none. -/
theorem newline_notMem_intercalate {separator : String} (hseparator : '\n' ∉ separator.toList)
    {parts : List String} (h : ∀ s ∈ parts, '\n' ∉ s.toList) :
    '\n' ∉ (separator.intercalate parts).toList := by
  induction parts with
  | nil => simp
  | cons s parts ih =>
    rw [List.forall_mem_cons] at h
    cases parts with
    | nil => simpa using h.1
    | cons t parts =>
      rw [String.intercalate_cons_cons]
      exact newline_notMem_append (newline_notMem_append h.1 hseparator) (ih h.2)

/-- Nowhere in a text is there a place for a newline. -/
theorem Escapes.step_newline {e : Escapes} (he : e.letter '\n' = none) (s : Scan) :
    e.step s '\n' = none := by
  cases s with
  | escaped r => simp [step, he]
  | _ => rfl

/-- So reading a text leaves all newlines behind it. -/
theorem Escapes.count_newline_of_read {e : Escapes} (he : e.letter '\n' = none) {s : Scan}
    {cs rest : List Char} {text : String} (h : e.read s cs = some (text, rest)) :
    cs.count '\n' = rest.count '\n' := by
  induction cs generalizing s with
  | nil =>
    cases s <;> cases h
    rfl
  | cons c cs ih =>
    by_cases hclosed : ∃ r, s = .closed r
    · obtain ⟨r, rfl⟩ := hclosed
      cases h
      rfl
    · rw [read_cons fun r hs => hclosed ⟨r, hs⟩, Option.bind_eq_some_iff] at h
      obtain ⟨next, hnext, hread⟩ := h
      have hc : c ≠ '\n' := by
        rintro rfl
        rw [step_newline he] at hnext
        cases hnext
      rw [List.count_cons_of_ne hc, ih hread]

/-- **A text that can be read back has no newline** in its written form. -/
theorem Escapes.Writes.newline_notMem {e : Escapes} {write : Char → String} (h : e.Writes write)
    (he : e.letter '\n' = none) (s : String) : '\n' ∉ (enclose (writeAll write s)).toList := by
  have hcount := Escapes.count_newline_of_read he (h.read_writeAll s [])
  rw [List.count_nil, List.count_eq_zero] at hcount
  rw [toList_enclose, List.mem_cons, not_or]
  exact ⟨by decide, hcount⟩

theorem newline_notMem_quote (s : String) : '\n' ∉ (quote s).toList :=
  writes_quoteChar.newline_notMem rfl s

theorem newline_notMem_jsonQuote (s : String) : '\n' ∉ (jsonQuote s).toList :=
  writes_jsonChar.newline_notMem rfl s

theorem newline_notMem_snapshotQuote (s : String) : '\n' ∉ (snapshotQuote s).toList :=
  writes_escapeChar.newline_notMem rfl s

end HtmlStream.Text

import HtmlStream.Proofs.UnknownNames
import Mathlib.Data.List.Lex

/-! # The table of named references

What the table looks like, as far as searching it depends on it: names are short words of letters and
digits, most of them with a semicolon behind, they are filed under their first letters, and no two
are alike. So the longest name at the beginning of a text is found among the few names of one letter
and in the few characters that a name may be made of.

* **`Page c older others`**: words as they are filed under a letter, and **`exists_page`**, which reads
  the whole table once.
* **`isWord_of_mem`**, **`eq_of_name_eq`**: the names, and that they are all different.
* **`IsLongestName s e`**: of the names `s` begins with, that of `e` is the longest.
* **`longestMatch_eq_some_iff`**: the search finds it.
* **`collected s`**: the characters that may be a name at the beginning of `s`;
  **`isLongestName_collected`**: the rest of `s` has no part in the search. -/

namespace HtmlStream.Reference

/-! ## (1) Words as numbers -/

/-- The bytes of a text. -/
def codes (s : String) : List Nat := s.toByteArray.data.toList.map UInt8.toNat

/-- A character of one byte is its byte; every other one begins with a byte that is none of these. -/
theorem encodeChar_of_ascii {c : Char} (h : ∀ b ∈ String.utf8EncodeChar c, b.toNat < 128) :
    (String.utf8EncodeChar c).map UInt8.toNat = [c.toNat] := by
  change _ = [c.val.toNat]
  unfold String.utf8EncodeChar at h ⊢
  generalize c.val.toNat = n at h ⊢
  simp only at h ⊢
  split_ifs at h ⊢ with hone htwo hthree
  · rw [List.map_singleton, Utf8.toNat_ofNat_of_lt (by omega)]
  all_goals
    have hlead := h _ List.mem_cons_self
    rw [Utf8.toNat_ofNat_of_lt (by omega)] at hlead
    omega

/-- **An ASCII text is its bytes.** -/
theorem codes_of_ascii {s : String} (h : ∀ n ∈ codes s, n < 128) :
    codes s = s.toList.map Char.toNat := by
  have hbytes : codes s = s.toList.flatMap fun c => (String.utf8EncodeChar c).map UInt8.toNat := by
    rw [codes, ← String.utf8Encode_toList, List.utf8Encode, List.data_toByteArray, List.map_flatMap]
  rw [hbytes] at h ⊢
  generalize s.toList = cs at h ⊢
  induction cs with
  | nil => rfl
  | cons c cs ih =>
    rw [List.flatMap_cons, List.forall_mem_append] at h
    rw [List.flatMap_cons, List.map_cons, ih h.2,
      encodeChar_of_ascii fun b hb => h.1 _ (List.mem_map_of_mem hb)]
    rfl

/-! ## (2) Pages -/

/-- Codes of letters and digits. -/
def isWordCode (n : Nat) : Bool := 48 ≤ n && n ≤ 57 || 65 ≤ n && n ≤ 90 || 97 ≤ n && n ≤ 122

/-- **Words filed under a letter**, as their codes: those known without a semicolon too, and the
others. -/
structure Page (c : Char) (older others : List (List Nat)) : Prop where
  /-- Every word begins with the letter. -/
  initial : ∀ word ∈ older ++ others, word.head? = some c.toNat
  /-- Words are letters and digits. -/
  isWordCode : ∀ word ∈ older ++ others, word.all isWordCode = true
  /-- There is room for a word and a semicolon. -/
  room : ∀ word ∈ older ++ others, word.length < nameLimit
  /-- The older words are in alphabetical order, a semicolon (code 59) behind each. -/
  older_ascending : (older.map (· ++ [59])).IsChain (· < ·)
  /-- The others are. -/
  others_ascending : (others.map (· ++ [59])).IsChain (· < ·)
  /-- No word is among both. -/
  disjoint : ∀ word ∈ older, ∀ other ∈ others, word ≠ other

instance (c : Char) (older others : List (List Nat)) : Decidable (Page c older others) :=
  decidable_of_iff
    ((∀ word ∈ older ++ others, word.head? = some c.toNat) ∧
      (∀ word ∈ older ++ others, word.all isWordCode = true) ∧
      (∀ word ∈ older ++ others, word.length < nameLimit) ∧
      (older.map (· ++ [59])).IsChain (· < ·) ∧ (others.map (· ++ [59])).IsChain (· < ·) ∧
      ∀ word ∈ older, ∀ other ∈ others, word ≠ other)
    ⟨fun ⟨h₁, h₂, h₃, h₄, h₅, h₆⟩ => ⟨h₁, h₂, h₃, h₄, h₅, h₆⟩,
      fun ⟨h₁, h₂, h₃, h₄, h₅, h₆⟩ => ⟨h₁, h₂, h₃, h₄, h₅, h₆⟩⟩

theorem page_nil (c : Char) : Page c [] [] := by
  constructor <;> simp

/-- **The table is made of pages.** -/
theorem exists_page (c : Char) : ∃ older others,
    startingWith c = withOrWithoutSemicolon older ++ withSemicolon others ∧
      Page c (older.map (codes ·.1)) (others.map (codes ·.1)) := by
  unfold startingWith
  split
  -- a letter with both parts, one without older words, and what is no letter
  all_goals first
    | exact ⟨_, _, rfl, by decide +kernel⟩
    | exact ⟨[], _, (List.nil_append (withSemicolon _)).symm, by decide +kernel⟩
    | exact ⟨[], [], rfl, page_nil c⟩

theorem nodup_of_ascending {words : List (List Nat)}
    (h : (words.map (· ++ [59])).IsChain (· < ·)) : words.Nodup :=
  List.Nodup.of_map _ ((List.isChain_iff_pairwise.mp h).imp ne_of_lt)

/-- **No two words of a page are alike.** -/
theorem Page.nodup {c : Char} {older others : List (List Nat)} (h : Page c older others) :
    (older ++ others).Nodup :=
  List.nodup_append.mpr ⟨nodup_of_ascending h.older_ascending,
    nodup_of_ascending h.others_ascending, h.disjoint⟩

/-! ## (3) Names -/

/-- A word filed under the letter `c`. -/
structure IsWord (c : Char) (word : List Char) : Prop where
  /-- It begins with the letter. -/
  initial : word.head? = some c
  /-- It is letters and digits. -/
  isAlphanum : ∀ d ∈ word, d.isAlphanum = true
  /-- There is room for it and a semicolon. -/
  room : word.length < nameLimit

theorem isAlphanum_of_isWordCode {d : Char} (h : isWordCode d.toNat = true) :
    d.isAlphanum = true := by
  simp only [isWordCode, Bool.or_eq_true, Bool.and_eq_true, decide_eq_true_eq] at h
  simp only [Char.isAlphanum, Char.isAlpha, Char.isUpper, Char.isLower, Char.isDigit,
    Bool.or_eq_true, Bool.and_eq_true, decide_eq_true_eq, UInt32.le_iff_toNat_le]
  change (48 ≤ d.toNat ∧ d.toNat ≤ 57 ∨ 65 ≤ d.toNat ∧ d.toNat ≤ 90) ∨
    97 ≤ d.toNat ∧ d.toNat ≤ 122 at h
  change ((65 ≤ d.toNat ∧ d.toNat ≤ 90) ∨ 97 ≤ d.toNat ∧ d.toNat ≤ 122) ∨
    48 ≤ d.toNat ∧ d.toNat ≤ 57
  omega

/-- A pair of a page is known by its word, and its word is one that is filed there. -/
theorem Page.isWord {c : Char} {older others : List (String × String)}
    (h : Page c (older.map (codes ·.1)) (others.map (codes ·.1))) {pair : String × String}
    (hpair : pair ∈ older ++ others) : IsWord c pair.1.toList := by
  have hmem : codes pair.1 ∈ older.map (codes ·.1) ++ others.map (codes ·.1) := by
    rw [← List.map_append]
    exact List.mem_map_of_mem hpair
  have hcodes := List.all_eq_true.mp (h.isWordCode _ hmem)
  have hascii : codes pair.1 = pair.1.toList.map Char.toNat := by
    refine codes_of_ascii fun n hn => ?_
    have hcode := hcodes n hn
    simp only [Reference.isWordCode, Bool.or_eq_true, Bool.and_eq_true, decide_eq_true_eq] at hcode
    omega
  have hinitial := h.initial _ hmem
  have hroom := h.room _ hmem
  rw [hascii] at hcodes hinitial hroom
  refine ⟨?_, fun d hd => isAlphanum_of_isWordCode (hcodes _ (List.mem_map_of_mem hd)),
    by rwa [List.length_map] at hroom⟩
  rw [List.head?_map, Option.map_eq_some_iff] at hinitial
  obtain ⟨d, hd, hcode⟩ := hinitial
  rw [hd, Char.ext (UInt32.toNat_inj.mp hcode)]

/-- The entries of a page are those of its pairs. -/
theorem exists_pair {older others : List (String × String)} {e : Entry}
    (h : e ∈ withOrWithoutSemicolon older ++ withSemicolon others) :
    ∃ pair ∈ older ++ others, e.expansion = pair.2 ∧
      (e.name = pair.1.toList ∨ e.name = pair.1.toList ++ [';']) := by
  rcases List.mem_append.mp h with h | h
  · obtain ⟨pair, hpair, he⟩ := List.mem_flatMap.mp h
    refine ⟨pair, List.mem_append_left _ hpair, ?_⟩
    rcases List.mem_pair.mp he with rfl | rfl
    · exact ⟨rfl, .inl rfl⟩
    · exact ⟨rfl, .inr rfl⟩
  · obtain ⟨pair, hpair, rfl⟩ := List.mem_map.mp h
    exact ⟨pair, List.mem_append_right _ hpair, rfl, .inr rfl⟩

/-- **A name** is a word, with its semicolon or without. -/
theorem exists_word {c : Char} {e : Entry} (h : e ∈ startingWith c) :
    ∃ word, IsWord c word ∧ (e.name = word ∨ e.name = word ++ [';']) := by
  obtain ⟨older, others, hpage, hwords⟩ := exists_page c
  obtain ⟨pair, hpair, -, hname⟩ := exists_pair (hpage ▸ h)
  exact ⟨_, hwords.isWord hpair, hname⟩

/-- Entries are filed under the first letter of their names. -/
theorem mem_startingWith {e : Entry} (h : e ∈ entries) {c : Char} (hc : e.name.head? = some c) :
    e ∈ startingWith c := by
  obtain ⟨d, -, he⟩ := List.mem_flatMap.mp h
  obtain ⟨word, hword, hname⟩ := exists_word he
  have hhead : e.name.head? = some d := by
    rcases hname with hname | hname <;> simp [hname, hword.initial]
  rw [hhead, Option.some.injEq] at hc
  exact hc ▸ he

/-- **No two entries have one name.** -/
theorem eq_of_name_eq {e e' : Entry} (he : e ∈ entries) (he' : e' ∈ entries)
    (h : e.name = e'.name) : e = e' := by
  obtain ⟨c, -, hc⟩ := List.mem_flatMap.mp he
  have hc' : e' ∈ startingWith c := by
    obtain ⟨word, hword, hname⟩ := exists_word hc
    refine mem_startingWith he' ?_
    rw [← h]
    rcases hname with hname | hname <;> simp [hname, hword.initial]
  obtain ⟨older, others, hpage, hwords⟩ := exists_page c
  obtain ⟨pair, hpair, hexpansion, hname⟩ := exists_pair (hpage ▸ hc)
  obtain ⟨pair', hpair', hexpansion', hname'⟩ := exists_pair (hpage ▸ hc')
  have hnone {p : String × String} (hp : p ∈ older ++ others) : ';' ∉ p.1.toList := fun hmem =>
    absurd ((hwords.isWord hp).isAlphanum ';' hmem) (by decide)
  -- both have a semicolon or none has, since no word has one in it
  have hword : pair.1 = pair'.1 := by
    refine String.toList_inj.mp ?_
    rcases hname with hname | hname <;> rcases hname' with hname' | hname' <;>
      rw [hname, hname'] at h
    · exact h
    · exact absurd (h ▸ List.mem_append_right _ List.mem_cons_self) (hnone hpair)
    · exact absurd (h ▸ List.mem_append_right _ List.mem_cons_self) (hnone hpair')
    · exact List.append_cancel_right h
  have hnodup : ((older ++ others).map (codes ·.1)).Nodup := by
    rw [List.map_append]
    exact hwords.nodup
  have hpairs : pair = pair' :=
    List.inj_on_of_nodup_map hnodup hpair hpair' (congrArg codes hword)
  cases e
  cases e'
  simp only [Entry.mk.injEq]
  exact ⟨h, hexpansion.trans (hpairs ▸ hexpansion'.symm)⟩

/-- The number of names. -/
example : entries.length = 2231 := by decide +kernel

/-! ## (4) The longest name -/

/-- **The longest name** of the table that `s` begins with. -/
structure IsLongestName (s : List Char) (e : Entry) : Prop where
  /-- It is a name of the table. -/
  mem : e ∈ entries
  /-- The text begins with it. -/
  isPrefix : e.name <+: s
  /-- No other name the text begins with is longer. -/
  longest : ∀ e' ∈ entries, e'.name <+: s → e'.name.length ≤ e.name.length

variable {s : List Char} {e e' : Entry}

/-- There is at most one. -/
theorem IsLongestName.unique (h : IsLongestName s e) (h' : IsLongestName s e') : e = e' := by
  refine eq_of_name_eq h.mem h'.mem ?_
  have hlength := Nat.le_antisymm (h'.longest e h.mem h.isPrefix) (h.longest e' h'.mem h'.isPrefix)
  exact (List.prefix_of_prefix_length_le h.isPrefix h'.isPrefix hlength.le).eq_of_length hlength

/-- The longer one is at least as long as both. -/
theorem Entry.exists_longer (best : Option Entry) (e : Entry) :
    ∃ e', Entry.longer best e = some e' ∧ e.name.length ≤ e'.name.length ∧
      ∀ b ∈ best, b.name.length ≤ e'.name.length := by
  cases best with
  | none => exact ⟨e, rfl, le_rfl, by simp⟩
  | some b =>
    by_cases hlt : b.name.length < e.name.length
    · exact ⟨e, if_pos hlt, le_rfl, by rintro _ ⟨⟩; exact hlt.le⟩
    · exact ⟨b, if_neg hlt, Nat.le_of_not_lt hlt, by rintro _ ⟨⟩; exact le_rfl⟩

/-- **The longest of several**, of which there is one. -/
theorem exists_foldl_longer (es : List Entry) (best : Option Entry) (h : es = [] → best ≠ none) :
    ∃ e, es.foldl Entry.longer best = some e ∧ (∀ e' ∈ es, e'.name.length ≤ e.name.length) ∧
      ∀ b ∈ best, b.name.length ≤ e.name.length := by
  induction es generalizing best with
  | nil =>
    obtain ⟨b, rfl⟩ := Option.ne_none_iff_exists'.mp (h rfl)
    exact ⟨b, rfl, by simp, by rintro _ ⟨⟩; exact le_rfl⟩
  | cons first rest ih =>
    obtain ⟨x, hx, hfirst, hbest⟩ := Entry.exists_longer best first
    obtain ⟨e, he, hrest, hlonger⟩ := ih (Entry.longer best first) (fun _ => by simp [hx])
    have hxe : x.name.length ≤ e.name.length := hlonger x hx
    exact ⟨e, he, List.forall_mem_cons.mpr ⟨hfirst.trans hxe, hrest⟩,
      fun b hb => (hbest b hb).trans hxe⟩

theorem name_ne_nil (h : e ∈ entries) : e.name ≠ [] := by
  obtain ⟨c, -, he⟩ := List.mem_flatMap.mp h
  obtain ⟨word, hword, hname⟩ := exists_word he
  rintro hnil
  have hinitial := hword.initial
  rcases hname with hname | hname <;> simp_all

/-- The names that a text begins with are filed under its first letter. -/
theorem mem_startingWith_of_begins {c : Char} (h : e ∈ entries) (hfront : e.name <+: c :: s) :
    e ∈ startingWith c := by
  obtain ⟨first, rest, hname⟩ := List.exists_cons_of_ne_nil (name_ne_nil h)
  refine mem_startingWith h ?_
  rw [hname, List.cons_prefix_cons] at hfront
  rw [hname, List.head?_cons, hfront.1]

/-- Something is found that is at least as long as any name the text begins with. -/
theorem exists_longestMatch (h : e ∈ entries) (hfront : e.name <+: s) :
    ∃ x, longestMatch s = some x ∧ e.name.length ≤ x.name.length := by
  cases s with
  | nil => exact absurd (List.prefix_nil.mp hfront) (name_ne_nil h)
  | cons c s =>
    have hfound : e ∈ (startingWith c).filter (·.name.isPrefixOf (c :: s)) :=
      List.mem_filter.mpr ⟨mem_startingWith_of_begins h hfront,
        List.isPrefixOf_iff_prefix.mpr hfront⟩
    obtain ⟨x, hx, hlongest, -⟩ := exists_foldl_longer
      ((startingWith c).filter (·.name.isPrefixOf (c :: s))) none
      (fun hnil => absurd (hnil ▸ hfound) List.not_mem_nil)
    exact ⟨x, hx, hlongest e hfound⟩

theorem isLongestName_of_longestMatch (h : longestMatch s = some e) : IsLongestName s e := by
  cases s with
  | nil => cases h
  | cons c s =>
    obtain ⟨hmem, hfront⟩ := mem_of_longestMatch h
    refine ⟨mem_entries hmem, List.isPrefixOf_iff_prefix.mp hfront, fun e' he' hfront' => ?_⟩
    obtain ⟨x, hx, hle⟩ := exists_longestMatch he' hfront'
    rw [h, Option.some.injEq] at hx
    exact hx ▸ hle

/-- **The search finds the longest name.** -/
theorem longestMatch_eq_some_iff : longestMatch s = some e ↔ IsLongestName s e := by
  refine ⟨isLongestName_of_longestMatch, fun h => ?_⟩
  obtain ⟨x, hx, -⟩ := exists_longestMatch h.mem h.isPrefix
  rw [hx, h.unique (isLongestName_of_longestMatch hx)]

/-- **The search finds nothing** if there is nothing. -/
theorem longestMatch_eq_none_iff : longestMatch s = none ↔ ¬∃ e, IsLongestName s e := by
  rw [Option.eq_none_iff_forall_ne_some, not_exists]
  exact forall_congr' fun e => not_congr longestMatch_eq_some_iff

/-! ## (5) How far the search reads -/

/-- The letters at the beginning of a text, and the semicolon behind them if there is one. -/
def nameRun (s : List Char) : List Char :=
  s.takeWhile Char.isAlphanum ++ if (s.dropWhile Char.isAlphanum).head? = some ';' then [';'] else []

/-- As much of them as a name may be. -/
def collected (s : List Char) : List Char := (nameRun s).take nameLimit

theorem nameRun_begins (s : List Char) : nameRun s <+: s := by
  unfold nameRun
  split
  · rename_i h
    obtain ⟨rest, hrest⟩ := List.head?_eq_some_iff.mp h
    refine ⟨rest, ?_⟩
    conv_rhs => rw [← List.takeWhile_append_dropWhile (p := Char.isAlphanum) (l := s), hrest]
    simp
  · rw [List.append_nil]
    exact List.takeWhile_prefix _

theorem collected_begins (s : List Char) : collected s <+: s :=
  (List.take_prefix _ _).trans (nameRun_begins s)

section

variable {letters tail : List Char} (hletters : ∀ c ∈ letters, c.isAlphanum = true)

include hletters

theorem takeWhile_letters (tail : List Char) : (letters ++ tail).takeWhile Char.isAlphanum
    = letters ++ tail.takeWhile Char.isAlphanum :=
  List.takeWhile_append_of_pos hletters

theorem dropWhile_letters (tail : List Char) : (letters ++ tail).dropWhile Char.isAlphanum
    = tail.dropWhile Char.isAlphanum :=
  List.dropWhile_append_of_pos hletters

/-- Letters and a semicolon, whatever follows it. -/
theorem nameRun_closed (cs : List Char) : nameRun (letters ++ ';' :: cs) = letters ++ [';'] := by
  have hsemicolon : (';' : Char).isAlphanum = false := by decide
  rw [nameRun, takeWhile_letters hletters, dropWhile_letters hletters,
    List.takeWhile_cons_of_neg (by simp [hsemicolon]),
    List.dropWhile_cons_of_neg (by simp [hsemicolon]), List.append_nil]
  rfl

/-- Letters and something else. -/
theorem nameRun_open (htail : ∀ c ∈ tail.head?, Machine.isPlain c = false) :
    nameRun (letters ++ tail) = letters := by
  cases tail with
  | nil => rw [nameRun, takeWhile_letters hletters, dropWhile_letters hletters]; simp
  | cons c tail =>
    have hc := htail c rfl
    simp only [Machine.isPlain, Bool.or_eq_false_iff, decide_eq_false_iff_not] at hc
    rw [nameRun, takeWhile_letters hletters, dropWhile_letters hletters]
    simp [hc.1, hc.2]

end

/-- **A name at the beginning of a text is made of the characters that may be a name.** -/
theorem prefix_collected_iff (h : e ∈ entries) : e.name <+: collected s ↔ e.name <+: s := by
  refine ⟨fun hfront => hfront.trans (collected_begins s), fun hfront => ?_⟩
  obtain ⟨c, -, he⟩ := List.mem_flatMap.mp h
  obtain ⟨word, hword, hname⟩ := exists_word he
  obtain ⟨rest, rfl⟩ := hfront
  refine List.prefix_take_iff.mpr ?_
  have hroom := hword.room
  rcases hname with hname | hname
  · rw [hname, nameRun, takeWhile_letters hword.isAlphanum, List.append_assoc]
    exact ⟨List.prefix_append _ _, hroom.le⟩
  · rw [hname, List.append_assoc, List.singleton_append, nameRun_closed hword.isAlphanum]
    exact ⟨List.prefix_rfl, by rw [List.length_append]; exact hroom⟩

/-- **The rest of the text has no part in the search.** -/
theorem isLongestName_collected : IsLongestName (collected s) e ↔ IsLongestName s e := by
  constructor
  · rintro ⟨hmem, hfront, hlongest⟩
    exact ⟨hmem, (prefix_collected_iff hmem).mp hfront,
      fun e' he' h => hlongest e' he' ((prefix_collected_iff he').mpr h)⟩
  · rintro ⟨hmem, hfront, hlongest⟩
    exact ⟨hmem, (prefix_collected_iff hmem).mpr hfront,
      fun e' he' h => hlongest e' he' ((prefix_collected_iff he').mp h)⟩

end HtmlStream.Reference

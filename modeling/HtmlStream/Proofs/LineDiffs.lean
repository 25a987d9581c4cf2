import HtmlStream.LineDiff
import HtmlStream.Proofs.Lines.Words

/-! # What a report on differences tells

A report names the line behind those that both lists begin with, and shows the lines around it. A line that
a list does not have is read as a certain text: where the other list has just that text there, the report
goes on to a later line, or finds no difference at all.

* **`common`**: the longest list that both begin with. **`hidden`**: the lines that read like missing ones.
* **`differsAt_common`**: behind both of them the lists first read differently.
* **`Names`**: a report that names a line. **`Shows`**: one that shows the lines around it.
* **`names_report_iff`**: the line that is named.
* **`Tells`**: a report that shows the first difference. **`report_tells`**: this it does if no lines are
  hidden. **`not_tells_missing`**: a hidden line, and no line is named. -/

namespace HtmlStream.LineDiff

/-! ## (1) The lines in front of a difference -/

/-- **The longest list that both begin with.** -/
def common : List String → List String → List String
  | x :: xs, y :: ys => if x = y then x :: common xs ys else []
  | _, _ => []

theorem common_nil_left (ys : List String) : common [] ys = [] := by
  cases ys with
  | nil => rfl
  | cons y ys => rfl

theorem common_nil_right (xs : List String) : common xs [] = [] := by
  cases xs with
  | nil => rfl
  | cons x xs => rfl

/-- Both begin with it. -/
theorem common_isPrefix (xs ys : List String) : common xs ys <+: xs ∧ common xs ys <+: ys := by
  induction xs generalizing ys with
  | nil => exact ⟨List.nil_prefix, List.nil_prefix⟩
  | cons x xs ih =>
    cases ys with
    | nil => exact ⟨List.nil_prefix, List.nil_prefix⟩
    | cons y ys =>
      rw [common]
      split_ifs with hxy
      · subst hxy
        exact ⟨(List.prefix_cons_inj x).mpr (ih ys).1, (List.prefix_cons_inj x).mpr (ih ys).2⟩
      · exact ⟨List.nil_prefix, List.nil_prefix⟩

/-- No longer list is one that both begin with. -/
theorem isPrefix_common {front xs ys : List String} (hxs : front <+: xs) (hys : front <+: ys) :
    front <+: common xs ys := by
  induction front generalizing xs ys with
  | nil => exact List.nil_prefix
  | cons line front ih =>
    obtain ⟨xs, rfl, hxs'⟩ := List.cons_prefix_iff.mp hxs
    obtain ⟨ys, rfl, hys'⟩ := List.cons_prefix_iff.mp hys
    rw [common, if_pos rfl]
    exact (List.prefix_cons_inj line).mpr (ih hxs' hys')

/-- **The lines that read like missing ones**: those in front of what the longer list has behind the
shorter one, if it begins with that. -/
def hidden (xs ys : List String) : List String :=
  if xs <+: ys then (ys.drop xs.length).takeWhile (· = missing)
  else if ys <+: xs then (xs.drop ys.length).takeWhile (· = missing)
  else []

theorem hidden_nil_left (ys : List String) : hidden [] ys = ys.takeWhile (· = missing) :=
  if_pos List.nil_prefix

theorem hidden_nil_right (xs : List String) : hidden xs [] = xs.takeWhile (· = missing) := by
  cases xs with
  | nil => rfl
  | cons x xs =>
    rw [hidden, if_neg (by simp), if_pos List.nil_prefix]
    rfl

theorem hidden_cons (x y : String) (xs ys : List String) :
    hidden (x :: xs) (y :: ys) = if x = y then hidden xs ys else [] := by
  by_cases hxy : x = y
  · subst hxy
    simp only [hidden, List.prefix_cons_inj, List.length_cons, List.drop_succ_cons, if_true]
  · have hleft : ¬x :: xs <+: y :: ys := fun h => hxy (List.cons_prefix_cons.mp h).1
    have hright : ¬y :: ys <+: x :: xs := fun h => hxy (List.cons_prefix_cons.mp h).1.symm
    rw [hidden, if_neg hleft, if_neg hright, if_neg hxy]

/-! ## (2) The first mismatch -/

/-- **Two lists first read differently** at a place, if they have it. -/
def DiffersAt (xs ys : List String) (n : Nat) : Prop :=
  (∀ i < n, xs.getD i missing = ys.getD i missing) ∧
    (n < max xs.length ys.length → xs.getD n missing ≠ ys.getD n missing)

theorem DiffersAt.symm {xs ys : List String} {n : Nat} (h : DiffersAt xs ys n) : DiffersAt ys xs n := by
  refine ⟨fun i hi => (h.1 i hi).symm, ?_⟩
  intro hn
  rw [max_comm] at hn
  exact (h.2 hn).symm

/-- A list with no lines reads like the missing lines that the other one begins with. -/
theorem differsAt_nil (ys : List String) :
    DiffersAt [] ys (ys.takeWhile (· = missing)).length := by
  induction ys with
  | nil => exact ⟨fun i hi => absurd hi (Nat.not_lt_zero i), fun hn => absurd hn (Nat.not_lt_zero 0)⟩
  | cons y ys ih =>
    by_cases hy : y = missing
    · have hkept : (y :: ys).takeWhile (· = missing) = y :: ys.takeWhile (· = missing) :=
        List.takeWhile_cons_of_pos (decide_eq_true hy)
      rw [hkept, List.length_cons]
      constructor
      · intro i hi
        cases i with
        | zero => exact hy.symm
        | succ i => exact ih.1 i (by omega)
      · intro hn
        refine ih.2 ?_
        simpa using hn
    · rw [List.takeWhile_cons_of_neg (by simpa using hy)]
      constructor
      · intro i hi
        cases hi
      · intro _
        exact Ne.symm hy

/-- **The lists read alike in the common lines and the hidden ones**, and not behind these. -/
theorem differsAt_common (xs ys : List String) :
    DiffersAt xs ys ((common xs ys).length + (hidden xs ys).length) := by
  -- both lists are read together until one of them ends or they have different lines
  induction xs generalizing ys with
  | nil =>
    rw [hidden_nil_left, common_nil_left, List.length_nil, Nat.zero_add]
    exact differsAt_nil ys
  | cons x xs ih =>
    cases ys with
    | nil =>
      rw [hidden_nil_right, common_nil_right, List.length_nil, Nat.zero_add]
      exact (differsAt_nil (x :: xs)).symm
    | cons y ys =>
      rw [hidden_cons, common]
      by_cases hxy : x = y
      · rw [if_pos hxy, if_pos hxy, List.length_cons, Nat.add_right_comm]
        constructor
        · intro i hi
          cases i with
          | zero => exact hxy
          | succ i => exact (ih ys).1 i (by omega)
        · intro hn
          refine (ih ys).2 ?_
          simp only [List.length_cons] at hn
          omega
      · rw [if_neg hxy, if_neg hxy]
        constructor
        · intro i hi
          cases hi
        · intro _
          exact hxy

theorem lineAt_eq (lines : Array String) (i : Nat) : lineAt lines i = lines.toList.getD i missing := by
  rw [lineAt, Array.getD_eq_getD_getElem?, List.getD_eq_getElem?_getD, Array.getElem?_toList]

/-- **The first mismatch** is behind the common lines and the hidden ones, unless the lists end there. -/
theorem firstMismatch?_eq (expected actual : Array String) {n : Nat}
    (h : DiffersAt expected.toList actual.toList n) :
    firstMismatch? expected actual
      = if n < max expected.size actual.size then some n else none := by
  split_ifs with hn
  · rw [firstMismatch?, List.find?_range_eq_some]
    refine ⟨?_, List.mem_range.mpr hn, ?_⟩
    · rw [lineAt_eq, lineAt_eq, bne_iff_ne]
      exact h.2 hn
    · intro i hi
      rw [lineAt_eq, lineAt_eq, h.1 i hi, bne_self_eq_false]
      rfl
  · rw [firstMismatch?, List.find?_eq_none]
    intro i hi
    rw [List.mem_range] at hi
    rw [lineAt_eq, lineAt_eq, h.1 i (by omega), bne_self_eq_false]
    exact Bool.false_ne_true

/-! ## (3) Reports -/

/-- **A report that names a line** as that of the first mismatch. -/
def Names (report : String) (line : Nat) : Prop :=
  ∃ rest, report = "first mismatch at line " ++ toString line ++ " (showing " ++ rest

/-- **The places around a line**: from two lines in front of it to two behind it, those that there are. -/
def around (line count : Nat) : List Nat :=
  (List.range count).filter fun i => line ≤ (i + 1) + 2 ∧ i + 1 ≤ line + 2

/-- **A report that shows the lines around one**: it says which those are, and has both lists' line at each
of these places, in order. -/
def Shows (expected actual : Array String) (line : Nat) (report : String) : Prop :=
  ∃ first last, (around line (max expected.size actual.size)).head? = some first ∧
    (around line (max expected.size actual.size)).getLast? = some last ∧
    report = String.join ((["first mismatch at line " ++ toString line ++ " (showing " ++
        toString (first + 1) ++ "..=" ++ toString (last + 1) ++ "):"] ++
      (around line (max expected.size actual.size)).flatMap
        (placeLines expected actual (line - 1)) ++
      ["expected " ++ toString expected.size ++ " lines, actual " ++ toString actual.size ++
        " lines"]).map (· ++ "\n"))

/-- The places around a line follow each other. -/
theorem around_eq (i count : Nat) :
    around (i + 1) count = List.range' (i - 2) (min (i + 3) count - (i - 2)) := by
  have hmem (j : Nat) : j ∈ around (i + 1) count ↔
      j ∈ List.range' (i - 2) (min (i + 3) count - (i - 2)) := by
    rw [around, List.mem_filter, List.mem_range, decide_eq_true_iff, List.mem_range'_1]
    omega
  have hleft : (around (i + 1) count).Pairwise (· < ·) := List.pairwise_lt_range.filter _
  have hright : (List.range' (i - 2) (min (i + 3) count - (i - 2))).Pairwise (· < ·) :=
    List.pairwise_lt_range'
  -- two lists in order with the same members are one list
  refine ((List.perm_ext_iff_of_nodup hleft.nodup hright.nodup).mpr hmem).eq_of_pairwise ?_ hleft
    hright
  intro j k _ _ hjk hkj
  omega

/-- A number in a report ends at the space behind it. -/
theorem Names.unique {report : String} {line line' : Nat} (h : Names report line)
    (h' : Names report line') : line = line' := by
  have hspace (n : Nat) : ' ' ∉ (toString n).toList := fun hmem =>
    Text.digitValue?_of_readDigits? (Text.readDigits?_toString n) hmem (by decide)
  have hmark : " (showing ".toList = ' ' :: "(showing ".toList := rfl
  obtain ⟨rest, rfl⟩ := h
  obtain ⟨rest', heq⟩ := h'
  have hlists := congrArg String.toList heq
  simp only [String.toList_append, List.append_assoc, hmark, List.cons_append] at hlists
  have hnumbers := append_cons_inj (hspace line) (hspace line') (List.append_cancel_left hlists)
  exact toString_nat_inj (String.toList_inj.mp hnumbers.1)

/-- A report that shows the lines around one names it. -/
theorem Shows.names {expected actual : Array String} {line : Nat} {report : String}
    (h : Shows expected actual line report) : Names report line := by
  obtain ⟨first, last, -, -, rfl⟩ := h
  rw [List.append_assoc, List.singleton_append, List.map_cons, String.join_cons]
  generalize String.join _ = later
  refine ⟨toString (first + 1) ++ "..=" ++ toString (last + 1) ++ "):" ++ "\n" ++ later, ?_⟩
  simp only [String.append_assoc]

/-- **The report of a mismatch** shows the lines around it. -/
theorem report_shows {expected actual : Array String} {i : Nat}
    (h : firstMismatch? expected actual = some i) (hi : i < max expected.size actual.size) :
    Shows expected actual (i + 1) (report expected actual) := by
  have hnonempty : min (i + 3) (max expected.size actual.size) - (i - 2) ≠ 0 := by omega
  refine ⟨i - 2, i - 2 + (min (i + 3) (max expected.size actual.size) - (i - 2)) - 1, ?_, ?_, ?_⟩
  · rw [around_eq, List.head?_range', if_neg hnonempty]
  · rw [around_eq, List.getLast?_range', if_neg hnonempty]
  · have hlast : i - 2 + (min (i + 3) (max expected.size actual.size) - (i - 2)) - 1 + 1
        = min (i + 3) (max expected.size actual.size) := by omega
    rw [report, h, around_eq, hlast]
    rfl

/-- **The report without a mismatch** names no line. -/
theorem not_names_of_none {expected actual : Array String}
    (h : firstMismatch? expected actual = none) (line : Nat) : ¬Names (report expected actual) line := by
  rintro ⟨rest, heq⟩
  have hlists := congrArg String.toList heq
  rw [report, h] at hlists
  simp only [List.nil_append, List.map_cons, List.map_nil, String.join_cons, String.append_assoc,
    String.toList_append] at hlists
  -- one begins with an e and the other one with an f
  have hchars := (List.cons.inj hlists).1
  revert hchars
  decide

/-! ## (4) What a report tells -/

/-- **The mismatch is named** on the line behind the common lines and the hidden ones, if there is one. -/
theorem names_report_iff (expected actual : Array String) (line : Nat) :
    Names (report expected actual) line ↔
      line = (common expected.toList actual.toList).length
          + (hidden expected.toList actual.toList).length + 1 ∧
        line ≤ max expected.size actual.size := by
  have hmismatch := firstMismatch?_eq expected actual (differsAt_common _ _)
  split_ifs at hmismatch with hn
  · have hnames := (report_shows hmismatch hn).names
    constructor
    · intro hline
      have hline := hline.unique hnames
      omega
    · rintro ⟨rfl, -⟩
      exact hnames
  · refine iff_of_false (not_names_of_none hmismatch line) ?_
    rintro ⟨rfl, hle⟩
    omega

/-- **A report that shows the first difference** of two lists: it names a line if they differ and not
otherwise, that line is the one behind those that both begin with, and the lines around it are shown. -/
structure Tells (expected actual : Array String) (report : String) : Prop where
  /-- It names a line if they differ. -/
  names_iff : (∃ line, Names report line) ↔ expected ≠ actual
  /-- The lines in front are those that both begin with. -/
  line_eq : ∀ line, Names report line →
    line = (common expected.toList actual.toList).length + 1
  /-- The lines around it are shown. -/
  shows : ∀ line, Names report line → Shows expected actual line report

/-- Lists that are all common are equal. -/
theorem eq_of_common {xs ys : List String} (h : max xs.length ys.length ≤ (common xs ys).length) :
    xs = ys := by
  obtain ⟨hxs, hys⟩ := common_isPrefix xs ys
  have hleft := hxs.eq_of_length_le (by omega)
  have hright := hys.eq_of_length_le (by omega)
  exact hleft.symm.trans hright

theorem length_common_self (xs : List String) : (common xs xs).length = xs.length := by
  have h := isPrefix_common (List.prefix_refl xs) (List.prefix_refl xs)
  exact (common_isPrefix xs xs).1.length_le.antisymm h.length_le

theorem hidden_self (xs : List String) : hidden xs xs = [] := by
  rw [hidden, if_pos (List.prefix_refl xs), List.drop_length]
  rfl

/-- **The lines around a named line** are shown. -/
theorem shows_of_names {expected actual : Array String} {line : Nat}
    (h : Names (report expected actual) line) : Shows expected actual line (report expected actual) := by
  have hmismatch := firstMismatch?_eq expected actual (differsAt_common _ _)
  split_ifs at hmismatch with hn
  · have hshows := report_shows hmismatch hn
    rwa [h.unique hshows.names]
  · exact absurd h (not_names_of_none hmismatch line)

/-- **A report shows the first difference** of any two lists, unless lines are hidden: then it does not.
With hidden lines it names the line behind these, if there is one, and shows the lines around that. -/
theorem report_tells (expected actual : Array String) :
    (Tells expected actual (report expected actual) ↔
      hidden expected.toList actual.toList = []) ∧
      ∀ line, Names (report expected actual) line ↔
        Shows expected actual line (report expected actual) ∧
          line ≤ max expected.size actual.size ∧
          line = (common expected.toList actual.toList).length
            + (hidden expected.toList actual.toList).length + 1 := by
  have hnames := names_report_iff expected actual
  constructor
  · constructor
    · intro htells
      -- the line that would be named is behind the hidden ones, and not behind the common ones
      by_contra hhidden
      have hne : expected ≠ actual := by
        rintro rfl
        exact hhidden (hidden_self _)
      obtain ⟨line, hline⟩ := htells.names_iff.mpr hne
      have hfirst := htells.line_eq line hline
      have hbehind := ((hnames line).mp hline).1
      exact hhidden (List.eq_nil_of_length_eq_zero (by omega))
    · intro hhidden
      rw [hhidden, List.length_nil] at hnames
      constructor
      · constructor
        · rintro ⟨line, hline⟩ rfl
          obtain ⟨hbehind, hle⟩ := (hnames line).mp hline
          rw [length_common_self, Array.length_toList] at hbehind
          omega
        · intro hne
          refine ⟨_, (hnames _).mpr ⟨rfl, ?_⟩⟩
          by_contra hall
          refine hne (Array.toList_inj.mp (eq_of_common ?_))
          rw [Array.length_toList, Array.length_toList]
          omega
      · intro line hline
        exact ((hnames line).mp hline).1
      · intro line hline
        exact shows_of_names hline
  · intro line
    constructor
    · intro hline
      have hbehind := (hnames line).mp hline
      exact ⟨shows_of_names hline, hbehind.2, hbehind.1⟩
    · rintro ⟨hshows, -, -⟩
      exact hshows.names

/-- **A difference that is not shown**: the second list has a line more, but no line is named. -/
theorem not_tells_missing : ¬Tells #["a"] #["a", "<missing>"] (report #["a"] #["a", "<missing>"]) := by
  intro htells
  obtain ⟨line, hline⟩ := htells.names_iff.mpr (by decide)
  obtain ⟨hbehind, hle⟩ := (names_report_iff _ _ line).mp hline
  have hcommon : (common ["a"] ["a", "<missing>"]).length = 1 := by decide
  have hhidden : (hidden ["a"] ["a", "<missing>"]).length = 1 := by decide
  rw [hcommon, hhidden] at hbehind
  have hmost : max (#["a"] : Array String).size (#["a", "<missing>"] : Array String).size = 2 := rfl
  omega

end HtmlStream.LineDiff

import HtmlStream.Proofs.Utf8.Shape

/-! # Whole-input decoding and the maximal subpart rule

`Utf8.lossy` walks over its input piece by piece. This file states the rule it follows without the
table of byte ranges, in terms of the encodings of characters alone, and proves that `lossy` is the one
function that obeys it; decoding one byte at a time with a carry then gives the same characters.

* **`Decodes bs cs`**: `cs` is `bs` with each encoding read as its character and each maximal malformed
  subpart as one U+FFFD. `decodes_iff`: this holds of `lossy bs` and of nothing else.
* **`decodeFrom carry bs`**: the characters that `decodeByte` settles, the end of the input included.
  `toList_lossy_append`: they are those of `lossy (carry ++ bs)`.
* **`lossy_encode`**: decoding undoes encoding. -/

namespace HtmlStream.Utf8

/-! ## (1) One piece after another -/

/-- What has been read is only ever appended to. -/
theorem toList_lossyFrom (acc : String) (skip : Nat) (bs : Bytes) :
    (lossyFrom acc skip bs).toList = acc.toList ++ (lossyFrom "" skip bs).toList := by
  induction bs generalizing acc skip with
  | nil => simp [lossyFrom]
  | cons b rest ih =>
    cases skip with
    | succ skip => rw [lossyFrom, lossyFrom, ih]
    | zero =>
      rw [lossyFrom, lossyFrom]
      rw [ih (acc.push _), ih ("".push _)]
      simp

/-- Bytes to skip are skipped. -/
theorem lossyFrom_eq_drop (acc : String) (skip : Nat) (bs : Bytes) :
    lossyFrom acc skip bs = lossyFrom acc 0 (bs.drop skip) := by
  induction bs generalizing skip with
  | nil => simp [lossyFrom]
  | cons b rest ih =>
    cases skip with
    | zero => rfl
    | succ skip => rw [lossyFrom, ih, List.drop_succ_cons]

/-- Every piece covers a byte at least. -/
theorem Piece.size_extend_pos (held rest : Bytes) (h : held ++ rest ≠ []) :
    0 < (Piece.extend held rest).size := by
  induction rest generalizing held with
  | nil =>
    rw [List.append_nil] at h
    simpa [Piece.extend, Piece.size, List.length_pos_iff] using h
  | cons b rest ih =>
    unfold Piece.extend
    cases shape (held ++ [b]) with
    | complete c => simp [Piece.size]
    | unfinished => exact ih (held ++ [b]) (by simp)
    | malformed =>
      show 0 < max held.length 1
      omega

/-- **Reading a non-empty input**: the front piece gives one character, the rest is read behind it. -/
theorem toList_lossy {bs : Bytes} (h : bs ≠ []) :
    (lossy bs).toList
      = (Piece.first bs).text :: (lossy (bs.drop (Piece.first bs).size)).toList := by
  obtain ⟨b, rest, rfl⟩ := List.exists_cons_of_ne_nil h
  have hpos := Piece.size_extend_pos [] (b :: rest) h
  rw [lossy, lossyFrom, toList_lossyFrom, lossyFrom_eq_drop, lossy]
  obtain ⟨n, hn⟩ : ∃ n, (Piece.first (b :: rest)).size = n + 1 :=
    ⟨_, (Nat.succ_pred_eq_of_pos hpos).symm⟩
  rw [hn, Nat.add_sub_cancel, List.drop_succ_cons]
  simp

@[simp] theorem lossy_nil : lossy [] = "" := rfl

/-! ## (2) The front piece behind held bytes -/

/-- The bytes that decoding may hold back: none, or an unfinished sequence. -/
def Held (bs : Bytes) : Prop := bs = [] ∨ shape bs = .unfinished

/-- What stands before the last byte of an unfinished sequence may be held. -/
theorem held_of_append {bs : Bytes} {b : UInt8} (h : shape (bs ++ [b]) ≠ .malformed) : Held bs := by
  by_cases hb : bs = []
  · exact Or.inl hb
  · exact Or.inr (shape_of_append h hb)

/-- Held bytes at the front are read before anything is decided. -/
theorem first_append {held : Bytes} (h : Held held) (rest : Bytes) :
    Piece.first (held ++ rest) = Piece.extend held rest := by
  -- `extend` takes the held bytes one by one, and each leaves an unfinished sequence behind
  induction held using List.reverseRecOn generalizing rest with
  | nil => rfl
  | append_singleton bs b ih =>
    have hs : shape (bs ++ [b]) = .unfinished := by
      rcases h with h | h
      · simp at h
      · exact h
    have hbs : Held bs := held_of_append (by rw [hs]; simp)
    rw [List.append_assoc, List.singleton_append, ih hbs, Piece.extend, hs]

/-- An encoding at the front is read as its character. -/
theorem first_encodeChar_append (c : Char) (rest : Bytes) :
    Piece.first (String.utf8EncodeChar c ++ rest)
      = .char c (String.utf8EncodeChar c).length := by
  -- all but the last byte of the encoding are held, and the last one completes it
  obtain ⟨bs, b, hbs⟩ :=
    (List.eq_nil_or_concat _).resolve_left (String.utf8EncodeChar_ne_nil (c := c))
  rw [List.concat_eq_append] at hbs
  have hs : shape (bs ++ [b]) = .complete c := by rw [← hbs, shape_encodeChar]
  have hheld : Held bs := held_of_append (by rw [hs]; simp)
  rw [hbs, List.append_assoc, List.singleton_append, first_append hheld, Piece.extend, hs]
  simp

/-- Reading an encoding and what follows it. -/
theorem toList_lossy_encodeChar_append (c : Char) (rest : Bytes) :
    (lossy (String.utf8EncodeChar c ++ rest)).toList = c :: (lossy rest).toList := by
  rw [toList_lossy (by simp [String.utf8EncodeChar_ne_nil]), first_encodeChar_append]
  simp [Piece.text, Piece.size]

/-- **Decoding undoes encoding.** -/
theorem lossy_encode (s : String) : lossy (encode s) = s := by
  rw [← String.toList_inj, encode]
  induction s.toList with
  | nil => rfl
  | cons c cs ih => rw [List.flatMap_cons, toList_lossy_encodeChar_append, ih]

/-! ## (3) The rule without the table -/

/-- Some encoding begins with `bs`. -/
def BeginsChar (bs : Bytes) : Prop := ∃ c, bs <+: String.utf8EncodeChar c

theorem beginsChar_iff {bs : Bytes} (h : bs ≠ []) : BeginsChar bs ↔ shape bs ≠ .malformed := by
  constructor
  · rintro ⟨c, hc⟩
    by_cases he : bs = String.utf8EncodeChar c
    · rw [he, shape_encodeChar]
      simp
    · rw [shape_eq_unfinished_iff.mpr ⟨h, c, hc, he⟩]
      simp
  · intro hs
    cases hshape : shape bs with
    | malformed => exact absurd hshape hs
    | complete c => exact ⟨c, shape_eq_complete_iff.mp hshape ▸ List.prefix_rfl⟩
    | unfinished =>
      obtain ⟨-, c, hc, -⟩ := shape_eq_unfinished_iff.mp hshape
      exact ⟨c, hc⟩

/-- **The maximal subpart rule.** No encoding stands at the front of `sub ++ rest`; `sub` begins some
encoding or is a single byte, and nothing longer at its place begins an encoding. -/
structure IsSubpart (sub rest : Bytes) : Prop where
  /-- A subpart covers a byte at least. -/
  ne_nil : sub ≠ []
  /-- No encoding stands at the front. -/
  no_char : ∀ c, ¬ String.utf8EncodeChar c <+: sub ++ rest
  /-- What begins no encoding is cut off byte by byte. -/
  begins : BeginsChar sub ∨ sub.length = 1
  /-- Nothing longer begins an encoding. -/
  maximal : ∀ longer, longer <+: sub ++ rest → sub.length < longer.length → ¬ BeginsChar longer

/-- **Decoding by the rule**: each encoding is read as its character and each maximal malformed
subpart as one U+FFFD. -/
inductive Decodes : Bytes → List Char → Prop
  /-- Nothing is left. -/
  | nil : Decodes [] []
  /-- An encoding stands at the front. -/
  | char (c : Char) {rest : Bytes} {cs : List Char} (h : Decodes rest cs) :
    Decodes (String.utf8EncodeChar c ++ rest) (c :: cs)
  /-- A malformed subpart stands at the front. -/
  | malformed {sub rest : Bytes} {cs : List Char} (hsub : IsSubpart sub rest)
    (h : Decodes rest cs) : Decodes (sub ++ rest) (replacement :: cs)

theorem beginsChar_of_longer {bs longer : Bytes} (h : BeginsChar longer) (hp : bs <+: longer) :
    BeginsChar bs := by
  obtain ⟨c, hc⟩ := h
  exact ⟨c, hp.trans hc⟩

theorem not_beginsChar_of_malformed {bs : Bytes} (h : shape bs = .malformed) (hb : bs ≠ []) :
    ¬ BeginsChar bs := fun hbegins => (beginsChar_iff hb).mp hbegins h

/-- No encoding stands inside an unfinished sequence. -/
theorem not_encodeChar_inside {held : Bytes} (h : shape held = .unfinished) (c : Char) :
    ¬ String.utf8EncodeChar c <+: held := by
  rintro ⟨rest, hrest⟩
  by_cases hr : rest = []
  · rw [hr, List.append_nil] at hrest
    rw [← hrest, shape_encodeChar] at h
    cases h
  · -- an encoding with bytes behind it would be unfinished itself
    have hs := shape_of_front (String.utf8EncodeChar c) rest
      (by rw [hrest, h]; simp) String.utf8EncodeChar_ne_nil hr
    rw [shape_encodeChar] at hs
    cases hs

/-- A sequence longer than `held` at the place of `held ++ b :: rest` goes on with `b`. -/
theorem append_prefix_of_length_lt (held : Bytes) {rest longer : Bytes} {b : UInt8}
    (hp : longer <+: held ++ b :: rest) (hlt : held.length < longer.length) :
    held ++ [b] <+: longer := by
  have hfront : held ++ [b] <+: held ++ b :: rest := ⟨rest, by simp⟩
  exact List.prefix_of_prefix_length_le hfront hp (by simp; omega)

/-- An unfinished sequence that the input ends in is a malformed subpart. -/
theorem isSubpart_truncated {held : Bytes} (h : shape held = .unfinished) : IsSubpart held [] where
  ne_nil := (shape_eq_unfinished_iff.mp h).1
  no_char c := by
    rw [List.append_nil]
    exact not_encodeChar_inside h c
  begins := Or.inl ((beginsChar_iff (shape_eq_unfinished_iff.mp h).1).mpr (by rw [h]; simp))
  maximal longer hp hlt := by
    rw [List.append_nil] at hp
    exact absurd hp.length_le (by omega)

/-- An unfinished sequence that `b` cannot go on from is a malformed subpart. -/
theorem isSubpart_held {held rest : Bytes} {b : UInt8} (h : shape held = .unfinished)
    (hb : shape (held ++ [b]) = .malformed) : IsSubpart held (b :: rest) where
  ne_nil := (shape_eq_unfinished_iff.mp h).1
  no_char c hc := by
    by_cases hle : (String.utf8EncodeChar c).length ≤ held.length
    · refine not_encodeChar_inside h c ?_
      exact List.prefix_of_prefix_length_le hc (List.prefix_append _ _) hle
    · -- a longer one would begin with `held ++ [b]`
      have hp := append_prefix_of_length_lt held hc (by omega)
      exact not_beginsChar_of_malformed hb (by simp) ⟨c, hp⟩
  begins := Or.inl ((beginsChar_iff (shape_eq_unfinished_iff.mp h).1).mpr (by rw [h]; simp))
  maximal longer hp hlt hbegins :=
    not_beginsChar_of_malformed hb (by simp)
      (beginsChar_of_longer hbegins (append_prefix_of_length_lt held hp hlt))

/-- A byte that no encoding begins with is a malformed subpart. -/
theorem isSubpart_byte {rest : Bytes} {b : UInt8} (hb : shape [b] = .malformed) :
    IsSubpart [b] rest where
  ne_nil := by simp
  no_char c hc := by
    have hpos := List.length_pos_of_ne_nil (String.utf8EncodeChar_ne_nil (c := c))
    have hp := append_prefix_of_length_lt [] hc hpos
    exact not_beginsChar_of_malformed hb (by simp) ⟨c, hp⟩
  begins := Or.inr rfl
  maximal longer hp hlt hbegins := by
    have hp' := append_prefix_of_length_lt [] hp (by simp at hlt ⊢; omega)
    exact not_beginsChar_of_malformed hb (by simp) (beginsChar_of_longer hbegins hp')

/-- **What stands at the front**: an encoding, read as its character, or a maximal malformed subpart,
read as one U+FFFD. -/
theorem extend_cases {held : Bytes} (h : Held held) (rest : Bytes) (hne : held ++ rest ≠ []) :
    (∃ c rest', held ++ rest = String.utf8EncodeChar c ++ rest' ∧
      Piece.extend held rest = .char c (String.utf8EncodeChar c).length) ∨
    (∃ sub rest', held ++ rest = sub ++ rest' ∧ IsSubpart sub rest' ∧
      (Piece.extend held rest).text = replacement ∧
      (Piece.extend held rest).size = sub.length) := by
  -- induction on the bytes still to come; `held` grows by one as long as it stays unfinished
  induction rest generalizing held with
  | nil =>
    -- the input ends inside a sequence
    have hs : shape held = .unfinished := h.resolve_left (by simpa using hne)
    exact Or.inr ⟨held, [], rfl, isSubpart_truncated hs, rfl, rfl⟩
  | cons b rest ih =>
    cases hs : shape (held ++ [b]) with
    | complete c =>
      have hc := shape_eq_complete_iff.mp hs
      refine Or.inl ⟨c, rest, ?_, ?_⟩
      · rw [← hc, List.append_assoc, List.singleton_append]
      · rw [Piece.extend, hs, ← hc, List.length_append, List.length_singleton]
    | unfinished =>
      have hfront := @ih (held ++ [b]) (Or.inr hs) (by simp)
      rw [List.append_assoc, List.singleton_append] at hfront
      rw [Piece.extend, hs]
      exact hfront
    | malformed =>
      rw [Piece.extend, hs]
      refine Or.inr ?_
      -- `b` is the subpart if nothing is held, else it is left for the next piece
      rcases h with rfl | h
      · exact ⟨[b], rest, rfl, isSubpart_byte hs, rfl, rfl⟩
      · refine ⟨held, b :: rest, rfl, isSubpart_held h hs, rfl, ?_⟩
        have := List.length_pos_of_ne_nil (shape_eq_unfinished_iff.mp h).1
        show max held.length 1 = held.length
        omega

/-- **`lossy` obeys the rule.** -/
theorem decodes_lossy (bs : Bytes) : Decodes bs (lossy bs).toList := by
  -- every piece covers a byte at least, so what follows the front piece is shorter
  induction hn : bs.length using Nat.strong_induction_on generalizing bs with
  | _ n ih =>
    by_cases hne : bs = []
    · rw [hne]
      exact Decodes.nil
    · rw [toList_lossy hne]
      rcases extend_cases (Or.inl rfl) bs hne with
        ⟨c, rest, hbs, hp⟩ | ⟨sub, rest, hbs, hsub, htext, hsize⟩
      · rw [List.nil_append] at hbs
        have hpos := List.length_pos_of_ne_nil (String.utf8EncodeChar_ne_nil (c := c))
        rw [Piece.first, hp, Piece.text, Piece.size, hbs, List.drop_left]
        refine Decodes.char c (ih rest.length ?_ rest rfl)
        rw [← hn, hbs, List.length_append]
        omega
      · rw [List.nil_append] at hbs
        have hpos := List.length_pos_of_ne_nil hsub.ne_nil
        rw [Piece.first, htext, hsize, hbs, List.drop_left]
        refine Decodes.malformed hsub (ih rest.length ?_ rest rfl)
        rw [← hn, hbs, List.length_append]
        omega

/-- Two maximal subparts at one place are equally long. -/
theorem IsSubpart.length_le {sub sub' rest rest' : Bytes} (h : IsSubpart sub rest)
    (h' : IsSubpart sub' rest') (he : sub ++ rest = sub' ++ rest') : sub'.length ≤ sub.length := by
  by_contra hlt
  -- a longer `sub'` begins no encoding, so it is a single byte, and `sub` would be empty
  have hb := h.maximal sub' ⟨rest', he.symm⟩ (by omega)
  have hlen := h'.begins.resolve_left hb
  have hpos := List.length_pos_of_ne_nil h.ne_nil
  omega

/-- **The rule has one outcome**: a decoding of `bs` is `lossy bs`. -/
theorem decodes_iff {bs : Bytes} {cs : List Char} : Decodes bs cs ↔ cs = (lossy bs).toList := by
  constructor
  · intro h
    induction h with
    | nil => rfl
    | char c h ih => rw [toList_lossy_encodeChar_append, ih]
    | @malformed sub rest cs hsub h ih =>
      have hne : sub ++ rest ≠ [] := by simp [hsub.ne_nil]
      rw [toList_lossy hne]
      rcases extend_cases (Or.inl rfl) (sub ++ rest) hne with
        ⟨c, rest', hbs, hp⟩ | ⟨sub', rest', hbs, hsub', htext, hsize⟩
      · exact absurd ⟨rest', hbs.symm⟩ (hsub.no_char c)
      · -- `lossy` cuts off a maximal subpart too, and at one place there is only one
        have hlen := Nat.le_antisymm (hsub'.length_le hsub hbs.symm) (hsub.length_le hsub' hbs)
        rw [Piece.first, htext, hsize, ← hlen, List.drop_left, ih]
  · rintro rfl
    exact decodes_lossy bs

/-! ## (4) One byte at a time -/

/-- The characters settled by bytes that arrive one at a time behind a carry, those settled by the end
of the input included. -/
def decodeFrom (carry : Bytes) : Bytes → List Char
  | [] => if carry.isEmpty then [] else [replacement]
  | b :: rest => (decodeByte carry b).1 ++ decodeFrom (decodeByte carry b).2 rest

/-- What is carried may be held. -/
theorem held_decodeByte (carry : Bytes) (b : UInt8) : Held (decodeByte carry b).2 := by
  unfold decodeByte
  split
  · exact Or.inl rfl
  · exact Or.inr (by assumption)
  · split
    · exact Or.inl rfl
    · split
      · exact Or.inl rfl
      · exact Or.inr (by assumption)
      · exact Or.inl rfl

/-- A byte that cannot go on from the carry settles it and is read afresh. -/
theorem decodeByte_of_malformed {carry : Bytes} {b : UInt8} (hne : carry ≠ [])
    (h : shape (carry ++ [b]) = .malformed) :
    decodeByte carry b = (replacement :: (decodeByte [] b).1, (decodeByte [] b).2) := by
  have hemp : carry.isEmpty = false := by simp [hne]
  unfold decodeByte
  rw [h]
  simp only [hemp, List.nil_append, List.isEmpty_nil, if_true, Bool.false_eq_true, if_false]
  cases shape [b] <;> rfl

/-- **Streaming agrees with whole-input decoding**: behind a carry, bytes that arrive one at a time
settle the characters of `lossy`. -/
theorem toList_lossy_append {carry : Bytes} (h : Held carry) (bs : Bytes) :
    (lossy (carry ++ bs)).toList = decodeFrom carry bs := by
  induction bs generalizing carry with
  | nil =>
    rw [List.append_nil]
    by_cases hc : carry = []
    · rw [hc]
      rfl
    · have hfirst := first_append h []
      rw [List.append_nil] at hfirst
      rw [toList_lossy hc, hfirst]
      simp [Piece.extend, Piece.text, Piece.size, decodeFrom, hc]
  | cons b rest ih =>
    -- behind any carry that `b` goes on from
    have hgoes : ∀ held, shape (held ++ [b]) ≠ .malformed →
        (lossy (held ++ b :: rest)).toList = decodeFrom held (b :: rest) := by
      intro held hs
      rw [decodeFrom, decodeByte]
      cases hshape : shape (held ++ [b]) with
      | complete c =>
        have hsplit : held ++ b :: rest = String.utf8EncodeChar c ++ rest := by
          rw [← shape_eq_complete_iff.mp hshape, List.append_assoc, List.singleton_append]
        rw [hsplit, toList_lossy_encodeChar_append]
        simpa using @ih [] (Or.inl rfl)
      | unfinished =>
        have hrest := @ih (held ++ [b]) (Or.inr hshape)
        rw [List.append_assoc, List.singleton_append] at hrest
        simpa using hrest
      | malformed => exact absurd hshape hs
    -- a byte that cannot go on from the carry is read afresh, so this case is needed by itself
    have hafresh : (lossy (b :: rest)).toList = decodeFrom [] (b :: rest) := by
      by_cases hs : shape [b] = .malformed
      · have hfirst : Piece.first (b :: rest) = .malformed 1 := by
          rw [Piece.first, Piece.extend, List.nil_append, hs]
          rfl
        rw [toList_lossy (by simp), hfirst, decodeFrom, decodeByte, List.nil_append, hs]
        simpa [Piece.text, Piece.size] using @ih [] (Or.inl rfl)
      · exact hgoes [] hs
    by_cases hs : shape (carry ++ [b]) = .malformed
    · by_cases hc : carry = []
      · rw [hc]
        exact hafresh
      · have hpos := List.length_pos_of_ne_nil hc
        have hmax : max carry.length 1 = carry.length := by omega
        rw [toList_lossy (by simp [hc]), first_append h, Piece.extend, hs, decodeFrom,
          decodeByte_of_malformed hc hs]
        simp only [Piece.text, Piece.size, hmax, List.drop_left, hafresh, List.cons_append]
        rw [decodeFrom]
    · exact hgoes carry hs

end HtmlStream.Utf8

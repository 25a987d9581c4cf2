import HtmlStream.Text.Utf8
import Mathlib.Data.List.Infix

/-! # The table of well-formed sequences against the encoder

`shape` decides from a table of byte ranges how a byte sequence stands to the well-formed sequences of
one character. The encoder of the core library is the other description of the same sequences; this
file proves the two equal.

* **`shape_eq_complete_iff`**: the complete sequences are the encodings of single characters.
* **`shape_eq_unfinished_iff`**: the unfinished ones are the non-empty proper prefixes of these.

Byte comparisons are moved to natural numbers first, where linear arithmetic closes them. -/

namespace HtmlStream.Utf8

/-! ## (1) The table in natural numbers -/

/-- A number below 256 survives the passage through a byte. -/
theorem toNat_ofNat_of_lt {n : Nat} (h : n < 256) : (UInt8.ofNat n).toNat = n := by
  rw [UInt8.toNat_ofNat', Nat.mod_eq_of_lt h]

/-- The width of a lead byte, read off its number. -/
theorem width_eq (b : UInt8) : width b =
    if b.toNat < 0x80 then 1 else if b.toNat < 0xC2 then 0 else if b.toNat < 0xE0 then 2
    else if b.toNat < 0xF0 then 3 else if b.toNat < 0xF5 then 4 else 0 := by
  simp [width, UInt8.lt_iff_toNat_lt]

theorem width_eq_one {b : UInt8} : width b = 1 ↔ b.toNat < 0x80 := by
  rw [width_eq]; split_ifs <;> simp <;> omega

theorem width_eq_two {b : UInt8} : width b = 2 ↔ 0xC2 ≤ b.toNat ∧ b.toNat < 0xE0 := by
  rw [width_eq]; split_ifs <;> simp <;> omega

theorem width_eq_three {b : UInt8} : width b = 3 ↔ 0xE0 ≤ b.toNat ∧ b.toNat < 0xF0 := by
  rw [width_eq]; split_ifs <;> simp <;> omega

theorem two_le_width {b : UInt8} : 2 ≤ width b ↔ 0xC2 ≤ b.toNat ∧ b.toNat < 0xF5 := by
  rw [width_eq]; split_ifs <;> simp <;> omega

theorem three_le_width {b : UInt8} : 3 ≤ width b ↔ 0xE0 ≤ b.toNat ∧ b.toNat < 0xF5 := by
  rw [width_eq]; split_ifs <;> simp <;> omega

theorem four_le_width {b : UInt8} : 4 ≤ width b ↔ 0xF0 ≤ b.toNat ∧ b.toNat < 0xF5 := by
  rw [width_eq]; split_ifs <;> simp <;> omega

theorem isTail_iff {b : UInt8} : isTail b = true ↔ 0x80 ≤ b.toNat ∧ b.toNat ≤ 0xBF := by
  simp [isTail, UInt8.le_iff_toNat_le]

/-- The second byte is a continuation byte, and four lead bytes narrow its range. -/
theorem follows_iff {a b : UInt8} : follows a b = true ↔ 0x80 ≤ b.toNat ∧ b.toNat ≤ 0xBF ∧
    (a.toNat = 0xE0 → 0xA0 ≤ b.toNat) ∧ (a.toNat = 0xED → b.toNat ≤ 0x9F) ∧
    (a.toNat = 0xF0 → 0x90 ≤ b.toNat) ∧ (a.toNat = 0xF4 → b.toNat ≤ 0x8F) := by
  simp only [follows, isTail, UInt8.le_iff_toNat_le, ← UInt8.toNat_inj, UInt8.reduceToNat]
  split_ifs <;> simp <;> omega

/-! ## (2) Encodings are complete -/

/-- **Every encoding is complete**, and encodes its character. -/
theorem shape_encodeChar (c : Char) : shape (String.utf8EncodeChar c) = .complete c := by
  have hv : c.val.toNat < 0xD800 ∨ 0xDFFF < c.val.toNat ∧ c.val.toNat < 0x110000 := c.valid
  have hc : Char.ofNat c.val.toNat = c := Char.ofNat_toNat c
  unfold String.utf8EncodeChar
  generalize c.val.toNat = n at hv hc
  simp only
  -- one to four bytes: first the numbers of the bytes, then each column of the table from these
  split_ifs with h1 h2 h3
  · have ha : (UInt8.ofNat n).toNat = n := toNat_ofNat_of_lt (by omega)
    have hw : width (UInt8.ofNat n) = 1 := by rw [width_eq_one]; omega
    simp only [shape, hw, if_true, ha, hc]
  · have ha : (UInt8.ofNat (n / 64 % 0x20 + 0xc0)).toNat = n / 64 + 0xc0 := by
      rw [toNat_ofNat_of_lt (by omega)]; omega
    have hb : (UInt8.ofNat (n % 0x40 + 0x80)).toNat = n % 64 + 0x80 :=
      toNat_ofNat_of_lt (by omega)
    -- from here on only the numbers of the bytes count
    generalize UInt8.ofNat (n / 64 % 0x20 + 0xc0) = a at *
    generalize UInt8.ofNat (n % 0x40 + 0x80) = b at *
    have hw : width a = 2 := by rw [width_eq_two]; omega
    have hf : follows a b = true := by rw [follows_iff]; omega
    have hval : a.toNat % 32 * 64 + b.toNat % 64 = n := by omega
    simp [shape, hw, hf, tailBits, hval, hc]
  · have ha : (UInt8.ofNat (n / 4096 % 0x10 + 0xe0)).toNat = n / 4096 + 0xe0 := by
      rw [toNat_ofNat_of_lt (by omega)]; omega
    have hb : (UInt8.ofNat (n / 64 % 0x40 + 0x80)).toNat = n / 64 % 64 + 0x80 :=
      toNat_ofNat_of_lt (by omega)
    have hd : (UInt8.ofNat (n % 0x40 + 0x80)).toNat = n % 64 + 0x80 :=
      toNat_ofNat_of_lt (by omega)
    generalize UInt8.ofNat (n / 4096 % 0x10 + 0xe0) = a at *
    generalize UInt8.ofNat (n / 64 % 0x40 + 0x80) = b at *
    generalize UInt8.ofNat (n % 0x40 + 0x80) = d at *
    have hw : width a = 3 := by rw [width_eq_three]; omega
    have hf : follows a b = true := by rw [follows_iff]; omega
    have ht : isTail d = true := by rw [isTail_iff]; omega
    have hval : (a.toNat % 16 * 64 + b.toNat % 64) * 64 + d.toNat % 64 = n := by omega
    simp [shape, hw, hf, ht, tailBits, hval, hc]
  · have ha : (UInt8.ofNat (n / 262144 % 0x08 + 0xf0)).toNat = n / 262144 + 0xf0 := by
      rw [toNat_ofNat_of_lt (by omega)]; omega
    have hb : (UInt8.ofNat (n / 4096 % 0x40 + 0x80)).toNat = n / 4096 % 64 + 0x80 :=
      toNat_ofNat_of_lt (by omega)
    have hd : (UInt8.ofNat (n / 64 % 0x40 + 0x80)).toNat = n / 64 % 64 + 0x80 :=
      toNat_ofNat_of_lt (by omega)
    have he : (UInt8.ofNat (n % 0x40 + 0x80)).toNat = n % 64 + 0x80 :=
      toNat_ofNat_of_lt (by omega)
    generalize UInt8.ofNat (n / 262144 % 0x08 + 0xf0) = a at *
    generalize UInt8.ofNat (n / 4096 % 0x40 + 0x80) = b at *
    generalize UInt8.ofNat (n / 64 % 0x40 + 0x80) = d at *
    generalize UInt8.ofNat (n % 0x40 + 0x80) = e at *
    have hw : 4 ≤ width a := by rw [four_le_width]; omega
    have hf : follows a b = true := by rw [follows_iff]; omega
    have ht : isTail d = true := by rw [isTail_iff]; omega
    have ht' : isTail e = true := by rw [isTail_iff]; omega
    have hval : ((a.toNat % 8 * 64 + b.toNat % 64) * 64 + d.toNat % 64) * 64 + e.toNat % 64 = n := by
      omega
    simp [shape, hw, hf, ht, ht', tailBits, hval, hc]

/-! ## (3) Complete sequences are encodings -/

/-- A code point keeps its number. -/
theorem val_toNat_ofNat {n : Nat} (h : n < 0xD800 ∨ 0xDFFF < n ∧ n < 0x110000) :
    (Char.ofNat n).val.toNat = n := by
  unfold Char.ofNat
  rw [dif_pos h]
  rfl

/-- A byte is determined by its number. -/
theorem eq_ofNat {a : UInt8} {n : Nat} (h : a.toNat = n) : a = UInt8.ofNat n := by
  rw [← h, UInt8.ofNat_toNat]

/-- **Every complete sequence is the encoding** of the character it stands for. -/
theorem eq_encodeChar_of_shape {bs : Bytes} {c : Char} (h : shape bs = .complete c) :
    bs = String.utf8EncodeChar c := by
  -- the table bounds the bytes, so their payload is a code point that the encoder cuts back into them
  match bs with
  | [] => simp [shape] at h
  | [a] =>
    simp only [shape, width_eq_one, two_le_width] at h
    split_ifs at h with ha
    have hn := val_toNat_ofNat (n := a.toNat) (by omega)
    rw [← Shape.complete.inj h]
    unfold String.utf8EncodeChar
    simp only [hn]
    rw [if_pos (by omega), ← eq_ofNat rfl]
  | [a, b] =>
    -- two bytes: the bound 0xC2 on the first rules out what one byte could spell
    simp only [shape, tailBits, Bool.and_eq_true, decide_eq_true_eq, width_eq_two, two_le_width,
      follows_iff] at h
    split_ifs at h with hf hw
    have hn := val_toNat_ofNat (n := a.toNat % 32 * 64 + b.toNat % 64) (by omega)
    rw [← Shape.complete.inj h]
    unfold String.utf8EncodeChar
    simp only [hn]
    rw [if_neg (by omega), if_pos (by omega), ← eq_ofNat (a := a) (by omega),
      ← eq_ofNat (a := b) (by omega)]
  | [a, b, d] =>
    -- three bytes: the second byte's range rules out overlong forms and surrogates
    simp only [shape, tailBits, Bool.and_eq_true, decide_eq_true_eq, width_eq_three,
      three_le_width, follows_iff, isTail_iff] at h
    split_ifs at h with hf hw
    have hn := val_toNat_ofNat (n := (a.toNat % 16 * 64 + b.toNat % 64) * 64 + d.toNat % 64)
      (by omega)
    rw [← Shape.complete.inj h]
    unfold String.utf8EncodeChar
    simp only [hn]
    rw [if_neg (by omega), if_neg (by omega), if_pos (by omega), ← eq_ofNat (a := a) (by omega),
      ← eq_ofNat (a := b) (by omega), ← eq_ofNat (a := d) (by omega)]
  | [a, b, d, e] =>
    -- four bytes: the second byte's range rules out overlong forms and numbers above 0x10FFFF
    simp only [shape, tailBits, Bool.and_eq_true, decide_eq_true_eq, four_le_width, follows_iff,
      isTail_iff] at h
    split_ifs at h with hf
    have hn := val_toNat_ofNat
      (n := ((a.toNat % 8 * 64 + b.toNat % 64) * 64 + d.toNat % 64) * 64 + e.toNat % 64) (by omega)
    rw [← Shape.complete.inj h]
    unfold String.utf8EncodeChar
    simp only [hn]
    rw [if_neg (by omega), if_neg (by omega), if_neg (by omega), ← eq_ofNat (a := a) (by omega),
      ← eq_ofNat (a := b) (by omega), ← eq_ofNat (a := d) (by omega),
      ← eq_ofNat (a := e) (by omega)]
  | _ :: _ :: _ :: _ :: _ :: _ => simp [shape] at h

/-- **The complete sequences are the encodings** of single characters. -/
theorem shape_eq_complete_iff {bs : Bytes} {c : Char} :
    shape bs = .complete c ↔ bs = String.utf8EncodeChar c :=
  ⟨eq_encodeChar_of_shape, fun h => h ▸ shape_encodeChar c⟩

/-! ## (4) Unfinished sequences are proper beginnings of encodings -/

/-- What stands before the last byte of a sequence that is not malformed is unfinished. -/
theorem shape_of_append {bs : Bytes} {b : UInt8} (h : shape (bs ++ [b]) ≠ .malformed)
    (hb : bs ≠ []) : shape bs = .unfinished := by
  match bs, hb with
  | [a], _ =>
    simp only [List.cons_append, List.nil_append, shape] at h ⊢
    split_ifs at h ⊢ <;> simp_all
    omega
  | [a, a'], _ =>
    simp only [List.cons_append, List.nil_append, shape] at h ⊢
    split_ifs at h ⊢ <;> simp_all
    omega
  | [a, a', a''], _ =>
    simp only [List.cons_append, List.nil_append, shape] at h ⊢
    split_ifs at h ⊢ <;> simp_all
    omega
  | [_, _, _, _], _ => simp [shape] at h
  | _ :: _ :: _ :: _ :: _ :: _, _ => simp [shape] at h

/-- A second byte that may follow any lead byte of two bytes or more. -/
def sampleSecond (a : UInt8) : UInt8 := if a = 0xE0 then 0xA0 else if a = 0xF0 then 0x90 else 0x80

theorem follows_sampleSecond (a : UInt8) : follows a (sampleSecond a) = true := by
  unfold sampleSecond
  split_ifs with h1 h2
  · rw [h1]; decide
  · rw [h2]; decide
  · rw [follows_iff]
    rw [← UInt8.toNat_inj] at h1 h2
    simp only [UInt8.reduceToNat] at *
    omega

/-- An unfinished sequence goes on with some byte. -/
theorem exists_next {bs : Bytes} (h : shape bs = .unfinished) :
    ∃ b, shape (bs ++ [b]) ≠ .malformed := by
  have ht : isTail 0x80 = true := by decide
  match bs with
  | [] => simp [shape] at h
  | [a] =>
    -- only the second byte depends on the lead byte; `0x80` does for the others
    refine ⟨sampleSecond a, ?_⟩
    have hw : 2 ≤ width a := by
      simp only [shape] at h
      split_ifs at h
      assumption
    simp only [List.cons_append, List.nil_append, shape, follows_sampleSecond, hw]
    split_ifs <;> simp_all
  | [a, b] =>
    refine ⟨0x80, ?_⟩
    simp only [List.cons_append, List.nil_append, shape, ht, Bool.and_true] at h ⊢
    split_ifs at h ⊢ <;> simp_all
    omega
  | [a, b, d] =>
    refine ⟨0x80, ?_⟩
    simp only [List.cons_append, List.nil_append, shape, ht, Bool.and_true] at h ⊢
    split_ifs at h ⊢ <;> simp_all
    omega
  | [_, _, _, _] =>
    simp only [shape] at h
    split_ifs at h
  | _ :: _ :: _ :: _ :: _ :: _ => simp [shape] at h

/-- Sequences of four bytes and more are complete or malformed. -/
theorem length_lt_four {bs : Bytes} (h : shape bs = .unfinished) : bs.length < 4 := by
  match bs with
  | [] | [_] | [_, _] | [_, _, _] => simp
  | [_, _, _, _] =>
    simp only [shape] at h
    split_ifs at h
  | _ :: _ :: _ :: _ :: _ :: _ => simp [shape] at h

/-- **An unfinished sequence can be completed** to the encoding of some character. -/
theorem exists_encodeChar {bs : Bytes} (h : shape bs = .unfinished) :
    ∃ c, bs <+: String.utf8EncodeChar c ∧ bs ≠ String.utf8EncodeChar c := by
  -- byte by byte: four bytes are never unfinished, so the completion is reached before that
  induction hn : 4 - bs.length generalizing bs with
  | zero =>
    have := length_lt_four h
    omega
  | succ n ih =>
    obtain ⟨b, hb⟩ := exists_next h
    cases hs : shape (bs ++ [b]) with
    | malformed => exact absurd hs hb
    | complete c =>
      rw [shape_eq_complete_iff] at hs
      refine ⟨c, hs ▸ List.prefix_append bs [b], ?_⟩
      intro he
      rw [← hs] at he
      simp at he
    | unfinished =>
      obtain ⟨c, hp, -⟩ := ih hs (by rw [List.length_append, List.length_singleton]; omega)
      have hlt := (List.prefix_append bs [b]).trans hp
      refine ⟨c, hlt, ?_⟩
      -- the encoding has `bs ++ [b]` for a beginning, so it is longer than `bs`
      intro he
      have := hp.length_le
      rw [← he, List.length_append, List.length_singleton] at this
      omega

/-- A non-empty beginning of a sequence that is not malformed is the sequence or unfinished. -/
theorem shape_of_front (bs rest : Bytes) (h : shape (bs ++ rest) ≠ .malformed) (hb : bs ≠ [])
    (hr : rest ≠ []) : shape bs = .unfinished := by
  -- bytes are taken off the end one by one; what stands before the last one is unfinished
  induction rest using List.reverseRecOn with
  | nil => exact absurd rfl hr
  | append_singleton rest b ih =>
    rw [← List.append_assoc] at h
    have hs := shape_of_append h (by simp [hb])
    by_cases hrest : rest = []
    · rw [hrest, List.append_nil] at hs
      exact hs
    · exact ih (by rw [hs]; simp) hrest

/-- **The unfinished sequences are the proper beginnings of encodings**, the empty one apart. -/
theorem shape_eq_unfinished_iff {bs : Bytes} : shape bs = .unfinished ↔
    bs ≠ [] ∧ ∃ c, bs <+: String.utf8EncodeChar c ∧ bs ≠ String.utf8EncodeChar c := by
  constructor
  · intro h
    refine ⟨?_, exists_encodeChar h⟩
    rintro rfl
    simp [shape] at h
  · rintro ⟨hb, c, ⟨rest, hrest⟩, hne⟩
    -- the whole encoding is complete, and `bs` is a beginning of it that is not all of it
    refine shape_of_front bs rest ?_ hb ?_
    · rw [hrest, shape_encodeChar]
      simp
    · rintro rfl
      exact hne (by rw [← hrest, List.append_nil])

end HtmlStream.Utf8

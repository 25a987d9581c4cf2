import HtmlStream.Proofs.Machine.Reading
import HtmlStream.Proofs.Utf8.Lossy
import HtmlStream.Session
import Mathlib.Data.String.Basic

/-! # Texts by their bytes

A text is kept as the bytes of its characters, and places in it are counted in bytes. A text may be cut
between two of its characters only, and a search or a comparison that looks at bytes alone does not know
where these are. It finds such places nevertheless, because what it looks for is ASCII, and no byte of a
longer character is.

* **`Fault`**: what must not happen while a session goes on.
* **`cut`**, **`slice`**, **`splitBytes`**: cutting texts and bytes, which may fail.
* **`findByte`**: the first byte of some given ones. It stands in front of a character
  (`findByte_bytesOf`).
* **`matchBytes`**: comparison with a keyword by bytes. It says what the comparison by characters says
  (`matchBytes_bytesOf`). -/

namespace HtmlStream.Guarded

/-! ## (1) Faults -/

/-- What must not happen while a session goes on. -/
inductive Fault where
  /-- A text was to be cut inside a character or behind its end. -/
  | cut
  /-- Bytes were to be cut behind their end. -/
  | range
  /-- A character was to be read that does not stand at the cursor. -/
  | misread
  /-- A loop would go on without end. -/
  | endless
  /-- Bytes came behind the end of the input. -/
  | pushAfterEnd
  /-- The steps of document types met another state. -/
  | unreachable
  /-- The end of the input was taken and not queued. -/
  | notEnded
  /-- A window does not read as the payload it was cut for. -/
  | windowDiffers
  /-- A failure that sessions know of. -/
  | failure (f : Failure)
  deriving DecidableEq, Repr

/-! ## (2) Cutting -/

/-- The bytes of a text. -/
def bytesOf (text : List Char) : Bytes := text.flatMap String.utf8EncodeChar

/-- The text before a place and the text behind it. The place has to be between two characters, or at an
end. -/
def cut : List Char → Nat → Except Fault (List Char × List Char)
  | text, 0 => .ok ([], text)
  | [], _ + 1 => .error .cut
  | c :: text, n + 1 =>
    if c.utf8Size ≤ n + 1 then do
      let (front, rest) ← cut text (n + 1 - c.utf8Size)
      return (c :: front, rest)
    else .error .cut

/-- The text behind a place. -/
def sliceFrom (text : List Char) (start : Nat) : Except Fault (List Char) := do
  let (_, rest) ← cut text start
  return rest

/-- The text before a place. -/
def sliceTo (text : List Char) (stop : Nat) : Except Fault (List Char) := do
  let (front, _) ← cut text stop
  return front

/-- The text between two places. -/
def slice (text : List Char) (start stop : Nat) : Except Fault (List Char) := do
  let rest ← sliceFrom text start
  if start ≤ stop then sliceTo rest (stop - start) else throw .cut

/-- The bytes before a place and those behind it. -/
def splitBytes (bs : Bytes) (n : Nat) : Except Fault (Bytes × Bytes) :=
  if n ≤ bs.length then .ok (bs.take n, bs.drop n) else .error .range

@[simp] theorem bytesOf_nil : bytesOf [] = [] := rfl

@[simp] theorem bytesOf_cons (c : Char) (text : List Char) :
    bytesOf (c :: text) = String.utf8EncodeChar c ++ bytesOf text := rfl

@[simp] theorem bytesOf_append (front rest : List Char) :
    bytesOf (front ++ rest) = bytesOf front ++ bytesOf rest := List.flatMap_append

@[simp] theorem length_bytesOf (text : List Char) : (bytesOf text).length = String.utf8Len text := by
  induction text with
  | nil => rfl
  | cons c text ih =>
    rw [bytesOf_cons, List.length_append, String.length_utf8EncodeChar, ih, String.utf8Len_cons,
      Nat.add_comm]

/-- **A text can be cut** where its characters meet. -/
theorem cut_append (front rest : List Char) :
    cut (front ++ rest) (String.utf8Len front) = .ok (front, rest) := by
  induction front with
  | nil => rw [List.nil_append, String.utf8Len_nil, cut]
  | cons c front ih =>
    have hpos := c.utf8Size_pos
    obtain ⟨n, hn⟩ : ∃ n, String.utf8Len (c :: front) = n + 1 :=
      Nat.exists_eq_succ_of_ne_zero (by rw [String.utf8Len_cons]; omega)
    have hrest : n + 1 - c.utf8Size = String.utf8Len front := by
      rw [← hn, String.utf8Len_cons]
      omega
    have hle : c.utf8Size ≤ n + 1 := by
      rw [← hn, String.utf8Len_cons]
      omega
    rw [hn, List.cons_append, cut, if_pos hle, hrest, ih]
    rfl

theorem sliceFrom_append (front rest : List Char) :
    sliceFrom (front ++ rest) (String.utf8Len front) = .ok rest := by
  rw [sliceFrom, cut_append]
  rfl

theorem sliceTo_append (front rest : List Char) :
    sliceTo (front ++ rest) (String.utf8Len front) = .ok front := by
  rw [sliceTo, cut_append]
  rfl

theorem slice_append (front middle rest : List Char) :
    slice (front ++ (middle ++ rest)) (String.utf8Len front)
      (String.utf8Len front + String.utf8Len middle) = .ok middle := by
  rw [slice, sliceFrom_append]
  show (if String.utf8Len front ≤ String.utf8Len front + String.utf8Len middle then _ else _) = _
  rw [if_pos (Nat.le_add_right _ _), Nat.add_sub_cancel_left, sliceTo_append]

theorem splitBytes_append (front rest : Bytes) :
    splitBytes (front ++ rest) front.length = .ok (front, rest) := by
  rw [splitBytes, if_pos (by rw [List.length_append]; omega), List.take_left, List.drop_left]

example : cut ['a', 'é', 'b'] 3 = .ok (['a', 'é'], ['b']) := by decide

example : cut ['a', 'é', 'b'] 2 = .error .cut := by decide

/-! ## (3) ASCII -/

/-- An ASCII character is one byte. -/
theorem encodeChar_of_ascii {c : Char} (h : c.utf8Size = 1) :
    String.utf8EncodeChar c = [c.toUInt8] := String.utf8EncodeChar_eq_singleton h

/-- **No byte of a longer character is ASCII.** -/
theorem le_of_mem_encodeChar {c : Char} (h : c.utf8Size ≠ 1) {b : UInt8}
    (hb : b ∈ String.utf8EncodeChar c) : 0x80 ≤ b.toNat := by
  have hshape := Utf8.shape_encodeChar c
  rw [← String.length_utf8EncodeChar] at h
  generalize String.utf8EncodeChar c = bs at h hb hshape
  -- the table has a lead byte and continuation bytes for the sequences of two bytes or more
  unfold Utf8.shape at hshape
  split at hshape
  · exact absurd rfl h
  · rename_i a second
    split at hshape
    · rename_i hwell
      rw [Bool.and_eq_true, decide_eq_true_eq, Utf8.two_le_width, Utf8.follows_iff] at hwell
      simp only [List.mem_cons, List.not_mem_nil, or_false] at hb
      rcases hb with rfl | rfl <;> omega
    · cases hshape
  · rename_i a second third
    split at hshape
    · rename_i hwell
      simp only [Bool.and_eq_true, decide_eq_true_eq, Utf8.three_le_width, Utf8.follows_iff,
        Utf8.isTail_iff] at hwell
      simp only [List.mem_cons, List.not_mem_nil, or_false] at hb
      rcases hb with rfl | rfl | rfl <;> omega
    · cases hshape
  · rename_i a second third fourth
    split at hshape
    · rename_i hwell
      simp only [Bool.and_eq_true, decide_eq_true_eq, Utf8.four_le_width, Utf8.follows_iff,
        Utf8.isTail_iff] at hwell
      simp only [List.mem_cons, List.not_mem_nil, or_false] at hb
      rcases hb with rfl | rfl | rfl | rfl <;> omega
    · cases hshape
  · cases hshape

theorem toNat_lt_of_ascii {c : Char} (h : c.utf8Size = 1) : c.toNat < 0x80 := by
  have hle := Char.utf8Size_eq_one_iff.mp h
  rw [UInt32.le_iff_toNat_le] at hle
  exact Nat.lt_succ_of_le hle

theorem toNat_toUInt8 {c : Char} (h : c.utf8Size = 1) : c.toUInt8.toNat = c.toNat := by
  have hlt := toNat_lt_of_ascii h
  show c.val.toNat % 2 ^ 8 = c.toNat
  exact Nat.mod_eq_of_lt (by rw [Char.toNat] at hlt; omega)

/-- ASCII text has as many bytes as characters. -/
theorem utf8Len_of_ascii {text : List Char} (h : ∀ c ∈ text, c.utf8Size = 1) :
    String.utf8Len text = text.length := by
  induction text with
  | nil => rfl
  | cons c text ih =>
    have hrest := ih fun d hd => h d (List.mem_cons_of_mem c hd)
    rw [String.utf8Len_cons, hrest, h c List.mem_cons_self, List.length_cons]

/-- An ASCII character is known by its byte. -/
theorem toUInt8_inj {c d : Char} (hc : c.utf8Size = 1) (hd : d.utf8Size = 1) :
    c.toUInt8 = d.toUInt8 ↔ c = d := by
  constructor
  · intro h
    have hnat : c.toNat = d.toNat := by rw [← toNat_toUInt8 hc, ← toNat_toUInt8 hd, h]
    exact Char.toNat_inj.mp hnat
  · rintro rfl
    rfl

/-! ## (4) Searching -/

/-- The place of the first byte that is one of the ASCII characters `stops`, if there is one. -/
def findByte (stops : List Char) (bs : Bytes) : Option Nat :=
  bs.findIdx? fun b => stops.any fun c => b == c.toUInt8

variable {stops : List Char}

/-- At a character that is none of them the search goes on behind it. -/
theorem findByte_encodeChar_of_notMem (hascii : ∀ c ∈ stops, c.utf8Size = 1) {c : Char}
    (hc : c ∉ stops) : findByte stops (String.utf8EncodeChar c) = none := by
  rw [findByte, List.findIdx?_eq_none_iff]
  intro b hb
  rw [Bool.eq_false_iff]
  intro hany
  obtain ⟨d, hd, hbd⟩ := List.any_eq_true.mp hany
  have hbd : b = d.toUInt8 := by simpa using hbd
  have hlt : b.toNat < 0x80 := by
    rw [hbd, toNat_toUInt8 (hascii d hd)]
    exact toNat_lt_of_ascii (hascii d hd)
  by_cases hsize : c.utf8Size = 1
  · rw [encodeChar_of_ascii hsize, List.mem_singleton] at hb
    rw [hb, toUInt8_inj hsize (hascii d hd)] at hbd
    exact hc (hbd ▸ hd)
  · have hle := le_of_mem_encodeChar hsize hb
    omega

/-- At one of them it ends. -/
theorem findByte_encodeChar_of_mem (hascii : ∀ c ∈ stops, c.utf8Size = 1) {c : Char}
    (hc : c ∈ stops) : findByte stops (String.utf8EncodeChar c) = some 0 := by
  rw [findByte, encodeChar_of_ascii (hascii c hc), List.findIdx?_singleton, if_pos]
  exact List.any_eq_true.mpr ⟨c, hc, by simp⟩

/-- **A search finds a place between characters**: that of the first of the characters `stops`. -/
theorem findByte_bytesOf (hascii : ∀ c ∈ stops, c.utf8Size = 1) (text : List Char) :
    (findByte stops (bytesOf text) = none ∧ ∀ c ∈ text, c ∉ stops) ∨
    ∃ run c rest, text = run ++ c :: rest ∧ c ∈ stops ∧ (∀ d ∈ run, d ∉ stops) ∧
      findByte stops (bytesOf text) = some (String.utf8Len run) := by
  induction text with
  | nil => exact .inl ⟨rfl, by simp⟩
  | cons c text ih =>
    have happend : findByte stops (bytesOf (c :: text))
        = (findByte stops (String.utf8EncodeChar c)).or
            ((findByte stops (bytesOf text)).map (· + c.utf8Size)) := by
      rw [bytesOf_cons, findByte, List.findIdx?_append, String.length_utf8EncodeChar]
      rfl
    by_cases hc : c ∈ stops
    · rw [happend, findByte_encodeChar_of_mem hascii hc]
      exact .inr ⟨[], c, text, rfl, hc, by simp, rfl⟩
    · rw [happend, findByte_encodeChar_of_notMem hascii hc, Option.none_or]
      rcases ih with ⟨hnone, hall⟩ | ⟨run, d, rest, rfl, hd, hrun, hfind⟩
      · refine .inl ⟨by rw [hnone]; rfl, ?_⟩
        rintro d hd
        rcases List.mem_cons.mp hd with rfl | hd
        · exact hc
        · exact hall d hd
      · refine .inr ⟨c :: run, d, rest, rfl, hd, ?_, by rw [hfind]; rfl⟩
        rintro e he
        rcases List.mem_cons.mp he with rfl | he
        · exact hc
        · exact hrun e he

/-- **The run in front of what is searched**, to the end if it is not found. -/
theorem findByte_getD (hascii : ∀ c ∈ stops, c.utf8Size = 1) (text : List Char) :
    (findByte stops (bytesOf text)).getD (bytesOf text).length
      = String.utf8Len (text.takeWhile fun c => !stops.contains c) := by
  rcases findByte_bytesOf hascii text with ⟨hnone, hall⟩ | ⟨run, c, rest, rfl, hc, hrun, hfind⟩
  · have hwhole : text.takeWhile (fun c => !stops.contains c) = text :=
      List.takeWhile_eq_self_iff.mpr fun c hc => by simpa using hall c hc
    rw [hnone, hwhole, Option.getD_none, length_bytesOf]
  · have hfront : (run ++ c :: rest).takeWhile (fun c => !stops.contains c) = run := by
      rw [List.takeWhile_append_of_pos fun d hd => by simpa using hrun d hd,
        List.takeWhile_cons_of_neg (by simpa using hc), List.append_nil]
    rw [hfind, hfront, Option.getD_some]

/-! ## (5) Comparing with keywords -/

/-- Whether bytes are the same, letters in either case if `anyCase`. -/
def sameBytes (anyCase : Bool) (xs ys : Bytes) : Bool :=
  match anyCase with
  | true => xs.map UInt8.toAsciiLower == ys.map UInt8.toAsciiLower
  | false => xs == ys

/-- Compares the bytes at hand with a pattern, as far as both go. -/
def matchBytes (anyCase finished : Bool) (pattern available : Bytes) : Lookahead :=
  let n := min available.length pattern.length
  if !sameBytes anyCase (available.take n) (pattern.take n) then .absent
  else if n = pattern.length then .found
  else if finished then .absent
  else .undecided

/-- The characters that a keyword may be made of: ASCII, and no capital letters where case does not
matter. -/
def Admits (keyword : Keyword) (k : Char) : Prop :=
  k.utf8Size = 1 ∧ (keyword.anyCase = true → k.toLower = k)

instance (keyword : Keyword) (k : Char) : Decidable (Admits keyword k) :=
  inferInstanceAs (Decidable (_ ∧ _))

theorem sameBytes_cons (anyCase : Bool) (x y : UInt8) (xs ys : Bytes) :
    sameBytes anyCase (x :: xs) (y :: ys) = (sameBytes anyCase [x] [y] && sameBytes anyCase xs ys) := by
  cases anyCase <;> simp [sameBytes]

/-- The first bytes are compared, then the others. -/
theorem matchBytes_cons (anyCase finished : Bool) (k b : UInt8) (pattern available : Bytes) :
    matchBytes anyCase finished (k :: pattern) (b :: available)
      = if sameBytes anyCase [b] [k] then matchBytes anyCase finished pattern available
        else .absent := by
  have hmin : min (b :: available).length (k :: pattern).length
      = min available.length pattern.length + 1 := by
    simp only [List.length_cons]
    omega
  rw [matchBytes, hmin]
  simp only [List.take_succ_cons, List.length_cons, Nat.add_right_cancel_iff]
  rw [sameBytes_cons]
  cases sameBytes anyCase [b] [k] <;> rfl

/-- Small letters by bytes are small letters. -/
theorem toLower_toUInt8 {c : Char} (h : c.utf8Size = 1) :
    c.toLower.toUInt8 = c.toUInt8.toAsciiLower ∧ c.toLower.utf8Size = 1 := by
  have hall : ∀ n : Fin 0x80, (Char.ofNat n).toLower.toUInt8 = (Char.ofNat n).toUInt8.toAsciiLower ∧
      (Char.ofNat n).toLower.utf8Size = 1 := by decide
  have hc := hall ⟨c.toNat, toNat_lt_of_ascii h⟩
  rwa [Char.ofNat_toNat] at hc

/-- Only ASCII letters have small letters. -/
theorem toLower_of_not_ascii {c : Char} (h : c.utf8Size ≠ 1) : c.toLower = c := by
  rw [Ne, Char.utf8Size_eq_one_iff, UInt32.le_iff_toNat_le] at h
  refine dif_neg ?_
  rintro ⟨-, hle⟩
  rw [UInt32.le_iff_toNat_le] at hle
  have hz : 'Z'.val.toNat = 90 := rfl
  have hbound : (127 : UInt32).toNat = 127 := rfl
  omega

theorem toAsciiLower_of_le {b : UInt8} (h : 0x80 ≤ b.toNat) : b.toAsciiLower = b := by
  have hlt : ¬ b - 65 < 26 := by
    rw [UInt8.lt_iff_toNat_lt, UInt8.toNat_sub_of_le]
    · show ¬ b.toNat - 65 < 26
      omega
    · rw [UInt8.le_iff_toNat_le]
      show 65 ≤ b.toNat
      omega
  rw [UInt8.toAsciiLower, decide_eq_false hlt]
  show b + 0 = b
  exact UInt8.add_zero b

variable {keyword : Keyword} {k : Char}

/-- A character of a keyword is compared with an ASCII character by its byte. -/
theorem sameBytes_of_ascii (hk : Admits keyword k) {c : Char} (hc : c.utf8Size = 1) :
    sameBytes keyword.anyCase [c.toUInt8] [k.toUInt8] = keyword.same k c := by
  unfold sameBytes Keyword.same
  cases hcase : keyword.anyCase with
  | true =>
    obtain ⟨hlower, hsize⟩ := toLower_toUInt8 hc
    have hsmall : k.toUInt8.toAsciiLower = k.toUInt8 := by
      rw [← (toLower_toUInt8 hk.1).1, hk.2 hcase]
    simp only [List.map_cons, List.map_nil, ← hlower, hsmall]
    rw [Bool.eq_iff_iff]
    simp only [beq_iff_eq, List.cons.injEq, and_true, sameLetter, decide_eq_true_eq]
    rw [toUInt8_inj hsize hk.1, eq_comm]
  | false =>
    rw [Bool.eq_iff_iff]
    simp only [beq_iff_eq, List.cons.injEq, and_true, sameChar, decide_eq_true_eq]
    rw [toUInt8_inj hc hk.1, eq_comm]

/-- It is no longer character, -/
theorem not_same_of_not_ascii (hk : Admits keyword k) {c : Char} (hc : c.utf8Size ≠ 1) :
    keyword.same k c = false := by
  have hne : k ≠ c := by
    rintro rfl
    exact hc hk.1
  unfold Keyword.same
  cases keyword.anyCase with
  | true => exact decide_eq_false (by rwa [toLower_of_not_ascii hc])
  | false => exact decide_eq_false hne

/-- and its byte is not the first of one. -/
theorem not_sameBytes_of_le (hk : Admits keyword k) {b : UInt8} (hb : 0x80 ≤ b.toNat) :
    sameBytes keyword.anyCase [b] [k.toUInt8] = false := by
  have hne : b ≠ k.toUInt8 := by
    rintro rfl
    have hlt := toNat_lt_of_ascii hk.1
    rw [toNat_toUInt8 hk.1] at hb
    omega
  unfold sameBytes
  cases hcase : keyword.anyCase with
  | true =>
    have hsmall : k.toUInt8.toAsciiLower = k.toUInt8 := by
      rw [← (toLower_toUInt8 hk.1).1, hk.2 hcase]
    simp [toAsciiLower_of_le hb, hsmall, hne]
  | false => simp [hne]

/-- **Comparison by bytes** says what comparison by characters says. -/
theorem matchBytes_bytesOf {ks : List Char} (hks : ∀ k ∈ ks, Admits keyword k) (finished : Bool)
    (text : List Char) :
    matchBytes keyword.anyCase finished (bytesOf ks) (bytesOf text)
      = Lookahead.compare keyword.same finished ks text := by
  induction ks generalizing text with
  | nil =>
    rw [Lookahead.compare, bytesOf_nil, matchBytes]
    cases keyword.anyCase <;> simp [sameBytes]
  | cons k ks ih =>
    have hk := hks k List.mem_cons_self
    have hrest : ∀ k' ∈ ks, Admits keyword k' := fun k' hk' => hks k' (List.mem_cons_of_mem k hk')
    rw [bytesOf_cons, encodeChar_of_ascii hk.1, List.singleton_append]
    cases text with
    | nil =>
      rw [Lookahead.compare, bytesOf_nil, matchBytes]
      cases keyword.anyCase <;> simp [sameBytes]
    | cons c text =>
      rw [Lookahead.compare, bytesOf_cons]
      by_cases hc : c.utf8Size = 1
      · rw [encodeChar_of_ascii hc, List.singleton_append, matchBytes_cons,
          sameBytes_of_ascii hk hc, ih hrest]
      · -- the first byte of a longer character already differs
        obtain ⟨b, tail, hbytes⟩ :=
          List.exists_cons_of_ne_nil (String.utf8EncodeChar_ne_nil (c := c))
        have hb : 0x80 ≤ b.toNat := le_of_mem_encodeChar hc (hbytes ▸ List.mem_cons_self)
        rw [hbytes, List.cons_append, matchBytes_cons, not_sameBytes_of_le hk hb,
          not_same_of_not_ascii hk hc]
        rfl

/-- **What a keyword is found in is ASCII**, and as many bytes long as the keyword. -/
theorem utf8Len_of_found {ks text : List Char} {finished : Bool} (hks : ∀ k ∈ ks, Admits keyword k)
    (h : Lookahead.compare keyword.same finished ks text = .found) :
    String.utf8Len (text.take ks.length) = ks.length := by
  induction ks generalizing text with
  | nil => rfl
  | cons k ks ih =>
    cases text with
    | nil =>
      rw [Lookahead.compare] at h
      cases finished <;> cases h
    | cons c text =>
      rw [Lookahead.compare] at h
      split at h
      · rename_i hsame
        have hc : c.utf8Size = 1 := by
          by_contra hc
          rw [not_same_of_not_ascii (hks k List.mem_cons_self) hc] at hsame
          cases hsame
        have hrest := ih (fun k' hk' => hks k' (List.mem_cons_of_mem k hk')) h
        rw [List.length_cons, List.take_succ_cons, String.utf8Len_cons, hrest, hc]
      · cases h

end HtmlStream.Guarded

import HtmlStream.Proofs.Guarded.Texts

/-! # The input by its bytes

What has been decoded is one text, and a cursor in bytes says how much of it has been read. Each way of
reading cuts the text at the cursor or moves it, and any of them may fail: a cut may fall inside a
character, and a character may be read that is not there. None does while the cursor stands where
characters meet, and each leaves it so.

* **`ByteInput`**: the text and the cursor.
* **`peek`, `advance`, `skipAscii`, `takeUntil`, `matchAscii`, `compact`**: what is done with them.
* **`stored`**: an input as it is kept behind a text that was read.
* **`advance_stored`**, **`takeUntil_stored`**, …: nothing fails there, and what is done to the text is
  what is done to the input. -/

namespace HtmlStream.Guarded

/-! ## (1) Reading -/

/-- An input that is kept as a text with a cursor. -/
structure ByteInput where
  /-- The decoder of the bytes to come. -/
  decoder : Decoder
  /-- The text decoded, what was read of it included. -/
  text : List Char := []
  /-- How many bytes of the text were read. -/
  cursor : Nat := 0
  /-- No more bytes will come. -/
  finished : Bool := false
  /-- Characters read. -/
  consumed : Nat := 0
  deriving DecidableEq, Repr

namespace ByteInput

variable (b : ByteInput)

/-- The text behind the cursor. -/
def rest : Except Fault (List Char) := sliceFrom b.text b.cursor

/-- The input as characters. -/
def view : Except Fault Input := do
  let pending ← b.rest
  return { decoder := b.decoder, pending, finished := b.finished, consumed := b.consumed }

/-- The character at the cursor, none at the end of the text. -/
def peek : Except Fault (Option Char) := do
  let rest ← b.rest
  return rest.head?

/-- Reads the character `c`, which has to be the one at the cursor. -/
def advance (c : Char) : Except Fault ByteInput := do
  let next ← b.peek
  if next = some c then
    return { b with cursor := b.cursor + c.utf8Size, consumed := b.consumed + 1 }
  else throw .misread

/-- Reads the character at the cursor, if there is one. -/
def next : Except Fault ByteInput := do
  match ← b.peek with
  | some c => b.advance c
  | none => return b

/-- Reads `n` ASCII characters. -/
def skipAscii (n : Nat) : Except Fault (List Char × ByteInput) := do
  let stop := b.cursor + n
  let skipped ← slice b.text b.cursor stop
  return (skipped, { b with cursor := stop, consumed := b.consumed + n })

/-- Reads the run in front of the first of the characters `stops`, or all of the text. -/
def takeUntil (stops : List Char) : Except Fault (List Char × ByteInput) := do
  let rest ← b.rest
  let stop := b.cursor + (findByte stops (bytesOf rest)).getD (bytesOf rest).length
  let run ← slice b.text b.cursor stop
  return (run, { b with cursor := stop, consumed := b.consumed + run.length })

/-- Compares what stands at the cursor with a keyword. -/
def matchAscii (keyword : Keyword) : Except Fault Lookahead := do
  let (_, available) ← splitBytes (bytesOf b.text) b.cursor
  return matchBytes keyword.anyCase b.finished (bytesOf keyword.text.toList) available

/-- Reads the first of some keywords that is found. -/
def readKeyword : List Keyword → Except Fault ByteInput
  | [] => .ok b
  | keyword :: rest => do
    match ← b.matchAscii keyword with
    | .found =>
      let (_, b) ← b.skipAscii (bytesOf keyword.text.toList).length
      return b
    | .undecided => return b
    | .absent => readKeyword rest

/-- Reads. -/
def read : Reading → Except Fault ByteInput
  | .nothing => .ok b
  | .char c => b.advance c
  | .keyword n => do
    let (_, b) ← b.skipAscii n
    return b

/-- Drops the text that was read. -/
def compact : Except Fault ByteInput :=
  if b.cursor = 0 then .ok b
  else if b.cursor = (bytesOf b.text).length then .ok { b with text := [], cursor := 0 }
  else do
    let rest ← b.rest
    return { b with text := rest, cursor := 0 }

end ByteInput

/-! ## (2) Reading where characters meet -/

/-- An input as it is kept behind the text `front`, which was read. -/
def stored (front : List Char) (i : Input) : ByteInput where
  decoder := i.decoder
  text := front ++ i.pending
  cursor := String.utf8Len front
  finished := i.finished
  consumed := i.consumed

section

variable (front : List Char) (i : Input)

theorem rest_stored : (stored front i).rest = .ok i.pending := sliceFrom_append front i.pending

theorem view_stored : (stored front i).view = .ok i := by
  rw [ByteInput.view, rest_stored]
  rfl

theorem peek_stored : (stored front i).peek = .ok i.pending.head? := by
  rw [ByteInput.peek, rest_stored]
  rfl

/-- Cutting at the cursor and `middle` behind it. -/
theorem slice_stored {middle rest : List Char} (h : i.pending = middle ++ rest) :
    slice (stored front i).text (stored front i).cursor
      ((stored front i).cursor + String.utf8Len middle) = .ok middle := by
  show slice (front ++ i.pending) _ _ = _
  rw [h]
  exact slice_append front middle rest

/-- The input behind `n` characters is kept behind them. -/
theorem stored_skip (n : Nat) : stored (front ++ i.pending.take n) (i.skip n) =
    { stored front i with
      cursor := (stored front i).cursor + String.utf8Len (i.pending.take n)
      consumed := i.consumed + n } := by
  simp only [stored, Input.skip, List.append_assoc, List.take_append_drop, String.utf8Len_append]

/-- **The character in front** can be read. -/
theorem advance_stored {c : Char} (h : i.pending.head? = some c) :
    (stored front i).advance c = .ok (stored (front ++ [c]) i.advance) := by
  obtain ⟨rest, hpending⟩ := List.head?_eq_some_iff.mp h
  have hskip := stored_skip front i 1
  rw [hpending, List.take_succ_cons, List.take_zero] at hskip
  have hadvance : i.advance = i.skip 1 := by rw [Input.advance, Input.skip, List.drop_one]
  rw [ByteInput.advance, peek_stored, hadvance, hskip, String.utf8Len_cons, String.utf8Len_nil,
    Nat.zero_add]
  show (if i.pending.head? = some c then _ else _) = _
  rw [if_pos h]
  rfl

/-- Whatever is in front can be read. -/
theorem next_stored {c : Char} (h : i.pending.head? = some c) :
    (stored front i).next = .ok (stored (front ++ [c]) i.advance) := by
  rw [ByteInput.next, peek_stored, h]
  exact advance_stored front i h

/-- **ASCII characters** can be skipped: there are as many bytes of them as characters. -/
theorem skipAscii_stored {n : Nat} (h : String.utf8Len (i.pending.take n) = n) :
    (stored front i).skipAscii n
      = .ok (i.pending.take n, stored (front ++ i.pending.take n) (i.skip n)) := by
  have hslice := slice_stored front i (List.take_append_drop n i.pending).symm
  rw [h] at hslice
  rw [ByteInput.skipAscii, stored_skip, h]
  show (slice (stored front i).text (stored front i).cursor ((stored front i).cursor + n)).bind _ = _
  rw [hslice]
  rfl

/-- **A run** can be taken, because it ends in front of a character or with the text. -/
theorem takeUntil_stored {stops : List Char} (hascii : ∀ c ∈ stops, c.utf8Size = 1) :
    (stored front i).takeUntil stops
      = .ok (i.run stops.contains,
          stored (front ++ i.run stops.contains) (i.skip (i.run stops.contains).length)) := by
  have hsplit : i.pending = i.run stops.contains ++ i.pending.drop (i.run stops.contains).length := by
    have hprefix : i.run stops.contains <+: i.pending := List.takeWhile_prefix _
    exact (List.prefix_iff_eq_append.mp hprefix).symm
  have htake : i.pending.take (i.run stops.contains).length = i.run stops.contains := by
    conv_lhs => rw [hsplit]
    exact List.take_left
  have hslice := slice_stored front i hsplit
  have hskip := stored_skip front i (i.run stops.contains).length
  rw [htake] at hskip
  rw [ByteInput.takeUntil, rest_stored, hskip]
  show (slice (stored front i).text (stored front i).cursor ((stored front i).cursor
    + (findByte stops (bytesOf i.pending)).getD (bytesOf i.pending).length)).bind _ = _
  rw [findByte_getD hascii]
  show (slice _ _ (_ + String.utf8Len (i.run stops.contains))).bind _ = _
  rw [hslice]
  rfl

/-- **Comparison with a keyword** by bytes is comparison by characters. -/
theorem matchAscii_stored {keyword : Keyword} (h : ∀ k ∈ keyword.text.toList, Admits keyword k) :
    (stored front i).matchAscii keyword = .ok (i.lookahead keyword.same keyword.text) := by
  have hsplit := splitBytes_append (bytesOf front) (bytesOf i.pending)
  rw [← bytesOf_append, length_bytesOf] at hsplit
  show (splitBytes (bytesOf (front ++ i.pending)) (String.utf8Len front)).bind _ = _
  rw [hsplit]
  exact congrArg Except.ok (matchBytes_bytesOf h i.finished i.pending)

/-! ### What steps read -/

/-- What is read is there. -/
def Fits : Reading → Prop
  | .nothing => True
  | .char c => i.pending.head? = some c
  | .keyword n => String.utf8Len (i.pending.take n) = n

theorem read_stored {reading : Reading} (h : Fits i reading) :
    ∃ front', (stored front i).read reading = .ok (stored front' (i.read reading)) := by
  cases reading with
  | nothing => exact ⟨front, rfl⟩
  | char c => exact ⟨front ++ [c], advance_stored front i h⟩
  | keyword n =>
    refine ⟨front ++ i.pending.take n, ?_⟩
    rw [ByteInput.read, skipAscii_stored front i h]
    rfl

variable {keywords : List Keyword}

/-- Looking for keywords by bytes is looking for them by characters. -/
theorem readKeyword_stored (h : ∀ keyword ∈ keywords, ∀ k ∈ keyword.text.toList, Admits keyword k) :
    (stored front i).readKeyword keywords = (stored front i).read (i.findKeyword keywords) := by
  induction keywords with
  | nil => rfl
  | cons keyword rest ih =>
    have hkeyword := h keyword List.mem_cons_self
    rw [ByteInput.readKeyword, matchAscii_stored front i hkeyword, Input.findKeyword]
    cases hfound : i.lookahead keyword.same keyword.text with
    | found =>
      have hsize : (bytesOf keyword.text.toList).length = keyword.text.toList.length := by
        rw [length_bytesOf, utf8Len_of_ascii fun k hk => (hkeyword k hk).1]
      show ((stored front i).skipAscii _).bind _ = _
      rw [hsize]
      rfl
    | undecided => rfl
    | absent => exact ih fun keyword' hmem => h keyword' (List.mem_cons_of_mem keyword hmem)

/-- **A keyword that is found is there.** -/
theorem fits_findKeyword (h : ∀ keyword ∈ keywords, ∀ k ∈ keyword.text.toList, Admits keyword k) :
    Fits i (i.findKeyword keywords) := by
  induction keywords with
  | nil => trivial
  | cons keyword rest ih =>
    rw [Input.findKeyword]
    split
    · rename_i hfound
      exact utf8Len_of_found (h keyword List.mem_cons_self) hfound
    · trivial
    · exact ih fun keyword' hmem => h keyword' (List.mem_cons_of_mem keyword hmem)

/-! ### Between steps -/

/-- **Text that was read** can be dropped. -/
theorem compact_stored : (stored front i).compact = .ok (stored [] i) := by
  rw [ByteInput.compact, length_bytesOf]
  show (if String.utf8Len front = 0 then _
    else if String.utf8Len front = String.utf8Len (front ++ i.pending) then _ else _) = _
  split
  · rename_i hfront
    rw [String.utf8Len_eq_zero.mp hfront]
  · split
    · rename_i hall
      have hpending : i.pending = [] := by
        rw [String.utf8Len_append] at hall
        exact String.utf8Len_eq_zero.mp (by omega)
      simp [stored, hpending]
    · rw [rest_stored]
      rfl

end

end HtmlStream.Guarded

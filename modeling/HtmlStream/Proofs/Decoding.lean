import HtmlStream.Input
import HtmlStream.Proofs.Utf8.Lossy

/-! # Incremental decoding is whole-input decoding

The decoder meets its bytes in chunks and remembers an unfinished sequence, a carriage return and
whether it is at the start. None of this shows: what the machine can read is the whole input, decoded,
without its byte order mark and with its newlines normalized.

* **`normalizeNewlines`**, **`stripBom`**: the two passes over the decoded text.
* **`Input.toRead`**: all that is still to be read if given bytes and then the end come. No chunk
  changes it (`toRead_receive`).
* **`Input.reads_start`**: whatever is read between the chunks, the characters read are those of the
  whole input after both passes. -/

namespace HtmlStream

/-! ## (1) The two passes -/

/-- Replaces every CR LF pair and every other CR by one LF. -/
def normalizeNewlines : List Char → List Char
  | [] => []
  | '\r' :: '\n' :: rest => '\n' :: normalizeNewlines rest
  | '\r' :: rest => '\n' :: normalizeNewlines rest
  | c :: rest => c :: normalizeNewlines rest

/-- Removes one U+FEFF at the front, if `discardBom` asks for it. -/
def stripBom (discardBom : Bool) : List Char → List Char
  | [] => []
  | c :: rest => if discardBom && c = '\uFEFF' then rest else c :: rest

/-- The rest of the text behind a CR: the LF of a pair is gone. -/
def dropNewline : List Char → List Char
  | '\n' :: rest => rest
  | cs => cs

theorem normalizeNewlines_return (rest : List Char) :
    normalizeNewlines ('\r' :: rest) = '\n' :: normalizeNewlines (dropNewline rest) := by
  unfold dropNewline
  split
  · rw [normalizeNewlines]
  · rename_i h
    rw [normalizeNewlines]
    exact fun tail htail => h tail htail

theorem normalizeNewlines_cons {c : Char} (h : c ≠ '\r') (rest : List Char) :
    normalizeNewlines (c :: rest) = c :: normalizeNewlines rest := by
  rw [normalizeNewlines] <;> simp [h]

theorem dropNewline_cons {c : Char} (h : c ≠ '\n') (rest : List Char) :
    dropNewline (c :: rest) = c :: rest := by
  unfold dropNewline
  split
  · simp_all
  · rfl

/-- No CR is left. -/
theorem return_notMem_normalizeNewlines (cs : List Char) : '\r' ∉ normalizeNewlines cs := by
  induction cs using normalizeNewlines.induct with
  | case1 => simp [normalizeNewlines]
  | case2 rest ih => simpa [normalizeNewlines] using ih
  | case3 rest hnl ih =>
    -- a CR that no LF follows
    rw [normalizeNewlines]
    · simpa using ih
    · exact fun tail htail => hnl tail htail
  | case4 c rest hpair hret ih =>
    -- any other character
    have hc : c ≠ '\r' := fun hc => hret hc
    rw [normalizeNewlines_cons hc]
    simpa [hc.symm] using ih

/-- Text without CR stays as it is. -/
theorem normalizeNewlines_of_notMem {cs : List Char} (h : '\r' ∉ cs) :
    normalizeNewlines cs = cs := by
  induction cs with
  | nil => rfl
  | cons c rest ih =>
    rw [List.mem_cons, not_or] at h
    rw [normalizeNewlines_cons (Ne.symm h.1), ih h.2]

example : normalizeNewlines ['a', '\r', '\n', '\r', '\r', '\n', '\n'] = ['a', '\n', '\n', '\n', '\n'] :=
  by decide

/-! ## (2) What the decoder lets through -/

namespace Decoder

/-- What the machine is to read of decoded characters. -/
def shown (d : Decoder) (cs : List Char) : List Char := (d.settleAll #[] cs).1.toList

/-- The decoder behind decoded characters. -/
def past (d : Decoder) (cs : List Char) : Decoder := (d.settleAll #[] cs).2

/-- A character is appended to what is there. -/
theorem settle_append (d : Decoder) (out : Array Char) (c : Char) :
    d.settle out c = (out ++ (d.settle #[] c).1, (d.settle #[] c).2) := by
  unfold settle
  split
  · simp
  · split
    · simp
    · split <;> simp

/-- **Characters are appended to what is there**, and only the flags decide which. -/
theorem settleAll_append (d : Decoder) (out : Array Char) (cs : List Char) :
    d.settleAll out cs = (out ++ (d.settleAll #[] cs).1, (d.settleAll #[] cs).2) := by
  induction cs generalizing d out with
  | nil => simp [settleAll]
  | cons c rest ih =>
    rw [settleAll, settleAll, settle_append]
    simp only
    rw [ih _ (out ++ _), ih _ (d.settle #[] c).1, Array.append_assoc]

@[simp] theorem shown_nil (d : Decoder) : d.shown [] = [] := rfl

theorem shown_cons (d : Decoder) (c : Char) (rest : List Char) :
    d.shown (c :: rest) = (d.settle #[] c).1.toList ++ (d.settle #[] c).2.shown rest := by
  rw [shown, settleAll]
  simp only
  rw [settleAll_append, shown, Array.toList_append]

theorem past_cons (d : Decoder) (c : Char) (rest : List Char) :
    d.past (c :: rest) = (d.settle #[] c).2.past rest := by
  rw [past, settleAll]
  simp only
  rw [settleAll_append, past]

theorem shown_append (d : Decoder) (cs cs' : List Char) :
    d.shown (cs ++ cs') = d.shown cs ++ (d.past cs).shown cs' := by
  induction cs generalizing d with
  | nil => rfl
  | cons c rest ih => rw [List.cons_append, shown_cons, shown_cons, past_cons, ih, List.append_assoc]

/-- The carry plays no part once characters are decoded. -/
theorem settle_carry (d : Decoder) (carry : Bytes) (c : Char) :
    { d with carry }.settle #[] c
      = ((d.settle #[] c).1, { (d.settle #[] c).2 with carry }) := by
  unfold settle
  simp only
  split
  · rfl
  · split
    · rfl
    · split <;> rfl

theorem shown_carry (d : Decoder) (carry : Bytes) (cs : List Char) :
    { d with carry }.shown cs = d.shown cs := by
  induction cs generalizing d with
  | nil => rfl
  | cons c rest ih => rw [shown_cons, shown_cons, settle_carry, ih]

theorem carry_past (d : Decoder) (cs : List Char) : (d.past cs).carry = d.carry := by
  induction cs generalizing d with
  | nil => rfl
  | cons c rest ih =>
    have hsettle : (d.settle #[] c).2.carry = d.carry := by
      unfold settle
      split
      · rfl
      · split
        · rfl
        · split <;> rfl
    rw [past_cons, ih, hsettle]

/-- A carriage return in front is all that counts behind the first character. -/
theorem shown_of_not_atStart {d : Decoder} (h : d.atStart = false) (cs : List Char) :
    d.shown cs = normalizeNewlines (if d.afterReturn then dropNewline cs else cs) := by
  induction cs generalizing d with
  | nil => cases d.afterReturn <;> rfl
  | cons c rest ih =>
    rw [shown_cons]
    unfold settle
    rw [h, Bool.false_and, Bool.false_and, if_neg Bool.false_ne_true]
    by_cases hr : c = '\r'
    · -- a CR is shown as LF at once, and the flag it leaves drops the LF of a pair
      rw [if_pos hr, ih rfl, hr, dropNewline_cons (by decide), ite_self, normalizeNewlines_return]
      rfl
    · rw [if_neg hr]
      by_cases hn : c = '\n'
      · rw [hn]
        cases ha : d.afterReturn with
        | true =>
          -- the LF of a pair
          rw [if_pos (by simp), ih rfl]
          rfl
        | false =>
          rw [if_neg (by simp), ih rfl, if_neg (by simp), if_neg (by simp),
            normalizeNewlines_cons (by decide)]
          rfl
      · rw [if_neg (by simp [hn]), ih rfl, dropNewline_cons hn, ite_self,
          normalizeNewlines_cons hr]
        rfl

/-- **At the start** both passes are made over all that comes. -/
theorem shown_start (discardBom : Bool) (cs : List Char) :
    ({ discardBom } : Decoder).shown cs = normalizeNewlines (stripBom discardBom cs) := by
  -- only the first character is read at the start
  cases cs with
  | nil => rfl
  | cons c rest =>
    rw [stripBom]
    by_cases hb : (discardBom && decide (c = '\uFEFF')) = true
    · rw [if_pos hb, shown_cons]
      unfold settle
      rw [if_pos (by simpa using hb), shown_of_not_atStart rfl]
      rfl
    · -- without a mark to drop, the start is no different from what follows it
      have hsettle : ({ discardBom } : Decoder).settle #[] c
          = ({ discardBom, atStart := false } : Decoder).settle #[] c := by
        simp only [settle]
        rw [if_neg (by simpa using hb), Bool.false_and, Bool.false_and, if_neg Bool.false_ne_true]
      rw [if_neg hb, shown_cons, hsettle, ← shown_cons, shown_of_not_atStart rfl]
      rfl

/-- All that bytes to come and then the end let through. -/
def toShow (d : Decoder) (bs : Bytes) : List Char := d.shown (Utf8.decodeFrom d.carry bs)

/-- One byte and what comes behind it. -/
theorem toShow_cons (d : Decoder) (b : UInt8) (rest : Bytes) :
    d.toShow (b :: rest) = (d.byte #[] b).1.toList ++ (d.byte #[] b).2.toShow rest := by
  have hcarry := carry_past { d with carry := (Utf8.decodeByte d.carry b).2 }
    (Utf8.decodeByte d.carry b).1
  rw [toShow, Utf8.decodeFrom, ← shown_carry d (Utf8.decodeByte d.carry b).2, shown_append, toShow]
  rw [past] at hcarry
  rw [byte, hcarry]
  rfl

/-- A byte is appended to what is there. -/
theorem byte_append (d : Decoder) (out : Array Char) (b : UInt8) :
    d.byte out b = (out ++ (d.byte #[] b).1, (d.byte #[] b).2) := by
  rw [byte, byte]
  simp only
  rw [settleAll_append]

/-- **No chunk changes what is shown** of the bytes as a whole. -/
theorem toShow_append (d : Decoder) (out : Array Char) (bs bs' : Bytes) :
    (d.bytes out bs).1.toList ++ (d.bytes out bs).2.toShow bs'
      = out.toList ++ d.toShow (bs ++ bs') := by
  induction bs generalizing d out with
  | nil => rfl
  | cons b rest ih =>
    rw [bytes, byte_append]
    simp only
    rw [ih, List.cons_append, toShow_cons, Array.toList_append, List.append_assoc]

/-- The end settles what is shown of no more bytes. -/
theorem toList_finish (d : Decoder) : d.finish.1.toList = d.toShow [] := by
  rw [finish, toShow, Utf8.decodeFrom]
  split
  · rfl
  · rw [settle_carry, shown_cons, shown_nil, List.append_nil]

theorem toShow_start (discardBom : Bool) (bs : Bytes) :
    ({ discardBom } : Decoder).toShow bs
      = normalizeNewlines (stripBom discardBom (Utf8.lossy bs).toList) := by
  rw [toShow, shown_start, ← Utf8.toList_lossy_append (Or.inl rfl)]
  rfl

end Decoder

/-! ## (3) What is read -/

namespace Input

/-- All that is still to be read if the bytes `bs` and then the end come. -/
def toRead (i : Input) (bs : Bytes) : List Char := i.pending ++ i.decoder.toShow bs

theorem toRead_start (discardBom : Bool) (bs : Bytes) :
    (start discardBom).toRead bs
      = normalizeNewlines (stripBom discardBom (Utf8.lossy bs).toList) :=
  Decoder.toShow_start discardBom bs

/-- **Chunks do not show**: a chunk takes its bytes from those to come. -/
theorem toRead_receive (i : Input) (chunk bs : Bytes) :
    (i.receive chunk).toRead bs = i.toRead (chunk ++ bs) := by
  have hshow := i.decoder.toShow_append #[] chunk bs
  rw [toRead, toRead, receive]
  simp only
  rw [List.append_assoc, hshow]
  rfl

/-- At the end all that was to be read is there. -/
theorem pending_finish (i : Input) : i.finish.pending = i.toRead [] := by
  rw [finish, toRead]
  simp only
  rw [Decoder.toList_finish]

/-- The characters read of an input that receives chunks and then the end: `n` of them at most after
a chunk that comes with `n`, and all that are left at the end. -/
def reads (i : Input) : List (Bytes × Nat) → List Char
  | [] => i.finish.pending
  | (chunk, n) :: rest =>
    (i.receive chunk).pending.take n ++ ((i.receive chunk).skip n).reads rest

/-- **Reading between the chunks does not show** either. -/
theorem reads_eq (i : Input) (plan : List (Bytes × Nat)) :
    i.reads plan = i.toRead (plan.flatMap Prod.fst) := by
  induction plan generalizing i with
  | nil => rw [reads, pending_finish, List.flatMap_nil]
  | cons entry rest ih =>
    obtain ⟨chunk, n⟩ := entry
    -- what is taken and what is left are together what was pending
    rw [reads, ih, List.flatMap_cons, ← toRead_receive]
    simp only [toRead, skip]
    rw [← List.append_assoc, List.take_append_drop]

/-- **Incremental decoding is whole-input decoding.** However a byte string is cut into chunks and
however much is read after each, the characters read are those of the whole, decoded with one U+FFFD
for each maximal malformed subpart, without its byte order mark if `discardBom` asks for that, and with
its newlines normalized. No CR is among them. -/
theorem reads_start (discardBom : Bool) (plan : List (Bytes × Nat)) :
    let bytes := plan.flatMap Prod.fst
    let decoded := (Utf8.lossy bytes).toList
    (∀ cs, Utf8.Decodes bytes cs ↔ cs = decoded) ∧
      (start discardBom).reads plan = normalizeNewlines (stripBom discardBom decoded) ∧
      '\r' ∉ (start discardBom).reads plan := by
  intro bytes decoded
  have hreads : (start discardBom).reads plan
      = normalizeNewlines (stripBom discardBom decoded) := by
    rw [reads_eq, toRead_start]
  refine ⟨fun cs => Utf8.decodes_iff, hreads, ?_⟩
  rw [hreads]
  exact return_notMem_normalizeNewlines _

end Input

end HtmlStream

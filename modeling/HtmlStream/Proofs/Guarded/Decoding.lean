import HtmlStream.Proofs.Decoding
import HtmlStream.Proofs.Guarded.Input

/-! # Decoding a chunk at a time

A chunk is not decoded byte by byte. Its well-formed part is taken as a whole, then one malformed
subpart, and so on; a part goes into the text line by line, because carriage returns are looked for in
its bytes. Both are loops that cut at places which a search has found. No cut fails, the loops end, and
the text is that of the decoder that takes one byte at a time.

* **`Utf8.decodeBytes`**: the characters that bytes settle behind a carry, and the carry behind them.
  `Utf8.faultFrom_cases`: where the first fault stands, and what is settled up to it.
* **`repeatRounds`**: a loop whose rounds may fail, and that fails itself if it would not end.
* **`ByteInput.pushText`**, **`decode`**, **`push`**, **`finish`**: from bytes to text.
* **`push_stored`**, **`finish_stored`**: they do what `Input.receive` and `Input.finish` do. -/

namespace HtmlStream

/-! ## (1) Bytes behind a carry -/

namespace Utf8

open Guarded

/-- The characters that bytes settle behind a carry, and the carry behind them. -/
def decodeBytes (carry : Bytes) : Bytes → List Char × Bytes
  | [] => ([], carry)
  | b :: rest =>
    let (settled, carry) := decodeByte carry b
    let (settled', carry') := decodeBytes carry rest
    (settled ++ settled', carry')

/-- What is settled by bytes in front does not depend on those behind. -/
theorem decodeBytes_append (carry xs ys : Bytes) :
    decodeBytes carry (xs ++ ys)
      = ((decodeBytes carry xs).1 ++ (decodeBytes (decodeBytes carry xs).2 ys).1,
          (decodeBytes (decodeBytes carry xs).2 ys).2) := by
  induction xs generalizing carry with
  | nil => rfl
  | cons b xs ih => simp only [List.cons_append, decodeBytes, ih, List.append_assoc]

/-- The carry may be held. -/
theorem held_decodeBytes {carry : Bytes} (h : Held carry) (bs : Bytes) :
    Held (decodeBytes carry bs).2 := by
  induction bs generalizing carry with
  | nil => exact h
  | cons b rest ih => exact ih (held_decodeByte carry b)

/-- Held bytes settle nothing. -/
theorem decodeBytes_held {held : Bytes} (h : Held held) : decodeBytes [] held = ([], held) := by
  induction held using List.reverseRecOn with
  | nil => rfl
  | append_singleton bs b ih =>
    have hs : shape (bs ++ [b]) = .unfinished := by
      rcases h with h | h
      · simp at h
      · exact h
    have hbs : Held bs := held_of_append (by rw [hs]; simp)
    rw [decodeBytes_append, ih hbs]
    simp [decodeBytes, decodeByte, hs]

/-- **What stands at the front and what it settles**: an encoding, a malformed subpart with the rest
behind it, or an unfinished sequence that the bytes end in. -/
theorem extend_decodeBytes {held : Bytes} (h : Held held) (rest : Bytes) :
    (∃ c rest', held ++ rest = String.utf8EncodeChar c ++ rest' ∧
      Piece.extend held rest = .char c (String.utf8EncodeChar c).length ∧
      decodeBytes held rest = (c :: (decodeBytes [] rest').1, (decodeBytes [] rest').2)) ∨
    (∃ sub rest', sub ≠ [] ∧ held ++ rest = sub ++ rest' ∧
      Piece.extend held rest = .malformed sub.length ∧
      decodeBytes held rest = (replacement :: (decodeBytes [] rest').1, (decodeBytes [] rest').2)) ∨
    (Piece.extend held rest = .truncated (held ++ rest).length ∧
      decodeBytes held rest = ([], held ++ rest)) := by
  -- induction on the bytes still to come; `held` grows by one as long as it stays unfinished
  induction rest generalizing held with
  | nil => exact .inr (.inr ⟨by rw [List.append_nil]; rfl, by rw [List.append_nil]; rfl⟩)
  | cons b rest ih =>
    cases hs : shape (held ++ [b]) with
    | complete c =>
      have hc := shape_eq_complete_iff.mp hs
      refine .inl ⟨c, rest, ?_, ?_, ?_⟩
      · rw [← hc, List.append_assoc, List.singleton_append]
      · rw [Piece.extend, hs, ← hc, List.length_append, List.length_singleton]
      · rw [decodeBytes, decodeByte, hs]
        rfl
    | unfinished =>
      have hgoes : decodeBytes held (b :: rest) = decodeBytes (held ++ [b]) rest := by
        rw [decodeBytes, decodeByte, hs]
        rfl
      have hheld : Held (held ++ [b]) := Or.inr hs
      have hfront := ih hheld
      rw [List.append_assoc, List.singleton_append] at hfront
      rw [Piece.extend, hs, hgoes]
      exact hfront
    | malformed =>
      rw [Piece.extend, hs]
      refine .inr (.inl ?_)
      -- `b` is the subpart if nothing is held, else it is left for the next piece
      rcases h with rfl | hheld
      · refine ⟨[b], rest, by simp, rfl, rfl, ?_⟩
        rw [decodeBytes, decodeByte, hs]
        rfl
      · have hne := (shape_eq_unfinished_iff.mp hheld).1
        refine ⟨held, b :: rest, hne, rfl, ?_, ?_⟩
        · have hpos := List.length_pos_of_ne_nil hne
          show Piece.malformed (max held.length 1) = _
          rw [Nat.max_eq_left hpos]
        · rw [decodeBytes, decodeByte_of_malformed hne hs]
          rfl

theorem faultFrom_eq_drop (valid skip : Nat) (bs : Bytes) :
    faultFrom valid skip bs = faultFrom valid 0 (bs.drop skip) := by
  induction bs generalizing skip with
  | nil => simp [faultFrom]
  | cons b rest ih =>
    cases skip with
    | zero => rfl
    | succ skip => rw [faultFrom, ih, List.drop_succ_cons]

/-- Looking for a fault piece by piece. -/
theorem faultFrom_eq (valid : Nat) {bs : Bytes} (h : bs ≠ []) :
    faultFrom valid 0 bs =
      match Piece.first bs with
      | .char _ n => faultFrom (valid + n) 0 (bs.drop n)
      | .malformed n => some ⟨valid, some n⟩
      | .truncated _ => some ⟨valid, none⟩ := by
  have hpos := Piece.size_extend_pos [] bs h
  obtain ⟨b, rest, rfl⟩ := List.exists_cons_of_ne_nil h
  rw [faultFrom]
  cases hfirst : Piece.first (b :: rest) with
  | char c n =>
    have hn : 0 < n := by
      rw [← Piece.first, hfirst] at hpos
      exact hpos
    obtain ⟨k, rfl⟩ := Nat.exists_eq_succ_of_ne_zero (Nat.ne_of_gt hn)
    show faultFrom _ (k + 1 - 1) rest = faultFrom _ 0 (List.drop (k + 1) (b :: rest))
    rw [Nat.add_sub_cancel, faultFrom_eq_drop, List.drop_succ_cons]
  | malformed n => rfl
  | truncated n => rfl

/-- **Where the first fault stands**: behind well-formed text, which is settled, and in front of a
malformed subpart or of an unfinished sequence. -/
theorem faultFrom_cases (valid : Nat) (bs : Bytes) :
    (∃ cs, bs = bytesOf cs ∧ faultFrom valid 0 bs = none ∧ decodeBytes [] bs = (cs, [])) ∨
    (∃ cs sub rest, sub ≠ [] ∧ bs = bytesOf cs ++ (sub ++ rest) ∧
      faultFrom valid 0 bs = some ⟨valid + (bytesOf cs).length, some sub.length⟩ ∧
      decodeBytes [] bs
        = (cs ++ replacement :: (decodeBytes [] rest).1, (decodeBytes [] rest).2)) ∨
    (∃ cs held, bs = bytesOf cs ++ held ∧
      faultFrom valid 0 bs = some ⟨valid + (bytesOf cs).length, none⟩ ∧
      decodeBytes [] bs = (cs, held)) := by
  -- every character covers a byte at least, so what follows the first is shorter
  induction hn : bs.length using Nat.strong_induction_on generalizing valid bs with
  | _ n ih =>
    by_cases hne : bs = []
    · rw [hne]
      exact .inl ⟨[], rfl, rfl, rfl⟩
    · rw [faultFrom_eq valid hne, Piece.first]
      rcases extend_decodeBytes (Or.inl rfl) bs with
        ⟨c, rest, hbs, hpiece, hdecode⟩ | ⟨sub, rest, hsub, hbs, hpiece, hdecode⟩ |
          ⟨hpiece, hdecode⟩
      · rw [List.nil_append] at hbs
        have hpos := List.length_pos_of_ne_nil (String.utf8EncodeChar_ne_nil (c := c))
        have hlt : rest.length < n := by
          rw [← hn, hbs, List.length_append]
          omega
        have hdrop : bs.drop (String.utf8EncodeChar c).length = rest := by
          rw [hbs, List.drop_left]
        simp only [hpiece, hdrop, hdecode]
        rcases ih rest.length hlt (valid + (String.utf8EncodeChar c).length) rest rfl with
          ⟨cs, hrest, hnone, hcs⟩ | ⟨cs, sub, rest', hsub, hrest, hsome, hcs⟩ |
            ⟨cs, held, hrest, hsome, hcs⟩
        · exact .inl ⟨c :: cs, by rw [hbs, hrest]; rfl, hnone, by rw [hcs]⟩
        · refine .inr (.inl ⟨c :: cs, sub, rest', hsub, ?_, ?_, by rw [hcs]; rfl⟩)
          · rw [hbs, hrest, bytesOf_cons, List.append_assoc]
          · rw [hsome, bytesOf_cons, List.length_append, Nat.add_assoc]
        · refine .inr (.inr ⟨c :: cs, held, ?_, ?_, by rw [hcs]⟩)
          · rw [hbs, hrest, bytesOf_cons, List.append_assoc]
          · rw [hsome, bytesOf_cons, List.length_append, Nat.add_assoc]
      · rw [List.nil_append] at hbs
        simp only [hpiece]
        exact .inr (.inl ⟨[], sub, rest, hsub, hbs, rfl, hdecode⟩)
      · simp only [hpiece]
        exact .inr (.inr ⟨[], bs, rfl, rfl, hdecode⟩)

theorem faultFrom_bytesOf (valid : Nat) (cs : List Char) :
    faultFrom valid 0 (bytesOf cs) = none := by
  induction cs generalizing valid with
  | nil => rfl
  | cons c cs ih =>
    rw [bytesOf_cons, faultFrom_eq valid (by simp [String.utf8EncodeChar_ne_nil]),
      first_encodeChar_append]
    simp only [List.drop_left, ih]

theorem validate_bytesOf (cs : List Char) : validate (bytesOf cs) = .ok (String.ofList cs) := by
  have hlossy := lossy_encode (String.ofList cs)
  rw [encode, String.toList_ofList] at hlossy
  rw [validate, faultFrom_bytesOf]
  exact congrArg Except.ok hlossy

end Utf8

/-! ## (2) Characters behind characters -/

namespace Decoder

theorem past_append (d : Decoder) (cs cs' : List Char) : d.past (cs ++ cs') = (d.past cs).past cs' := by
  induction cs generalizing d with
  | nil => rfl
  | cons c rest ih => rw [List.cons_append, past_cons, past_cons, ih]

/-- The decoder with another carry. -/
def holding (d : Decoder) (carry : Bytes) : Decoder := { d with carry }

theorem carry_holding (d : Decoder) (carry : Bytes) : (d.holding carry).carry = carry := rfl

theorem holding_holding (d : Decoder) (carry carry' : Bytes) :
    (d.holding carry).holding carry' = d.holding carry' := rfl

theorem shown_holding (d : Decoder) (carry : Bytes) (cs : List Char) :
    (d.holding carry).shown cs = d.shown cs := shown_carry d carry cs

theorem past_holding (d : Decoder) (carry : Bytes) (cs : List Char) :
    (d.holding carry).past cs = (d.past cs).holding carry := by
  induction cs generalizing d with
  | nil => rfl
  | cons c rest ih =>
    have hsettle : ((d.holding carry).settle #[] c).2 = (d.settle #[] c).2.holding carry := by
      rw [holding, settle_carry, holding]
    rw [past_cons, past_cons, hsettle, ih]

/-- **A chunk at a time** is a byte at a time. -/
theorem bytes_eq (d : Decoder) (out : Array Char) (bs : Bytes) :
    (d.bytes out bs).1.toList = out.toList ++ d.shown (Utf8.decodeBytes d.carry bs).1 ∧
    (d.bytes out bs).2
      = (d.past (Utf8.decodeBytes d.carry bs).1).holding (Utf8.decodeBytes d.carry bs).2 := by
  induction bs generalizing d out with
  | nil => exact ⟨by simp [bytes, Utf8.decodeBytes], rfl⟩
  | cons b rest ih =>
    -- the carry of the byte is there before its characters are taken, which do not use it
    have hout : (d.byte #[] b).1.toList = d.shown (Utf8.decodeByte d.carry b).1 :=
      shown_holding d (Utf8.decodeByte d.carry b).2 (Utf8.decodeByte d.carry b).1
    have hbehind : (d.byte #[] b).2
        = (d.past (Utf8.decodeByte d.carry b).1).holding (Utf8.decodeByte d.carry b).2 :=
      past_holding d (Utf8.decodeByte d.carry b).2 (Utf8.decodeByte d.carry b).1
    obtain ⟨hrest, hlast⟩ := ih (d.byte #[] b).2 (out ++ (d.byte #[] b).1)
    rw [bytes, byte_append]
    simp only [Utf8.decodeBytes, shown_append, past_append]
    rw [hrest, hlast, hbehind]
    simp only [Array.toList_append, hout, carry_holding, shown_holding, past_holding,
      holding_holding, List.append_assoc, and_self]

/-- Characters that stand between newlines are shown as they are. -/
theorem settle_plain {d : Decoder} (hstart : d.atStart = false) (hreturn : d.afterReturn = false)
    {c : Char} (hc : c ≠ '\r') : d.settle #[] c = (#[c], d) := by
  cases d
  simp_all [settle]

theorem shown_plain {d : Decoder} (hstart : d.atStart = false) (hreturn : d.afterReturn = false)
    {cs : List Char} (hcs : '\r' ∉ cs) : d.shown cs = cs ∧ d.past cs = d := by
  induction cs with
  | nil => exact ⟨rfl, rfl⟩
  | cons c rest ih =>
    rw [List.mem_cons, not_or] at hcs
    obtain ⟨hshown, hpast⟩ := ih hcs.2
    rw [shown_cons, past_cons, settle_plain hstart hreturn (Ne.symm hcs.1), hshown, hpast]
    exact ⟨rfl, rfl⟩

/-- The decoder behind a carriage return, or not behind one. -/
def returned (d : Decoder) (afterReturn : Bool) : Decoder := { d with afterReturn }

/-- The decoder behind its first character. -/
def started (d : Decoder) : Decoder := { d with atStart := false }

/-- A carriage return is a newline at once. -/
theorem shown_return {d : Decoder} (hstart : d.atStart = false) :
    d.shown ['\r'] = ['\n'] ∧ d.past ['\r'] = d.returned true := by
  cases d
  simp_all [shown, past, settleAll, settle, returned]

/-- Behind a carriage return the LF of a pair is dropped. -/
theorem shown_dropNewline {d : Decoder} (hstart : d.atStart = false) (hreturn : d.afterReturn = true)
    {cs : List Char} (hcs : cs ≠ []) :
    d.shown cs = (d.returned false).shown (dropNewline cs) ∧
      d.past cs = (d.returned false).past (dropNewline cs) := by
  obtain ⟨c, rest, rfl⟩ := List.exists_cons_of_ne_nil hcs
  rw [shown_cons, past_cons]
  by_cases hc : c = '\n'
  · have hsettle : d.settle #[] c = (#[], d.returned false) := by
      cases d
      simp_all [settle, returned]
    rw [hsettle, hc]
    exact ⟨rfl, rfl⟩
  · have hsettle : d.settle #[] c = (d.returned false).settle #[] c := by
      cases d
      simp_all [settle, returned]
    rw [dropNewline_cons hc, hsettle, shown_cons, past_cons]
    exact ⟨rfl, rfl⟩

/-- At the start the byte order mark is dropped. -/
theorem shown_stripBom {d : Decoder} (hstart : d.atStart = true) {cs : List Char} (hcs : cs ≠ []) :
    d.shown cs = d.started.shown (stripBom d.discardBom cs) ∧
      d.past cs = d.started.past (stripBom d.discardBom cs) := by
  obtain ⟨c, rest, rfl⟩ := List.exists_cons_of_ne_nil hcs
  rw [shown_cons, past_cons, stripBom]
  by_cases hmark : (d.discardBom && decide (c = '\uFEFF')) = true
  · have hsettle : d.settle #[] c = (#[], d.started) := by
      cases d
      simp_all [settle, started]
    rw [if_pos hmark, hsettle]
    exact ⟨rfl, rfl⟩
  · have hsettle : d.settle #[] c = d.started.settle #[] c := by
      cases d
      simp_all [settle, started]
    rw [if_neg hmark, hsettle, shown_cons, past_cons]
    exact ⟨rfl, rfl⟩

end Decoder

namespace Guarded

/-! ## (3) Loops -/

variable {α : Type} {round : ByteInput → List α → Except Fault (ByteInput × Option (List α))}

/-- Repeats a round, which takes a part of a list and leaves the rest, until it leaves none. A round that
takes nothing would be repeated without end. -/
def repeatRounds (round : ByteInput → List α → Except Fault (ByteInput × Option (List α)))
    (b : ByteInput) (xs : List α) : Except Fault ByteInput :=
  match round b xs with
  | .error f => .error f
  | .ok (b, none) => .ok b
  | .ok (b, some rest) =>
    if rest.length < xs.length then repeatRounds round b rest else .error .endless
termination_by xs.length
decreasing_by assumption

/-- **A loop comes to its end** if each round does, or leaves less to do and the same outcome. -/
theorem repeatRounds_eq {P : ByteInput → List α → Prop} {outcome : ByteInput → List α → ByteInput}
    (h : ∀ b xs, P b xs → round b xs = .ok (outcome b xs, none) ∨
      ∃ b' rest, round b xs = .ok (b', some rest) ∧ rest.length < xs.length ∧ P b' rest ∧
        outcome b' rest = outcome b xs)
    {b : ByteInput} {xs : List α} (hP : P b xs) : repeatRounds round b xs = .ok (outcome b xs) := by
  induction hn : xs.length using Nat.strong_induction_on generalizing b xs with
  | _ n ih =>
    rw [repeatRounds]
    rcases h b xs hP with hlast | ⟨b', rest, hround, hlt, hP', hsame⟩
    · rw [hlast]
    · have hrest := ih rest.length (hn ▸ hlt) hP' rfl
      rw [hround]
      simp only [if_pos hlt, hrest, hsame]

namespace ByteInput

/-! ## (4) From bytes to text -/

/-- The buffer with another carry. -/
def holding (b : ByteInput) (carry : Bytes) : ByteInput :=
  { b with decoder := b.decoder.holding carry }

/-- Takes a line that ends in a carriage return, which becomes LF. If nothing is behind it, the LF of a
pair may still come. -/
def putLine (b : ByteInput) (line behind : List Char) : ByteInput :=
  { b with
    text := b.text ++ line ++ ['\n']
    decoder := b.decoder.returned behind.isEmpty }

/-- Takes the text up to the next carriage return, and drops the LF of a pair. -/
def pushLine (b : ByteInput) (text : List Char) : Except Fault (ByteInput × Option (List Char)) :=
  match findByte ['\r'] (bytesOf text) with
  | none => .ok ({ b with text := b.text ++ text }, none)
  | some idx => do
    let line ← sliceTo text idx
    let behind ← sliceFrom text (idx + 1)
    return (b.putLine line behind, some (dropNewline behind))

/-- Drops the byte order mark at the start. -/
def dropMark (b : ByteInput) (text : List Char) : ByteInput × List Char :=
  if b.decoder.atStart then
    ({ b with decoder := b.decoder.started }, stripBom b.decoder.discardBom text)
  else (b, text)

/-- Drops the LF of a pair whose CR came before. -/
def dropPair (b : ByteInput) (text : List Char) : ByteInput × List Char :=
  if b.decoder.afterReturn && !text.isEmpty then
    ({ b with decoder := b.decoder.returned false }, dropNewline text)
  else (b, text)

/-- Takes decoded text. -/
def pushText (b : ByteInput) (text : List Char) : Except Fault ByteInput :=
  if text.isEmpty then .ok b
  else
    let (b, text) := b.dropMark text
    let (b, text) := b.dropPair text
    repeatRounds pushLine b text

/-- Takes bytes if they are well-formed. -/
def pushValid (b : ByteInput) (bytes : Bytes) : Except Fault ByteInput :=
  match Utf8.validate bytes with
  | .ok text => b.pushText text.toList
  | .error _ => .ok b

/-- Takes well-formed bytes up to the first fault, and a malformed subpart as one U+FFFD. An unfinished
sequence is carried. -/
def decodeRound (b : ByteInput) (bytes : Bytes) : Except Fault (ByteInput × Option Bytes) :=
  match Utf8.validate bytes with
  | .ok text => do
    let b ← b.pushText text.toList
    return (b, none)
  | .error fault => do
    let (valid, behind) ← splitBytes bytes fault.validUpTo
    let b ← b.pushValid valid
    match fault.faultLength with
    | some n =>
      let b ← b.pushText [Utf8.replacement]
      let (_, rest) ← splitBytes behind n
      return (b, some rest)
    | none => return (b.holding (b.decoder.carry ++ behind), none)

/-- Decodes bytes. -/
def decode (b : ByteInput) (bytes : Bytes) : Except Fault ByteInput :=
  repeatRounds decodeRound b bytes

/-- Decodes a chunk. While there is a carry, one byte at a time is decoded with it. -/
def pushBytes (b : ByteInput) : Bytes → Except Fault ByteInput
  | [] => .ok b
  | x :: rest =>
    if b.decoder.carry.isEmpty then b.decode (x :: rest)
    else do
      let next ← (b.holding []).decode (b.decoder.carry ++ [x])
      next.pushBytes rest

/-- Takes a chunk, which must not come behind the end of the input. -/
def push (b : ByteInput) (chunk : Bytes) : Except Fault ByteInput :=
  if b.finished then .error .pushAfterEnd else b.pushBytes chunk

/-- Settles a carry that no byte can go on from any more. -/
def settleCarry (b : ByteInput) : Except Fault ByteInput :=
  if b.decoder.carry.isEmpty then .ok b
  else (b.holding []).pushText (Utf8.lossy b.decoder.carry).toList

/-- Takes the end of the input. -/
def finish (b : ByteInput) : Except Fault ByteInput := do
  let b ← b.settleCarry
  return { b with finished := true }

/-! ## (5) What becomes of the text -/

/-- The buffer behind decoded characters. -/
def put (b : ByteInput) (cs : List Char) : ByteInput :=
  { b with decoder := b.decoder.past cs, text := b.text ++ b.decoder.shown cs }

/-- The buffer behind bytes. -/
def putBytes (b : ByteInput) (bs : Bytes) : ByteInput :=
  (b.put (Utf8.decodeBytes b.decoder.carry bs).1).holding (Utf8.decodeBytes b.decoder.carry bs).2

theorem put_nil (b : ByteInput) : b.put [] = b := by
  rw [put, Decoder.shown_nil, List.append_nil]
  rfl

theorem put_append (b : ByteInput) (cs cs' : List Char) :
    b.put (cs ++ cs') = (b.put cs).put cs' := by
  simp only [put, Decoder.shown_append, Decoder.past_append, List.append_assoc]

theorem put_eq {b : ByteInput} {d : Decoder} {cs cs' : List Char}
    (h : b.decoder.shown cs = d.shown cs' ∧ b.decoder.past cs = d.past cs') :
    b.put cs = { b with decoder := d }.put cs' := by
  simp only [put, h]

/-- **A round** takes the rest of the text, or cuts it in front of a return and behind it. -/
theorem pushLine_cases (b : ByteInput) (text : List Char) :
    ('\r' ∉ text ∧ b.pushLine text = .ok ({ b with text := b.text ++ text }, none)) ∨
    ∃ line behind, '\r' ∉ line ∧ text = line ++ '\r' :: behind ∧
      b.pushLine text = .ok (b.putLine line behind, some (dropNewline behind)) := by
  have hascii : ∀ c ∈ ['\r'], c.utf8Size = 1 := by
    intro c hc
    rw [List.mem_singleton.mp hc]
    rfl
  rcases findByte_bytesOf hascii text with ⟨hnone, hall⟩ | ⟨line, c, behind, rfl, hc, hline, hfind⟩
  · refine .inl ⟨fun hmem => hall '\r' hmem List.mem_cons_self, ?_⟩
    rw [pushLine, hnone]
  · rw [List.mem_singleton] at hc
    subst hc
    have hto := sliceTo_append line ('\r' :: behind)
    have hfrom := sliceFrom_append (line ++ ['\r']) behind
    rw [String.utf8Len_append, ← List.append_cons] at hfrom
    refine .inr ⟨line, behind, fun hmem => hline '\r' hmem List.mem_cons_self, rfl, ?_⟩
    rw [pushLine, hfind]
    show (sliceTo _ _).bind (fun line => (sliceFrom _ _).bind _) = _
    rw [hto]
    show (sliceFrom _ (_ + String.utf8Len ['\r'])).bind _ = _
    rw [hfrom]
    rfl

theorem length_dropNewline_le (cs : List Char) : (dropNewline cs).length ≤ cs.length := by
  unfold dropNewline
  split
  · exact Nat.le_succ _
  · exact Nat.le_refl _

/-- A line and its return are taken as characters. -/
theorem put_line {b : ByteInput} (hstart : b.decoder.atStart = false)
    (hreturn : b.decoder.afterReturn = false) {line : List Char} (hline : '\r' ∉ line)
    (behind : List Char) :
    (b.putLine line behind).put (dropNewline behind) = b.put (line ++ '\r' :: behind) := by
  obtain ⟨hshown, hpast⟩ := Decoder.shown_plain hstart hreturn hline
  obtain ⟨hshown', hpast'⟩ := Decoder.shown_return hstart
  have hput : b.put (line ++ ['\r'])
      = { b with text := b.text ++ line ++ ['\n'], decoder := b.decoder.returned true } := by
    simp only [put, Decoder.shown_append, Decoder.past_append, hshown, hpast, hshown', hpast',
      List.append_assoc]
  rw [List.append_cons, put_append, hput]
  by_cases hbehind : behind = []
  · rw [hbehind]
    rfl
  · have hdrop := Decoder.shown_dropNewline (d := b.decoder.returned true) hstart rfl
      hbehind
    rw [putLine, List.isEmpty_eq_false_iff.mpr hbehind]
    exact (put_eq (b := { b with
      text := b.text ++ line ++ ['\n'], decoder := b.decoder.returned true }) hdrop).symm

/-- **Line by line** text is taken as character by character. -/
theorem pushLines_eq {b : ByteInput} {text : List Char} (hstart : b.decoder.atStart = false)
    (hreturn : b.decoder.afterReturn = true → text = []) :
    repeatRounds pushLine b text = .ok (b.put text) := by
  refine repeatRounds_eq (P := fun b text => b.decoder.atStart = false ∧
    (b.decoder.afterReturn = true → text = [])) ?_ ⟨hstart, hreturn⟩
  rintro b text ⟨hstart, hreturn⟩
  rcases b.pushLine_cases text with ⟨hplain, hround⟩ | ⟨line, behind, hline, rfl, hround⟩
  · refine .inl ?_
    rw [hround]
    cases hafter : b.decoder.afterReturn with
    | true => rw [hreturn hafter, put_nil, List.append_nil]
    | false =>
      obtain ⟨hshown, hpast⟩ := Decoder.shown_plain hstart hafter hplain
      rw [put, hshown, hpast]
  · have hafter : b.decoder.afterReturn = false := by
      rw [Bool.eq_false_iff]
      intro htrue
      simpa using hreturn htrue
    have hlen := length_dropNewline_le behind
    refine .inr ⟨_, _, hround, ?_, ⟨hstart, ?_⟩, put_line hstart hafter hline behind⟩
    · rw [List.length_append, List.length_cons]
      omega
    · intro hempty
      rw [List.isEmpty_iff.mp hempty]
      rfl

/-- Dropping the mark leaves the same to be taken, and the start is behind. -/
theorem put_dropMark (b : ByteInput) {text : List Char} (htext : text ≠ []) :
    (b.dropMark text).1.put (b.dropMark text).2 = b.put text ∧
      (b.dropMark text).1.decoder.atStart = false := by
  unfold dropMark
  cases hstart : b.decoder.atStart with
  | true => exact ⟨(put_eq (Decoder.shown_stripBom hstart htext)).symm, rfl⟩
  | false => exact ⟨rfl, hstart⟩

/-- Dropping the LF of a pair leaves the same to be taken, and no return in front of it. -/
theorem put_dropPair {b : ByteInput} (hstart : b.decoder.atStart = false) (text : List Char) :
    (b.dropPair text).1.put (b.dropPair text).2 = b.put text ∧
      (b.dropPair text).1.decoder.atStart = false ∧
      ((b.dropPair text).1.decoder.afterReturn = true → (b.dropPair text).2 = []) := by
  unfold dropPair
  by_cases hempty : text = []
  · rw [hempty, List.isEmpty_nil, Bool.not_true, Bool.and_false, if_neg Bool.false_ne_true]
    exact ⟨rfl, hstart, fun _ => rfl⟩
  · cases hafter : b.decoder.afterReturn with
    | true =>
      rw [List.isEmpty_eq_false_iff.mpr hempty, Bool.not_false, Bool.and_true, if_pos rfl]
      exact ⟨(put_eq (Decoder.shown_dropNewline hstart hafter hempty)).symm, hstart, nofun⟩
    | false =>
      rw [Bool.false_and, if_neg Bool.false_ne_true]
      exact ⟨rfl, hstart, fun htrue => absurd (hafter.symm.trans htrue) Bool.false_ne_true⟩

/-- **Decoded text** is taken as character by character. -/
theorem pushText_eq (b : ByteInput) (text : List Char) : b.pushText text = .ok (b.put text) := by
  by_cases htext : text = []
  · rw [htext, put_nil]
    rfl
  · -- the mark is dropped first, and then the LF of a pair
    obtain ⟨hmark, hstart⟩ := b.put_dropMark htext
    obtain ⟨hpair, hstart', hreturn⟩ := put_dropPair hstart (b.dropMark text).2
    rw [pushText, if_neg (by simpa using htext)]
    show repeatRounds pushLine ((b.dropMark text).1.dropPair (b.dropMark text).2).1
      ((b.dropMark text).1.dropPair (b.dropMark text).2).2 = _
    rw [pushLines_eq hstart' hreturn, hpair, hmark]

/-! ## (6) What becomes of bytes -/

theorem holding_put (b : ByteInput) (carry : Bytes) (cs : List Char) :
    (b.holding carry).put cs = (b.put cs).holding carry := by
  simp only [put, holding, Decoder.shown_holding, Decoder.past_holding]

theorem carry_put (b : ByteInput) (cs : List Char) :
    (b.put cs).decoder.carry = b.decoder.carry := b.decoder.carry_past cs

theorem holding_carry {b : ByteInput} {carry : Bytes} (h : b.decoder.carry = carry) :
    b.holding carry = b := by
  rw [← h]
  rfl

theorem pushValid_bytesOf (b : ByteInput) (cs : List Char) :
    b.pushValid (bytesOf cs) = .ok (b.put cs) := by
  rw [pushValid, Utf8.validate_bytesOf]
  show b.pushText (String.ofList cs).toList = _
  rw [String.toList_ofList, pushText_eq]

/-- **A round of decoding** takes all bytes, or a malformed subpart and what is in front of it. -/
theorem decodeRound_cases {b : ByteInput} (hcarry : b.decoder.carry = []) (bs : Bytes) :
    b.decodeRound bs = .ok (b.putBytes bs, none) ∨
    ∃ b' rest, b.decodeRound bs = .ok (b', some rest) ∧ rest.length < bs.length ∧
      b'.decoder.carry = [] ∧ b'.putBytes rest = b.putBytes bs := by
  rcases Utf8.faultFrom_cases 0 bs with
    ⟨cs, rfl, hnone, hsettled⟩ | ⟨cs, sub, rest, hsub, rfl, hfault, hsettled⟩ |
      ⟨cs, held, rfl, hfault, hsettled⟩
  · refine .inl ?_
    have hput : b.putBytes (bytesOf cs) = b.put cs := by
      rw [putBytes, hcarry, hsettled]
      exact holding_carry (by rw [carry_put, hcarry])
    rw [decodeRound, Utf8.validate_bytesOf, hput]
    show (b.pushText (String.ofList cs).toList).bind _ = _
    rw [String.toList_ofList, pushText_eq]
    rfl
  · have hinvalid : Utf8.validate (bytesOf cs ++ (sub ++ rest))
        = .error ⟨(bytesOf cs).length, some sub.length⟩ := by
      rw [Utf8.validate, hfault, Nat.zero_add]
    refine .inr ⟨(b.put cs).put [Utf8.replacement], rest, ?_, ?_, ?_, ?_⟩
    · rw [decodeRound, hinvalid]
      show (splitBytes _ (bytesOf cs).length).bind _ = _
      rw [splitBytes_append]
      show (b.pushValid (bytesOf cs)).bind _ = _
      rw [pushValid_bytesOf]
      show ((b.put cs).pushText [Utf8.replacement]).bind _ = _
      rw [pushText_eq]
      show (splitBytes (sub ++ rest) sub.length).bind _ = _
      rw [splitBytes_append]
      rfl
    · have hpos := List.length_pos_of_ne_nil hsub
      simp only [List.length_append]
      omega
    · rw [carry_put, carry_put, hcarry]
    · rw [putBytes, putBytes, hcarry, hsettled, carry_put, carry_put, hcarry, List.append_cons,
        put_append, put_append]
  · have hinvalid : Utf8.validate (bytesOf cs ++ held) = .error ⟨(bytesOf cs).length, none⟩ := by
      rw [Utf8.validate, hfault, Nat.zero_add]
    refine .inl ?_
    rw [decodeRound, hinvalid, putBytes, hcarry, hsettled]
    show (splitBytes _ (bytesOf cs).length).bind _ = _
    rw [splitBytes_append]
    show (b.pushValid (bytesOf cs)).bind _ = _
    rw [pushValid_bytesOf]
    show Except.ok ((b.put cs).holding ((b.put cs).decoder.carry ++ held), none) = _
    rw [carry_put, hcarry, List.nil_append]

/-- **Bytes without a carry** are decoded as one at a time. -/
theorem decode_eq {b : ByteInput} (hcarry : b.decoder.carry = []) (bs : Bytes) :
    b.decode bs = .ok (b.putBytes bs) :=
  repeatRounds_eq (P := fun b _ => b.decoder.carry = []) (fun _ bs h => decodeRound_cases h bs) hcarry

theorem putBytes_append (b : ByteInput) (xs ys : Bytes) :
    b.putBytes (xs ++ ys) = (b.putBytes xs).putBytes ys := by
  have hcarry : (b.putBytes xs).decoder.carry = (Utf8.decodeBytes b.decoder.carry xs).2 := rfl
  have hput : (b.putBytes xs).put (Utf8.decodeBytes (b.putBytes xs).decoder.carry ys).1
      = ((b.put (Utf8.decodeBytes b.decoder.carry xs).1).put
          (Utf8.decodeBytes (b.putBytes xs).decoder.carry ys).1).holding
            (Utf8.decodeBytes b.decoder.carry xs).2 := holding_put _ _ _
  rw [putBytes, Utf8.decodeBytes_append, ← hcarry, put_append]
  show _ = ((b.putBytes xs).put _).holding _
  rw [hput]
  rfl

/-- The carry and one byte more are decoded as the byte behind the carry. -/
theorem putBytes_holding {b : ByteInput} (hheld : Utf8.Held b.decoder.carry) (bs : Bytes) :
    (b.holding []).putBytes (b.decoder.carry ++ bs) = b.putBytes bs := by
  have hcarried : (b.holding []).putBytes b.decoder.carry = b := by
    show ((b.holding []).put (Utf8.decodeBytes [] b.decoder.carry).1).holding
      (Utf8.decodeBytes [] b.decoder.carry).2 = b
    rw [Utf8.decodeBytes_held hheld, put_nil]
    rfl
  rw [putBytes_append, hcarried]

/-- **A chunk** is decoded as byte by byte. -/
theorem pushBytes_eq {b : ByteInput} (hheld : Utf8.Held b.decoder.carry) (chunk : Bytes) :
    b.pushBytes chunk = .ok (b.putBytes chunk) := by
  induction chunk generalizing b with
  | nil =>
    have hnil : b.putBytes [] = b := by
      show (b.put []).holding b.decoder.carry = b
      rw [put_nil]
      rfl
    rw [pushBytes, hnil]
  | cons x rest ih =>
    rw [pushBytes]
    by_cases hcarry : b.decoder.carry = []
    · rw [if_pos (by rw [hcarry]; rfl), decode_eq hcarry]
    · have hnext : (b.holding []).decode (b.decoder.carry ++ [x]) = .ok (b.putBytes [x]) := by
        rw [decode_eq rfl, putBytes_holding hheld]
      have hheld' : Utf8.Held (b.putBytes [x]).decoder.carry := Utf8.held_decodeBytes hheld [x]
      rw [if_neg (by simpa using hcarry)]
      show ((b.holding []).decode (b.decoder.carry ++ [x])).bind _ = _
      rw [hnext]
      show (b.putBytes [x]).pushBytes rest = _
      rw [ih hheld', ← putBytes_append, List.singleton_append]

end ByteInput

/-! ## (7) What becomes of the input -/

variable (front : List Char) (i : Input)

theorem stored_receive (chunk : Bytes) :
    stored front (i.receive chunk) = (stored front i).putBytes chunk := by
  obtain ⟨hout, hbehind⟩ := i.decoder.bytes_eq #[] chunk
  simp only [stored, Input.receive, hout, hbehind, List.nil_append, ← List.append_assoc]
  rfl

/-- **A chunk** is taken, unless it comes behind the end. -/
theorem push_stored (hfinished : i.finished = false) (hheld : Utf8.Held i.decoder.carry)
    (chunk : Bytes) : (stored front i).push chunk = .ok (stored front (i.receive chunk)) := by
  rw [ByteInput.push, stored_receive]
  show (if i.finished = true then _ else _) = _
  rw [hfinished, if_neg Bool.false_ne_true]
  exact ByteInput.pushBytes_eq hheld chunk

/-- **The end of the input** is taken. -/
theorem finish_stored (hheld : Utf8.Held i.decoder.carry) :
    (stored front i).finish = .ok (stored front i.finish) := by
  rw [ByteInput.finish, ByteInput.settleCarry, Input.finish, Decoder.finish]
  show Except.bind (if i.decoder.carry.isEmpty = true then _ else _) _ = _
  by_cases hcarry : i.decoder.carry = []
  · rw [if_pos (by rw [hcarry]; rfl), if_pos (by rw [hcarry]; rfl)]
    simp only [List.append_nil]
    rfl
  · -- an unfinished sequence is one malformed subpart
    have hlossy : (Utf8.lossy i.decoder.carry).toList = [Utf8.replacement] := by
      have hdecode := Utf8.toList_lossy_append hheld []
      rw [List.append_nil] at hdecode
      rw [hdecode, Utf8.decodeFrom, if_neg (by simpa using hcarry)]
    rw [if_neg (by simpa using hcarry), if_neg (by simpa using hcarry)]
    show Except.bind (((stored front i).holding []).pushText (Utf8.lossy i.decoder.carry).toList) _ = _
    rw [hlossy, ByteInput.pushText_eq]
    simp only [ByteInput.put, Decoder.shown_cons, Decoder.past_cons, Decoder.shown_nil,
      List.append_nil, stored, ← List.append_assoc]
    rfl

end Guarded

end HtmlStream

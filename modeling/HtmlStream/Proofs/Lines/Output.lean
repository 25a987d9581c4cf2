import HtmlStream.Proofs.Lines.Heard
import HtmlStream.Proofs.Lines.Json
import HtmlStream.Proofs.Writing

/-! # What is printed says what was heard

A sink that prints what it hears writes one line for each call. Where a line ends is to be seen from the
bytes, and a line determines its call; so two runs that print the same bytes have made the same calls.

* **`newline_notMem_encode`**: a newline is one byte, and no other character has that byte in it.
* **`splitOn_allBytes`**: the lines of an output are those of its calls.
* **`Callback.ofJsonLine?`**: reads a call off the bytes of a JSON line.
* **`Printout`**: what is printed of what is heard. **`printout_faithful`**: it says what was heard. -/

namespace HtmlStream

/-! ## (1) Bytes of lines -/

/-- The byte of a newline. -/
def newlineByte : UInt8 := 10

/-- Only a newline is encoded with the byte of one. -/
theorem eq_newline_of_mem_encodeChar {c : Char} (h : newlineByte ∈ String.utf8EncodeChar c) :
    c = '\n' := by
  unfold String.utf8EncodeChar at h
  simp only [newlineByte] at h
  split_ifs at h with hascii <;> simp [← UInt8.toNat_inj] at h
  · exact Char.toNat_inj.mp (show c.val.toNat = 10 by change 10 = c.val.toNat % 256 at h; omega)
  -- the bytes of longer encodings are no ASCII characters
  all_goals omega

theorem newline_notMem_encode {s : String} (h : '\n' ∉ s.toList) : newlineByte ∉ Utf8.encode s := by
  intro hmem
  obtain ⟨c, hc, hbyte⟩ := List.mem_flatMap.mp hmem
  exact h (eq_newline_of_mem_encodeChar hbyte ▸ hc)

theorem Utf8.encode_inj {s s' : String} (h : encode s = encode s') : s = s' := by
  rw [← lossy_encode s, h, lossy_encode]

/-- The line of a call in a form, as bytes, without its end. -/
def Callback.lineBytes (format : Format) (call : TextCallback) : Bytes :=
  Utf8.encode (call.line format)

namespace Callback

variable {call call' : TextCallback} (format : Format)

theorem newline_notMem_lineBytes (h : call.FitsLine) : newlineByte ∉ call.lineBytes format := by
  cases format with
  | text => exact newline_notMem_encode (newline_notMem_textLine h)
  | json => exact newline_notMem_encode (newline_notMem_jsonLine call)

/-- **A line determines its call**, in either form. -/
theorem lineBytes_inj (h : call.FitsLine) (h' : call'.FitsLine)
    (heq : call.lineBytes format = call'.lineBytes format) : call = call' := by
  cases format with
  | text => exact textLine_inj h h' (Utf8.encode_inj heq)
  | json => exact jsonLine_inj (Utf8.encode_inj heq)

end Callback

section

variable (format : Format) {calls calls' : List TextCallback}

/-- **The lines of an output** are those of its calls, and nothing stands behind the last. -/
theorem splitOn_allBytes (h : ∀ call ∈ calls, call.FitsLine) :
    (Callback.allBytes format calls).splitOn newlineByte
      = calls.map (Callback.lineBytes format) ++ [[]] := by
  induction calls with
  | nil => rfl
  | cons call rest ih =>
    rw [List.forall_mem_cons] at h
    have hbytes : Callback.allBytes format (call :: rest)
        = call.lineBytes format ++ newlineByte :: Callback.allBytes format rest := by
      rw [Callback.allBytes, List.flatMap_cons, Callback.bytes, Utf8.encode_append,
        List.append_assoc]
      rfl
    rw [hbytes, List.splitOn_append_cons_self_of_not_mem (Callback.newline_notMem_lineBytes format h.1),
      ih h.2, List.map_cons, List.cons_append]

/-- **An output determines its calls.** -/
theorem allBytes_inj (h : ∀ call ∈ calls, call.FitsLine) (h' : ∀ call ∈ calls', call.FitsLine)
    (heq : Callback.allBytes format calls = Callback.allBytes format calls') : calls = calls' := by
  have hlines : calls.map (Callback.lineBytes format) ++ [[]]
      = calls'.map (Callback.lineBytes format) ++ [[]] := by
    rw [← splitOn_allBytes format h, heq, splitOn_allBytes format h']
  refine eq_of_map_eq ?_ (List.append_cancel_right hlines)
  intro call hcall call' hcall' hline
  exact Callback.lineBytes_inj format (h call hcall) (h' call' hcall') hline

end

/-! ## (2) What is printed of a run -/

/-- The call of a JSON line. -/
def Callback.ofJsonLine? (line : Bytes) : Option TextCallback :=
  (Json.readObject (Utf8.lossy line)).bind ofObject?

/-- **JSON lines decode** to the calls they were printed for. -/
theorem Callback.ofJsonLine?_comp_lineBytes : ofJsonLine? ∘ lineBytes .json = some := by
  funext call
  have hline : Utf8.lossy (call.lineBytes .json) = call.jsonLine := Utf8.lossy_encode _
  rw [Function.comp_apply, ofJsonLine?, hline, readObject_jsonLine, Option.bind_some,
    ofObject?_object]

/-- **What is printed of what is heard.** -/
structure Printout extends Hearing where
  /-- How the output travels. -/
  transport : Transport

namespace Printout

/-- What is printed, if there is no limit. -/
def bytes (p : Printout) (format : Format) : Bytes :=
  (p.transport.printFreely format p.calls).destination.accepted.toList

theorem bytes_eq (p : Printout) (format : Format) :
    p.bytes format = Callback.allBytes format p.calls := by
  rw [bytes, Transport.printFreely_eq]
  simp

theorem fitsLine (p : Printout) : ∀ call ∈ p.calls, call.FitsLine :=
  fun _ hcall => p.toHearing.fitsLine hcall

end Printout

/-- **What is printed says what was heard**, whatever is requested of which surface, for any
configuration and however the output travels. It is one line for each call, with a newline behind it and
no other; it determines the calls; and the lines of JSON decode to them. -/
theorem printout_faithful (format : Format) (p p' : Printout) :
    (p.bytes format).splitOn newlineByte
        = p.calls.map (Callback.lineBytes format) ++ [[]] ∧
      (p.bytes format = p'.bytes format ↔ p.calls = p'.calls) ∧
      ((p.bytes .json).splitOn newlineByte).dropLast.map Callback.ofJsonLine? = p.calls.map some := by
  refine ⟨?_, ⟨?_, ?_⟩, ?_⟩
  · rw [p.bytes_eq, splitOn_allBytes format p.fitsLine]
  · intro hbytes
    rw [p.bytes_eq, p'.bytes_eq] at hbytes
    exact allBytes_inj format p.fitsLine p'.fitsLine hbytes
  · intro hcalls
    rw [p.bytes_eq, p'.bytes_eq, hcalls]
  · rw [p.bytes_eq, splitOn_allBytes .json p.fitsLine, List.dropLast_concat, List.map_map,
      Callback.ofJsonLine?_comp_lineBytes]

end HtmlStream

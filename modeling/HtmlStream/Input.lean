import HtmlStream.Text.Utf8

/-! # Decoded input

Bytes become characters in three steps that each remember a little between chunks: UTF-8 decoding, the
removal of a byte order mark at the very start, and the replacement of every CR LF pair and every
other CR by one LF.

* **`Decoder`**: those three steps, one byte at a time, so that chunks leave no trace.
* **`Input`**: the characters decoded and not yet read, and the count of those read.
* **`Input.lookahead`**: comparison with a keyword that need not have arrived in full. -/

namespace HtmlStream

/-! ## (1) The decoder -/

/-- What decoding has to remember between bytes. -/
structure Decoder where
  /-- Whether a byte order mark at the start is dropped. -/
  discardBom : Bool
  /-- No character has been decoded yet. -/
  atStart : Bool := true
  /-- The last character was a carriage return, so that a line feed that follows it is dropped. -/
  afterReturn : Bool := false
  /-- The unfinished UTF-8 sequence. -/
  carry : Bytes := []
  deriving DecidableEq, Repr

namespace Decoder

/-- Takes one decoded character: appends what the machine is to read of it to `out`. -/
def settle (d : Decoder) (out : Array Char) (c : Char) : Array Char × Decoder :=
  if d.atStart && d.discardBom && c = '\uFEFF' then (out, { d with atStart := false })
  -- a CR is a newline at once, and the LF of a pair is dropped when it comes
  else if c = '\r' then (out.push '\n', { d with atStart := false, afterReturn := true })
  else if c = '\n' && d.afterReturn then (out, { d with atStart := false, afterReturn := false })
  else (out.push c, { d with atStart := false, afterReturn := false })

/-- Takes several decoded characters. -/
def settleAll (d : Decoder) (out : Array Char) : List Char → Array Char × Decoder
  | [] => (out, d)
  | c :: rest =>
    let (out, d) := d.settle out c
    d.settleAll out rest

/-- Takes one byte. -/
def byte (d : Decoder) (out : Array Char) (b : UInt8) : Array Char × Decoder :=
  let (settled, carry) := Utf8.decodeByte d.carry b
  { d with carry }.settleAll out settled

/-- Takes a chunk. -/
def bytes (d : Decoder) (out : Array Char) : Bytes → Array Char × Decoder
  | [] => (out, d)
  | b :: rest =>
    let (out, d) := d.byte out b
    d.bytes out rest

/-- Takes the end of the input, which settles an unfinished sequence as one U+FFFD. -/
def finish (d : Decoder) : Array Char × Decoder :=
  if d.carry.isEmpty then (#[], d)
  else { d with carry := [] }.settle #[] Utf8.replacement

end Decoder

/-! ## (2) The input -/

/-- Outcomes of a comparison with a keyword. -/
inductive Lookahead where
  /-- The input goes on with the keyword. -/
  | found
  /-- The input so far is a proper beginning of the keyword and more may come. -/
  | undecided
  /-- The input does not go on with the keyword. -/
  | absent
  deriving DecidableEq, Repr

/-- Whether `pending` begins with `keyword`, characters being compared by `same`. -/
def Lookahead.compare (same : Char → Char → Bool) (finished : Bool) :
    List Char → List Char → Lookahead
  | [], _ => .found
  -- nothing behind the end can complete the keyword
  | _ :: _, [] => if finished then .absent else .undecided
  | k :: keyword, c :: pending =>
    if same k c then compare same finished keyword pending else .absent

/-- Equality of characters. -/
def sameChar (k c : Char) : Bool := k = c

/-- Equality with a small letter, whatever the case of `c`. -/
def sameLetter (k c : Char) : Bool := k = c.toLower

/-- The input of the machine. -/
structure Input where
  /-- The decoder of the bytes to come. -/
  decoder : Decoder
  /-- Characters decoded and not yet read. -/
  pending : List Char := []
  /-- No more bytes will come. -/
  finished : Bool := false
  /-- Characters read. -/
  consumed : Nat := 0
  deriving DecidableEq, Repr

namespace Input

/-- The input before its first byte. -/
def start (discardBom : Bool) : Input := { decoder := { discardBom } }

/-- Decodes a chunk. -/
def receive (i : Input) (chunk : Bytes) : Input :=
  let (out, decoder) := i.decoder.bytes #[] chunk
  { i with decoder, pending := i.pending ++ out.toList }

/-- Marks the end of the input. -/
def finish (i : Input) : Input :=
  let (out, decoder) := i.decoder.finish
  { i with decoder, pending := i.pending ++ out.toList, finished := true }

/-- Reads one character. -/
def advance (i : Input) : Input :=
  { i with pending := i.pending.tail, consumed := i.consumed + 1 }

/-- Reads `n` characters that a lookahead has found. -/
def skip (i : Input) (n : Nat) : Input :=
  { i with pending := i.pending.drop n, consumed := i.consumed + n }

/-- The run of characters before the first that `stop` holds of. -/
def run (i : Input) (stop : Char → Bool) : List Char :=
  i.pending.takeWhile fun c => !stop c

/-- Compares the characters to come with a keyword. -/
def lookahead (i : Input) (same : Char → Char → Bool) (keyword : String) : Lookahead :=
  Lookahead.compare same i.finished keyword.toList i.pending

end Input

end HtmlStream

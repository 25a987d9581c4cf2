/-! # UTF-8, one byte at a time and whole

Bytes that are not well-formed UTF-8 decode to U+FFFD, one for each *maximal malformed subpart*: the
longest run of bytes at its place that some well-formed sequence begins with, or one byte if there is
none.

* **`shape bs`**: how a byte sequence stands to the well-formed sequences of one character, complete,
  unfinished or malformed. It is the only place that knows the table of well-formed sequences.
* **`decodeByte carry b`**: streaming. The carry is the unfinished sequence met so far.
* **`Piece.first` / `lossy`**: whole input, one piece after another.
* **`validate`**: the length of the well-formed part, and what stands after it.
* **`encode`**: the bytes of a text. -/

namespace HtmlStream

/-- Raw input and raw payloads. -/
abbrev Bytes := List UInt8

namespace Utf8

/-- What a malformed subpart decodes to. -/
def replacement : Char := '\uFFFD'

/-! ## (1) Well-formed sequences -/

/-- How a byte sequence stands to the well-formed sequences of one character. -/
inductive Shape where
  /-- A well-formed sequence, and the character it encodes. -/
  | complete (c : Char)
  /-- A proper beginning of some well-formed sequence. -/
  | unfinished
  /-- The beginning of no well-formed sequence. -/
  | malformed
  deriving DecidableEq, Repr

/-- Length of the sequences that `lead` begins, `0` if it begins none. -/
def width (lead : UInt8) : Nat :=
  if lead < 0x80 then 1
  else if lead < 0xC2 then 0
  else if lead < 0xE0 then 2
  else if lead < 0xF0 then 3
  else if lead < 0xF5 then 4
  else 0

/-- Continuation bytes. -/
def isTail (b : UInt8) : Bool := 0x80 ≤ b && b ≤ 0xBF

/-- Whether `second` may follow `lead`: a continuation byte, less those that would give an overlong
form, a surrogate or a value above U+10FFFF. -/
def follows (lead second : UInt8) : Bool :=
  if lead = 0xE0 then 0xA0 ≤ second && second ≤ 0xBF
  else if lead = 0xED then 0x80 ≤ second && second ≤ 0x9F
  else if lead = 0xF0 then 0x90 ≤ second && second ≤ 0xBF
  else if lead = 0xF4 then 0x80 ≤ second && second ≤ 0x8F
  else isTail second

/-- The six payload bits of a continuation byte. -/
def tailBits (b : UInt8) : Nat := b.toNat % 64

/-- How `bs` stands to the well-formed sequences of one character. -/
def shape : Bytes → Shape
  | [a] =>
    if width a = 1 then .complete (Char.ofNat a.toNat)
    else if 2 ≤ width a then .unfinished
    else .malformed
  | [a, b] =>
    if 2 ≤ width a && follows a b then
      if width a = 2 then .complete (Char.ofNat (a.toNat % 32 * 64 + tailBits b)) else .unfinished
    else .malformed
  | [a, b, c] =>
    if 3 ≤ width a && follows a b && isTail c then
      if width a = 3 then
        .complete (Char.ofNat ((a.toNat % 16 * 64 + tailBits b) * 64 + tailBits c))
      else .unfinished
    else .malformed
  | [a, b, c, d] =>
    if 4 ≤ width a && follows a b && isTail c && isTail d then
      .complete
        (Char.ofNat (((a.toNat % 8 * 64 + tailBits b) * 64 + tailBits c) * 64 + tailBits d))
    else .malformed
  | _ => .malformed

/-! ## (2) Streaming -/

/-- Takes one more byte: the characters it settles and the new carry. A byte that cannot go on from
the carry settles it as one U+FFFD and is then read afresh. -/
def decodeByte (carry : Bytes) (b : UInt8) : List Char × Bytes :=
  match shape (carry ++ [b]) with
  | .complete c => ([c], [])
  | .unfinished => ([], carry ++ [b])
  | .malformed =>
    if carry.isEmpty then ([replacement], [])
    else
      match shape [b] with
      | .complete c => ([replacement, c], [])
      | .unfinished => ([replacement], [b])
      | .malformed => ([replacement, replacement], [])

/-! ## (3) Whole input -/

/-- What stands at the front of a byte sequence. -/
inductive Piece where
  /-- A well-formed sequence of `size` bytes. -/
  | char (c : Char) (size : Nat)
  /-- A maximal malformed subpart of `size` bytes with more input behind it. -/
  | malformed (size : Nat)
  /-- An unfinished sequence of `size` bytes that the input ends in. -/
  | truncated (size : Nat)
  deriving DecidableEq, Repr

namespace Piece

/-- The number of bytes a piece covers. -/
def size : Piece → Nat
  | .char _ n | .malformed n | .truncated n => n

/-- The character a piece decodes to. -/
def text : Piece → Char
  | .char c _ => c
  | .malformed _ | .truncated _ => replacement

/-- The piece that begins with the unfinished bytes `held` and goes on with `rest`. -/
def extend (held : Bytes) : Bytes → Piece
  | [] => .truncated held.length
  | b :: rest =>
    match shape (held ++ [b]) with
    | .complete c => .char c (held.length + 1)
    | .unfinished => extend (held ++ [b]) rest
    -- the byte that does not fit begins the next piece, unless it stands alone
    | .malformed => .malformed (max held.length 1)

/-- The piece at the front of a non-empty input. -/
def first (bs : Bytes) : Piece := extend [] bs

end Piece

/-- Appends to `acc` what is read after the next `skip` bytes, which belong to a piece already
decoded. -/
def lossyFrom (acc : String) : Nat → Bytes → String
  | _, [] => acc
  | skip + 1, _ :: rest => lossyFrom acc skip rest
  | 0, b :: rest =>
    let piece := Piece.first (b :: rest)
    lossyFrom (acc.push piece.text) (piece.size - 1) rest

/-- The text of any byte sequence: each maximal malformed subpart becomes one U+FFFD. -/
def lossy (bs : Bytes) : String := lossyFrom "" 0 bs

/-- Where and how a byte sequence stops being UTF-8. -/
structure Fault where
  /-- Length of the well-formed part before it. -/
  validUpTo : Nat
  /-- Length of the malformed subpart, none if the input ends inside a sequence. -/
  faultLength : Option Nat
  deriving DecidableEq, Repr

/-- The wording of a fault. -/
def Fault.message (f : Fault) : String :=
  match f.faultLength with
  | none => "incomplete utf-8 byte sequence from index " ++ toString f.validUpTo
  | some n =>
    "invalid utf-8 sequence of " ++ toString n ++ " bytes from index " ++ toString f.validUpTo

/-- Looks for the first fault, `valid` well-formed bytes having been read and `skip` more being part
of the last character. -/
def faultFrom (valid : Nat) : Nat → Bytes → Option Fault
  | _, [] => none
  | skip + 1, _ :: rest => faultFrom valid skip rest
  | 0, b :: rest =>
    match Piece.first (b :: rest) with
    | .char _ n => faultFrom (valid + n) (n - 1) rest
    | .malformed n => some ⟨valid, some n⟩
    | .truncated _ => some ⟨valid, none⟩

/-- The text of well-formed UTF-8, or the first fault. -/
def validate (bs : Bytes) : Except Fault String :=
  match faultFrom 0 0 bs with
  | none => .ok (lossy bs)
  | some fault => .error fault

/-! ## (4) Encoding -/

/-- The UTF-8 bytes of a text. -/
def encode (s : String) : Bytes := s.toList.flatMap String.utf8EncodeChar

end Utf8

end HtmlStream

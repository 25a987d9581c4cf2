import HtmlStream.Writer
import Mathlib.Data.List.TakeDrop

/-! # Output that is cut off

A call is not printed in one write: its line is formatted in pieces, each piece is written in as many
writes as it takes, and a write may accept any part of what it is given. The destination may stop
accepting bytes anywhere in this, in a piece, between two pieces, or between a JSON object and its
newline. Wherever that is, what was accepted is a beginning of the whole output, and the end of the
writer reports the failure.

* **`Transport`**: into which pieces lines are formatted and how much a write accepts.
* **`Transport.writeAll`**, **`Transport.receive`**, **`Transport.print`**: a piece, a call and all
  calls, write by write.
* **`Destination.write_append`**: writing the parts is writing the whole. **`Transport.run_writeAll`**,
  **`Transport.print_eq`**: so pieces and partial writes make no difference.
* **`printAll_eq`**: printing calls is writing their lines once.
* **`Transport.CutsOff`**: what is to be seen of a destination with room for `k` bytes.
  **`transport_cutsOff`**: that is what is seen. -/

namespace HtmlStream

/-! ## (1) Write by write -/

/-- How much there is room for, of as many bytes as wanted. -/
def Destination.room (d : Destination) (wanted : Nat) : Nat :=
  match d.limit with
  | none => wanted
  | some limit => min wanted (limit - d.accepted.size)

/-- Writes change the destination as they go. One that fails leaves it as it is at that point. -/
abbrev Channel := EStateM OutputFault Destination

/-- **How output travels**: any pieces that make up the lines, and any part of what a write is given. -/
structure Transport where
  /-- How many bytes a write accepts, if there is room for that many. -/
  portion : Destination → Bytes → Nat
  /-- The pieces of a line of words, its newline included. -/
  textPieces : TextCallback → List Bytes
  /-- They make up the line. -/
  textPieces_flatten : ∀ call, (textPieces call).flatten = Utf8.encode (call.textLine ++ "\n")
  /-- The pieces of a JSON object. -/
  jsonPieces : TextCallback → List Bytes
  /-- They make up the object. -/
  jsonPieces_flatten : ∀ call, (jsonPieces call).flatten = Utf8.encode call.jsonLine

namespace Transport

/-- Every byte is a piece of its own. -/
instance : Inhabited Transport where
  default :=
    { portion := fun _ _ => 1
      textPieces := fun call => (Utf8.encode (call.textLine ++ "\n")).map ([·])
      textPieces_flatten := fun _ => by simp [← List.flatMap_def]
      jsonPieces := fun call => (Utf8.encode call.jsonLine).map ([·])
      jsonPieces_flatten := fun _ => by simp [← List.flatMap_def] }

variable (t : Transport)

/-- One write: at least one byte and at most as many as there is room for are accepted, or it fails. -/
def writeSome (bs : Bytes) : Channel { n : Nat // 0 < n } := do
  let d ← get
  let room := d.room bs.length
  if room = 0 then throw .closed
  let n := max 1 (min (t.portion d bs) room)
  set { d with accepted := d.accepted ++ bs.take n }
  return ⟨n, by omega⟩

/-- Writes until nothing is left. -/
def writeAll : Bytes → Channel Unit
  | [] => pure ()
  | b :: rest => do
    let n ← t.writeSome (b :: rest)
    writeAll ((b :: rest).drop n.1)
termination_by bs => bs.length
decreasing_by
  have := n.2
  rw [List.length_drop, List.length_cons]
  omega

/-- Writes pieces in turn. -/
def writePieces : List Bytes → Channel Unit
  | [] => pure ()
  | piece :: rest => do
    t.writeAll piece
    writePieces rest

/-- Writes a call. The newline behind a JSON object is a piece of its own. -/
def writeLine (format : Format) (call : TextCallback) : Channel Unit :=
  match format with
  | .text => t.writePieces (t.textPieces call)
  | .json => do
    t.writePieces (t.jsonPieces call)
    t.writeAll (Utf8.encode "\n")

/-- Prints a call, unless a failure was met before. -/
def receive (w : Writer) (call : TextCallback) : Writer :=
  if w.failure.isSome then w
  else
    match (t.writeLine w.format call).run w.destination with
    | .ok _ destination => { w with destination }
    | .error fault destination => { w with destination, failure := some fault }

/-- Prints calls in turn. -/
def print (format : Format) (destination : Destination) (calls : List TextCallback) : Writer :=
  calls.foldl t.receive { format, destination }

end Transport

/-! ## (2) Writing the parts is writing the whole -/

theorem append_bytes_assoc (accepted : Array UInt8) (bs bs' : Bytes) :
    accepted ++ (bs ++ bs') = accepted ++ bs ++ bs' := by
  apply Array.toList_inj.mp
  simp

namespace Destination

variable (d : Destination)

theorem room_none {d : Destination} (h : d.limit = none) (wanted : Nat) : d.room wanted = wanted := by
  rw [room, h]

theorem room_some {d : Destination} {limit : Nat} (h : d.limit = some limit) (wanted : Nat) :
    d.room wanted = min wanted (limit - d.accepted.size) := by
  rw [room, h]

theorem room_le (wanted : Nat) : d.room wanted ≤ wanted := by
  cases hlimit : d.limit with
  | none => exact Nat.le_of_eq (room_none hlimit wanted)
  | some limit => exact Nat.le_trans (Nat.le_of_eq (room_some hlimit wanted)) (Nat.min_le_left _ _)

/-- There is room for less than what there is room for. -/
theorem room_of_le {n wanted : Nat} (h : n ≤ d.room wanted) : d.room n = n := by
  cases hlimit : d.limit with
  | none => exact room_none hlimit n
  | some limit =>
    rw [room_some hlimit] at h ⊢
    omega

/-- What there is no room for leaves none for what is behind it. -/
theorem room_add_of_lt {n : Nat} (h : d.room n < n) (more : Nat) : d.room (n + more) = d.room n := by
  cases hlimit : d.limit with
  | none =>
    rw [room_none hlimit] at h
    omega
  | some limit =>
    rw [room_some hlimit] at h ⊢
    rw [room_some hlimit]
    omega

/-- What was accepted has taken its room. -/
theorem room_add_of_eq {bs : Bytes} (h : d.room bs.length = bs.length) (more : Nat) :
    d.room (bs.length + more)
      = bs.length + room { d with accepted := d.accepted ++ bs } more := by
  cases hlimit : d.limit with
  | none => rw [room_none hlimit, room_none rfl]
  | some limit =>
    have hsize : (d.accepted ++ bs).size = d.accepted.size + bs.length := by
      rw [← Array.length_toList, Array.toList_appendList, List.length_append, Array.length_toList]
    rw [room_some hlimit] at h
    rw [room_some hlimit, room_some rfl, hsize]
    omega

theorem write_eq (bs : Bytes) : d.write bs =
    (if d.room bs.length < bs.length then some .closed else none,
      { d with accepted := d.accepted ++ bs.take (d.room bs.length) }) := by
  cases hlimit : d.limit with
  | none => simp [write, room_none hlimit, hlimit]
  | some limit =>
    rw [write, room_some hlimit, hlimit, Nat.min_comm, ← List.take_eq_take_min]
    simp only [Prod.mk.injEq, and_true]
    exact if_congr (by omega) rfl rfl

/-- What there is room for is accepted. -/
theorem write_of_room {bs : Bytes} (h : d.room bs.length = bs.length) :
    d.write bs = (none, { d with accepted := d.accepted ++ bs }) := by
  rw [write_eq, h, if_neg (Nat.lt_irrefl _), List.take_length]

/-- Nothing to write changes nothing. -/
theorem write_nil : d.write [] = (none, d) := by
  have hroom : d.room ([] : Bytes).length = ([] : Bytes).length := Nat.le_zero.mp (d.room_le 0)
  rw [write_of_room d hroom, Array.appendList_nil]

/-- **Writing on is writing both at once**, unless the first write fails. -/
theorem write_append (bs bs' : Bytes) : d.write (bs ++ bs') =
    match d.write bs with
    | (none, d') => d'.write bs'
    | (some fault, d') => (some fault, d') := by
  have hroom := d.room_le bs.length
  by_cases hfits : d.room bs.length = bs.length
  · -- the first part is accepted, and the second finds what room is left
    rw [write_of_room d hfits, write_eq, List.length_append, room_add_of_eq d hfits]
    simp only
    rw [write_eq, List.take_length_add_append, append_bytes_assoc]
    simp only [Nat.add_lt_add_iff_left]
  · have hlt : d.room bs.length < bs.length := by omega
    rw [write_eq, write_eq d bs, if_pos hlt, List.length_append, room_add_of_lt d hlt,
      if_pos (by omega), List.take_append_of_le_length hroom]

end Destination

/-- One write, as a step of a channel. -/
def send (bs : Bytes) : Channel Unit := fun d =>
  match d.write bs with
  | (none, d') => .ok () d'
  | (some fault, d') => .error fault d'

theorem send_nil : send [] = pure () := by
  funext d
  rw [send, d.write_nil]
  rfl

theorem send_append (bs bs' : Bytes) : send (bs ++ bs') = (do send bs; send bs') := by
  funext d
  rw [send, d.write_append bs bs']
  show _ = EStateM.bind (send bs) (fun _ => send bs') d
  rw [EStateM.bind, send]
  rcases d.write bs with ⟨_ | fault, d'⟩ <;> rfl

namespace Transport

variable (t : Transport)

/-- A write accepts some of the bytes there is room for, or there is room for none and it fails. -/
theorem run_writeSome (bs : Bytes) (d : Destination) :
    (d.room bs.length = 0 ∧ (t.writeSome bs).run d = .error .closed d) ∨
    ∃ n, n.1 ≤ d.room bs.length ∧
      (t.writeSome bs).run d = .ok n { d with accepted := d.accepted ++ bs.take n } := by
  rw [writeSome, EStateM.run_bind, EStateM.run_get]
  by_cases hroom : d.room bs.length = 0
  · left
    simp [hroom]
  · right
    refine ⟨⟨max 1 (min (t.portion d bs) (d.room bs.length)), by omega⟩, ?_, ?_⟩
    · simp only
      omega
    · simp only [if_neg hroom]
      rfl

/-- What a write leaves over can be sent on as if it had not been split. -/
theorem writeSome_send {bs : Bytes} (h : bs ≠ []) :
    (do let n ← t.writeSome bs; send (bs.drop n.1)) = send bs := by
  funext d
  show (t.writeSome bs >>= fun n => send (bs.drop n.1)).run d = (send bs).run d
  rw [EStateM.run_bind]
  obtain ⟨hroom, hrun⟩ | ⟨n, hn, hrun⟩ := t.run_writeSome bs d
  · -- nothing is accepted of the whole either
    have hwrite : d.write bs = (some .closed, d) := by
      rw [d.write_eq, hroom, if_pos (List.length_pos_iff.mpr h), List.take_zero,
        Array.appendList_nil]
    rw [hrun]
    show _ = send bs d
    rw [send, hwrite]
  · have hfits : d.room (bs.take n).length = (bs.take n).length :=
      d.room_of_le (Nat.le_trans (List.length_take_le _ _) hn)
    have hfirst : (send (bs.take n)).run d
        = .ok () { d with accepted := d.accepted ++ bs.take n } := by
      show send (bs.take n) d = _
      rw [send, d.write_of_room hfits]
    rw [hrun]
    calc (send (bs.drop n)).run { d with accepted := d.accepted ++ bs.take n }
        = (do send (bs.take n); send (bs.drop n)).run d := by rw [EStateM.run_bind, hfirst]
      _ = (send bs).run d := by rw [← send_append, List.take_append_drop]

/-- **Write by write is one write.** -/
theorem writeAll_eq (bs : Bytes) : t.writeAll bs = send bs := by
  induction bs using writeAll.induct with
  | case1 => rw [writeAll, send_nil]
  | case2 b rest ih =>
    rw [writeAll]
    simp only [ih]
    exact t.writeSome_send (List.cons_ne_nil b rest)

/-- **Piece by piece is one write.** -/
theorem writePieces_eq (pieces : List Bytes) : t.writePieces pieces = send pieces.flatten := by
  induction pieces with
  | nil => exact send_nil.symm
  | cons piece rest ih => rw [writePieces, writeAll_eq, ih, List.flatten_cons, send_append]

end Transport

/-- The bytes of a call in a form, its newline included. -/
def Callback.bytes (format : Format) (call : TextCallback) : Bytes :=
  Utf8.encode (call.line format ++ "\n")

/-- The bytes of calls, one line for each. -/
def Callback.allBytes (format : Format) (calls : List TextCallback) : Bytes :=
  calls.flatMap (Callback.bytes format)

theorem Utf8.encode_append (s s' : String) : encode (s ++ s') = encode s ++ encode s' := by
  rw [encode, String.toList_append, List.flatMap_append, ← encode, ← encode]

namespace Transport

variable (t : Transport)

/-- **A call is one write of its line**, in either form. -/
theorem writeLine_eq (format : Format) (call : TextCallback) :
    t.writeLine format call = send (call.bytes format) := by
  cases format with
  | text => rw [writeLine, writePieces_eq, t.textPieces_flatten]; rfl
  | json =>
    rw [writeLine, writePieces_eq, t.jsonPieces_flatten, writeAll_eq, ← send_append,
      ← Utf8.encode_append]
    rfl

theorem receive_eq (w : Writer) (call : TextCallback) : t.receive w call = w.receive call := by
  rw [receive, Writer.receive, writeLine_eq]
  by_cases hfailure : w.failure.isSome = true
  · rw [if_pos hfailure, if_pos hfailure]
  · have hnone : w.failure = none := by simpa using hfailure
    rw [if_neg hfailure, if_neg hfailure]
    show (match send (call.bytes w.format) w.destination with
      | .ok _ destination => { w with destination }
      | .error fault destination => { w with destination, failure := some fault }) = _
    rw [send, Callback.bytes]
    rcases w.destination.write (Utf8.encode (call.line w.format ++ "\n")) with ⟨_ | fault, d⟩
    · simp only [hnone]
    · rfl

/-- **Pieces and partial writes make no difference.** -/
theorem print_eq (format : Format) (destination : Destination) (calls : List TextCallback) :
    t.print format destination calls = printAll format destination calls := by
  rw [print, printAll]
  congr 1
  funext w call
  exact t.receive_eq w call

end Transport

/-! ## (3) Any calls -/

/-- Behind a failure nothing is printed. -/
theorem Writer.foldl_receive_of_failure {w : Writer} (h : w.failure.isSome = true)
    (calls : List TextCallback) : calls.foldl Writer.receive w = w := by
  induction calls with
  | nil => rfl
  | cons call rest ih => rw [List.foldl_cons, Writer.receive, if_pos h, ih]

/-- **Printing calls is writing their lines once.** -/
theorem printAll_eq (format : Format) (d : Destination) (calls : List TextCallback) :
    printAll format d calls =
      { format, destination := (d.write (Callback.allBytes format calls)).2,
        failure := (d.write (Callback.allBytes format calls)).1 } := by
  rw [printAll]
  induction calls generalizing d with
  | nil =>
    rw [List.foldl_nil, Callback.allBytes, List.flatMap_nil, d.write_nil]
  | cons call rest ih =>
    have hall : Callback.allBytes format (call :: rest)
        = call.bytes format ++ Callback.allBytes format rest := List.flatMap_cons
    have hreceive : Writer.receive { format, destination := d } call =
        { format, destination := (d.write (call.bytes format)).2,
          failure := (d.write (call.bytes format)).1 } := rfl
    rw [List.foldl_cons, hreceive, hall, d.write_append]
    rcases d.write (call.bytes format) with ⟨_ | fault, d'⟩
    · exact ih d'
    · -- what comes behind a failure is not printed, and not written
      exact Writer.foldl_receive_of_failure rfl rest

/-- What a flush comes to. -/
def Destination.flush (d : Destination) : Except OutputFault Unit :=
  if d.flushFails then .error .flushFailed else .ok ()

namespace Transport

/-- Prints to a destination that accepts `k` bytes in all. -/
def printWithin (t : Transport) (k : Nat) (flushFails : Bool) (format : Format)
    (calls : List TextCallback) : Writer :=
  t.print format { limit := some k, flushFails } calls

/-- Prints to a destination without a limit. -/
def printFreely (t : Transport) (format : Format) (calls : List TextCallback) : Writer :=
  t.print format {} calls

variable (t : Transport)

/-- Without a limit all lines are accepted. -/
theorem printFreely_eq (format : Format) (calls : List TextCallback) :
    t.printFreely format calls =
      { format
        destination := { accepted := (#[] : Array UInt8) ++ Callback.allBytes format calls } } := by
  rw [printFreely, print_eq, printAll_eq, Destination.write_of_room _ (Destination.room_none rfl _)]

/-- Within a limit the lines are accepted up to it. -/
theorem printWithin_eq (k : Nat) (flushFails : Bool) (format : Format) (calls : List TextCallback) :
    t.printWithin k flushFails format calls =
      { format
        destination :=
          { limit := some k, flushFails
            accepted := (#[] : Array UInt8) ++ (Callback.allBytes format calls).take k }
        failure := if k < (Callback.allBytes format calls).length then some .closed else none } := by
  rw [printWithin, print_eq, printAll_eq, Destination.write_eq, Destination.room_some rfl]
  simp only [List.size_toArray, List.length_nil, Nat.sub_zero, Writer.mk.injEq, true_and]
  rw [Nat.min_comm, ← List.take_eq_take_min]
  exact ⟨rfl, if_congr (by omega) rfl rfl⟩

/-- **What is to be seen of a destination that accepts `k` bytes in all**, when the same calls are
printed elsewhere without a limit. -/
structure CutsOff (t elsewhere : Transport) (k : Nat) (flushFails : Bool) (format : Format)
    (calls : List TextCallback) : Prop where
  /-- The first `k` bytes of the whole output are accepted, and no others. -/
  accepted : (t.printWithin k flushFails format calls).destination.accepted.toList
    = (elsewhere.printFreely format calls).destination.accepted.toList.take k
  /-- So many they are. -/
  size : (t.printWithin k flushFails format calls).destination.accepted.size
    = min k (elsewhere.printFreely format calls).destination.accepted.size
  /-- The end reports the failed write just if output is missing. -/
  reported : (t.printWithin k flushFails format calls).finish = .error .closed ↔
    k < (elsewhere.printFreely format calls).destination.accepted.size
  /-- Otherwise it reports what comes of the flush. -/
  flushed : (elsewhere.printFreely format calls).destination.accepted.size ≤ k →
    (t.printWithin k flushFails format calls).finish
      = (t.printWithin k flushFails format calls).destination.flush
  /-- Calls behind a failure change nothing. -/
  sticky : (t.printWithin k flushFails format calls).failure.isSome → ∀ later,
    t.printWithin k flushFails format (calls ++ later) = t.printWithin k flushFails format calls
  /-- The whole output is the lines of the calls, and nothing fails in it. -/
  whole : (elsewhere.printFreely format calls).destination.accepted.toList
      = Callback.allBytes format calls ∧
    (elsewhere.printFreely format calls).finish = .ok ()

end Transport

/-- **Output is cut off cleanly**, wherever the limit is, however lines are split into pieces and
pieces into writes. -/
theorem transport_cutsOff (t elsewhere : Transport) (k : Nat) (flushFails : Bool) (format : Format)
    (calls : List TextCallback) : t.CutsOff elsewhere k flushFails format calls := by
  have hwhole := elsewhere.printFreely_eq format calls
  have hcut := t.printWithin_eq k flushFails format calls
  have haccepted : (elsewhere.printFreely format calls).destination.accepted.toList
      = Callback.allBytes format calls := by
    rw [hwhole]
    simp
  have hsize : (elsewhere.printFreely format calls).destination.accepted.size
      = (Callback.allBytes format calls).length := by
    rw [← Array.length_toList, haccepted]
  constructor
  case accepted =>
    rw [haccepted, hcut]
    simp
  case size =>
    rw [hsize, hcut, ← Array.length_toList]
    simp
  case reported =>
    rw [hsize, hcut, Writer.finish]
    split_ifs with hshort <;> cases flushFails <;> simp [hshort]
  case flushed =>
    intro hfits
    rw [hsize] at hfits
    rw [hcut, Writer.finish, if_neg (by omega)]
    rfl
  case sticky =>
    intro hfailed later
    rw [Transport.printWithin, Transport.print_eq, printAll] at hfailed ⊢
    rw [Transport.printWithin, Transport.print_eq, printAll, List.foldl_append]
    exact Writer.foldl_receive_of_failure hfailed later
  case whole =>
    refine ⟨haccepted, ?_⟩
    rw [hwhole]
    rfl

/-- A limit within the second line. -/
example : (printAll .text { limit := some 6 } [.eof, .eof, .nullChar]).destination.accepted
    = #[101, 111, 102, 10, 101, 111] := rfl

/-- A limit between an object and its newline, which is reported though the flush fails too. -/
example : (printAll .json { limit := some 15, flushFails := true } [.eof]).finish
    = .error .closed := rfl

end HtmlStream

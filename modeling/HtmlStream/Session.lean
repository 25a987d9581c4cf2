import HtmlStream.Delivery
import HtmlStream.Machine.Run

/-! # Sessions

A session takes chunks and then the end of the input, once. What each of these produces is delivered
before the next one is taken.

* **`Session`**: the machine, the life cycle and the counters. **`Session.take`**, **`Session.close`**:
  the life cycle, which both surfaces share.
* **`Session.feed`, `Session.finish`**: the borrowed surface, which hands over texts.
* **`SharedSession.feed`, `SharedSession.finish`**: the shared surface, which hands over interned names
  and buffers.
* **`tokenize`**: a whole input on either surface. -/

namespace HtmlStream

/-! ## (1) Counters -/

/-- The counters of a session. -/
structure Stats where
  /-- Chunks taken, empty ones apart. -/
  feeds : Nat
  /-- Bytes taken. -/
  bytes : Nat
  /-- Characters read, after decoding. -/
  chars : Nat
  /-- Changes to another state. -/
  transitions : Nat
  /-- Tokens queued, errors among them. -/
  tokens : Nat
  /-- Errors. -/
  errors : Nat
  deriving DecidableEq, Repr

/-- The counters in one line. -/
def Stats.line (s : Stats) : String :=
  "feeds=" ++ toString s.feeds ++ " bytes=" ++ toString s.bytes ++ " chars=" ++ toString s.chars ++
    " transitions=" ++ toString s.transitions ++ " tokens=" ++ toString s.tokens ++
    " errors=" ++ toString s.errors

/-! ## (2) The life cycle and the borrowed surface -/

/-- Calls that the life cycle does not allow. -/
inductive Misuse where
  /-- A chunk after the end. -/
  | feedAfterEnd
  /-- A second end. -/
  | endTwice
  deriving DecidableEq, Repr

/-- The wording of a misuse. -/
def Misuse.message : Misuse → String
  | .feedAfterEnd => "feed called after end()"
  | .endTwice => "end called twice"

/-- A session. -/
structure Session where
  /-- What was asked for. -/
  config : Config
  /-- The machine, its queue empty between calls. -/
  machine : Machine
  /-- The end has been taken. -/
  ended : Bool := false
  /-- Chunks taken, empty ones apart. -/
  feeds : Nat := 0
  /-- Bytes taken. -/
  bytes : Nat := 0
  deriving DecidableEq, Repr

namespace Session

/-- A session before its first chunk. -/
def start (config : Config) : Session := { config, machine := .start config }

/-- The counters. -/
def stats (s : Session) : Stats where
  feeds := s.feeds
  bytes := s.bytes
  chars := s.machine.input.consumed
  transitions := s.machine.transitions
  tokens := s.machine.tokens
  errors := s.machine.errors

/-- Takes a chunk into the machine, and says whether there was anything to take. An empty chunk
changes nothing. -/
def take (s : Session) (chunk : Bytes) : Except Misuse (Bool × Session) :=
  if s.ended then .error .feedAfterEnd
  else if chunk.isEmpty then .ok (false, s)
  else
    .ok (true, { s with machine := s.machine.feed chunk,
                        feeds := s.feeds + 1,
                        bytes := s.bytes + chunk.length })

/-- Takes the end of the input into the machine. -/
def close (s : Session) : Except Misuse Session :=
  if s.ended then .error .endTwice
  else .ok { s with machine := s.machine.finish, ended := true }

/-- The tokens queued, and the session with an empty queue. -/
def drain (s : Session) : List Token × Session :=
  let (queue, machine) := s.machine.drain
  (queue, { s with machine })

/-- Delivers what is queued. -/
def deliver (s : Session) : List TextCallback × Session :=
  let (queue, s) := s.drain
  (queue.flatMap (Token.callbacks s.config.exactErrors), s)

/-- Takes a chunk. -/
def feed (s : Session) (chunk : Bytes) : Except Misuse (List TextCallback × Session) :=
  match s.take chunk with
  | .error m => .error m
  | .ok (false, s) => .ok ([], s)
  | .ok (true, s) => .ok s.deliver

/-- Takes the end of the input. -/
def finish (s : Session) : Except Misuse (List TextCallback × Session) :=
  match s.close with
  | .error m => .error m
  | .ok s => .ok s.deliver

end Session

/-! ## (3) The shared surface -/

/-- Why a call on the shared surface fails. -/
inductive Failure where
  /-- The life cycle does not allow the call. -/
  | misuse (m : Misuse)
  /-- A window was to be cut outside its buffer. -/
  | range (f : Buffer.RangeFault)
  deriving DecidableEq, Repr

/-- The wording of a failure. -/
def Failure.message : Failure → String
  | .misuse m => m.message
  | .range f => f.message

/-- A session on the shared surface. -/
structure SharedSession where
  /-- The session. -/
  session : Session
  /-- Its names and buffers. -/
  store : SharedStore := {}
  deriving DecidableEq, Repr

namespace SharedSession

/-- A session before its first chunk. -/
def start (config : Config) : SharedSession := { session := .start config }

/-- Delivers what is queued, if there is anything. -/
def deliver (s : SharedSession) : Except Failure (List SharedCallback × SharedSession) :=
  let (queue, session) := s.session.drain
  if queue.isEmpty then .ok ([], { s with session })
  else
    match s.store.deliver session.config.exactErrors queue with
    | .error f => .error (.range f)
    | .ok (calls, store) => .ok (calls, { session, store })

/-- Takes a chunk. -/
def feed (s : SharedSession) (chunk : Bytes) :
    Except Failure (List SharedCallback × SharedSession) :=
  match s.session.take chunk with
  | .error m => .error (.misuse m)
  | .ok (false, session) => .ok ([], { s with session })
  | .ok (true, session) => { s with session }.deliver

/-- Takes the end of the input. -/
def finish (s : SharedSession) : Except Failure (List SharedCallback × SharedSession) :=
  match s.session.close with
  | .error m => .error (.misuse m)
  | .ok session => { s with session }.deliver

end SharedSession

/-! ## (4) Either surface -/

/-- The two surfaces. -/
inductive Surface where
  /-- Texts that are valid during the call. -/
  | borrowed
  /-- Interned names and buffers that may be kept. -/
  | shared
  deriving DecidableEq, Repr

/-- A session on either surface. -/
inductive AnySession where
  /-- On the borrowed surface. -/
  | borrowed (s : Session)
  /-- On the shared surface. -/
  | shared (s : SharedSession)
  deriving DecidableEq, Repr

namespace AnySession

/-- A session before its first chunk. -/
def start (surface : Surface) (config : Config) : AnySession :=
  match surface with
  | .borrowed => .borrowed (.start config)
  | .shared => .shared (.start config)

/-- The session without its surface. -/
def session : AnySession → Session
  | .borrowed s => s
  | .shared s => s.session

/-- Takes a chunk; the calls are given as texts. -/
def feed (s : AnySession) (chunk : Bytes) : Except Failure (List TextCallback × AnySession) :=
  match s with
  | .borrowed s =>
    match s.feed chunk with
    | .error m => .error (.misuse m)
    | .ok (calls, s) => .ok (calls, .borrowed s)
  | .shared s =>
    match s.feed chunk with
    | .error f => .error f
    | .ok (calls, s) => .ok (calls.map s.store.view, .shared s)

/-- Takes the end of the input; the calls are given as texts. -/
def finish (s : AnySession) : Except Failure (List TextCallback × AnySession) :=
  match s with
  | .borrowed s =>
    match s.finish with
    | .error m => .error (.misuse m)
    | .ok (calls, s) => .ok (calls, .borrowed s)
  | .shared s =>
    match s.finish with
    | .error f => .error f
    | .ok (calls, s) => .ok (calls.map s.store.view, .shared s)

/-- Takes chunks and then the end of the input; the calls are appended to `calls`. -/
def drive (s : AnySession) (calls : Array TextCallback) :
    List Bytes → Except Failure (Array TextCallback × Stats)
  | [] => do
    let (last, s) ← s.finish
    return (calls ++ last, s.session.stats)
  | chunk :: rest => do
    let (next, s) ← s.feed chunk
    s.drive (calls ++ next) rest

end AnySession

/-- The calls and the counters of an input that arrives in chunks. -/
def tokenize (surface : Surface) (config : Config) (chunks : List Bytes) :
    Except Failure (List TextCallback × Stats) := do
  let (calls, stats) ← (AnySession.start surface config).drive #[] chunks
  return (calls.toList, stats)

end HtmlStream

import HtmlStream.AtomTable
import HtmlStream.Buffer.Pool
import HtmlStream.Callback

/-! # Delivery on the shared surface

On the shared surface names are interned and payloads are buffers that the sink may keep. All payloads
of one batch of tokens are packed into a single block, in the order in which they will be handed over.
Then the tokens are gone through once more, and each payload is a window into that block, as long as the
payload and directly behind the window before it.

* **`SharedStore`**: the pool of buffers and the table of names.
* **`Token.payloads`**: what of a token is packed.
* **`SharedStore.handToken`**: the calls of a token, with its names and windows.
* **`SharedStore.deliver`**: a batch of tokens.
* **`SharedStore.view`**: the text of a delivered call, read back through the table and the pool. -/

namespace HtmlStream

open Buffer

/-- A call with an interned name and buffers. -/
abbrev SharedCallback := Callback Nat HandleId

/-- Where the names and payloads of the shared surface live. -/
structure SharedStore where
  /-- The buffers. -/
  pool : Pool := {}
  /-- The names. -/
  atoms : AtomTable := {}
  deriving DecidableEq, Repr

/-- The payloads of a token that are handed over as buffers, in the order in which they are. A missing
part of a document type is an empty payload; an end tag has none, whatever attributes it was written
with. -/
def Token.payloads (exact : Bool) : Token → List String
  | .doctype d => [d.name.getD "", d.publicId.getD "", d.systemId.getD ""]
  | .tag t =>
    match t.kind with
    | .opening => t.attributes.toList.map (·.value)
    | .closing => []
  | .comment text | .characters text => [text]
  | .error e state => [e.message exact state]
  | .nullCharacter | .endOfInput => []

namespace SharedStore

/-! ## (1) Names and windows -/

/-- A batch while it is handed over. -/
structure Batch where
  /-- The store. -/
  store : SharedStore
  /-- The buffer that all payloads are packed into. -/
  packed : HandleId
  /-- How much of it has been handed over. -/
  position : Nat := 0
  deriving DecidableEq, Repr

/-- Handing over may cut windows, and a window can only be cut inside the packed buffer. -/
abbrev Handover := StateT Batch (Except RangeFault)

/-- Hands over a name. -/
def handName (name : String) : Handover Nat := do
  let batch ← get
  let (id, atoms) := batch.store.atoms.intern (Utf8.encode name)
  set { batch with store := { batch.store with atoms } }
  return id

/-- Hands over the next payload: a window of its length at the present position. -/
def handPayload (payload : String) : Handover HandleId := do
  let batch ← get
  let stop := batch.position + payload.utf8ByteSize
  let (id, pool) ←
    batch.store.pool.sub batch.packed (.included batch.position) (.excluded stop)
  set { batch with store := { batch.store with pool }, position := stop }
  return id

/-- Hands over a part of a document type that may be missing. -/
def handField (field : Option String) : Handover HandleId := handPayload (field.getD "")

/-! ## (2) Tokens -/

/-- The call of an attribute. -/
def handAttribute (a : Attribute) : Handover SharedCallback := do
  let name ← handName a.name
  let value ← handPayload a.value
  return .tagAttr name value

/-- The calls of a tag. Those of an end tag have no attributes. -/
def handTag (t : Tag) : Handover (List SharedCallback) := do
  let name ← handName t.name
  match t.kind with
  | .opening =>
    let attributes ← t.attributes.toList.mapM handAttribute
    return .startTag name t.selfClosing t.attributes.size :: attributes
  | .closing => return [.endTag name]

/-- The calls of a token; `exact` decides the form of error messages. -/
def handToken (exact : Bool) : Token → Handover (List SharedCallback)
  | .doctype d => do
    let name ← handField d.name
    let publicId ← handField d.publicId
    let systemId ← handField d.systemId
    return [.doctype name publicId systemId d.forceQuirks]
  | .tag t => handTag t
  | .comment text => return [.comment (← handPayload text)]
  | .characters text => return [.chars (← handPayload text)]
  | .nullCharacter => return [.nullChar]
  | .endOfInput => return [.eof]
  | .error e state => return [.error (← handPayload (e.message exact state))]

/-! ## (3) Batches -/

/-- All payloads of a batch, one behind the other. -/
def packedBytes (exact : Bool) (tokens : List Token) : Bytes :=
  (tokens.flatMap (Token.payloads exact)).flatMap Utf8.encode

/-- Delivers a batch. The buffer that was packed is dropped at the end, so that only windows into it
remain. -/
def deliver (store : SharedStore) (exact : Bool) (tokens : List Token) :
    Except RangeFault (List SharedCallback × SharedStore) := do
  let (packed, pool) := store.pool.ofBytes (packedBytes exact tokens)
  let (calls, last) ←
    (tokens.mapM (handToken exact)).run { store := { store with pool }, packed }
  return (calls.flatten, { last.store with pool := last.store.pool.drop packed })

/-- The text of a delivered call. -/
def view (store : SharedStore) : SharedCallback → TextCallback :=
  Callback.map (fun id => Utf8.lossy ((store.atoms.resolve? id).getD []))
    (fun id => Utf8.lossy (store.pool.bytes id))

end SharedStore

end HtmlStream

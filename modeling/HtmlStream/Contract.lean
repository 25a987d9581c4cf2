import HtmlStream.Callback

/-! # The ordering contract of sinks

A start tag that announces `n` attributes is followed by exactly `n` of them, attributes occur nowhere
else, and the end of the input is called at most once with nothing behind it.

* **`Contract`**: what has to be remembered of a stream to judge the next call.
* **`Contract.accept`**: judges one call. A call that is refused changes nothing.
* **`Contract.check`**: judges calls in turn until one is refused. -/

namespace HtmlStream

/-- What a stream of calls may go on with. -/
structure Contract where
  /-- Attributes announced and still to come. -/
  outstanding : Nat := 0
  /-- The end of the input was called. -/
  sawEof : Bool := false
  /-- Calls accepted. -/
  callbacks : Nat := 0
  deriving DecidableEq, Repr

/-- Breaches of the contract. -/
inductive Violation where
  /-- A call after the end of the input. -/
  | afterEof (kind : CallbackKind)
  /-- Another call while attributes are still to come. -/
  | attributesOutstanding (kind : CallbackKind) (count : Nat)
  /-- An attribute that was not announced. -/
  | surplusAttribute
  deriving DecidableEq, Repr

/-- The wording of a breach. -/
def Violation.message : Violation → String
  | .afterEof kind => "sink contract violated: " ++ kind.text ++ " callback after eof"
  | .attributesOutstanding kind count =>
    "assertion `left == right` failed: sink contract violated: " ++ kind.text ++
      " callback while " ++ toString count ++ " declared attribute(s) are outstanding\n  left: " ++
      toString count ++ "\n right: 0"
  | .surplusAttribute =>
    "sink contract violated: tag_attr callback beyond the declared attribute count"

namespace Contract

variable {N B : Type}

/-- Judges an attribute. -/
def acceptAttribute (c : Contract) : Except Violation Contract :=
  if c.sawEof then .error (.afterEof .tagAttr)
  else if c.outstanding = 0 then .error .surplusAttribute
  else .ok { c with outstanding := c.outstanding - 1, callbacks := c.callbacks + 1 }

/-- Judges a call that is no attribute. -/
def acceptOther (c : Contract) (call : Callback N B) : Except Violation Contract :=
  if c.sawEof then .error (.afterEof call.kind)
  else if c.outstanding ≠ 0 then .error (.attributesOutstanding call.kind c.outstanding)
  else
    let counted := { c with callbacks := c.callbacks + 1 }
    match call with
    | .startTag _ _ count => .ok { counted with outstanding := count }
    | .eof => .ok { counted with sawEof := true }
    | _ => .ok counted

/-- Judges a call. -/
def accept (c : Contract) (call : Callback N B) : Except Violation Contract :=
  match call with
  | .tagAttr .. => c.acceptAttribute
  | _ => c.acceptOther call

/-- Judges calls in turn. -/
def check (c : Contract) : List (Callback N B) → Except Violation Contract
  | [] => .ok c
  | call :: rest =>
    match c.accept call with
    | .error v => .error v
    | .ok c => c.check rest

end Contract

end HtmlStream

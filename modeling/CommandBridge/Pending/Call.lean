import CommandBridge.Duration
import CommandBridge.Payload
import CommandBridge.Pending.Table

/-!
# Pending calls

What a caller holds while a command is under way.

* `Outcome` — what an operation ends with;
* `Result` — what the caller of a shape gets to see of it;
* `PendingCall` — the shape wanted, where the outcome will come from, the handle and the default
  waiting time;
* `PendingCall.listing` — the call as listings show it.
-/

namespace CommandBridge

/-- What an operation ends with. -/
abbrev Outcome := Except BridgeError Payload

/-- What a caller who wants a shape gets. -/
abbrev Result (shape : Shape) := Except BridgeError shape.Value

/-- The outcome as the caller of a shape sees it: a payload of another form is an error, too. -/
def Shape.result (shape : Shape) : Outcome → Result shape
  | .ok p => shape.decode p
  | .error e => .error e

/-- Where the outcome of a call comes from. -/
inductive CallSource where
  /-- An operation that was begun. -/
  | operation (id : OperationId)
  /-- Nothing was begun; the call had failed before. -/
  | failed (error : BridgeError)
  deriving DecidableEq, Repr

/-- A command under way as its caller holds it. -/
structure PendingCall where
  shape : Shape
  source : CallSource
  /-- The handle it was issued with; none if it was not issued. -/
  handle : Option CommandHandle := none
  defaultTimeout : Option Duration := none
  deriving DecidableEq, Repr

/-- The call as listings show it. -/
def PendingCall.listing (c : PendingCall) : String :=
  "PendingCall \x7b handle: " ++ CommandHandle.listingOption c.handle ++
    ", default_timeout: " ++ Duration.listingOption c.defaultTimeout ++ ", .. \x7d"

end CommandBridge

import CommandBridge.Session.Event

/-!
# The state of a session

* `World` — the correlator, the operations begun, the calls that callers hold, the callbacks that
  the native side holds, the clock and the journal;
* `Operation` — an operation and, once it is resolved, its outcome;
* `Listener` — who is told: a continuation, or the caller of a pending call;
* `World.resolveOnce` — resolves an operation unless it is resolved already;
* `World.result?` — the result of a call, if there is one.

An operation keeps its identity for good.  Its outcome is set once, by whoever comes first.
-/

namespace CommandBridge

/-- Who is told the outcome of an operation. -/
inductive Listener where
  /-- A continuation with its steps; `number` counts the operations with a continuation. -/
  | continuation (number : Nat) (steps : List Step)
  /-- The caller of a pending call, who may have stopped listening. -/
  | caller (shape : Shape) (isListening : Bool)

/-- The listener after the caller has stopped listening. -/
def Listener.deaf : Listener → Listener
  | .continuation number steps => .continuation number steps
  | .caller shape _ => .caller shape false

/-- An operation that was begun. -/
structure Operation where
  name : String
  listener : Listener
  outcome : Option Outcome := none

/-- The correlator, or why there is none. -/
inductive Presence where
  | absent (absence : Absence)
  | present (correlator : Correlator)

/-- The state of a session. -/
structure World where
  correlator : Presence := .absent .notInstalled
  /-- Every operation begun, by its identity. -/
  operations : List Operation := []
  /-- Every call handed out, by its number; `none` once its caller has used it up. -/
  calls : List (Option PendingCall) := []
  /-- The form of the callback that the native side was given for a handle, the last one first. -/
  callbacks : List (CommandHandle × Shape) := []
  /-- The time in milliseconds. -/
  clock : Nat := 0
  /-- What happened, the last event first. -/
  journal : List Event := []

namespace World

/-- A session with this correlator. -/
def start (c : Correlator) : World :=
  { correlator := .present c }

/-! ### Small changes -/

/-- Adds an event to the journal. -/
def note (w : World) (e : Event) : World :=
  { w with journal := e :: w.journal }

/-- Puts another table into the correlator. -/
def setTable (w : World) (t : PendingTable) : World :=
  match w.correlator with
  | .present c => { w with correlator := .present { c with table := t } }
  | .absent _ => w

/-- Adds an operation; its identity is the number of those before. -/
def begin (w : World) (name : String) (listener : Listener) : World :=
  { w with operations := w.operations ++ [⟨name, listener, none⟩] }

/-- The identity of the next operation. -/
def nextId (w : World) : OperationId :=
  w.operations.length

/-- The number of operations that have a continuation. -/
def submittedCount (w : World) : Nat :=
  w.operations.countP (fun o => match o.listener with
    | .continuation _ _ => true
    | .caller _ _ => false)

/-- Hands out a call. -/
def addCall (w : World) (call : PendingCall) : World :=
  { w with calls := w.calls ++ [some call] }

/-- The call with a number, unless it is used up. -/
def call? (w : World) (n : Nat) : Option PendingCall :=
  (w.calls[n]?).join

/-- The caller has used a call up. -/
def useUp (w : World) (n : Nat) : World :=
  { w with calls := w.calls.set n none }

/-! ### Operations -/

/-- The caller of a call stops listening. -/
def stopListening (w : World) (call : PendingCall) : World :=
  match call.source with
  | .operation id =>
    { w with
      operations := w.operations.modify id (fun o => { o with listener := o.listener.deaf }) }
  | .failed _ => w

/-- The outcome of an operation, once it is resolved. -/
def outcome? (w : World) (id : OperationId) : Option Outcome :=
  (w.operations[id]?).bind Operation.outcome

/-- The result of a call, once there is one. -/
def result? (w : World) (call : PendingCall) : Option (Result call.shape) :=
  match call.source with
  | .operation id => (w.outcome? id).map call.shape.result
  | .failed error => some (.error error)

/-- Sets the outcome of an operation. -/
def setOutcome (w : World) (id : OperationId) (outcome : Outcome) : World :=
  { w with operations := w.operations.modify id (fun o => { o with outcome := some outcome }) }

/-- Resolves an operation unless it is resolved already.  Comes back with the operation if this was
the time, and nothing otherwise. -/
def resolveOnce (w : World) (id : OperationId) (outcome : Outcome) (cause : Cause) :
    Option (Operation × World) :=
  match w.operations[id]? with
  | some o =>
    if o.outcome.isNone then some (o, (w.setOutcome id outcome).note (.resolved id outcome cause))
    else none
  | none => none

/-! ### Installing -/

/-- Installs a correlator.  Only the first one is kept, for good; any other is given back. -/
def install (w : World) (c : Correlator) : Except Correlator Unit × World :=
  match w.correlator with
  | .absent .notInstalled => (.ok (), { w with correlator := .present c }.note .installed)
  | _ => (.error c, w)

/-- The installed correlator, a default one if there was none. -/
def installDefault (w : World) : World :=
  match w.correlator with
  | .absent .notInstalled => { w with correlator := .present {} }
  | _ => w

/-- A correlator is installed. -/
def isInstalled (w : World) : Bool :=
  match w.correlator with
  | .present _ => true
  | .absent _ => false

/-- The table that says what a status means: the installed correlator's, or the published
one. -/
def statuses (w : World) : StatusTable :=
  match w.correlator with
  | .present c => c.statuses
  | .absent _ => StatusTable.published

end World

end CommandBridge

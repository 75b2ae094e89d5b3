import CommandBridge.Error.Kind
import CommandBridge.Handle

/-!
# Errors at the bridge

* `BridgeError` — a kind, the status it stands for and, if the error has one, a message of its own;
* `BridgeError.message` — that message, or else the description of the kind;
* `BridgeError.render` — the line that logs show;
* `BridgeError.unmapped`, `dangling`, `timeout`, `shutDown`, `refused` — the errors that the bridge
  raises itself.
-/

namespace CommandBridge

/-- What a failed command reports. -/
structure BridgeError where
  kind : ErrorKind
  code : Int32
  detail : Option String := none
  deriving DecidableEq, Repr

namespace BridgeError

/-- The status of errors that no native status stands behind; native statuses are never
negative. -/
def boundaryStatus : Int32 := -1

/-- The error's own message, or the description of its kind. -/
def message (e : BridgeError) : String :=
  e.detail.getD e.kind.description

/-- Kind, status and message in one line. -/
def render (e : BridgeError) : String :=
  s!"{e.kind.render} (code {e.code}): {e.message}"

/-- A status that the table in force does not know. -/
def unmapped (code : Int32) : BridgeError :=
  { kind := .unmapped code
    code := code
    detail := some s!"An unmapped error with the code '{code}' was returned by the SDK." }

/-- A completion for a handle that no pending command has. -/
def dangling (handle : CommandHandle) (status : Int32) : BridgeError :=
  { kind := .danglingCompletion
    code := status
    detail := some
      s!"completion with status {status} arrived for unknown command handle {handle.render}" }

/-- The caller of the command stopped waiting. -/
def timeout (handle : CommandHandle) : BridgeError :=
  { kind := .timeout
    code := boundaryStatus
    detail := some s!"command {handle.render} timed out waiting for its completion" }

/-- The command was pending when the correlator went away. -/
def shutDown (handle : CommandHandle) : BridgeError :=
  { kind := .shutDown
    code := boundaryStatus
    detail := some s!"command {handle.render} was pending when the correlator shut down" }

/-- The command was not issued, because the correlator had been shut down before. -/
def refused (operation : String) : BridgeError :=
  { kind := .shutDown
    code := boundaryStatus
    detail := some s!"cannot issue {operation}: the correlator is shut down" }

/-- The error of a wait that ended for a command without a handle. -/
def timeoutOf : Option CommandHandle → BridgeError
  | some handle => timeout handle
  | none => { kind := .timeout, code := boundaryStatus }

/-- Breaches of the calling convention by the native side. -/
def isIntegrityViolation (e : BridgeError) : Bool :=
  e.kind.isIntegrityViolation

end BridgeError

end CommandBridge

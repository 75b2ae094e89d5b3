import CommandBridge.Status.Table

/-!
# Statuses for host applications

A host application in another language sees a status as a flat record and a failure as an error of
three fields.

* `StatusSummary`, `StatusSummary.ofStatus` — everything known about a status; no status makes it
  fail;
* `HostError`, `HostError.ofError` — kind, status and message of an error;
* `requireSuccess` — nothing for success, the error otherwise.
-/

namespace CommandBridge

/-- Everything known about a status. -/
structure StatusSummary where
  code : Int32
  /-- The name of the kind, without its parameter. -/
  kind : String
  subsystem : String
  /-- The published name, if there is one. -/
  nativeName : Option String
  /-- The position of the rejected argument, if the status reports one. -/
  parameterIndex : Option UInt32
  message : String
  deriving DecidableEq, Repr

/-- The argument position that a kind of error names. -/
def ErrorKind.parameterIndex? : ErrorKind → Option UInt32
  | .invalidParameter index => some index
  | _ => none

/-- What the published table says about a status. -/
def StatusSummary.ofStatus (code : Int32) : StatusSummary :=
  let subsystem := (Subsystem.ofStatus code).name
  let nativeName := (NamedCode.ofStatus? code).map NamedCode.name
  match StatusTable.published.check code with
  | .ok _ =>
    { code, kind := "success", subsystem, nativeName, parameterIndex := none
      message := "The operation completed successfully." }
  | .error e =>
    { code, kind := e.kind.name, subsystem, nativeName
      parameterIndex := e.kind.parameterIndex?, message := e.message }

/-- An error as a host application sees it. -/
structure HostError where
  /-- The name of the kind, with its parameter. -/
  kind : String
  code : Int32
  message : String
  deriving DecidableEq, Repr

namespace HostError

/-- The three fields of an error. -/
def ofError (e : BridgeError) : HostError :=
  ⟨e.kind.render, e.code, e.message⟩

/-- Kind, status and message in one line. -/
def render (e : HostError) : String :=
  s!"{e.kind} (code {e.code}): {e.message}"

end HostError

/-- Fails with the error of the published table unless the status is success. -/
def requireSuccess (code : Int32) : Except HostError Unit :=
  (StatusTable.published.check code).mapError HostError.ofError

end CommandBridge

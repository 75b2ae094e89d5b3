import CommandBridge.Log.Record
import CommandBridge.Pending.Correlator
import CommandBridge.Session.Step

/-!
# Answers and events

* `Answer` — what a step returns to whoever took it;
* `Cause` — why an operation was resolved;
* `Cause.outcome` — the outcome that a cause brings, by a status table;
* `Event` — what a journal keeps;
* `Event.record?` — the log record of an event, if it has one.

The time that an operation took is measured but not modelled; a record shows `<elapsed>` in its
place.
-/

namespace CommandBridge

/-- Why there is no correlator. -/
inductive Absence where
  | notInstalled
  | dropped
  deriving DecidableEq, Repr

/-- What a step returns. -/
inductive Answer where
  /-- Nothing to say. -/
  | done
  /-- The step needs a correlator. -/
  | missing (absence : Absence)
  /-- There is no such call, or not any more. -/
  | noCall
  /-- The native side has no callback for the handle. -/
  | noCallback
  /-- The step makes no sense where it stands. -/
  | outOfPlace
  /-- The operation's number among those submitted, its handle or error, the handle that the native
  function was given, and what the steps inside it returned. -/
  | submitted (number : Nat) (result : Except BridgeError CommandHandle)
      (native : Option CommandHandle) (during : List Answer)
  /-- The call's number, the call, and the native call if it was reached. -/
  | issued (number : Nat) (call : PendingCall) (native : Option CommandHandle)
      (during : List Answer)
  /-- The same for a wrapped function. -/
  | called (number : Nat) (call : PendingCall) (native : Option NativeCall) (during : List Answer)
  | configured (result : Except BridgeError Unit) (native : Option NativeCall)
      (during : List Answer)
  | delivered (result : Except BridgeError Unit)
  | flag (value : Bool)
  /-- The handles that a sweep resolved; nothing if no age was known. -/
  | swept (handles : Option (List CommandHandle))
  | count (n : Nat)
  | handles (handles : List CommandHandle)
  | correlator (c : Correlator)
  /-- A correlator is installed: the one that was there before, or a default one. -/
  | installed (c : Correlator)
  /-- Whether the installation was the first. -/
  | installation (isFirst : Bool)
  | callTimeout (time : Option Duration)
  | error (e : BridgeError)
  | rejected (e : ConfigError)
  | result (shape : Shape) (result : Result shape)
  | waited (shape : Shape) (result : Result shape) (completion : Except BridgeError Unit)
  | unresolved
  | forgotten
  | dropped
  | call (call : PendingCall)

/-- Why an operation was resolved. -/
inductive Cause where
  /-- The correlator had been shut down. -/
  | refused (operation : String)
  /-- Its native function failed. -/
  | failed (handle : CommandHandle) (status : Int32)
  /-- Its completion was delivered. -/
  | delivered (handle : CommandHandle) (status : Int32) (payload : Payload)
  | expired (handle : CommandHandle)
  | swept (handle : CommandHandle)
  | shutDown (handle : CommandHandle)
  | dropped (handle : CommandHandle)
  /-- Its caller stopped waiting. -/
  | gaveUp (handle : Option CommandHandle)
  deriving DecidableEq, Repr

/-- The outcome that a cause brings. -/
def Cause.outcome (statuses : StatusTable) : Cause → Outcome
  | .refused operation => .error (.refused operation)
  | .failed _ status => .error (statuses.errorOf status)
  | .delivered _ status payload => (statuses.check status).map (fun _ => payload)
  | .expired handle => .error (.timeout handle)
  | .swept handle => .error (.timeout handle)
  | .shutDown handle => .error (.shutDown handle)
  | .dropped handle => .error (.shutDown handle)
  | .gaveUp handle => .error (.timeoutOf handle)

/-- What happened. -/
inductive Event where
  | allocated (id : OperationId) (operation : String) (handle : CommandHandle)
  | issued (id : OperationId) (operation : String) (handle : CommandHandle)
  /-- The native function failed, and the operation still had its entry. -/
  | failed (id : OperationId) (operation : String) (error : BridgeError)
  /-- The native function failed, but the operation's entry was gone. -/
  | failedLate (id : OperationId) (operation : String) (handle : CommandHandle) (status : Int32)
  /-- The operation's continuation starts. -/
  | resolved (id : OperationId) (outcome : Outcome) (cause : Cause)
  /-- The operation's continuation has ended; its steps returned this. -/
  | continued (id : OperationId) (answers : List Answer)
  /-- The operation's caller had stopped waiting. -/
  | unheard (id : OperationId) (operation : String)
  | completed (id : OperationId) (operation : String) (handle : CommandHandle) (status : Int32)
  /-- A completion came for an operation that had been resolved before. -/
  | absorbed (id : OperationId) (operation : String) (handle : CommandHandle)
  /-- A completion came for a handle that is not pending. -/
  | dangling (handle : CommandHandle) (status : Int32)
  /-- A completion came although there was no correlator. -/
  | uncorrelated (handle : CommandHandle) (status : Int32)
  | expired (handle : CommandHandle)
  | swept (count : Nat) (age : Duration)
  | shutDown (count : Nat)
  | dropped (count : Nat)
  | gaveUp (handle : Option CommandHandle) (limit : Duration)
  | installed

namespace Event

/-- The part of the bridge that keeps the table. -/
def pendingTarget : String := "indykit_core::pending"

/-- The part of the bridge that waits for calls. -/
def callTarget : String := "indykit_core::call"

/-- The part of the bridge that the native side calls back. -/
def callbackTarget : String := "indykit_core::callbacks"

/-- The log record of an event. -/
def record? : Event → Option Record
  | .allocated _ operation handle =>
    some ⟨.trace, pendingTarget, s!"allocated command handle {handle.render} for {operation}"⟩
  | .issued _ operation handle =>
    some ⟨.debug, pendingTarget, s!"{operation} issued with command handle {handle.render}"⟩
  | .failed _ operation error =>
    some ⟨.debug, pendingTarget, s!"{operation} failed immediately: {error.render}"⟩
  | .failedLate _ operation handle status =>
    some ⟨.error, pendingTarget, s!"{operation} returned status {status} but command handle " ++
      s!"{handle.render} was already completed"⟩
  | .resolved _ _ _ => none
  | .continued _ _ => none
  | .unheard _ operation =>
    some ⟨.debug, pendingTarget, s!"{operation} resolved after its caller stopped waiting"⟩
  | .completed _ operation handle status =>
    some ⟨.debug, pendingTarget, s!"{operation} completed with status {status} for command " ++
      s!"handle {handle.render} after <elapsed>"⟩
  | .absorbed _ operation handle =>
    some ⟨.warn, pendingTarget, s!"absorbed late completion of {operation} for command handle " ++
      s!"{handle.render} after <elapsed>"⟩
  | .dangling handle status =>
    some ⟨.error, pendingTarget, (BridgeError.dangling handle status).render⟩
  | .uncorrelated handle status =>
    some ⟨.error, callbackTarget, s!"completion with status {status} for command handle " ++
      s!"{handle.render} arrived before a correlator was installed"⟩
  | .expired handle =>
    some ⟨.warn, pendingTarget,
      s!"command handle {handle.render} expired before its completion arrived"⟩
  | .swept count age =>
    some ⟨.warn, pendingTarget, s!"expired {count} command(s) pending for longer than {age.render}"⟩
  | .shutDown count =>
    some ⟨.info, pendingTarget, s!"correlator shut down with {count} pending command(s)"⟩
  | .dropped count =>
    some ⟨.warn, pendingTarget, s!"correlator dropped with {count} pending command(s)"⟩
  | .gaveUp handle limit =>
    some ⟨.warn, callTarget,
      s!"gave up on command {CommandHandle.listingOption handle} after {limit.render}"⟩
  | .installed => some ⟨.info, pendingTarget, "native completion correlator installed"⟩

end Event

end CommandBridge

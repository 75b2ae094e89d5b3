import CommandBridge.Payload
import CommandBridge.Text.CText

/-!
# Native callbacks

The native side reports a completion by calling back with the handle, a status, and further
arguments that depend on the command.

* `CallbackArguments` — the further arguments of each of the seven forms, as they lie in memory;
* `CallbackArguments.payload` — the copy of them that outlives the call;
* `CallbackArguments.completion` — what is delivered: the copy after a success; after a failure the
  arguments are not looked at.
-/

namespace CommandBridge

/-- Memory behind a pointer; `none` is the null pointer. -/
abbrev Memory := Option (List UInt8)

/-- The arguments of a callback after handle and status. -/
inductive CallbackArguments where
  | empty
  | handle (value : Int32)
  | text (text : Memory)
  | bool (value : Bool)
  | bytes (data : Memory) (length : Nat)
  | textPair (first second : Memory)
  | textBytes (text data : Memory) (length : Nat)
  deriving DecidableEq, Repr

/-- The first `length` bytes of memory; none behind a null pointer. -/
def readBytes (memory : Memory) (length : Nat) : List UInt8 :=
  match memory with
  | some bytes => bytes.take length
  | none => []

namespace CallbackArguments

/-- The arguments, copied. -/
def payload : CallbackArguments → Payload
  | .empty => .empty
  | .handle value => .handle value
  | .text memory => .text (CText.read memory)
  | .bool value => .bool value
  | .bytes data length => .bytes (readBytes data length)
  | .textPair first second => .textPair (CText.read first) (CText.read second)
  | .textBytes memory data length => .textBytes (CText.read memory) (readBytes data length)

/-- What is delivered for a callback with this status. -/
def completion (status : Int32) (arguments : CallbackArguments) : Payload :=
  if status = 0 then arguments.payload else .empty

end CallbackArguments

end CommandBridge

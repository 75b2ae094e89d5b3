import CommandBridge.Native.Command
import CommandBridge.Pending.Arrangement
import CommandBridge.Pending.Call

/-!
# Steps

What can be done with a correlator, written down as data.  A native function and a continuation are
code that may in turn use the correlator; here they are lists of steps, carried out while the native
function runs and when the continuation is called.

* `Target` — a handle, or the one that the native function around the step was given;
* `Question` — a step that only looks;
* `Step` — a step, with the steps that are carried out inside it;
* `Step.size` — the number of steps that it can lead to, itself included.
-/

namespace CommandBridge

/-- The handle that a step is about. -/
inductive Target where
  /-- The handle that the native function around the step was given. -/
  | self
  | handle (h : CommandHandle)
  deriving DecidableEq, Repr

/-- The handle meant, where `self` is the one of the native function around. -/
def Target.resolve (self : Option CommandHandle) : Target → Option CommandHandle
  | .self => self
  | .handle h => some h

/-- What can be asked without changing anything. -/
inductive Question where
  /-- Which handles are in the table. -/
  | pending
  | isPending (target : Target)
  /-- How the correlator looks in a listing. -/
  | correlator
  | callTimeout
  | errorOf (code : Int32)
  /-- Whether the status table is the published one. -/
  | isPublished
  deriving DecidableEq, Repr

/-- The argument that a callback is fired with, before it is known which callback it is. -/
inductive FireArgument where
  | number (value : Int32)
  | text (bytes : List UInt8)
  | other
  deriving DecidableEq, Repr

/-- Something done with a correlator. -/
inductive Step where
  /-- Issues a command.  `reply` is the status that the native function returns for its handle,
  `during` what it does before, and `onward` what the continuation does. -/
  | submit (operation : String) (reply : CommandHandle → Int32) (during onward : List Step)
  /-- Issues a command whose outcome a pending call waits for. -/
  | issue (shape : Shape) (operation : String) (reply : CommandHandle → Int32)
      (during : List Step)
  /-- Calls one of the wrapped functions. -/
  | command (command : Command) (reply : CommandHandle → Int32) (during : List Step)
  /-- Sets the configuration of the running library. -/
  | runtimeConfig (config : String) (status : Int32) (during : List Step)
  /-- Reports a completion. -/
  | deliver (target : Target) (status : Int32) (payload : Payload)
  /-- Gives up on a command. -/
  | expire (target : Target)
  /-- Gives up on the commands of at least an age, or of the default waiting time. -/
  | sweep (age : Option Duration) (order : Arrangement)
  | shutdown (order : Arrangement)
  /-- Gives the correlator up; this cannot happen while it is in use. -/
  | drop (order : Arrangement)
  /-- The native side calls back. -/
  | callback (target : Target) (status : Int32) (arguments : CallbackArguments)
  /-- The native side calls the callback that it was given last for a handle. -/
  | fire (target : Target) (status : Int32) (argument : FireArgument)
  /-- Installs the correlator that a configuration text describes. -/
  | install (config : Option String)
  /-- Installs the default correlator unless one is installed. -/
  | installDefault
  /-- Asks whether a correlator is installed. -/
  | isInstalled
  | ask (question : Question)
  /-- Sets the handle to give out next. -/
  | seed (next : Int32)
  /-- Lets time pass. -/
  | sleep (time : Duration)
  /-- Looks whether a call has its result. -/
  | poll (call : Nat)
  /-- Waits for a call, for a limited time. -/
  | timeout (call : Nat) (limit : Duration)
  /-- Waits for a call for the default waiting time. -/
  | defaultTimeout (call : Nat)
  /-- Waits for a call, while its completion is reported from elsewhere. -/
  | wait (call : Nat) (completion : Option (Int32 × Payload))
  /-- Gives a call up. -/
  | forget (call : Nat)
  /-- Asks how a call looks in a listing. -/
  | view (call : Nat)

mutual

/-- The number of steps that a step can lead to, itself included. -/
def Step.size : Step → Nat
  | .submit _ _ during onward => 1 + Step.sizes during + Step.sizes onward
  | .issue _ _ _ during => 1 + Step.sizes during
  | .command _ _ during => 1 + Step.sizes during
  | .runtimeConfig _ _ during => 1 + Step.sizes during
  | _ => 1

/-- The number of steps that a list of steps can lead to. -/
def Step.sizes : List Step → Nat
  | [] => 0
  | s :: rest => s.size + Step.sizes rest

end

theorem Step.size_pos (s : Step) : 0 < s.size := by
  cases s <;> (unfold Step.size; omega)

end CommandBridge

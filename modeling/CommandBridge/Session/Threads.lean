import CommandBridge.Session.Run

/-!
# Several threads

Threads share the state of a session.  Their sections may be mixed in any way; a schedule says
which thread moves next.

* `Threads` — the state and the stack of each thread;
* `Threads.follow` — moves the threads as a schedule says;
* `Threads.finish` — runs what is left of each thread, one thread after the other;
* `submitAndDeliver` — many threads submit commands, and then every command issued is completed.
-/

namespace CommandBridge

/-- Threads that share a state. -/
structure Threads where
  world : World
  /-- What each thread still has to do. -/
  running : List Stack

namespace Threads

/-- One section of a thread; nothing happens if it does not exist or has no more to do. -/
def move (t : Threads) (i : Nat) : Threads :=
  match t.running[i]? with
  | none => t
  | some stack =>
    match advance t.world stack with
    | none => t
    | some (w, stack) => ⟨w, t.running.set i stack⟩

/-- Moves the threads in the order of a schedule. -/
def follow (t : Threads) (schedule : List Nat) : Threads :=
  schedule.foldl move t

/-- Runs each stack to its end, the first one first. -/
def finishAll : World → List Stack → World × List Stack
  | w, [] => (w, [])
  | w, stack :: rest =>
    let (w, stack) := run w stack
    let (w, rest) := finishAll w rest
    (w, stack :: rest)

/-- Runs what is left of each thread, one thread after the other. -/
def finish (t : Threads) : Threads :=
  let (w, running) := finishAll t.world t.running
  ⟨w, running⟩

end Threads

/-! ### Submitting from many threads -/

/-- What many threads together brought about. -/
structure Harvest where
  /-- The handles issued, in ascending order. -/
  issued : List CommandHandle
  /-- The commands pending before and after they were completed. -/
  pendingBefore : Nat
  pendingAfter : Nat
  /-- The deliveries that found their command. -/
  delivered : Nat
  /-- The outcomes of all operations, in the order in which they were begun. -/
  outcomes : List Outcome

/-- The handle that an answer says was issued. -/
def Answer.issuedHandle? : Answer → Option CommandHandle
  | .submitted _ (.ok handle) _ _ => some handle
  | _ => none

/-- The answers that a finished thread holds. -/
def Stack.answers : Stack → List Answer
  | [.script _ _ answers] => answers
  | _ => []

/-- The number of pending commands. -/
def World.pendingCount (w : World) : Nat :=
  match w.correlator with
  | .present c => c.table.size
  | .absent _ => 0

/-- A native function that fails with `status` for every third handle. -/
def everyThird (status : Int32) (handle : CommandHandle) : Int32 :=
  if handle.raw % 3 = 0 then status else successStatus

/-- The stacks of threads that submit the same number of commands each. -/
def submitters (threads perThread : Nat) (reply : CommandHandle → Int32) : List Stack :=
  List.replicate threads
    [.script none (List.replicate perThread (.submit "concurrent" reply [] [])) []]

/-- Completes a command with its own handle, and says whether it was pending. -/
def completeOwn (w : World) (handle : CommandHandle) : World × Bool :=
  match w.perform (.deliver (.handle handle) successStatus (.handle handle.raw)) with
  | (w, .delivered (.ok _)) => (w, true)
  | (w, _) => (w, false)

/-- Completes commands one after the other, and counts those that were pending. -/
def completeAll : World → List CommandHandle → World × Nat
  | w, [] => (w, 0)
  | w, handle :: rest =>
    let (w, found) := completeOwn w handle
    let (w, n) := completeAll w rest
    (w, if found then n + 1 else n)

/-- Threads submit commands on a new correlator, mixed as the schedule says and then one after the
other; afterwards every command issued is completed with its own handle. -/
def submitAndDeliver (threads perThread : Nat) (reply : CommandHandle → Int32)
    (schedule : List Nat) : Harvest :=
  let after := (Threads.follow ⟨World.start {}, submitters threads perThread reply⟩
    schedule).finish
  let issued := ((after.running.flatMap Stack.answers).filterMap Answer.issuedHandle?).mergeSort
    (fun a b => a.raw ≤ b.raw)
  let (w, delivered) := completeAll after.world issued
  { issued, delivered
    pendingBefore := after.world.pendingCount
    pendingAfter := w.pendingCount
    outcomes := w.operations.filterMap Operation.outcome }

end CommandBridge

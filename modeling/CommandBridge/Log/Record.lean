/-!
# Log records

* `Level` — how severe a record is, from tracing to errors;
* `Record` — a level, the part of the program that speaks, and the text;
* `Record.isOwn` — the parts of the program that belong to the bridge.
-/

namespace CommandBridge

/-- How severe a record is, the least severe first. -/
inductive Level where
  /-- Handles given out. -/
  | trace
  /-- Commands issued and completed. -/
  | debug
  /-- Registration, installation and shutdown. -/
  | info
  /-- Timeouts and late completions. -/
  | warn
  /-- Dangling completions and failed registrations. -/
  | error
  deriving DecidableEq, Repr

namespace Level

/-- The place in the order of severity. -/
def severity : Level → Nat
  | .trace => 0
  | .debug => 1
  | .info => 2
  | .warn => 3
  | .error => 4

instance : LE Level where
  le a b := a.severity ≤ b.severity

instance (a b : Level) : Decidable (a ≤ b) :=
  inferInstanceAs (Decidable (a.severity ≤ b.severity))

/-- The name in reports. -/
def name : Level → String
  | .trace => "trace"
  | .debug => "debug"
  | .info => "info"
  | .warn => "warn"
  | .error => "error"

/-- The levels by ascending severity. -/
def sort (levels : List Level) : List Level :=
  levels.mergeSort (fun a b => a ≤ b)

end Level

/-- One line of a log. -/
structure Record where
  level : Level
  target : String
  message : String
  deriving DecidableEq, Repr

namespace Record

/-- The start of the names of the bridge's own parts. -/
def ownTargets : String := "indykit"

/-- The name is that of one of the bridge's own parts. -/
def isOwn (target : String) : Bool :=
  ownTargets.toList.isPrefixOf target.toList

end Record

end CommandBridge

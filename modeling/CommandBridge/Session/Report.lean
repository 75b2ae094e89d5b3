import CommandBridge.Session.Run

/-!
# Reports

What a session shows of one step: its answer, the continuations that ran, and the log.

* `Resolution` — a continuation that ran, with its number and outcome and what its steps returned;
* `Report` — the answer, the continuations in the order in which they started, and the records;
* `World.report` — takes a step and reports it.
-/

namespace CommandBridge

/-- A continuation that ran. -/
structure Resolution where
  /-- The operation's number among those with a continuation. -/
  number : Nat
  outcome : Outcome
  /-- What the steps of the continuation returned, if it has any. -/
  answers : Option (List Answer)

/-- What a step shows. -/
structure Report where
  answer : Answer
  resolutions : List Resolution
  records : List Record

/-- The events that the journal of `later` has and that of `earlier` has not, the first one
first. -/
def World.eventsSince (later earlier : World) : List Event :=
  (later.journal.take (later.journal.length - earlier.journal.length)).reverse

/-- What the steps of a continuation returned, according to a list of events. -/
def Event.answersOf (events : List Event) (id : OperationId) : List Answer :=
  (events.findSome? (fun
    | .continued other answers => if other = id then some answers else none
    | _ => none)).getD []

/-- The continuation that an event starts. -/
def World.resolution? (w : World) (events : List Event) : Event → Option Resolution
  | .resolved id outcome _ =>
    match (w.operations[id]?).map Operation.listener with
    | some (.continuation number steps) =>
      some ⟨number, outcome, if steps.isEmpty then none else some (Event.answersOf events id)⟩
    | _ => none
  | _ => none

/-- Takes a step from start to end and reports it. -/
def World.report (w : World) (s : Step) : World × Report :=
  let (v, answer) := w.perform s
  let events := v.eventsSince w
  (v, ⟨answer, events.filterMap (v.resolution? events), events.filterMap Event.record?⟩)

/-- Takes steps one after the other and reports each. -/
def World.reports : World → List Step → List Report
  | _, [] => []
  | w, s :: rest =>
    let (v, report) := w.report s
    report :: v.reports rest

end CommandBridge

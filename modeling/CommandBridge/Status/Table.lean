import Std.Data.ExtTreeMap
import CommandBridge.Config.Error
import CommandBridge.Error.Basic
import CommandBridge.Status.Named

/-!
# Status tables

A status table says which kind of error a status means.  It is a finite map with one entry for each
status: first the published codes that have a kind of their own, then every code of the parameter
ranges, last the overrides, each replacing what was there.

* `StatusTable` — the map;
* `StatusTable.kindOf?`, `errorOf`, `check` — what a status means;
* `StatusTable.ofRanges` — the table for a list of parameter ranges, if they are valid and share no
  code;
* `StatusTable.pin` — the table with one status pinned to a kind;
* `StatusTable.published` — the table for the published ranges.

`kindOf?_insert` says what an entry changes: the kind of its own status only.
-/

namespace CommandBridge

/-- Which kind of error each status means. -/
structure StatusTable where
  kinds : Std.ExtTreeMap Int32 ErrorKind

namespace StatusTable

/-! ### Looking up -/

/-- The kind registered for a status. -/
def kindOf? (t : StatusTable) (code : Int32) : Option ErrorKind :=
  t.kinds[code]?

/-- The error for a failing status; without an entry it is an unmapped one. -/
def errorOf (t : StatusTable) (code : Int32) : BridgeError :=
  match t.kindOf? code with
  | none => .unmapped code
  | some (.unmapped _) => .unmapped code
  | some kind => { kind := kind, code := code }

/-- Nothing for success, the error of the status otherwise. -/
def check (t : StatusTable) (status : Int32) : Except BridgeError Unit :=
  if status = successStatus then .ok () else .error (t.errorOf status)

/-- The number of statuses with an entry. -/
def size (t : StatusTable) : Nat :=
  t.kinds.size

/-! ### Building -/

/-- Registers a kind for a status, replacing the kind it had. -/
def insert (t : StatusTable) (code : Int32) (kind : ErrorKind) : StatusTable :=
  ⟨t.kinds.insert code kind⟩

/-- The published codes with a kind of their own. -/
def named : StatusTable :=
  NamedCode.published.foldl
    (fun t row => match row.kind with
      | some kind => t.insert row.status kind
      | none => t)
    ⟨∅⟩

/-- Registers every code of a parameter range. -/
def insertRange (t : StatusTable) (range : ParameterRange) : StatusTable :=
  range.codes.foldl
    (fun t code => match range.indexOf? code with
      | some index => t.insert code (.invalidParameter index)
      | none => t)
    t

/-- The published codes with a kind of their own, and then the ranges in the order given. -/
def build (ranges : List ParameterRange) : StatusTable :=
  ranges.foldl insertRange named

/-- The first two neighbours that share a code, in a list ordered by first code. -/
def firstOverlap? : List ParameterRange → Option (ParameterRange × ParameterRange)
  | a :: b :: rest =>
    if b.firstCode ≤ a.lastCode then some (a, b) else firstOverlap? (b :: rest)
  | _ => none

/-- The ranges by ascending first code; ranges with the same first code keep their order. -/
def sortRanges (ranges : List ParameterRange) : List ParameterRange :=
  ranges.mergeSort (fun a b => a.firstCode ≤ b.firstCode)

/-- The table for a list of parameter ranges.  The first range that is not valid is reported, and
if all are, the first two that share a code. -/
def ofRanges (ranges : List ParameterRange) : Except ConfigError StatusTable :=
  match ranges.find? (fun r => !r.isValid) with
  | some range => .error (.invalidRange range)
  | none =>
    match firstOverlap? (sortRanges ranges) with
    | some (first, second) => .error (.overlappingRanges first second)
    | none => .ok (build ranges)

/-- The kind that an override of `code` stores; an unmapped one always carries `code`. -/
def pinned (code : Int32) : ErrorKind → ErrorKind
  | .unmapped _ => .unmapped code
  | kind => kind

/-- The table with `code` pinned to a kind; success cannot be pinned. -/
def pin (t : StatusTable) (code : Int32) (kind : ErrorKind) : Except ConfigError StatusTable :=
  if code = successStatus then .error .successOverride
  else .ok (t.insert code (pinned code kind))

/-! ### The published table -/

/-- The table for the published ranges. -/
def published : StatusTable :=
  build ParameterRange.published

/-- The table has exactly the entries of the published one. -/
def isPublished (t : StatusTable) : Bool :=
  t.kinds == published.kinds

/-! ### What an entry changes -/

@[simp] theorem kindOf?_insert (t : StatusTable) (code other : Int32) (kind : ErrorKind) :
    (t.insert code kind).kindOf? other = if code = other then some kind else t.kindOf? other := by
  simp [insert, kindOf?, Std.ExtTreeMap.getElem?_insert]

theorem errorOf_code (t : StatusTable) (code : Int32) : (t.errorOf code).code = code := by
  unfold errorOf
  split <;> rfl

end StatusTable

end CommandBridge

import CommandBridge.Handle

/-!
# The table of pending commands

Every command that waits for its completion has an entry under its handle.  The entry says whose it
is, by the identity of the operation and not by the handle, which may be given out again.

* `Entry` — a handle, the operation that owns it, when it was registered;
* `PendingTable` — the entries, the handles to give out, and whether the table is closed;
* `PendingTable.register`, `remove`, `removeOwned`, `find?`, `stale`, `drain` — the steps that look
  at or change the table, each as a whole.

No step comes between another one's looking and changing: whatever else runs at the same time sees
the table before a step or after it.
-/

namespace CommandBridge

/-- Tells operations apart for good: they are numbered in the order in which they were begun. -/
abbrev OperationId := Nat

/-- A pending command. -/
structure Entry where
  handle : CommandHandle
  /-- The operation that waits. -/
  owner : OperationId
  /-- What the operation is called in logs. -/
  operation : String
  /-- The time of registration, in milliseconds. -/
  createdAt : Nat
  deriving DecidableEq, Repr

/-- The pending commands, oldest first. -/
structure PendingTable where
  entries : List Entry := []
  allocator : Allocator := {}
  isShutDown : Bool := false
  deriving DecidableEq, Repr

namespace PendingTable

/-! ### Looking -/

/-- The entry under a handle. -/
def find? (t : PendingTable) (h : CommandHandle) : Option Entry :=
  t.entries.find? (fun e => e.handle == h)

/-- A command is pending under the handle. -/
def contains (t : PendingTable) (h : CommandHandle) : Bool :=
  t.entries.any (fun e => e.handle == h)

/-- The handles in the table, in ascending order. -/
def handles (t : PendingTable) : List CommandHandle :=
  (t.entries.map Entry.handle).mergeSort (fun a b => a.raw ≤ b.raw)

/-- The number of entries. -/
def size (t : PendingTable) : Nat :=
  t.entries.length

/-- The entries that are at least `age` old at the time `now`. -/
def stale (t : PendingTable) (now age : Nat) : List Entry :=
  t.entries.filter (fun e => age ≤ now - e.createdAt)

/-! ### Changing -/

/-- Enters an operation under the next free handle; nothing once the table is closed. -/
def register (t : PendingTable) (owner : OperationId) (operation : String) (now : Nat) :
    Option (CommandHandle × PendingTable) :=
  if t.isShutDown then none
  else
    let (handle, allocator) := t.allocator.allocate t.contains
    some (handle, { t with
      entries := t.entries ++ [⟨handle, owner, operation, now⟩]
      allocator := allocator })

/-- The table without what is under a handle. -/
def erase (t : PendingTable) (h : CommandHandle) : PendingTable :=
  { t with entries := t.entries.eraseP (fun e => e.handle == h) }

/-- Takes the entry under a handle out. -/
def remove (t : PendingTable) (h : CommandHandle) : Option (Entry × PendingTable) :=
  (t.find? h).map (fun e => (e, t.erase h))

/-- Takes the entry under a handle out if it still belongs to the operation. -/
def removeOwned (t : PendingTable) (h : CommandHandle) (owner : OperationId) :
    Option PendingTable :=
  match t.find? h with
  | some e => if e.owner = owner then some (t.erase h) else none
  | none => none

/-- Closes the table and takes every entry out. -/
def drain (t : PendingTable) : List Entry × PendingTable :=
  (t.entries, { t with entries := [], isShutDown := true })

/-- The table that gives out `next` next. -/
def seed (t : PendingTable) (next : Int32) : PendingTable :=
  { t with allocator := ⟨next⟩ }

end PendingTable

end CommandBridge

/-!
# Command handles

Every command that waits for a completion is known to the native side by a handle, a positive
32-bit number.  Handles are given out in cyclic order, `1, 2, …, 2147483647, 1, …`, skipping those
still in use, so that a freed handle comes back as late as possible.

* `CommandHandle` — the number under which the native side knows a command;
* `Allocator` — the handle to try next;
* `Allocator.successor` — the cyclic order;
* `Allocator.allocate` — the first free handle from the next one on.
-/

namespace CommandBridge

/-- The number under which the native side knows a command. -/
structure CommandHandle where
  raw : Int32
  deriving DecidableEq, Repr

namespace CommandHandle

/-- The plain number. -/
def render (h : CommandHandle) : String :=
  toString h.raw

/-- The number inside the name of its type. -/
def listing (h : CommandHandle) : String :=
  s!"CommandHandle({h.render})"

/-- A handle that may be absent, as reports show it. -/
def listingOption : Option CommandHandle → String
  | some h => s!"Some({h.listing})"
  | none => "None"

/-- The largest handle, after which the count starts again. -/
def largest : Int32 := 2147483647

end CommandHandle

/-- Gives out handles; `next` is the one to try first. -/
structure Allocator where
  next : Int32 := 1
  deriving DecidableEq, Repr

namespace Allocator

/-- The handle after `n` in the cyclic order. -/
def successor (n : Int32) : Int32 :=
  if n = CommandHandle.largest then 1 else n + 1

/-- The first handle from `n` on that is free, looking at no more than `turns` in use ones, and the
allocator that goes on behind it. -/
def search (inUse : CommandHandle → Bool) : Nat → Int32 → CommandHandle × Allocator
  | 0, n => (⟨n⟩, ⟨successor n⟩)
  | turns + 1, n =>
    if inUse ⟨n⟩ then search inUse turns (successor n) else (⟨n⟩, ⟨successor n⟩)

/-- The number of handles in one full turn of the cyclic order. -/
def fullTurn : Nat := 2147483647

/-- The first free handle from `next` on.  One full turn passes every handle, so as long as one of
them is free the search ends on a free one. -/
def allocate (a : Allocator) (inUse : CommandHandle → Bool) : CommandHandle × Allocator :=
  search inUse fullTurn a.next

theorem search_of_free {inUse : CommandHandle → Bool} {n : Int32} (h : inUse ⟨n⟩ = false) :
    ∀ turns, search inUse turns n = (⟨n⟩, ⟨successor n⟩)
  | 0 => rfl
  | _ + 1 => by simp [search, h]

theorem search_of_inUse {inUse : CommandHandle → Bool} {n : Int32} (h : inUse ⟨n⟩ = true)
    (turns : Nat) : search inUse (turns + 1) n = search inUse turns (successor n) := by
  simp [search, h]

end Allocator

end CommandBridge

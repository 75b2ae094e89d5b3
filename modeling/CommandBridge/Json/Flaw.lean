/-!
# What can be wrong with a text

* `Flaw` — the three ways in which a JSON text can fail to be what a reader expects;
* `Reader` — a function that reads a value from the front of a text and returns it with the rest.

A text is read once, from left to right, and the first flaw met is the one reported.
-/

namespace CommandBridge.Json

/-- Why a text was not accepted. -/
inductive Flaw where
  /-- The text ends too early. -/
  | truncated
  /-- The text is not JSON. -/
  | malformed
  /-- The text is JSON so far, but not of the form that is wanted. -/
  | unacceptable
  deriving DecidableEq, Repr

/-- Reads a value from the front of a text; the rest comes back with it. -/
abbrev Reader (α : Type) := List Char → Except Flaw (α × List Char)

end CommandBridge.Json

/-!
# Parameter ranges

A run of consecutive status codes that report "argument *n* was rejected" for consecutive *n*.

* `ParameterRange` — the run and the argument that its first code stands for;
* `ParameterRange.indexOf?` — the argument that a code stands for;
* `ParameterRange.isValid` — what a configuration may ask for: a non-empty run of positive codes
  whose argument positions start at one or later and all fit into 32 bits;
* `ParameterRange.codes` — the codes of the run in ascending order;
* `ParameterRange.published` — the two runs that the native library publishes.

`indexOf?` works on 32-bit words.  Inside the run the distance to the first code fits into an
unsigned word, so its wrapping difference is exact; only the last addition can leave the range, and
it is checked.
-/

namespace CommandBridge

/-- The sum of two words, if it fits into a word. -/
def checkedAdd (a b : UInt32) : Option UInt32 :=
  if a + b < a then none else some (a + b)

/-- The codes from `firstCode` to `lastCode` report rejected arguments, `firstCode` that at
position `firstIndex`. -/
structure ParameterRange where
  firstCode : Int32
  lastCode : Int32
  firstIndex : UInt32
  deriving DecidableEq, Repr

namespace ParameterRange

/-- The code belongs to the run. -/
def contains (r : ParameterRange) (code : Int32) : Bool :=
  r.firstCode ≤ code && code ≤ r.lastCode

/-- The argument position that a code of the run reports, if the position fits into a word. -/
def indexOf? (r : ParameterRange) (code : Int32) : Option UInt32 :=
  if r.contains code then
    checkedAdd r.firstIndex (code.toUInt32 - r.firstCode.toUInt32)
  else none

/-- The run is not empty, has positive codes only, and gives each of them a position from one
on. -/
def isValid (r : ParameterRange) : Bool :=
  0 < r.firstCode && r.firstCode ≤ r.lastCode && 1 ≤ r.firstIndex && (r.indexOf? r.lastCode).isSome

/-- The codes of the run in ascending order. -/
def codes (r : ParameterRange) : List Int32 :=
  (List.range (r.lastCode.toInt - r.firstCode.toInt + 1).toNat).map
    (fun offset => r.firstCode + Int32.ofNat offset)

/-- First and last code and the first position, for people. -/
def render (r : ParameterRange) : String :=
  s!"{r.firstCode}..={r.lastCode} (from parameter {r.firstIndex})"

/-- The run as a JSON object. -/
def toJson (r : ParameterRange) : String :=
  "\x7b\"first_code\":" ++ toString r.firstCode ++ ",\"last_code\":" ++ toString r.lastCode ++
    ",\"first_index\":" ++ toString r.firstIndex ++ "\x7d"

/-- The runs that the native library publishes. -/
def published : List ParameterRange :=
  [⟨100, 111, 1⟩, ⟨115, 129, 13⟩]

end ParameterRange

end CommandBridge

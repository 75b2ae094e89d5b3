import CommandBridge.Error.Basic
import CommandBridge.Text.Utf8

/-!
# Text that ends at a zero byte

The native side takes and gives text as bytes up to a terminating zero byte.

* `CText` — such bytes, without the terminator;
* `CText.ofString?` — a text in that form, or the place of the zero byte that it has inside;
* `CText.ofArgument` — the same for an argument of a command, with the error that names the
  argument;
* `CText.ofMemory` — the bytes of memory up to the first zero byte;
* `CText.toString` — the text, ill-formed bytes replaced.
-/

namespace CommandBridge

/-- Bytes of a text that ends at a zero byte; the terminator itself is left out. -/
structure CText where
  bytes : List UInt8
  zero_not_mem : 0 ∉ bytes := by decide

namespace CText

/-- The bytes up to the first zero byte. -/
def ofMemory (memory : List UInt8) : CText where
  bytes := memory.takeWhile (· != 0)
  zero_not_mem h := by
    have all := List.all_takeWhile (l := memory) (p := (· != 0))
    simpa using List.all_eq_true.mp all 0 h

/-- The text without its terminator, or the offset of the first zero byte inside it. -/
def ofString? (s : String) : Except Nat CText :=
  if h : 0 ∉ Utf8.encode s then .ok ⟨Utf8.encode s, h⟩
  else .error ((Utf8.encode s).takeWhile (· != 0)).length

/-- The text, with the replacement sign for each ill-formed piece. -/
def toString (t : CText) : String :=
  Utf8.decodeLossy t.bytes

/-- The error for a text argument with a zero byte inside. -/
def interiorZero (index : UInt32) (offset : Nat) : BridgeError :=
  { kind := .invalidParameter index
    code := BridgeError.boundaryStatus
    detail := some s!"argument {index} contains an interior NUL byte at {offset}" }

/-- The text argument at position `index` of a native function, counted from one with the command
handle included. -/
def ofArgument (index : UInt32) (s : String) : Except BridgeError CText :=
  match ofString? s with
  | .ok t => .ok t
  | .error offset => .error (interiorZero index offset)

/-- The text behind a pointer, which is empty for a null pointer. -/
def read : Option (List UInt8) → String
  | some memory => (ofMemory memory).toString
  | none => ""

end CText

end CommandBridge

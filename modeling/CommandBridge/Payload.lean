import CommandBridge.Error.Basic

/-!
# Payloads

What a successful completion brings along, one form for each kind of native callback.

* `Payload` — the owned copy of a callback's arguments;
* `Shape` — what a caller wants to have: one of the seven forms, or the payload as it is;
* `Shape.Value` — the type of the value behind a shape;
* `Shape.decode` — the value, or the error that names the shape wanted and the one that came;
* `Shape.encode` — the payload that a value came from.

`Shape.decode_encode` says that every value is read back, and `Shape.eq_encode_of_decode` that
nothing else is accepted.
-/

namespace CommandBridge

/-- The arguments of a completion callback after its status. -/
inductive Payload where
  | empty
  | handle (value : Int32)
  | text (value : String)
  | bool (value : Bool)
  | bytes (value : List UInt8)
  | textPair (first second : String)
  | textBytes (text : String) (bytes : List UInt8)
  deriving DecidableEq, Repr

/-- The name of the form that a payload has. -/
def Payload.name : Payload → String
  | .empty => "empty"
  | .handle _ => "handle"
  | .text _ => "text"
  | .bool _ => "bool"
  | .bytes _ => "bytes"
  | .textPair _ _ => "text_pair"
  | .textBytes _ _ => "text_bytes"

/-- What a caller wants of a payload. -/
inductive Shape where
  | empty
  | handle
  | text
  | bool
  | bytes
  | textPair
  | textBytes
  /-- The payload as it is. -/
  | payload
  deriving DecidableEq, Repr

namespace Shape

/-- The type of the value behind a shape. -/
@[reducible]
def Value : Shape → Type
  | .empty => Unit
  | .handle => Int32
  | .text => String
  | .bool => Bool
  | .bytes => List UInt8
  | .textPair => String × String
  | .textBytes => String × List UInt8
  | .payload => Payload

/-- The name of the form that a shape asks for; the last shape takes every form. -/
def name : Shape → String
  | .empty => "empty"
  | .handle => "handle"
  | .text => "text"
  | .bool => "bool"
  | .bytes => "bytes"
  | .textPair => "text_pair"
  | .textBytes => "text_bytes"
  | .payload => "payload"

/-- A payload came that does not have the shape wanted. -/
def mismatch (shape : Shape) (payload : Payload) : BridgeError :=
  { kind := .invalidStructure
    code := BridgeError.boundaryStatus
    detail := some s!"expected a {shape.name} completion payload, got {payload.name}" }

/-- The value of a payload of this shape. -/
def decode : (shape : Shape) → Payload → Except BridgeError shape.Value
  | .empty, .empty => .ok ()
  | .handle, .handle value => .ok value
  | .text, .text value => .ok value
  | .bool, .bool value => .ok value
  | .bytes, .bytes value => .ok value
  | .textPair, .textPair first second => .ok (first, second)
  | .textBytes, .textBytes first second => .ok (first, second)
  | .payload, whole => .ok whole
  | shape, other => .error (shape.mismatch other)

/-- The payload that brings a value. -/
def encode : (shape : Shape) → shape.Value → Payload
  | .empty, _ => .empty
  | .handle, value => .handle value
  | .text, value => .text value
  | .bool, value => .bool value
  | .bytes, value => .bytes value
  | .textPair, (first, second) => .textPair first second
  | .textBytes, (first, second) => .textBytes first second
  | .payload, whole => whole

@[simp] theorem decode_encode (shape : Shape) (value : shape.Value) :
    shape.decode (shape.encode value) = .ok value := by
  cases shape <;> rfl

theorem eq_encode_of_decode {shape : Shape} {payload : Payload} {value : shape.Value}
    (h : shape.decode payload = .ok value) : payload = shape.encode value := by
  cases shape <;> cases payload <;> cases h <;> rfl

end Shape

end CommandBridge

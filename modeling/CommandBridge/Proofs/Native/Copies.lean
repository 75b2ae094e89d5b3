import CommandBridge.Native.Callback
import CommandBridge.Pending.Call
import CommandBridge.Proofs.Text.CText
import CommandBridge.Status.Named

/-!
# The copy of a callback's arguments

The memory behind its pointers says what the arguments of a callback mean.  The copy is just that,
and a caller is shown it exactly if the shape wanted is that of the callback, or any.

* `IsText`, `IsData` — what a pointer to text means, and one to data with a length;
* `CallbackArguments.Copies` — the payload that arguments mean;
* `CallbackArguments.Copies.payload_eq` — this is the payload that is read;
* `CallbackArguments.shape` — the shape of a callback;
* `ShownAs` — what the caller of a shape is shown of the copy;
* `CallbackArguments.Copies.shownAs` — and this is what the caller gets.
-/

namespace CommandBridge

/-! ### What the arguments mean -/

/-- The text behind a pointer: none behind a null pointer, else what stands before the first zero
byte, with ill-formed bytes replaced. -/
inductive IsText : Memory → String → Prop
  | null : IsText none ""
  | bytes {bytes : List UInt8} (h : 0 ∉ bytes) (rest : List UInt8) :
      IsText (some (bytes ++ 0 :: rest)) (Utf8.decodeLossy bytes)

/-- The data behind a pointer: none behind a null pointer, else as many bytes as were announced. -/
inductive IsData : Memory → Nat → List UInt8 → Prop
  | null (length : Nat) : IsData none length []
  | bytes (data rest : List UInt8) : IsData (some (data ++ rest)) data.length data

theorem IsText.read_eq {memory : Memory} {text : String} (h : IsText memory text) :
    CText.read memory = text := by
  cases h with
  | null => rfl
  | bytes h rest => exact CText.read_append_zero h rest

theorem IsData.readBytes_eq {memory : Memory} {length : Nat} {data : List UInt8}
    (h : IsData memory length data) : readBytes memory length = data := by
  cases h with
  | null => rfl
  | bytes rest => exact List.take_left

namespace CallbackArguments

/-- The payload that the arguments of a callback mean. -/
inductive Copies : CallbackArguments → Payload → Prop
  | empty : Copies .empty .empty
  | handle (value : Int32) : Copies (.handle value) (.handle value)
  | text {memory : Memory} {text : String} (h : IsText memory text) :
      Copies (.text memory) (.text text)
  | bool (value : Bool) : Copies (.bool value) (.bool value)
  | bytes {memory : Memory} {length : Nat} {data : List UInt8} (h : IsData memory length data) :
      Copies (.bytes memory length) (.bytes data)
  | textPair {memory memory' : Memory} {first second : String} (h : IsText memory first)
      (h' : IsText memory' second) : Copies (.textPair memory memory') (.textPair first second)
  | textBytes {memory memory' : Memory} {length : Nat} {text : String} {data : List UInt8}
      (h : IsText memory text) (h' : IsData memory' length data) :
      Copies (.textBytes memory memory' length) (.textBytes text data)

/-- **What is read is what the arguments mean.** -/
theorem Copies.payload_eq {arguments : CallbackArguments} {payload : Payload}
    (h : arguments.Copies payload) : arguments.payload = payload := by
  cases h with
  | empty => rfl
  | handle value => rfl
  | text h => exact congrArg Payload.text h.read_eq
  | bool value => rfl
  | bytes h => exact congrArg Payload.bytes h.readBytes_eq
  | textPair h h' => exact congrArg₂ Payload.textPair h.read_eq h'.read_eq
  | textBytes h h' => exact congrArg₂ Payload.textBytes h.read_eq h'.readBytes_eq

/-! ### What is delivered -/

theorem completion_of_success (arguments : CallbackArguments) :
    arguments.completion successStatus = arguments.payload :=
  if_pos rfl

/-- With a failure nothing is delivered, whatever the arguments are. -/
theorem completion_of_failure {status : Int32} (h : status ≠ successStatus)
    (arguments : CallbackArguments) : arguments.completion status = .empty :=
  if_neg h

/-! ### What a caller is shown -/

/-- The shape of a callback. -/
def shape : CallbackArguments → Shape
  | .empty => .empty
  | .handle _ => .handle
  | .text _ => .text
  | .bool _ => .bool
  | .bytes _ _ => .bytes
  | .textPair _ _ => .textPair
  | .textBytes _ _ _ => .textBytes

variable {arguments : CallbackArguments} {shape : Shape}

theorem name_payload (arguments : CallbackArguments) :
    arguments.payload.name = arguments.shape.name := by
  cases arguments <;> rfl

/-- A payload has the shape of its callback, or may have any. -/
theorem exists_decode_iff : (∃ value, shape.decode arguments.payload = .ok value) ↔
    shape = arguments.shape ∨ shape = .payload := by
  constructor
  · rintro ⟨value, h⟩
    cases shape with
    | payload => exact .inr rfl
    | _ => cases arguments <;> first | exact .inl rfl | cases h
  · rintro (rfl | rfl)
    · cases arguments <;> exact ⟨_, rfl⟩
    · exact ⟨_, rfl⟩

theorem eq_mismatch_of_decode {error : BridgeError}
    (h : shape.decode arguments.payload = .error error) :
    error = shape.mismatch arguments.payload := by
  cases shape <;> cases arguments <;> cases h <;> rfl

end CallbackArguments

/-- What the caller of a shape is shown of the payload that arguments mean: the value that it brings
if the shape is that of the callback or takes every form, else an error that names the shape wanted
and the one that came. -/
structure ShownAs (arguments : CallbackArguments) (payload : Payload) (shape : Shape)
    (result : Result shape) : Prop where
  isOk : (∃ value, result = .ok value) ↔ shape = arguments.shape ∨ shape = .payload
  value : ∀ value, result = .ok value → payload = shape.encode value
  error : ∀ error, result = .error error → error.kind = .invalidStructure ∧ error.code = -1 ∧
    error.message =
      s!"expected a {shape.name} completion payload, got {arguments.shape.name}"

/-- **A caller is shown the copy**, or an error if another shape is wanted. -/
theorem CallbackArguments.Copies.shownAs {arguments : CallbackArguments} {payload : Payload}
    (h : arguments.Copies payload) (shape : Shape) :
    ShownAs arguments payload shape (shape.result (.ok payload)) := by
  rw [← h.payload_eq]
  refine ⟨exists_decode_iff, fun value hvalue => Shape.eq_encode_of_decode hvalue, ?_⟩
  intro error herror
  rw [eq_mismatch_of_decode herror, ← name_payload]
  exact ⟨rfl, rfl, rfl⟩

end CommandBridge

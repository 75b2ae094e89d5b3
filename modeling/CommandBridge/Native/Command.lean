import CommandBridge.Native.Callback

/-!
# Native commands

The functions of the native library that the bridge wraps: wallets and pools.

* `Command` — a wrapped function with its arguments;
* `Command.operation`, `function` — its name in logs and its native name;
* `Command.callback`, `shape` — the callback that it hands over, and what its caller gets;
* `Command.arguments` — the arguments in native form, or the error for the first text among them
  that has a zero byte inside;
* `NativeCall` — a call as the native side sees it.

Argument positions are those of the native function, counted from one with the command handle
first.
-/

namespace CommandBridge

/-- An argument as the native side sees it. -/
inductive NativeArgument where
  | text (text : CText)
  | number (value : Int32)
  /-- A null pointer in place of a text. -/
  | null

/-- A call as the native side sees it: its function, the handle if it is an asynchronous one, and
the arguments between the handle and the callback. -/
structure NativeCall where
  function : String
  handle : Option CommandHandle
  arguments : List NativeArgument

/-- A text argument at a position. -/
def textArgument (index : UInt32) (s : String) : Except BridgeError NativeArgument :=
  (CText.ofArgument index s).map .text

/-- A text argument that may be left out. -/
def optionalArgument (index : UInt32) : Option String → Except BridgeError NativeArgument
  | some s => textArgument index s
  | none => .ok .null

/-- A wrapped function with its arguments. -/
inductive Command where
  | createWallet (config credentials : String)
  | openWallet (config credentials : String)
  | closeWallet (wallet : Int32)
  | deleteWallet (config credentials : String)
  | createKey (wallet : Int32) (key : String)
  | createPoolConfig (name : String) (config : Option String)
  | openPool (name : String) (config : Option String)
  | closePool (pool : Int32)
  deriving DecidableEq, Repr

namespace Command

/-- The name in logs. -/
def operation : Command → String
  | .createWallet _ _ => "create_wallet"
  | .openWallet _ _ => "open_wallet"
  | .closeWallet _ => "close_wallet"
  | .deleteWallet _ _ => "delete_wallet"
  | .createKey _ _ => "create_key"
  | .createPoolConfig _ _ => "create_pool_ledger_config"
  | .openPool _ _ => "open_pool_ledger"
  | .closePool _ => "close_pool_ledger"

/-- The name of the native function. -/
def function : Command → String
  | .createWallet _ _ => "indy_create_wallet"
  | .openWallet _ _ => "indy_open_wallet"
  | .closeWallet _ => "indy_close_wallet"
  | .deleteWallet _ _ => "indy_delete_wallet"
  | .createKey _ _ => "indy_create_key"
  | .createPoolConfig _ _ => "indy_create_pool_ledger_config"
  | .openPool _ _ => "indy_open_pool_ledger"
  | .closePool _ => "indy_close_pool_ledger"

theorem function_eq (c : Command) : c.function = "indy_" ++ c.operation := by
  cases c <;> rfl

/-- The form of the callback that the native function is given. -/
def callback : Command → Shape
  | .createWallet _ _ => .empty
  | .openWallet _ _ => .handle
  | .closeWallet _ => .empty
  | .deleteWallet _ _ => .empty
  | .createKey _ _ => .text
  | .createPoolConfig _ _ => .empty
  | .openPool _ _ => .handle
  | .closePool _ => .empty

/-- What the caller gets in the end. -/
def shape : Command → Shape
  | .createWallet _ _ => .empty
  | .openWallet _ _ => .handle
  | .closeWallet _ => .empty
  | .deleteWallet _ _ => .empty
  | .createKey _ _ => .text
  | .createPoolConfig _ _ => .empty
  | .openPool _ _ => .handle
  | .closePool _ => .empty

/-- The callback brings what the caller wants. -/
theorem callback_eq_shape (c : Command) : c.callback = c.shape := by
  cases c <;> rfl

/-- The arguments in native form. -/
def arguments : Command → Except BridgeError (List NativeArgument)
  | .createWallet config credentials
  | .openWallet config credentials
  | .deleteWallet config credentials => do
    .ok [← textArgument 2 config, ← textArgument 3 credentials]
  | .closeWallet wallet => .ok [.number wallet]
  | .createKey wallet key => do .ok [.number wallet, ← textArgument 3 key]
  | .createPoolConfig name config
  | .openPool name config => do .ok [← textArgument 2 name, ← optionalArgument 3 config]
  | .closePool pool => .ok [.number pool]

end Command

/-- The call that sets the configuration of the running library; it has no handle and returns its
status at once. -/
def runtimeConfigCall (config : String) : Except BridgeError NativeCall := do
  .ok ⟨"indy_set_runtime_config", none, [← textArgument 1 config]⟩

end CommandBridge

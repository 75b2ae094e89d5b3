import CommandBridge.Log.Record
import CommandBridge.Status.Table
import CommandBridge.Text.Quoted

/-!
# Storage plugins

A wallet storage plugin registers itself with the native library when its entry point is called.

* `StoragePlugin` — the plugin's name;
* `StoragePlugin.register` — what its registration reports for the status that the entry point
  returned.
-/

namespace CommandBridge

/-- A plugin that stores wallets. -/
structure StoragePlugin where
  name : String
  deriving DecidableEq, Repr

namespace StoragePlugin

/-- The part of the bridge that reports registrations. -/
def target : String := "indykit_core::plugin"

/-- The plugin as listings show it. -/
def listing (p : StoragePlugin) : String :=
  "StoragePlugin \x7b name: " ++ Quoted.render p.name ++ ", .. \x7d"

/-- The result of a registration whose entry point returned `status`, and the record that says
so. -/
def register (p : StoragePlugin) (statuses : StatusTable) (status : Int32) :
    Except BridgeError Unit × Record :=
  match statuses.check status with
  | .ok _ => (.ok (), ⟨.info, target, s!"registered wallet storage plugin {p.name}"⟩)
  | .error e =>
    (.error e,
      ⟨.error, target, s!"failed to register wallet storage plugin {p.name}: {e.render}"⟩)

end StoragePlugin

end CommandBridge

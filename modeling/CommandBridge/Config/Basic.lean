import CommandBridge.Duration
import CommandBridge.Json.Text
import CommandBridge.Status.Table

/-!
# Configurations

What can be configured about the bridge: how long callers wait by default, which statuses report
rejected arguments, and which kind of error single statuses mean.

* `Config` — the three settings; the empty configuration changes nothing;
* `Config.statusTable` — the status table that a configuration describes, or its first fault;
* `Config.callTimeout` — the default waiting time;
* `Config.toJson` — the configuration as compact JSON.
-/

namespace CommandBridge

/-- The settings of the bridge. -/
structure Config where
  /-- How long callers wait by default, in milliseconds; without it they wait for ever. -/
  callTimeoutMs : Option UInt64 := none
  /-- The parameter ranges that take the place of the published ones. -/
  parameterRanges : Option (List ParameterRange) := none
  /-- Names of kinds for single statuses, applied last. -/
  overrides : Std.ExtTreeMap Int32 String := ∅

namespace Config

/-- The two configurations have the same settings. -/
def same (a b : Config) : Bool :=
  a.callTimeoutMs == b.callTimeoutMs && a.parameterRanges == b.parameterRanges &&
    a.overrides == b.overrides

/-- The configuration that changes nothing. -/
def isDefault (c : Config) : Bool :=
  c.same {}

/-- The default waiting time. -/
def callTimeout (c : Config) : Option Duration :=
  c.callTimeoutMs.map (fun ms => ⟨ms.toNat⟩)

/-! ### The status table -/

/-- Pins a status to the kind with the given name. -/
def applyOverride (t : StatusTable) (code : Int32) (name : String) :
    Except ConfigError StatusTable :=
  match ErrorKind.ofName? name with
  | none => .error (.unknownKind code name)
  | some kind => t.pin code kind

/-- The status table of the configured ranges, or of the published ones, with the overrides applied
by ascending status. -/
def statusTable (c : Config) : Except ConfigError StatusTable := do
  let table ← StatusTable.ofRanges (c.parameterRanges.getD ParameterRange.published)
  c.overrides.toList.foldlM (fun t entry => applyOverride t entry.1 entry.2) table

/-! ### Writing -/

/-- The items with commas between them. -/
def separated (items : List String) : String :=
  ",".intercalate items

/-- The waiting time in JSON. -/
def timeoutToJson : Option UInt64 → String
  | some ms => toString ms
  | none => "null"

/-- The ranges in JSON. -/
def rangesToJson : Option (List ParameterRange) → String
  | some ranges => "[" ++ separated (ranges.map ParameterRange.toJson) ++ "]"
  | none => "null"

/-- One override in JSON. -/
def overrideToJson (entry : Int32 × String) : String :=
  "\"" ++ toString entry.1 ++ "\":" ++ Json.quote entry.2

/-- The overrides in JSON, by ascending status. -/
def overridesToJson (overrides : Std.ExtTreeMap Int32 String) : String :=
  "\x7b" ++ separated (overrides.toList.map overrideToJson) ++ "\x7d"

/-- The configuration as a JSON object without blanks. -/
def toJson (c : Config) : String :=
  "\x7b\"call_timeout_ms\":" ++ timeoutToJson c.callTimeoutMs ++
    ",\"parameter_ranges\":" ++ rangesToJson c.parameterRanges ++
    ",\"overrides\":" ++ overridesToJson c.overrides ++ "\x7d"

end Config

end CommandBridge

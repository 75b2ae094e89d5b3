import CommandBridge.Config.Basic
import CommandBridge.Json.Value
import CommandBridge.Text.Utf8

/-!
# Reading configurations

A configuration is a JSON object with any of the three settings, or an array of them in their order
that may be short.  A parameter range is an object with its three fields and any others, which are
ignored, or an array of exactly the three.  Every reader takes its value from the front of the text
and reports the first flaw from the left.

* `Config.read` — a configuration at the front of a text;
* `Config.ofJson` — a text that is a configuration and nothing else;
* `Config.ofFile` — the same for what a path leads to.
-/

namespace CommandBridge

open Json

/-! ### Integers -/

/-- A natural number that fits into 64 bits. -/
def Json.Number.toUInt64? : Number → Option UInt64
  | .natural n => if n < UInt64.size then some (UInt64.ofNat n) else none
  | _ => none

/-- A natural number that fits into 32 bits. -/
def Json.Number.toUInt32? : Number → Option UInt32
  | .natural n => if n < UInt32.size then some (UInt32.ofNat n) else none
  | _ => none

/-- An integer that fits into 32 bits with a sign. -/
def Json.Number.toInt32? : Number → Option Int32
  | .natural n => if n < 1 <<< 31 then some (Int32.ofInt n) else none
  | .negative n => if n ≤ 1 <<< 31 then some (Int32.ofInt (-n)) else none
  | .fractional => none

/-- A status. -/
def readInt32 : Reader Int32 :=
  readWhole Number.toInt32?

/-- An argument position. -/
def readUInt32 : Reader UInt32 :=
  readWhole Number.toUInt32?

/-- A number of milliseconds. -/
def readUInt64 : Reader UInt64 :=
  readWhole Number.toUInt64?

/-- Stores the value of a field that may be set only once. -/
def setOnce (old : Option α) (read : Reader α) : Reader α := fun cs =>
  match old with
  | some _ => .error .unacceptable
  | none => do read (← skipColon cs)

/-! ### Parameter ranges -/

/-- The fields of a parameter range read so far. -/
structure RangeFields where
  firstCode : Option Int32 := none
  lastCode : Option Int32 := none
  firstIndex : Option UInt32 := none

/-- One member of a range object, from behind the quote that opens its key. -/
def RangeFields.readMember (fields : RangeFields) : Reader RangeFields := fun cs => do
  let (key, rest) ← readText cs
  if key = "first_code" then
    let (code, rest) ← setOnce fields.firstCode readInt32 rest
    .ok ({ fields with firstCode := some code }, rest)
  else if key = "last_code" then
    let (code, rest) ← setOnce fields.lastCode readInt32 rest
    .ok ({ fields with lastCode := some code }, rest)
  else if key = "first_index" then
    let (index, rest) ← setOnce fields.firstIndex readUInt32 rest
    .ok ({ fields with firstIndex := some index }, rest)
  else
    let (_, rest) ← skipValue (← skipColon rest)
    .ok (fields, rest)

/-- The range, if no field is missing. -/
def RangeFields.range? (fields : RangeFields) : Option ParameterRange := do
  some ⟨← fields.firstCode, ← fields.lastCode, ← fields.firstIndex⟩

/-- An element that must not be missing. -/
def readRequired (isFirst : Bool) (read : Reader α) : Reader α := fun cs => do
  match ← nextElement isFirst cs with
  | .closed _ => .error .unacceptable
  | .item rest => read rest

/-- A range as the array of its fields, behind the opening bracket. -/
def readRangeElements : Reader ParameterRange := fun cs => do
  let (firstCode, rest) ← readRequired true readInt32 cs
  let (lastCode, rest) ← readRequired false readInt32 rest
  let (firstIndex, rest) ← readRequired false readUInt32 rest
  .ok (⟨firstCode, lastCode, firstIndex⟩, ← closeArray rest)

/-- A range as an object, behind the opening bracket. -/
def readRangeMembers : Reader ParameterRange := fun cs => do
  let (fields, rest) ← readMembers RangeFields.readMember (cs.length + 1) true {} cs
  match fields.range? with
  | some range => .ok (range, rest)
  | none => .error .unacceptable

/-- A parameter range. -/
def readRange : Reader ParameterRange := fun cs =>
  match skipBlanks cs with
  | [] => .error .truncated
  | c :: rest =>
    if c = '[' then readRangeElements rest
    else if c = '\x7b' then readRangeMembers rest
    else .error (refuse (c :: rest))

/-! ### Overrides -/

/-- A status as a key: an integer between quotes, without escapes. -/
def readCodeKey : Reader Int32
  | [] => .error .malformed
  | c :: rest =>
    if startsNumber c then do
      let (number, rest) ← readNumber (c :: rest)
      match number.toInt32? with
      | none => .error .unacceptable
      | some code =>
        match rest with
        | '"' :: rest => .ok (code, rest)
        | _ => .error .malformed
    else .error .malformed

/-- One override, from behind the quote that opens its key.  A later one for the same status takes
the place of an earlier one. -/
def readOverride (overrides : Std.ExtTreeMap Int32 String) :
    Reader (Std.ExtTreeMap Int32 String) := fun cs => do
  let (code, rest) ← readCodeKey cs
  let (name, rest) ← readString (← skipColon rest)
  .ok (overrides.insert code name, rest)

/-- The overrides. -/
def readOverrides : Reader (Std.ExtTreeMap Int32 String) := fun cs =>
  match skipBlanks cs with
  | [] => .error .truncated
  | c :: rest =>
    if c = '\x7b' then readMembers readOverride (rest.length + 1) true ∅ rest
    else .error (refuse (c :: rest))

/-! ### Configurations -/

/-- The settings read so far. -/
structure ConfigFields where
  callTimeoutMs : Option (Option UInt64) := none
  parameterRanges : Option (Option (List ParameterRange)) := none
  overrides : Option (Std.ExtTreeMap Int32 String) := none

/-- The configuration, with the default for every setting that is missing. -/
def ConfigFields.config (fields : ConfigFields) : Config where
  callTimeoutMs := fields.callTimeoutMs.getD none
  parameterRanges := fields.parameterRanges.getD none
  overrides := fields.overrides.getD ∅

/-- The waiting time, or `null`. -/
def readCallTimeout : Reader (Option UInt64) :=
  readOptional readUInt64

/-- The parameter ranges, or `null`. -/
def readParameterRanges : Reader (Option (List ParameterRange)) :=
  readOptional (readArray readRange)

/-- One setting, from behind the quote that opens its key. -/
def ConfigFields.readMember (fields : ConfigFields) : Reader ConfigFields := fun cs => do
  let (key, rest) ← readText cs
  if key = "call_timeout_ms" then
    let (timeout, rest) ← setOnce fields.callTimeoutMs readCallTimeout rest
    .ok ({ fields with callTimeoutMs := some timeout }, rest)
  else if key = "parameter_ranges" then
    let (ranges, rest) ← setOnce fields.parameterRanges readParameterRanges rest
    .ok ({ fields with parameterRanges := some ranges }, rest)
  else if key = "overrides" then
    let (overrides, rest) ← setOnce fields.overrides readOverrides rest
    .ok ({ fields with overrides := some overrides }, rest)
  else .error .unacceptable

namespace Config

/-- A configuration as an array of settings, behind the opening bracket. -/
def readSettings : Reader Config := fun cs => do
  match ← nextElement true cs with
  | .closed rest => .ok ({}, rest)
  | .item rest =>
    let (timeout, rest) ← readCallTimeout rest
    match ← nextElement false rest with
    | .closed rest => .ok ({ callTimeoutMs := timeout }, rest)
    | .item rest =>
      let (ranges, rest) ← readParameterRanges rest
      match ← nextElement false rest with
      | .closed rest => .ok ({ callTimeoutMs := timeout, parameterRanges := ranges }, rest)
      | .item rest =>
        let (overrides, rest) ← readOverrides rest
        .ok (⟨timeout, ranges, overrides⟩, ← closeArray rest)

/-- A configuration as an object, behind the opening bracket. -/
def readMembers : Reader Config := fun cs => do
  let (fields, rest) ← Json.readMembers ConfigFields.readMember (cs.length + 1) true {} cs
  .ok (fields.config, rest)

/-- A configuration at the front of a text. -/
def read : Reader Config := fun cs =>
  match skipBlanks cs with
  | [] => .error .truncated
  | c :: rest =>
    if c = '[' then readSettings rest
    else if c = '\x7b' then readMembers rest
    else .error (refuse (c :: rest))

/-- A text that is a configuration and nothing else. -/
def ofText (cs : List Char) : Except Flaw Config := do
  let (config, rest) ← read cs
  if (skipBlanks rest).isEmpty then .ok config else .error .malformed

/-- The configuration that a JSON text holds. -/
def ofJson (text : String) : Except ConfigError Config :=
  (ofText text.toList).mapError .flawed

/-! ### Files -/

/-- What a path leads to. -/
inductive FileContent where
  | missing
  | directory
  | bytes (bytes : List UInt8)
  deriving DecidableEq, Repr

/-- The configuration in the file at a path. -/
def ofFile (path : String) : FileContent → Except ConfigError Config
  | .missing => .error (.unreadable path .notFound)
  | .directory => .error (.unreadable path .isDirectory)
  | .bytes bytes =>
    match Utf8.decode? bytes with
    | none => .error (.unreadable path .invalidText)
    | some text => ofJson text

end Config

end CommandBridge

import CommandBridge.Config.Reader
import CommandBridge.Proofs.Json.Value

/-!
# The language of configurations

Which JSON texts are configurations, and what they say, without a reader.

* `RangeText` — a parameter range: an object with each of three fields once, or an array of the three;
* `OverridesText` — the overrides: an object from statuses to texts, the last value counts;
* `Setting.Value` — the values of the three settings;
* `ConfigText` — a configuration: an object with some of the settings, or an array of the first ones;
* `Config.IsDocument` — a text that is one configuration with blanks around.

Two spellings leave room, and `Spelling` says what counts there: minus zero, which is an integer of
JSON but is read as a floating-point number, and the keys of fields that are ignored, which have to
stand for a text although nobody looks at it.
-/

namespace CommandBridge

open Json

/-- Which texts count as integers, and which as keys of fields that are ignored. -/
structure Spelling where
  integer : List Char → Int → Prop
  ignoredKey : List Char → Prop

/-! ### Parameter ranges -/

/-- The keys of a parameter range. -/
def RangeField.keys : List String :=
  ["first_code", "last_code", "first_index"]

/-- All that JSON knows as integers and as strings. -/
def Spelling.json : Spelling where
  integer := IntegerLiteral
  ignoredKey key := IsString key ∧ ∀ name ∈ RangeField.keys, ¬StringLiteral key name

/-- Integers other than minus zero, and strings that stand for a text. -/
def Spelling.exact : Spelling where
  integer := IsInteger
  ignoredKey key := ∃ name, StringLiteral key name ∧ name ∉ RangeField.keys

/-- One field of a parameter range. -/
inductive RangeField where
  | firstCode (code : Int32)
  | lastCode (code : Int32)
  | firstIndex (index : UInt32)
  /-- A field that is ignored. -/
  | other

namespace RangeField

/-- The first code, if the field holds it. -/
def firstCode? : RangeField → Option Int32
  | .firstCode code => some code
  | _ => none

/-- The last code, if the field holds it. -/
def lastCode? : RangeField → Option Int32
  | .lastCode code => some code
  | _ => none

/-- The first position, if the field holds it. -/
def firstIndex? : RangeField → Option UInt32
  | .firstIndex index => some index
  | _ => none

/-- How the value of a field is written. -/
inductive Value (s : Spelling) : List Char → RangeField → Prop where
  | firstCode {t : List Char} {code : Int32} : s.integer t code.toInt → Value s t (.firstCode code)
  | lastCode {t : List Char} {code : Int32} : s.integer t code.toInt → Value s t (.lastCode code)
  | firstIndex {t : List Char} {index : UInt32} : s.integer t index.toNat →
      Value s t (.firstIndex index)
  | other {t : List Char} : IsValue t → Value s t .other

/-- How the key of a field is written. -/
def Key (s : Spelling) (t : List Char) : RangeField → Prop
  | .firstCode _ => StringLiteral t "first_code"
  | .lastCode _ => StringLiteral t "last_code"
  | .firstIndex _ => StringLiteral t "first_index"
  | .other => s.ignoredKey t

end RangeField

/-- A parameter range, and how it is written. -/
inductive RangeText (s : Spelling) : List Char → ParameterRange → Prop where
  | members {t : List Char} {fields : List RangeField} {r : ParameterRange} :
      ObjectOf (fun key value field => field.Key s key ∧ field.Value s value) t fields →
      fields.filterMap RangeField.firstCode? = [r.firstCode] →
      fields.filterMap RangeField.lastCode? = [r.lastCode] →
      fields.filterMap RangeField.firstIndex? = [r.firstIndex] → RangeText s t r
  | elements {t : List Char} {r : ParameterRange} :
      ArrayOf (RangeField.Value s) t
        [.firstCode r.firstCode, .lastCode r.lastCode, .firstIndex r.firstIndex] → RangeText s t r

/-! ### Overrides -/

/-- One override: the status in decimal digits between quotes, and the text. -/
def OverrideText (key value : List Char) (entry : Int32 × String) : Prop :=
  key = '"' :: ((toString entry.1.toInt).toList ++ ['"']) ∧ StringLiteral value entry.2

/-- The overrides, and how they are written: each status has the text that it was given last. -/
def OverridesText (t : List Char) (overrides : Std.ExtTreeMap Int32 String) : Prop :=
  ∃ entries, ObjectOf OverrideText t entries ∧
    ∀ code, overrides[code]? = (entries.reverse.find? (·.1 == code)).map (·.2)

/-! ### Settings -/

/-- One setting. -/
inductive Setting where
  | callTimeoutMs (timeout : Option UInt64)
  | parameterRanges (ranges : Option (List ParameterRange))
  | overrides (overrides : Std.ExtTreeMap Int32 String)

namespace Setting

/-- The keys of the settings, in the order in which an array lists their values. -/
def keys : List String :=
  ["call_timeout_ms", "parameter_ranges", "overrides"]

/-- The key of a setting. -/
def key : Setting → String
  | .callTimeoutMs _ => "call_timeout_ms"
  | .parameterRanges _ => "parameter_ranges"
  | .overrides _ => "overrides"

/-- The waiting time, if that is set. -/
def callTimeoutMs? : Setting → Option (Option UInt64)
  | .callTimeoutMs timeout => some timeout
  | _ => none

/-- The ranges, if these are set. -/
def parameterRanges? : Setting → Option (Option (List ParameterRange))
  | .parameterRanges ranges => some ranges
  | _ => none

/-- The overrides, if these are set. -/
def overrides? : Setting → Option (Std.ExtTreeMap Int32 String)
  | .overrides entries => some entries
  | _ => none

/-- How the value of a setting is written. -/
inductive Value (s : Spelling) : List Char → Setting → Prop where
  | callTimeoutMs {t : List Char} {timeout : Option UInt64} :
      OptionalText (fun t ms => s.integer t ms.toNat) t timeout → Value s t (.callTimeoutMs timeout)
  | parameterRanges {t : List Char} {ranges : Option (List ParameterRange)} :
      OptionalText (ArrayOf (RangeText s)) t ranges → Value s t (.parameterRanges ranges)
  | overrides {t : List Char} {overrides : Std.ExtTreeMap Int32 String} :
      OverridesText t overrides → Value s t (.overrides overrides)

end Setting

/-- The configuration with the given settings, and the default for those that are missing. -/
def Config.ofSettings (settings : List Setting) : Config where
  callTimeoutMs := (settings.findSome? Setting.callTimeoutMs?).getD none
  parameterRanges := (settings.findSome? Setting.parameterRanges?).getD none
  overrides := (settings.findSome? Setting.overrides?).getD ∅

/-- A configuration, and how it is written: no setting twice, or the first ones in their order. -/
inductive ConfigText (s : Spelling) : List Char → Config → Prop where
  | members {t : List Char} {settings : List Setting} :
      ObjectOf (fun key value setting => StringLiteral key setting.key ∧ setting.Value s value)
        t settings →
      (settings.map Setting.key).Nodup → ConfigText s t (.ofSettings settings)
  | elements {t : List Char} {settings : List Setting} : ArrayOf (Setting.Value s) t settings →
      settings.map Setting.key <+: Setting.keys → ConfigText s t (.ofSettings settings)

/-- The text is one JSON value with blanks around, and that is the configuration. -/
def Config.IsDocument (s : Spelling) (text : List Char) (config : Config) : Prop :=
  ∃ b t b', IsBlanks b ∧ IsBlanks b' ∧ IsValue t ∧ ConfigText s t config ∧ text = b ++ (t ++ b')

end CommandBridge

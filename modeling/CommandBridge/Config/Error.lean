import CommandBridge.Json.Flaw
import CommandBridge.Status.Range

/-!
# What can be wrong with a configuration

* `FileFault` — why a configuration file could not be read;
* `ConfigError` — that, a flaw of the text, or a fault in what the text says;
* `ConfigError.message` — the sentence for people, where the bridge words it.
-/

namespace CommandBridge

/-- Why a file could not be read as text. -/
inductive FileFault where
  | notFound
  | isDirectory
  | invalidText
  deriving DecidableEq, Repr

/-- The words of the operating system, or of the text decoder. -/
def FileFault.message : FileFault → String
  | .notFound => "No such file or directory (os error 2)"
  | .isDirectory => "Is a directory (os error 21)"
  | .invalidText => "stream did not contain valid UTF-8"

/-- Why a configuration was rejected. -/
inductive ConfigError where
  /-- The file at `path` could not be read. -/
  | unreadable (path : String) (fault : FileFault)
  /-- The text is not a configuration. -/
  | flawed (flaw : Json.Flaw)
  /-- A parameter range is empty, has a code below one, or its positions do not fit. -/
  | invalidRange (range : ParameterRange)
  /-- Two parameter ranges share a code; `first` starts no later than `second`. -/
  | overlappingRanges (first second : ParameterRange)
  /-- An override names a kind that does not exist. -/
  | unknownKind (code : Int32) (name : String)
  /-- The success status cannot be given a kind of error. -/
  | successOverride
  deriving DecidableEq, Repr

/-- The sentence for people; flaws of the text have no fixed wording. -/
def ConfigError.message? : ConfigError → Option String
  | .unreadable path fault => some s!"failed to read config {path}: {fault.message}"
  | .flawed _ => none
  | .invalidRange range => some s!"invalid parameter range {range.render}"
  | .overlappingRanges first second =>
      some s!"parameter ranges {first.render} and {second.render} overlap"
  | .unknownKind code name => some s!"unknown error kind '{name}' for code {code}"
  | .successOverride => some "status code 0 always means success and cannot be overridden"

end CommandBridge

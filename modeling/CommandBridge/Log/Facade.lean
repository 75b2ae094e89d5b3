import CommandBridge.Log.Record

/-!
# The log facade

All parts of a program speak to one log facade.  It drops what is beyond the maximum level in force
and hands the rest to one log, the first that was installed.  Its own levels are ordered by how much
is said, so the most severe comes first, and `Level` is ordered the other way round.

* `FacadeLevel`, `Level.ofFacade`, `Level.toFacade` — the levels of the facade;
* `LevelFilter`, `LevelFilter.ofLevel` — a maximum level, or no level at all;
* `Spoken`, `Spoken.shown` — a record as the facade passes it on, and as a host application gets it;
* `Facade`, `Facade.IsLawful` — what a facade offers and what is relied on;
* `Facade.standard` — the facade of a process that nobody has installed a log in yet.
-/

namespace CommandBridge

/-! ### Levels -/

/-- How much is said, the least first. -/
inductive FacadeLevel where
  | error
  | warn
  | info
  | debug
  | trace
  deriving DecidableEq, Repr

namespace FacadeLevel

/-- The place in the order of the facade; `0` is to say nothing. -/
def verbosity : FacadeLevel → Nat
  | .error => 1
  | .warn => 2
  | .info => 3
  | .debug => 4
  | .trace => 5

instance : LE FacadeLevel where
  le a b := a.verbosity ≤ b.verbosity

instance (a b : FacadeLevel) : Decidable (a ≤ b) :=
  inferInstanceAs (Decidable (a.verbosity ≤ b.verbosity))

/-- The name in reports. -/
def name : FacadeLevel → String
  | .error => "error"
  | .warn => "warn"
  | .info => "info"
  | .debug => "debug"
  | .trace => "trace"

end FacadeLevel

namespace Level

/-- The level that a host application is told. -/
def ofFacade : FacadeLevel → Level
  | .error => .error
  | .warn => .warn
  | .info => .info
  | .debug => .debug
  | .trace => .trace

/-- The level at which the facade is spoken to. -/
def toFacade : Level → FacadeLevel
  | .error => .error
  | .warn => .warn
  | .info => .info
  | .debug => .debug
  | .trace => .trace

@[simp] theorem ofFacade_toFacade (level : Level) : ofFacade level.toFacade = level := by
  cases level <;> rfl

@[simp] theorem toFacade_ofFacade (level : FacadeLevel) : (ofFacade level).toFacade = level := by
  cases level <;> rfl

/-- The two orders run in opposite directions. -/
theorem le_ofFacade_iff {maxLevel : Level} {level : FacadeLevel} :
    maxLevel ≤ ofFacade level ↔ level ≤ maxLevel.toFacade := by
  cases maxLevel <;> cases level <;> decide

/-- What is at least as severe as information. -/
theorem ofFacade_mem_iff {level : FacadeLevel} :
    ofFacade level ∈ [Level.info, .warn, .error] ↔ level ≤ .info := by
  cases level <;> decide

end Level

/-- The most that may be said. -/
inductive LevelFilter where
  /-- Nothing. -/
  | off
  | upTo (level : FacadeLevel)
  deriving DecidableEq, Repr

namespace LevelFilter

/-- Records of this level and all that are more severe. -/
def ofLevel (level : Level) : LevelFilter :=
  .upTo level.toFacade

/-- The level that a filter goes up to. -/
def level? : LevelFilter → Option FacadeLevel
  | .off => none
  | .upTo level => some level

/-- Records of this level may pass. -/
def admits : LevelFilter → FacadeLevel → Bool
  | .off, _ => false
  | .upTo maxLevel, level => level ≤ maxLevel

theorem admits_ofLevel {maxLevel : Level} {level : FacadeLevel} :
    (ofLevel maxLevel).admits level = true ↔ maxLevel ≤ Level.ofFacade level := by
  rw [Level.le_ofFacade_iff]
  exact decide_eq_true_iff

end LevelFilter

/-! ### Records -/

/-- A record on its way through the facade. -/
structure Spoken where
  level : FacadeLevel
  target : String
  message : String
  deriving DecidableEq, Repr

/-- The record as a host application gets it. -/
def Spoken.shown (record : Spoken) : Record :=
  ⟨.ofFacade record.level, record.target, record.message⟩

/-- The record as it is spoken. -/
def Record.spoken (record : Record) : Spoken :=
  ⟨record.level.toFacade, record.target, record.message⟩

theorem Record.shown_spoken (record : Record) : record.spoken.shown = record := by
  cases record
  simp [Record.spoken, Spoken.shown]

/-! ### The facade -/

/-- What a log facade offers to the program around it. -/
structure Facade (Log : Type) where
  State : Type
  /-- At the start of the process. -/
  initial : State
  /-- Installs a log. -/
  setLog : Log → State → State
  setMaxLevel : LevelFilter → State → State
  /-- The log installed. -/
  log? : State → Option Log
  maxLevel : State → LevelFilter
  /-- The log that is handed a record of this level if one is spoken. -/
  handler? : State → FacadeLevel → Option Log

namespace Facade

variable {Log : Type}

/-- The first log installed is kept, the level in force is the last one set, neither call does what
the other is for, and what is beyond the level in force is dropped. -/
structure IsLawful (F : Facade Log) : Prop where
  log?_setLog : ∀ log s, F.log? (F.setLog log s) = (F.log? s).or (some log)
  maxLevel_setLog : ∀ log s, F.maxLevel (F.setLog log s) = F.maxLevel s
  log?_setMaxLevel : ∀ filter s, F.log? (F.setMaxLevel filter s) = F.log? s
  maxLevel_setMaxLevel : ∀ filter s, F.maxLevel (F.setMaxLevel filter s) = filter
  handler?_eq : ∀ s level,
    F.handler? s level = if (F.maxLevel s).admits level then F.log? s else none

/-- The log and the level of a process. -/
structure Settings (Log : Type) where
  log : Option Log := none
  maxLevel : LevelFilter := .off

/-- A process that nobody has installed a log in yet; until then nothing is said. -/
def standard : Facade Log where
  State := Settings Log
  initial := {}
  setLog log s := { s with log := s.log.or (some log) }
  setMaxLevel filter s := { s with maxLevel := filter }
  log? := Settings.log
  maxLevel := Settings.maxLevel
  handler? s level := if s.maxLevel.admits level then s.log else none

theorem isLawful_standard : (standard : Facade Log).IsLawful where
  log?_setLog _ _ := rfl
  maxLevel_setLog _ _ := rfl
  log?_setMaxLevel _ _ := rfl
  maxLevel_setMaxLevel _ _ := rfl
  handler?_eq _ _ := rfl

end Facade

end CommandBridge

import CommandBridge.Log.Facade

/-!
# Logging to a host application

A host application registers a logger and the least severe level that it wants.  The first logger
is kept; later registrations only move the level.  The bridge installs a log of its own with the
facade, which passes records on to the logger kept: from anyone those that inform, warn or report
errors, from the bridge itself all.

* `InstalledLog`, `InstalledLog.forwards` — the log that the bridge installs, and what it passes on;
* `Logging` — the logger kept and the facade, with what was received so far;
* `Logging.setLogger` — registers a logger;
* `Logging.speak` — a record is spoken to the facade;
* `Logging.isEnabled` — whether a record of a level and a part would be received;
* `LogAction`, `Logging.performAll` — registrations and records one after the other.

Loggers are told apart by a value of any type, for instance their number.
-/

namespace CommandBridge

/-- A log that can be installed with the facade. -/
inductive InstalledLog where
  /-- The bridge's own, which passes records on to the host application. -/
  | forwarding
  /-- One that somebody else installed in the same process. -/
  | other (isEnabled : FacadeLevel → String → Bool)

namespace InstalledLog

/-- The bridge's log passes records of this level from this part on; from anyone else than the
bridge, what is said in more detail than information is dropped. -/
def forwards (level : FacadeLevel) (target : String) : Bool :=
  level ≤ FacadeLevel.info || Record.isOwn target

/-- The log says that it takes records of this level from this part. -/
def isEnabled : InstalledLog → FacadeLevel → String → Bool
  | .forwarding => forwards
  | .other isEnabled => isEnabled

end InstalledLog

/-- The logger kept, the state of the facade, and the records received, oldest first, each with the
logger that received it. -/
structure Logging (Logger : Type) (F : Facade InstalledLog := .standard) where
  logger : Option Logger := none
  facade : F.State := F.initial
  received : List (Logger × Record) := []

/-- What a process does about its log. -/
inductive LogAction (Logger : Type) where
  /-- The host application registers a logger with the least severe level that it wants. -/
  | setLogger (logger : Logger) (maxLevel : Level)
  /-- Some part of the program speaks. -/
  | speak (record : Spoken)
  deriving DecidableEq, Repr

namespace Logging

variable {Logger : Type} {F : Facade InstalledLog}

/-- Keeps the logger if it is the first, and puts the level in force.  If the bridge's log is not
the first one installed, the other one is left in place. -/
def setLogger (s : Logging Logger F) (logger : Logger) (maxLevel : Level) : Logging Logger F :=
  { s with
    logger := s.logger.or (some logger)
    facade := F.setMaxLevel (.ofLevel maxLevel) (F.setLog .forwarding s.facade) }

/-- The maximum level of the facade. -/
def maxLevel (s : Logging Logger F) : Option FacadeLevel :=
  (F.maxLevel s.facade).level?

/-- A record of this level from this part would be received. -/
def isEnabled (s : Logging Logger F) (level : Level) (target : String) : Bool :=
  match F.handler? s.facade level.toFacade with
  | some log => log.isEnabled level.toFacade target
  | none => false

/-- The bridge's log is handed a record: it goes to the logger kept, if it is passed on at all. -/
def forward (s : Logging Logger F) (record : Spoken) : Logging Logger F :=
  if InstalledLog.forwards record.level record.target then
    match s.logger with
    | some logger => { s with received := s.received ++ [(logger, record.shown)] }
    | none => s
  else s

/-- A record is spoken.  What another log does with it is not seen by the host application. -/
def speak (s : Logging Logger F) (record : Spoken) : Logging Logger F :=
  match F.handler? s.facade record.level with
  | some .forwarding => s.forward record
  | some (.other _) => s
  | none => s

/-- One action. -/
def perform (s : Logging Logger F) : LogAction Logger → Logging Logger F
  | .setLogger logger maxLevel => s.setLogger logger maxLevel
  | .speak record => s.speak record

/-- Several actions, one after the other. -/
def performAll (s : Logging Logger F) (actions : List (LogAction Logger)) : Logging Logger F :=
  actions.foldl perform s

/-- Several records, one after the other. -/
def logAll (s : Logging Logger F) (records : List Record) : Logging Logger F :=
  s.performAll (records.map (fun record => .speak record.spoken))

end Logging

end CommandBridge

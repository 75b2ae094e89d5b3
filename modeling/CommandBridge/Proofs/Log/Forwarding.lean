import CommandBridge.Log.Logging
import Mathlib.Data.List.Forall2
import Mathlib.Data.List.Induction

/-!
# What a host application hears

Registrations of loggers and spoken records come in any order.  A record reaches the host
application if the level last registered admits it and the bridge's log passes it on, and then it
reaches the logger registered first.  Nothing else is received, by nobody, and nothing is received
in another order.

* `LogAction.firstLogger`, `lastMaxLevel` — what the registrations so far amount to;
* `Spoken.Passes`, `IsAdmitted` — a record that has to be received, and a position at which one is
  spoken;
* `Logging.Follows`, `Follows.setLogger`, `Follows.speak` — what the state says about the actions so
  far, and that an action keeps it;
* `Logging.Follows.speak_of_passes`, `speak_of_not_passes` — what becomes of one record;
* `Logging.ReceivesExactly`, `receivesExactly_after` — what has been received is what was admitted;
* `Logging.received_logAll` — between two registrations this is a selection of the records;
* `Logging.forwarding_exact` — **the logger registered first receives just the admitted records**.
-/

namespace CommandBridge

variable {Logger : Type}

/-! ### Registrations -/

namespace LogAction

/-- The logger that is registered. -/
def logger? : LogAction Logger → Option Logger
  | .setLogger logger _ => some logger
  | .speak _ => none

/-- The level that is registered with it. -/
def maxLevel? : LogAction Logger → Option Level
  | .setLogger _ maxLevel => some maxLevel
  | .speak _ => none

/-- The logger of the first registration. -/
def firstLogger (actions : List (LogAction Logger)) : Option Logger :=
  (actions.filterMap logger?).head?

/-- The level of the most recent registration. -/
def lastMaxLevel (actions : List (LogAction Logger)) : Option Level :=
  (actions.filterMap maxLevel?).getLast?

variable {actions : List (LogAction Logger)} {logger : Logger} {maxLevel : Level} {record : Spoken}

@[simp] theorem firstLogger_setLogger :
    firstLogger (actions ++ [.setLogger logger maxLevel]) = (firstLogger actions).or logger := by
  simp [firstLogger, logger?, List.head?_append]

@[simp] theorem firstLogger_speak :
    firstLogger (actions ++ [.speak record]) = firstLogger actions := by
  simp [firstLogger, logger?]

@[simp] theorem lastMaxLevel_setLogger :
    lastMaxLevel (actions ++ [.setLogger logger maxLevel]) = some maxLevel := by
  simp [lastMaxLevel, maxLevel?]

@[simp] theorem lastMaxLevel_speak :
    lastMaxLevel (actions ++ [.speak record]) = lastMaxLevel actions := by
  simp [lastMaxLevel, maxLevel?]

/-- A first logger is there as soon as a level is. -/
theorem firstLogger_eq_none_iff : firstLogger actions = none ↔ lastMaxLevel actions = none := by
  induction actions using List.reverseRecOn with
  | nil => exact ⟨fun _ => rfl, fun _ => rfl⟩
  | append_singleton actions action ih =>
    cases action with
    | setLogger logger maxLevel => simp
    | speak record => simpa using ih

theorem exists_firstLogger (h : lastMaxLevel actions = some maxLevel) :
    ∃ logger, firstLogger actions = some logger := by
  refine Option.ne_none_iff_exists'.mp fun hnone => ?_
  rw [firstLogger_eq_none_iff.mp hnone] at h
  cases h

/-- Later registrations do not change who was first. -/
theorem firstLogger_snoc {action : LogAction Logger} (h : firstLogger actions = some logger) :
    firstLogger (actions ++ [action]) = some logger := by
  cases action with
  | setLogger later maxLevel => rw [firstLogger_setLogger, h, Option.some_or]
  | speak record => rw [firstLogger_speak, h]

end LogAction

open LogAction

/-! ### Admitted records -/

/-- A host application gets to hear this record: it informs, warns or reports an error, or the
bridge itself speaks. -/
def Spoken.IsHeard (record : Spoken) : Prop :=
  record.shown.level ∈ [Level.info, .warn, .error] ∨ "indykit".toList <+: record.target.toList

/-- The bridge's log passes on what is heard. -/
theorem InstalledLog.forwards_iff {record : Spoken} :
    InstalledLog.forwards record.level record.target = true ↔ record.IsHeard := by
  rw [InstalledLog.forwards, Bool.or_eq_true, decide_eq_true_iff, ← Level.ofFacade_mem_iff]
  exact or_congr_right List.isPrefixOf_iff_prefix

/-- After these actions a record is to be received: it is at least as severe as the most recent
registration wants, and it is heard. -/
structure Spoken.Passes (record : Spoken) (actions : List (LogAction Logger)) : Prop where
  severe : ∃ maxLevel, lastMaxLevel actions = some maxLevel ∧ maxLevel ≤ record.shown.level
  heard : record.IsHeard

/-- At this position a record is spoken that is to be received after the actions before it. -/
structure IsAdmitted (actions : List (LogAction Logger)) (i : Nat) (record : Spoken) : Prop where
  spoken : actions[i]? = some (.speak record)
  passes : record.Passes (actions.take i)

namespace IsAdmitted

variable {actions : List (LogAction Logger)} {action : LogAction Logger} {i : Nat} {record : Spoken}

theorem lt_length (h : IsAdmitted actions i record) : i < actions.length :=
  (List.getElem?_eq_some_iff.mp h.spoken).1

/-- Later actions do not matter. -/
theorem snoc_iff_of_lt (hi : i < actions.length) :
    IsAdmitted (actions ++ [action]) i record ↔ IsAdmitted actions i record := by
  have hspoken : (actions ++ [action])[i]? = actions[i]? := List.getElem?_append_left hi
  have htake : (actions ++ [action]).take i = actions.take i :=
    List.take_append_of_le_length (by omega)
  constructor
  · rintro ⟨h, hpasses⟩
    rw [hspoken] at h
    rw [htake] at hpasses
    exact ⟨h, hpasses⟩
  · rintro ⟨h, hpasses⟩
    refine ⟨hspoken.trans h, ?_⟩
    rwa [htake]

/-- The last action is judged by those before it. -/
theorem snoc_length_iff : IsAdmitted (actions ++ [action]) actions.length record ↔
    action = .speak record ∧ record.Passes actions := by
  have hspoken : (actions ++ [action])[actions.length]? = some action :=
    List.getElem?_concat_length
  have htake : (actions ++ [action]).take actions.length = actions :=
    List.take_left' rfl
  constructor
  · rintro ⟨h, hpasses⟩
    rw [hspoken] at h
    rw [htake] at hpasses
    exact ⟨Option.some.inj h, hpasses⟩
  · rintro ⟨rfl, hpasses⟩
    refine ⟨hspoken, ?_⟩
    rwa [htake]

end IsAdmitted

/-! ### The state and the actions so far -/

namespace Logging

variable {F : Facade InstalledLog} {s : Logging Logger F} {actions : List (LogAction Logger)}

/-- The logger kept is the first, the facade has the bridge's log in place since then, and the level
in force is the last. -/
structure Follows (s : Logging Logger F) (actions : List (LogAction Logger)) : Prop where
  logger : s.logger = firstLogger actions
  log : F.log? s.facade = (firstLogger actions).map fun _ => .forwarding
  maxLevel : ∀ maxLevel, lastMaxLevel actions = some maxLevel →
    F.maxLevel s.facade = .ofLevel maxLevel

namespace Follows

variable (hlawful : F.IsLawful)

include hlawful

theorem setLogger (h : s.Follows actions) (logger : Logger) (maxLevel : Level) :
    (s.setLogger logger maxLevel).Follows (actions ++ [.setLogger logger maxLevel]) := by
  refine ⟨?_, ?_, fun later hlater => ?_⟩
  · rw [firstLogger_setLogger, ← h.logger]
    rfl
  · show F.log? (F.setMaxLevel _ (F.setLog .forwarding s.facade)) = _
    rw [hlawful.log?_setMaxLevel, hlawful.log?_setLog, h.log, firstLogger_setLogger]
    cases firstLogger actions <;> rfl
  · rw [lastMaxLevel_setLogger] at hlater
    cases hlater
    exact hlawful.maxLevel_setMaxLevel _ _

/-- Who is handed a record: the bridge's log, if the level in force admits the record. -/
theorem handler?_eq_some_iff (h : s.Follows actions) {record : Spoken} {log : InstalledLog} :
    F.handler? s.facade record.level = some log ↔ log = .forwarding ∧
      ∃ maxLevel, lastMaxLevel actions = some maxLevel ∧ maxLevel ≤ record.shown.level := by
  rw [hlawful.handler?_eq, h.log, Option.ite_none_right_eq_some]
  cases hlast : lastMaxLevel actions with
  | none =>
    constructor
    · rintro ⟨-, hlog⟩
      rw [firstLogger_eq_none_iff.mpr hlast] at hlog
      cases hlog
    · rintro ⟨-, _, hlevel, -⟩
      cases hlevel
  | some maxLevel =>
    obtain ⟨logger, hfirst⟩ := exists_firstLogger hlast
    rw [h.maxLevel _ hlast, LevelFilter.admits_ofLevel, hfirst]
    constructor
    · rintro ⟨hsevere, hlog⟩
      cases hlog
      exact ⟨rfl, _, rfl, hsevere⟩
    · rintro ⟨rfl, _, hlevel, hsevere⟩
      cases hlevel
      exact ⟨hsevere, rfl⟩

/-- A record that is to be received goes to the first logger. -/
theorem speak_of_passes (h : s.Follows actions) {record : Spoken}
    (hpasses : record.Passes actions) :
    ∃ logger, firstLogger actions = some logger ∧
      s.speak record = { s with received := s.received ++ [(logger, record.shown)] } := by
  obtain ⟨⟨maxLevel, hlast, hsevere⟩, hheard⟩ := hpasses
  obtain ⟨logger, hfirst⟩ := exists_firstLogger hlast
  refine ⟨logger, hfirst, ?_⟩
  have hhandler : F.handler? s.facade record.level = some .forwarding :=
    (h.handler?_eq_some_iff hlawful).mpr ⟨rfl, _, hlast, hsevere⟩
  rw [Logging.speak, hhandler]
  show s.forward record = _
  rw [Logging.forward, if_pos (InstalledLog.forwards_iff.mpr hheard), h.logger, hfirst]

/-- Every other record is dropped. -/
theorem speak_of_not_passes (h : s.Follows actions) {record : Spoken}
    (hnot : ¬ record.Passes actions) : s.speak record = s := by
  rw [Logging.speak]
  split
  · next hhandler =>
    have hsevere := ((h.handler?_eq_some_iff hlawful).mp hhandler).2
    have hunheard : ¬ InstalledLog.forwards record.level record.target = true := by
      intro hforwards
      exact hnot ⟨hsevere, InstalledLog.forwards_iff.mp hforwards⟩
    rw [Logging.forward, if_neg hunheard]
  · rfl
  · rfl

/-- A record changes nothing about who gets which records later. -/
theorem speak (h : s.Follows actions) (record : Spoken) :
    (s.speak record).Follows (actions ++ [.speak record]) := by
  have hkept : (s.speak record).logger = s.logger ∧ (s.speak record).facade = s.facade := by
    by_cases hpasses : record.Passes actions
    · obtain ⟨logger, -, hspeak⟩ := h.speak_of_passes hlawful hpasses
      rw [hspeak]
      exact ⟨rfl, rfl⟩
    · rw [h.speak_of_not_passes hlawful hpasses]
      exact ⟨rfl, rfl⟩
  refine ⟨?_, ?_, fun maxLevel hlast => ?_⟩
  · rw [hkept.1, h.logger, firstLogger_speak]
  · rw [hkept.2, h.log, firstLogger_speak]
  · rw [lastMaxLevel_speak] at hlast
    rw [hkept.2, h.maxLevel _ hlast]

end Follows

/-! ### What has been received -/

/-- At a position this was received: the record that was to be received there, by the first
logger. -/
def Receives (actions : List (LogAction Logger)) (i : Nat) (entry : Logger × Record) : Prop :=
  firstLogger actions = some entry.1 ∧
    ∃ record, IsAdmitted actions i record ∧ entry.2 = record.shown

/-- These are the records that were to be received, in the order in which they were spoken. -/
def ReceivesExactly (actions : List (LogAction Logger)) (received : List (Logger × Record)) :
    Prop :=
  ∃ positions : List Nat, positions.Pairwise (· < ·) ∧
    (∀ i, i ∈ positions ↔ ∃ record, IsAdmitted actions i record) ∧
    List.Forall₂ (Receives actions) positions received

namespace ReceivesExactly

variable {received : List (Logger × Record)} {action : LogAction Logger}

theorem receives_snoc {i : Nat} {entry : Logger × Record} (h : Receives actions i entry) :
    Receives (actions ++ [action]) i entry := by
  obtain ⟨hfirst, record, hadmitted, hshown⟩ := h
  exact ⟨firstLogger_snoc hfirst, record,
    (IsAdmitted.snoc_iff_of_lt hadmitted.lt_length).mpr hadmitted, hshown⟩

/-- An action after which nothing more is to be received. -/
theorem snoc_of_not (h : ReceivesExactly actions received)
    (hnot : ∀ record, ¬ IsAdmitted (actions ++ [action]) actions.length record) :
    ReceivesExactly (actions ++ [action]) received := by
  obtain ⟨positions, hsorted, hmem, hreceives⟩ := h
  refine ⟨positions, hsorted, fun i => ?_, hreceives.imp fun _ _ => receives_snoc⟩
  rw [hmem]
  constructor
  · rintro ⟨record, hadmitted⟩
    exact ⟨record, (IsAdmitted.snoc_iff_of_lt hadmitted.lt_length).mpr hadmitted⟩
  · rintro ⟨record, hadmitted⟩
    have hlt := hadmitted.lt_length
    rw [List.length_append, List.length_singleton] at hlt
    by_cases hi : i = actions.length
    · subst hi
      exact absurd hadmitted (hnot record)
    · exact ⟨record, (IsAdmitted.snoc_iff_of_lt (by omega)).mp hadmitted⟩

/-- An action with which one more record is to be received. -/
theorem snoc (h : ReceivesExactly actions received) {record : Spoken} {logger : Logger}
    (hfirst : firstLogger actions = some logger)
    (hlast : IsAdmitted (actions ++ [action]) actions.length record) :
    ReceivesExactly (actions ++ [action]) (received ++ [(logger, record.shown)]) := by
  obtain ⟨positions, hsorted, hmem, hreceives⟩ := h
  have hbelow : ∀ i ∈ positions, i < actions.length := by
    intro i hi
    obtain ⟨earlier, hadmitted⟩ := (hmem i).mp hi
    exact hadmitted.lt_length
  refine ⟨positions ++ [actions.length], ?_, fun i => ?_, ?_⟩
  · refine List.pairwise_append.mpr ⟨hsorted, List.pairwise_singleton _ _, ?_⟩
    intro i hi j hj
    rw [List.mem_singleton.mp hj]
    exact hbelow i hi
  · rw [List.mem_append, List.mem_singleton, hmem]
    constructor
    · rintro (⟨earlier, hadmitted⟩ | rfl)
      · exact ⟨earlier, (IsAdmitted.snoc_iff_of_lt hadmitted.lt_length).mpr hadmitted⟩
      · exact ⟨record, hlast⟩
    · rintro ⟨other, hadmitted⟩
      have hlt := hadmitted.lt_length
      rw [List.length_append, List.length_singleton] at hlt
      by_cases hi : i = actions.length
      · exact Or.inr hi
      · exact Or.inl ⟨other, (IsAdmitted.snoc_iff_of_lt (by omega)).mp hadmitted⟩
  · refine List.rel_append (hreceives.imp fun _ _ => receives_snoc) ?_
    exact .cons ⟨firstLogger_snoc hfirst, record, hlast, rfl⟩ .nil

end ReceivesExactly

/-! ### Runs -/

/-- The state after some actions from the start of the process. -/
def after (F : Facade InstalledLog) (actions : List (LogAction Logger)) : Logging Logger F :=
  performAll {} actions

theorem after_snoc (action : LogAction Logger) :
    after F (actions ++ [action]) = (after F actions).perform action := by
  rw [after, performAll, List.foldl_append]
  rfl

variable (hlawful : F.IsLawful) (hfresh : F.log? F.initial = none)

include hlawful hfresh

/-- What the state of a process says about the actions so far. -/
theorem follows_after (actions : List (LogAction Logger)) : (after F actions).Follows actions := by
  induction actions using List.reverseRecOn with
  | nil => exact ⟨rfl, hfresh, nofun⟩
  | append_singleton actions action ih =>
    rw [after_snoc]
    cases action with
    | setLogger logger maxLevel => exact ih.setLogger hlawful logger maxLevel
    | speak record => exact ih.speak hlawful record

/-- What has been received is what was to be received. -/
theorem receivesExactly_after (actions : List (LogAction Logger)) :
    ReceivesExactly actions (after F actions).received := by
  induction actions using List.reverseRecOn with
  | nil =>
    refine ⟨[], List.Pairwise.nil, fun i => ⟨nofun, ?_⟩, .nil⟩
    rintro ⟨record, hadmitted⟩
    exact absurd hadmitted.lt_length (Nat.not_lt_zero i)
  | append_singleton actions action ih =>
    have hfollows := follows_after hlawful hfresh actions
    rw [after_snoc]
    cases action with
    | setLogger logger maxLevel =>
      refine ih.snoc_of_not fun record hadmitted => ?_
      cases (IsAdmitted.snoc_length_iff.mp hadmitted).1
    | speak record =>
      show ReceivesExactly _ ((after F actions).speak record).received
      by_cases hpasses : record.Passes actions
      · obtain ⟨logger, hfirst, hspeak⟩ := hfollows.speak_of_passes hlawful hpasses
        rw [hspeak]
        exact ih.snoc hfirst (IsAdmitted.snoc_length_iff.mpr ⟨rfl, hpasses⟩)
      · rw [hfollows.speak_of_not_passes hlawful hpasses]
        refine ih.snoc_of_not fun other hother => hpasses ?_
        obtain ⟨hsame, hother⟩ := IsAdmitted.snoc_length_iff.mp hother
        cases hsame
        exact hother

section InForce

variable {actions : List (LogAction Logger)} {logger : Logger} {maxLevel : Level}
  (hlast : lastMaxLevel actions = some maxLevel) (hfirst : firstLogger actions = some logger)

include hlast hfirst

/-- What is received of one record while a level is in force. -/
theorem received_speak (record : Spoken) :
    ((after F actions).speak record).received = (after F actions).received ++
      if maxLevel ≤ record.shown.level ∧ InstalledLog.forwards record.level record.target
      then [(logger, record.shown)] else [] := by
  have hfollows := follows_after hlawful hfresh actions
  by_cases hpasses : record.Passes actions
  · obtain ⟨⟨level, hlevel, hsevere⟩, hheard⟩ := hpasses
    obtain ⟨first, hfound, hspeak⟩ :=
      hfollows.speak_of_passes hlawful ⟨⟨level, hlevel, hsevere⟩, hheard⟩
    cases hlast.symm.trans hlevel
    cases hfirst.symm.trans hfound
    rw [hspeak, if_pos ⟨hsevere, InstalledLog.forwards_iff.mpr hheard⟩]
  · rw [hfollows.speak_of_not_passes hlawful hpasses, if_neg, List.append_nil]
    rintro ⟨hsevere, hforwards⟩
    exact hpasses ⟨⟨maxLevel, hlast, hsevere⟩, InstalledLog.forwards_iff.mp hforwards⟩

/-- As long as the level in force admits a record, it is received just if the bridge's log says that
it takes it. -/
theorem speak_after {record : Spoken} (hsevere : maxLevel ≤ record.shown.level) :
    (after F actions).isEnabled record.shown.level record.target =
        InstalledLog.forwarding.isEnabled record.level record.target ∧
      ((after F actions).speak record).received = (after F actions).received ++
        if InstalledLog.forwarding.isEnabled record.level record.target
        then [(logger, record.shown)] else [] := by
  constructor
  · have hhandler : F.handler? (after F actions).facade record.level = some .forwarding :=
      ((follows_after hlawful hfresh actions).handler?_eq_some_iff hlawful).mpr
        ⟨rfl, maxLevel, hlast, hsevere⟩
    rw [Logging.isEnabled, Spoken.shown, Level.toFacade_ofFacade, hhandler]
  · rw [received_speak hlawful hfresh hlast hfirst]
    exact congrArg _ (if_congr (and_iff_right hsevere) rfl rfl)

/-- **Between two registrations, what is received is a selection of the records**, as they are. -/
theorem received_logAll (records : List Record) :
    ((after F actions).logAll records).received = (after F actions).received ++
      (records.filter fun record => maxLevel ≤ record.level ∧
        InstalledLog.forwards record.level.toFacade record.target).map (logger, ·) := by
  induction records generalizing actions with
  | nil => exact (List.append_nil _).symm
  | cons record records ih =>
    have hnext : after F (actions ++ [.speak record.spoken]) =
        (after F actions).speak record.spoken := after_snoc _
    have hrest : (after F actions).logAll (record :: records) =
        (after F (actions ++ [.speak record.spoken])).logAll records := by
      rw [hnext]
      rfl
    have hone := received_speak hlawful hfresh hlast hfirst record.spoken
    rw [record.shown_spoken] at hone
    rw [hrest, ih (lastMaxLevel_speak.trans hlast) (firstLogger_speak.trans hfirst), hnext, hone,
      List.append_assoc, List.filter_cons]
    by_cases hpasses : maxLevel ≤ record.level ∧
        InstalledLog.forwards record.level.toFacade record.target
    · rw [if_pos (decide_eq_true hpasses)]
      exact congrArg _ (congrArg (· ++ _) (if_pos hpasses))
    · rw [if_neg (fun h => hpasses (of_decide_eq_true h))]
      exact congrArg _ (congrArg (· ++ _) (if_neg hpasses))

end InForce

/-- **The logger registered first receives just the admitted records.**  Let registrations and
spoken records come in any order, with a facade that keeps the first log and drops what is beyond
its maximum level, and in which nothing was installed before.

* What has been received is, in the order in which it was spoken and with level, target and message
  unchanged, every record that is at least as severe as the most recent registration before it wants
  and that informs, warns, reports an error or comes from the bridge itself.
* It was received by the logger of the first registration, and no other logger received anything.
* For what the level in force admits, the bridge's log says that it takes a record just if the
  record would be received. -/
theorem forwarding_exact (actions : List (LogAction Logger)) :
    ReceivesExactly actions (after F actions).received ∧
    (∀ logger, firstLogger actions ≠ some logger →
      ∀ record, (logger, record) ∉ (after F actions).received) ∧
    ∀ maxLevel, lastMaxLevel actions = some maxLevel →
      ∃ logger, firstLogger actions = some logger ∧
        ∀ record : Spoken, maxLevel ≤ record.shown.level →
          (after F actions).isEnabled record.shown.level record.target =
              InstalledLog.forwarding.isEnabled record.level record.target ∧
            ((after F actions).speak record).received = (after F actions).received ++
              if InstalledLog.forwarding.isEnabled record.level record.target
              then [(logger, record.shown)] else [] := by
  have hexact := receivesExactly_after hlawful hfresh actions
  refine ⟨hexact, fun logger hother record hmem => ?_, fun maxLevel hlast => ?_⟩
  · obtain ⟨positions, -, -, hreceives⟩ := hexact
    obtain ⟨k, hk, hentry⟩ := List.getElem_of_mem hmem
    have hfirst := (hreceives.get (hreceives.length_eq ▸ hk) hk).1
    rw [List.get_eq_getElem, hentry] at hfirst
    exact hother hfirst
  · obtain ⟨logger, hfirst⟩ := exists_firstLogger hlast
    exact ⟨logger, hfirst, fun record hsevere =>
      speak_after hlawful hfresh hlast hfirst hsevere⟩

omit hlawful hfresh

/-- Three loggers are registered while the program speaks. -/
def interleaved : List (LogAction Nat) :=
  [.speak ⟨.error, "indykit_core::pending", "nobody listens"⟩,
   .setLogger 0 .debug,
   .speak ⟨.debug, "indykit_core::pending", "open_wallet issued"⟩,
   .speak ⟨.debug, "hyper::proto", "dropped"⟩,
   .setLogger 1 .error,
   .speak ⟨.warn, "hyper::proto", "not severe enough"⟩,
   .setLogger 2 .trace,
   .speak ⟨.warn, "hyper::proto", "kept"⟩,
   .speak ⟨.trace, "indykit_core::handle", "handle 2"⟩]

/-- Only the first logger hears anything, and it hears what the other two let through. -/
theorem forwarding_exact_interleaved :
    (after .standard interleaved).received.map (fun entry => (entry.1, entry.2.message)) =
        [(0, "open_wallet issued"), (0, "kept"), (0, "handle 2")] ∧
      ReceivesExactly interleaved (after .standard interleaved).received ∧
      (∀ record, (2, record) ∉ (after .standard interleaved).received) ∧
      ((after .standard interleaved).speak ⟨.debug, "hyper::proto", "dropped"⟩).received =
        (after .standard interleaved).received := by
  obtain ⟨hexact, hothers, hlevel⟩ :=
    forwarding_exact (F := .standard) Facade.isLawful_standard rfl interleaved
  obtain ⟨logger, -, hspeak⟩ := hlevel .trace rfl
  have hdropped := (hspeak ⟨.debug, "hyper::proto", "dropped"⟩ (by decide)).2
  rw [if_neg (by decide), List.append_nil] at hdropped
  exact ⟨by decide, hexact, hothers 2 (by decide), hdropped⟩

end Logging

end CommandBridge

import CommandBridge.Proofs.Pending.Soundness
import CommandBridge.Proofs.Session.Section
import Mathlib.Data.List.Perm.Subperm

/-!
# The account of unresolved operations

An operation that is not resolved yet must be somewhere from where it still can be: under its handle
in the table, or with a thread that has taken its entry out, or was refused one, and is about to
resolve it.  This file keeps that account.

* `Stack.owed` — the operations that a thread has taken out of the table and still has to resolve;
* `World.entries`, `World.owners` — the table's entries and the operations they belong to;
* `World.timesRun` — how often the continuation of an operation has started;
* `World.handlesGiven` — the handles that the native function of an operation was given;
* `World.HasRoom`, `World.Fits` — there are fewer entries than handles, or no more;
* `outcome?_enter`, `handlesGiven_enter`, `outcome?_recordOutcome`, … — what the changes of an
  operation do to all this, and `Quiet.outcome?`, … — that other changes do nothing to it.
-/

namespace CommandBridge

/-! ### What a thread owes -/

/-- The attempt follows after its operation's entry was taken out, or was never made. -/
def Aftermath.hasTaken : Aftermath → Bool
  | .expire _ => false
  | .sweep _ _ _ _ => false
  | .giveUp _ _ => false
  | _ => true

/-- The operations that are still to be resolved after this, their entries taken out already. -/
def Aftermath.owed : Aftermath → List OperationId
  | .shutdown rest _ => rest.map Entry.owner
  | .drop rest => rest.map Entry.owner
  | _ => []

/-- The operations that a frame has taken out of the table and has to resolve. -/
def Frame.owed : Frame → List OperationId
  | .resolve id _ _ after => if after.hasTaken then id :: after.owed else after.owed
  | .continuation _ after => after.owed
  | .conclude after _ => after.owed
  | _ => []

/-- The operations that a thread has taken out of the table and has to resolve. -/
def Stack.owed (stack : Stack) : List OperationId :=
  stack.flatMap Frame.owed

namespace Stack

@[simp] theorem owed_cons (f : Frame) (stack : Stack) : owed (f :: stack) = f.owed ++ owed stack :=
  rfl

@[simp] theorem owed_reply (a : Answer) (stack : Stack) : owed (reply a stack) = owed stack := by
  cases stack with
  | nil => rfl
  | cons f below => cases f <;> rfl

@[simp] theorem owed_sweepOn (w : World) (rest : List Entry) (expired : List CommandHandle)
    (age : Duration) (below : Stack) : owed (sweepOn w rest expired age below).2 = owed below := by
  cases rest with
  | nil => exact owed_reply _ below
  | cons e rest => rfl

@[simp] theorem owed_shutdownOn (w : World) (rest : List Entry) (count : Nat) (below : Stack) :
    owed (shutdownOn w rest count below).2 = rest.map Entry.owner ++ owed below := by
  cases rest with
  | nil => exact owed_reply _ below
  | cons e rest => rfl

@[simp] theorem owed_dropOn (w : World) (rest : List Entry) (below : Stack) :
    owed (dropOn w rest below).2 = rest.map Entry.owner ++ owed below := by
  cases rest with
  | nil => exact owed_reply _ below
  | cons e rest => rfl

end Stack

theorem Done.owed {stack below : Stack} {answers : List Answer} (h : Done stack answers below) :
    stack.owed = below.owed := by
  cases h <;> rfl

theorem Aftermath.owed_of_entriesLeft {after : Aftermath} (h : after.entriesLeft = 0) :
    after.owed = [] := by
  cases after with
  | shutdown rest count =>
    rw [List.eq_nil_of_length_eq_zero h]
    rfl
  | drop rest =>
    rw [List.eq_nil_of_length_eq_zero h]
    rfl
  | _ => rfl

/-! ### What a state records -/

namespace World

/-- The entries in the table. -/
def entries (w : World) : List Entry :=
  match w.correlator with
  | .present c => c.table.entries
  | .absent _ => []

/-- The operations that have an entry. -/
def owners (w : World) : List OperationId :=
  w.entries.map Entry.owner

/-- How often the continuation of an operation has started. -/
def timesRun (w : World) (id : OperationId) : Nat :=
  w.journal.countP fun
    | .resolved other _ _ => other == id
    | _ => false

/-- The handles that the native function of an operation was given, the last one first. -/
def handlesGiven (w : World) (id : OperationId) : List CommandHandle :=
  w.journal.filterMap fun
    | .allocated other _ h => if other = id then some h else none
    | _ => none

/-- There are fewer entries than handles. -/
def HasRoom (w : World) : Prop :=
  w.entries.length < Allocator.fullTurn

/-- There are no more entries than handles.  As long as this holds, no registration has come upon a
full table, where it would look for a free handle forever. -/
def Fits (w : World) : Prop :=
  w.entries.length ≤ Allocator.fullTurn

theorem HasRoom.fits {w : World} (h : w.HasRoom) : w.Fits :=
  Nat.le_of_lt h

theorem entries_of_present {w : World} {c : Correlator} (hc : w.correlator = .present c) :
    w.entries = c.table.entries := by
  simp only [entries, hc]

theorem entries_congr {w v : World} (h : v.correlator = w.correlator) : v.entries = w.entries := by
  simp only [entries, h]

theorem correlator_setTable {w : World} {c : Correlator} (hc : w.correlator = .present c)
    (t : PendingTable) : (w.setTable t).correlator = .present { c with table := t } := by
  simp only [setTable, hc]

@[simp] theorem operations_setTable (w : World) (t : PendingTable) :
    (w.setTable t).operations = w.operations := by
  unfold setTable
  split <;> rfl

@[simp] theorem journal_setTable (w : World) (t : PendingTable) :
    (w.setTable t).journal = w.journal := by
  unfold setTable
  split <;> rfl

@[simp] theorem clock_setTable (w : World) (t : PendingTable) : (w.setTable t).clock = w.clock := by
  unfold setTable
  split <;> rfl

/-- A correlator that is installed by default has no entries either. -/
theorem entries_of_readied {w v : World} (hv : v = w ∨ v = w.installDefault) :
    v.entries = w.entries := by
  rcases hv with rfl | rfl
  · rfl
  · unfold installDefault
    split
    · next hw =>
      show ([] : List Entry) = w.entries
      rw [entries, hw]
    · rfl

theorem operations_of_readied {w v : World} (hv : v = w ∨ v = w.installDefault) :
    v.operations = w.operations := by
  rcases hv with rfl | rfl
  · rfl
  · unfold installDefault
    split <;> rfl

theorem journal_of_readied {w v : World} (hv : v = w ∨ v = w.installDefault) :
    v.journal = w.journal := by
  rcases hv with rfl | rfl
  · rfl
  · unfold installDefault
    split <;> rfl

theorem clock_of_readied {w v : World} (hv : v = w ∨ v = w.installDefault) :
    v.clock = w.clock := by
  rcases hv with rfl | rfl
  · rfl
  · unfold installDefault
    split <;> rfl

theorem HasRoom.readied {w v : World} (h : w.HasRoom) (hv : v = w ∨ v = w.installDefault) :
    v.HasRoom := by
  rw [HasRoom, entries_of_readied hv]
  exact h

theorem outcome?_eq_none_of_le {w : World} {id : OperationId} (h : w.operations.length ≤ id) :
    w.outcome? id = none := by
  simp only [outcome?, List.getElem?_eq_none h, Option.bind_none]

theorem outcome?_congr {w v : World} (h : v.operations = w.operations) (id : OperationId) :
    v.outcome? id = w.outcome? id := by
  simp only [outcome?, h]

theorem timesRun_congr {w v : World} (h : v.journal = w.journal) (id : OperationId) :
    v.timesRun id = w.timesRun id := by
  simp only [timesRun, h]

theorem handlesGiven_congr {w v : World} (h : v.journal = w.journal) (id : OperationId) :
    v.handlesGiven id = w.handlesGiven id := by
  simp only [handlesGiven, h]

/-- A new operation has no outcome, and the others keep theirs. -/
theorem outcome?_begin (w : World) (name : String) (listener : Listener) (id : OperationId) :
    (w.begin name listener).outcome? id = w.outcome? id := by
  rcases Nat.lt_trichotomy id w.operations.length with hlt | rfl | hgt
  · simp only [outcome?, begin, List.getElem?_append_left hlt]
  · simp only [outcome?, begin, List.getElem?_concat_length, List.getElem?_eq_none (Nat.le_refl _),
      Option.bind_some, Option.bind_none]
  · rw [outcome?_eq_none_of_le (Nat.le_of_lt hgt), outcome?_eq_none_of_le]
    rw [begin, List.length_append]
    exact hgt

/-- Setting an outcome sets this one and no other. -/
theorem outcome?_setOutcome {w : World} {id : OperationId} {o : Operation}
    (hid : w.operations[id]? = some o) (outcome : Outcome) (other : OperationId) :
    (w.setOutcome id outcome).outcome? other =
      if id = other then some outcome else w.outcome? other := by
  simp only [outcome?, setOutcome, List.getElem?_modify]
  by_cases heq : id = other
  · subst heq
    simp only [hid, if_true, Option.map_eq_map, Option.map_some, Option.bind_some]
  · simp only [heq, if_false, Option.map_eq_map, Option.map_id']

/-! ### A new operation with an entry -/

section Enter

variable {w : World} {name : String} {listener : Listener} {h : CommandHandle} {t : PendingTable}

theorem operations_enter :
    (w.enter name listener h t).operations = w.operations ++ [⟨name, listener, none⟩] :=
  operations_setTable _ t

theorem journal_enter :
    (w.enter name listener h t).journal = .allocated w.nextId name h :: w.journal := by
  show _ :: ((w.begin name listener).setTable t).journal = _
  rw [journal_setTable]
  rfl

theorem clock_enter : (w.enter name listener h t).clock = w.clock :=
  clock_setTable _ t

theorem correlator_enter {c : Correlator} (hc : w.correlator = .present c) :
    (w.enter name listener h t).correlator = .present { c with table := t } :=
  correlator_setTable (w := w.begin name listener) hc t

/-- The operation that is entered has the last entry. -/
theorem entries_enter {c : Correlator} (hc : w.correlator = .present c)
    (ht : c.table.register w.nextId name w.clock = some (h, t)) :
    (w.enter name listener h t).entries = w.entries ++ [⟨h, w.nextId, name, w.clock⟩] := by
  obtain ⟨-, -, hshape⟩ := PendingTable.register_eq_some ht
  rw [entries_of_present (correlator_enter hc), entries_of_present hc, hshape]

theorem outcome?_enter (id : OperationId) :
    (w.enter name listener h t).outcome? id = w.outcome? id := by
  have hoperations : (w.enter name listener h t).operations = (w.begin name listener).operations :=
    operations_enter
  rw [outcome?_congr hoperations, outcome?_begin]

theorem timesRun_enter (id : OperationId) :
    (w.enter name listener h t).timesRun id = w.timesRun id := by
  rw [timesRun, journal_enter]
  exact List.countP_cons_of_neg (by simp)

theorem handlesGiven_enter (id : OperationId) :
    (w.enter name listener h t).handlesGiven id =
      if w.nextId = id then h :: w.handlesGiven id else w.handlesGiven id := by
  rw [handlesGiven, journal_enter, List.filterMap_cons]
  by_cases hid : w.nextId = id
  · simp only [hid, if_true]
    rfl
  · simp only [hid, if_false]
    rfl

end Enter

/-! ### An operation that is resolved -/

section RecordOutcome

variable {w : World} {id : OperationId} {o : Operation} {outcome : Outcome} {cause : Cause}

theorem length_recordOutcome :
    (w.recordOutcome id outcome cause).operations.length = w.operations.length :=
  List.length_modify _ _ _

theorem outcome?_recordOutcome (hid : w.operations[id]? = some o) (other : OperationId) :
    (w.recordOutcome id outcome cause).outcome? other =
      if id = other then some outcome else w.outcome? other :=
  outcome?_setOutcome hid outcome other

theorem timesRun_recordOutcome (other : OperationId) :
    (w.recordOutcome id outcome cause).timesRun other =
      if id = other then w.timesRun other + 1 else w.timesRun other := by
  show List.countP _ (_ :: w.journal) = _
  rw [List.countP_cons]
  by_cases heq : id = other
  · simp only [heq, beq_self_eq_true, if_true]
    rfl
  · simp only [heq, beq_iff_eq, if_false]
    rfl

end RecordOutcome

/-! ### What a quiet change leaves alone -/

namespace Quiet

variable {w v : World}

theorem entries (h : w.Quiet v) : v.entries = w.entries :=
  entries_congr h.correlator

theorem length (h : w.Quiet v) : v.operations.length = w.operations.length := by
  rcases h.operations with hsame | ⟨id, hmodify⟩
  · rw [hsame]
  · rw [hmodify, List.length_modify]

theorem outcome? (h : w.Quiet v) (id : OperationId) : v.outcome? id = w.outcome? id := by
  rcases h.operations with hsame | ⟨other, hmodify⟩
  · exact outcome?_congr hsame id
  · simp only [World.outcome?, hmodify, List.getElem?_modify]
    cases w.operations[id]? with
    | none => rfl
    | some o => split <;> rfl

theorem timesRun (h : w.Quiet v) (id : OperationId) : v.timesRun id = w.timesRun id := by
  obtain ⟨events, hjournal, hneutral⟩ := h.journal
  have hzero : events.countP (fun
      | .resolved other _ _ => other == id
      | _ => false) = 0 := by
    rw [List.countP_eq_zero]
    intro e he
    have hn := hneutral e he
    cases e <;> first | (cases hn; done) | simp
  rw [World.timesRun, hjournal, List.countP_append, hzero, Nat.zero_add]
  rfl

theorem handlesGiven (h : w.Quiet v) (id : OperationId) :
    v.handlesGiven id = w.handlesGiven id := by
  obtain ⟨events, hjournal, hneutral⟩ := h.journal
  have hnone : events.filterMap (fun
      | .allocated other _ h => if other = id then some h else none
      | _ => none) = [] := by
    rw [List.filterMap_eq_nil_iff]
    intro e he
    have hn := hneutral e he
    cases e <;> first | (cases hn; done) | rfl
  rw [World.handlesGiven, hjournal, List.filterMap_append, hnone, List.nil_append]
  rfl

end Quiet

end World

end CommandBridge

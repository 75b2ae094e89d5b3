import CommandBridge.Proofs.Session.Persistence
import CommandBridge.Proofs.Session.Schedules

/-!
# Threads in any order

Native failures, completions, expiries, sweeps and shutdowns may race for the same operation.
Whatever the schedule, an operation is resolved once, it is lost nowhere, and no entry is put over
another one.

* `Stack.AtTop` — a thread between two steps;
* `Threads.Sound.accounted` — an unresolved operation is in the table or with one thread;
* `Threads.Sound.inserted` — an insert replaces nothing;
* `Threads.follow_safe` — all this for every schedule.
-/

namespace CommandBridge

/-- The thread is not in the middle of a step. -/
def Stack.AtTop (stack : Stack) : Prop :=
  ∃ rest answers, stack = [.script none rest answers]

theorem Stack.AtTop.owed {stack : Stack} (h : stack.AtTop) : stack.owed = [] := by
  obtain ⟨rest, answers, rfl⟩ := h
  rfl

/-! ### What the invariant says about threads -/

namespace World.Sound

variable {w : World} {owed : List OperationId}

theorem timesRun_le_one (h : w.Sound owed) (id : OperationId) : w.timesRun id ≤ 1 := by
  rw [h.runs]
  split
  · exact Nat.le_refl 1
  · exact Nat.zero_le 1

theorem outcome?_eq_none_iff (h : w.Sound owed) {id : OperationId} :
    w.outcome? id = none ↔ w.timesRun id = 0 := by
  rw [h.runs]
  cases w.outcome? id with
  | none => simp
  | some outcome => simp

/-- An operation that holds its entry has it in the table. -/
theorem mem_owners_of_holds {id : OperationId} {handle : CommandHandle} (h : w.Holds id handle) :
    id ∈ w.owners := by
  obtain ⟨-, c, e, hc, hfind, rfl⟩ := h
  rw [owners, entries_of_present hc]
  exact List.mem_map_of_mem (PendingTable.find?_eq_some hfind).1

theorem nodup_handles (h : w.Sound owed) : (w.entries.map Entry.handle).Nodup := by
  cases hc : w.correlator with
  | absent absence =>
    rw [entries, hc]
    exact List.nodup_nil
  | present c =>
    rw [entries_of_present hc]
    exact (h.table c hc).nodup_handles

end World.Sound

namespace Threads

variable {t : Threads}

/-- Outcomes are for good, whoever moves. -/
theorem outcome?_move {id : OperationId} {outcome : Outcome}
    (ho : t.world.outcome? id = some outcome) (i : Nat) :
    (t.move i).world.outcome? id = some outcome := by
  rcases move_cases t i with hsame | ⟨stack, v, stack', hi, hadvance, hmove⟩
  · rw [hsame]
    exact ho
  · rw [hmove]
    exact (section_of_advance hadvance).effect.outcome?_of_some ho

/-- **An unresolved operation holds its entry, or just one of the threads owes it.** -/
theorem Sound.accounted (h : t.Sound) {id : OperationId} (hid : id < t.world.operations.length)
    (hopen : t.world.outcome? id = none) :
    (∃ handle, t.world.Holds id handle) ∧ (∀ stack ∈ t.running, id ∉ stack.owed) ∨
      (∀ handle, ¬ t.world.Holds id handle) ∧ ∃ stack ∈ t.running, id ∈ stack.owed := by
  have hdisjoint := List.disjoint_of_nodup_append h.world.nodup
  rcases List.mem_append.mp (h.world.covered id hid hopen) with hentry | howed
  · refine .inl ⟨h.world.holds_of_mem_owners hentry, fun stack hstack hmem => ?_⟩
    exact hdisjoint hentry (List.mem_flatMap.mpr ⟨stack, hstack, hmem⟩)
  · refine .inr ⟨fun handle hholds => ?_, List.mem_flatMap.mp howed⟩
    exact hdisjoint (World.Sound.mem_owners_of_holds hholds) howed

/-- While no thread is in the middle of a step, every unresolved operation holds its entry. -/
theorem Sound.holds_of_atTop (h : t.Sound) (htop : ∀ stack ∈ t.running, stack.AtTop)
    {id : OperationId} (hid : id < t.world.operations.length)
    (hopen : t.world.outcome? id = none) : ∃ handle, t.world.Holds id handle := by
  rcases h.accounted hid hopen with ⟨hholds, -⟩ | ⟨-, stack, hstack, hmem⟩
  · exact hholds
  · rw [(htop stack hstack).owed] at hmem
    cases hmem

/-- **An entry that is new stands behind all the old ones, under a handle that none of them
has.** -/
theorem Sound.inserted (h : t.Sound) (hroom : t.world.HasRoom) {i : Nat} {e : Entry}
    (hnew : e ∈ (t.move i).world.entries) (hold : e ∉ t.world.entries) :
    (t.move i).world.entries = t.world.entries ++ [e] ∧ e.owner = t.world.nextId ∧
      ∀ d ∈ t.world.entries, d.handle ≠ e.handle := by
  have hmoved := (h.move (fits_move hroom i)).world.nodup_handles
  rcases registers_move t i with hsublist | ⟨d, howner, -, hentries⟩
  · exact absurd (hsublist.subset hnew) hold
  · rw [hentries] at hnew
    have hed : e = d := by
      rcases List.mem_append.mp hnew with hmem | hmem
      · exact absurd hmem hold
      · exact List.mem_singleton.mp hmem
    subst hed
    refine ⟨hentries, howner, fun d hd heq => ?_⟩
    rw [hentries, List.map_append] at hmoved
    have hdisjoint := List.disjoint_of_nodup_append hmoved
    refine hdisjoint (List.mem_map_of_mem hd) ?_
    rw [heq]
    exact List.mem_cons_self

/-- **Threads are safe under every schedule.**  For threads with any scripts that share a fresh
correlator, after any schedule with room along it:

* no continuation has started twice, and no outcome will be replaced;
* every unresolved operation holds its entry or else is owed by a thread, by one and once only, and
  it holds its entry if no thread is in the middle of a step;
* no two entries share a handle or an operation, and the next section of any thread, if it inserts
  an entry, keeps all the others and takes a handle that none of them has. -/
theorem follow_safe {c : Correlator} (hc : c.IsFresh) {scripts : List (List Step)}
    (hseeds : ∀ steps ∈ scripts, ∀ n ∈ Step.seedsIn steps, 0 < n)
    {schedule : List Nat} (hroom : (start c scripts).RoomAlong schedule) {t : Threads}
    (ht : (start c scripts).follow schedule = t) :
    (∀ id, t.world.timesRun id ≤ 1) ∧
    (∀ i id outcome, t.world.outcome? id = some outcome →
      (t.move i).world.outcome? id = some outcome) ∧
    (∀ id, id < t.world.operations.length → t.world.outcome? id = none →
      (∃ h, t.world.Holds id h) ∧ (∀ stack ∈ t.running, id ∉ stack.owed) ∨
        (∀ h, ¬ t.world.Holds id h) ∧ ∃ stack ∈ t.running, id ∈ stack.owed) ∧
    t.owed.Nodup ∧
    ((∀ stack ∈ t.running, stack.AtTop) →
      ∀ id, id < t.world.operations.length → t.world.outcome? id = none →
        ∃ h, t.world.Holds id h) ∧
    (t.world.entries.map Entry.handle).Nodup ∧ (t.world.entries.map Entry.owner).Nodup ∧
    (∀ i e, e ∈ (t.move i).world.entries → e ∉ t.world.entries →
      (t.move i).world.entries = t.world.entries ++ [e] ∧ e.owner = t.world.nextId ∧
        ∀ d ∈ t.world.entries, d.handle ≠ e.handle) := by
  have hsound : t.Sound := by
    rw [← ht]
    exact (sound_start hc hseeds).follow hroom
  have hnow : t.world.HasRoom := by
    rw [← ht]
    exact hroom.last
  obtain ⟨hentries, howed, -⟩ := List.nodup_append.mp hsound.world.nodup
  refine ⟨hsound.world.timesRun_le_one, ?_, ?_, howed, ?_, hsound.world.nodup_handles, hentries, ?_⟩
  · intro i id outcome ho
    exact outcome?_move ho i
  · intro id hid hopen
    exact hsound.accounted hid hopen
  · intro htop id hid hopen
    exact hsound.holds_of_atTop htop hid hopen
  · intro i e hnew hold
    exact hsound.inserted hnow hnew hold

/-- One thread's native function fails while another thread shuts the correlator down. -/
def race : List (List Step) :=
  [[.submit "open_wallet" (fun _ => 200) [] []], [.shutdown []]]

/-- The failure comes between the drain and the attempt to resolve: the operation has no entry any
more and no outcome yet, and the thread that shuts down owes it. -/
theorem follow_safe_race :
    (∃ stack ∈ ((start {} race).follow [0, 1, 0]).running, 0 ∈ stack.owed) ∧
      ∀ id, ((start {} race).follow [0, 1, 0]).world.timesRun id ≤ 1 := by
  have hfresh : Correlator.IsFresh {} := ⟨rfl, by decide⟩
  have hseeds : ∀ steps ∈ race, ∀ n ∈ Step.seedsIn steps, 0 < n := by
    intro steps hsteps n hn
    have hnone : race.flatMap Step.seedsIn = [] := rfl
    have hmem : n ∈ race.flatMap Step.seedsIn := List.mem_flatMap.mpr ⟨steps, hsteps, hn⟩
    rw [hnone] at hmem
    cases hmem
  have hbudget : (start {} race).budget < Allocator.fullTurn := by decide
  have hroom := (sound_start hfresh hseeds).roomAlong hbudget [0, 1, 0]
  obtain ⟨honce, -, haccount, -⟩ := follow_safe hfresh hseeds hroom rfl
  refine ⟨?_, honce⟩
  rcases haccount 0 (by decide) (by decide) with ⟨-, hnobody⟩ | ⟨-, hsomebody⟩
  · exact absurd hnobody (by decide)
  · exact hsomebody

end Threads

end CommandBridge

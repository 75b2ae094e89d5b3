import CommandBridge.Proofs.Session.Account

/-!
# What a section does to the shared state

The rules of `Section` say what a section does to its thread, too.  Where only the state that all
threads share matters, there are few cases: most sections change nothing that counts.

* `Effect` — what a section of a thread does to the shared state;
* `Step.Begins.effect`, `Section.effect` — every section has one of these effects;
* `Effect.length` — only beginning a step begins an operation, and one at most;
* `Effect.registers` — entries are taken out, or the operation that is begun gets one.
-/

namespace CommandBridge

/-- What a section of a thread does to the shared state. -/
inductive Effect (w : World) (stack : Stack) : World → Prop
  | quiet {v : World} (hv : w.Quiet v) : Effect w stack v
  /-- The first correlator is installed. -/
  | installed {c : Correlator} {v : World} (hw : w.correlator = .absent .notInstalled)
      (hc : c.table = {}) (hv : World.Quiet { w with correlator := .present c } v) :
      Effect w stack v
  /-- Entries are taken out, or the counter is set, or the table is closed. -/
  | retabled {u v : World} {c : Correlator} {t : PendingTable} (hu : w.Quiet u)
      (hc : u.correlator = .present c) (ht : t.entries.Sublist c.table.entries)
      (hclosed : c.table.isShutDown = true → t.isShutDown = true)
      (hv : (u.setTable t).Quiet v) : Effect w stack v
  | dropped {c : Correlator} {u v : World} (hc : w.correlator = .present c)
      (hu : World.Quiet { w with correlator := .absent .dropped } u) (hv : u.Quiet v) :
      Effect w stack v
  /-- A step begins an operation, which gets an entry. -/
  | entered {self : Option CommandHandle} {s : Step} {rest : List Step} {answers : List Answer}
      {below : Stack} {u v : World} {c : Correlator} {name : String} {listener : Listener}
      {handle : CommandHandle} {t : PendingTable}
      (hstack : stack = .script self (s :: rest) answers :: below)
      (hu : u = w ∨ u = w.installDefault) (hc : u.correlator = .present c)
      (ht : c.table.register u.nextId name u.clock = some (handle, t))
      (hv : (u.enter name listener handle t).Quiet v) : Effect w stack v
  /-- A step begins an operation, which is refused an entry. -/
  | refused {self : Option CommandHandle} {s : Step} {rest : List Step} {answers : List Answer}
      {below : Stack} {u : World} {name : String} {listener : Listener}
      (hstack : stack = .script self (s :: rest) answers :: below)
      (hu : u = w ∨ u = w.installDefault) : Effect w stack (u.begin name listener)
  /-- An operation is resolved. -/
  | resolved {id : OperationId} {o : Operation} {outcome : Outcome} {cause : Cause}
      {after : Aftermath} {below : Stack} {v : World}
      (hstack : stack = .resolve id outcome cause after :: below)
      (hid : w.operations[id]? = some o) (hopen : o.outcome = none)
      (hv : (w.recordOutcome id outcome cause).Quiet v) : Effect w stack v

/-! ### Every section has an effect -/

/-- A step has the effect of its first section, whatever steps come after it. -/
theorem Step.Begins.effect {w v : World} {self : Option CommandHandle} {below stack : Stack}
    {s : Step} (h : s.Begins w self below v stack) (rest : List Step) (answers : List Answer)
    (under : Stack) : Effect w (.script self (s :: rest) answers :: under) v := by
  cases h with
  | answered hv _ => exact .quiet hv
  | installed hw hc hv _ => exact .installed hw hc hv
  | @seeded next c hc =>
    have hsame : (c.table.seed next).entries.Sublist c.table.entries := List.Sublist.refl _
    exact .retabled (.refl w) hc hsame (fun h => h) (.refl _)
  | accepted _ hv hc ht => exact .entered rfl hv hc ht (World.quiet_handOver ..)
  | refused _ hv _ _ => exact .refused rfl hv
  | @completed _ v c handle _ _ _ _ _ _ hv hc ht =>
    obtain ⟨-, rfl⟩ := PendingTable.remove_eq_some ht
    have hquiet : w.Quiet v := by
      rcases hv with rfl | ⟨n, rfl⟩
      · exact .refl v
      · exact World.quiet_useUp w n
    have hfewer := PendingTable.entries_erase_sublist c.table handle
    exact .retabled hquiet (hquiet.correlator.trans hc) hfewer (fun h => h) (.refl _)
  | expired _ _ _ => exact .quiet (.refl w)
  | swept _ _ => exact .quiet (World.quiet_sweepOn ..)
  | shutDown hc =>
    exact .retabled (.refl w) hc (List.nil_sublist _) (fun _ => rfl) (World.quiet_shutdownOn ..)
  | dropped hc _ hv _ => exact .dropped hc hv (World.quiet_dropOn ..)
  | gaveUp _ _ _ _ => exact .quiet (World.quiet_useUp ..)
  | configured => exact .quiet (.refl w)

/-- **Every section has an effect.** -/
theorem Section.effect {w v : World} {stack stack' : Stack} (h : Section w stack v stack') :
    Effect w stack v := by
  cases h with
  | began h => exact h.effect _ _ _
  | left _ => exact .quiet (.refl w)
  | issued _ => exact .quiet (World.quiet_settle_note rfl)
  | @failed _ _ _ _ _ _ handle _ c _ _ _ hc ht =>
    obtain ⟨e, -, -, rfl⟩ := PendingTable.removeOwned_eq_some ht
    have hfewer := PendingTable.entries_erase_sublist c.table handle
    exact .retabled (.refl w) hc hfewer (fun h => h) (.refl _)
  | failedLate _ _ _ => exact .quiet (World.quiet_settle_note rfl)
  | configured _ => exact .quiet (.refl w)
  | continued _ => exact .quiet (World.quiet_note w rfl)
  | passed _ => exact .quiet (.refl w)
  | ran hid hopen _ => exact .resolved rfl hid hopen (.refl _)
  | told hid hopen _ hv _ => exact .resolved rfl hid hopen hv
  | refused => exact .quiet (World.quiet_settle ..)
  | failedNow => exact .quiet (World.quiet_settle_note rfl)
  | answered _ hv _ => exact .quiet hv
  | sweptOn => exact .quiet (World.quiet_sweepOn ..)
  | shutDownOn => exact .quiet (World.quiet_shutdownOn ..)
  | droppedOn => exact .quiet (World.quiet_dropOn ..)

/-! ### Operations and entries -/

/-- Entries were only taken out, or one was added for the next operation, with the present time. -/
def World.Registers (w v : World) : Prop :=
  v.entries.Sublist w.entries ∨
    ∃ e, e.owner = w.nextId ∧ e.createdAt = w.clock ∧ v.entries = w.entries ++ [e]

namespace Effect

variable {w v : World} {stack : Stack}

/-- **Only the first section of a step begins an operation**, and one at most. -/
theorem length (h : Effect w stack v) :
    v.operations.length = w.operations.length ∨
      v.operations.length = w.operations.length + 1 ∧
        ∃ self s rest answers below, stack = .script self (s :: rest) answers :: below := by
  cases h with
  | quiet hv => exact .inl hv.length
  | installed _ _ hv => exact .inl hv.length
  | retabled hu _ _ _ hv =>
    refine .inl ?_
    rw [hv.length, World.operations_setTable, hu.length]
  | dropped _ hu hv =>
    refine .inl ?_
    rw [hv.length]
    exact hu.length
  | entered hstack hu _ _ hv =>
    refine .inr ⟨?_, _, _, _, _, _, hstack⟩
    rw [hv.length, World.operations_enter, List.length_append, World.operations_of_readied hu]
    rfl
  | refused hstack hu =>
    refine .inr ⟨?_, _, _, _, _, _, hstack⟩
    rw [World.begin, List.length_append, World.operations_of_readied hu]
    rfl
  | resolved _ _ _ hv => exact .inl (hv.length.trans World.length_recordOutcome)

open World in
/-- **A section takes entries out, or enters the operation that it begins.** -/
theorem registers (h : Effect w stack v) : w.Registers v := by
  have hsame : v.entries = w.entries → w.Registers v := by
    intro heq
    refine .inl ?_
    rw [heq]
  cases h with
  | quiet hv => exact hsame hv.entries
  | installed hw hc hv =>
    refine hsame ?_
    rw [hv.entries, entries_of_present rfl, hc, entries, hw]
  | retabled hu hc ht _ hv =>
    refine .inl ?_
    rw [hv.entries, entries_of_present (correlator_setTable hc _), ← hu.entries,
      entries_of_present hc]
    exact ht
  | dropped _ hu hv =>
    refine .inl ?_
    rw [hv.entries, hu.entries]
    exact List.nil_sublist _
  | @entered _ _ _ _ _ u _ c name _ handle _ _ hu hc ht hv =>
    refine .inr ⟨⟨handle, u.nextId, name, u.clock⟩, ?_, clock_of_readied hu, ?_⟩
    · exact congrArg List.length (operations_of_readied hu)
    · rw [hv.entries, entries_enter hc ht, entries_of_readied hu]
  | @refused _ _ _ _ _ u _ _ _ hu =>
    have hentries : u.entries = w.entries := entries_of_readied hu
    exact hsame hentries
  | resolved _ _ _ hv => exact hsame hv.entries

end Effect

end CommandBridge

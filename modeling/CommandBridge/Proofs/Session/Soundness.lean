import CommandBridge.Proofs.Session.Account
import CommandBridge.Proofs.Session.Seeds

/-!
# Sound states

The invariant of a session, and what every section does to it.

* `World.Sound` — the table is sound; every unresolved operation is accounted for exactly once, by
  its entry or by a thread that owes it; a continuation has started exactly if there is an outcome;
  and every entry stands under the one handle that its native function was given;
* `World.Holds` — an operation has its own entry under its own handle;
* `Sound.quiet`, `Sound.retabled`, `Sound.entered`, `Sound.refused`, `Sound.resolved`,
  `Sound.discharged` — what each kind of change does to it;
* `Sound.step` — every section of a thread keeps it, whatever other threads owe.

`owed` is what all threads together owe.  A section of one thread only looks at the part that this
thread owes, so the rest is passed along.
-/

namespace CommandBridge

namespace World

/-- The invariant of a session in which threads owe the operations `owed`. -/
structure Sound (w : World) (owed : List OperationId) : Prop where
  table : ∀ c, w.correlator = .present c → c.table.Sound
  /-- No operation is accounted for twice. -/
  nodup : (w.owners ++ owed).Nodup
  begun : ∀ id ∈ w.owners ++ owed, id < w.operations.length
  /-- Every unresolved operation has its entry, or a thread owes it. -/
  covered : ∀ id, id < w.operations.length → w.outcome? id = none → id ∈ w.owners ++ owed
  runs : ∀ id, w.timesRun id = if (w.outcome? id).isSome then 1 else 0
  ungiven : ∀ id, w.operations.length ≤ id → w.handlesGiven id = []
  once : ∀ id, (w.handlesGiven id).length ≤ 1
  given : ∀ e ∈ w.entries, w.handlesGiven e.owner = [e.handle]

/-- The operation has its own entry in the table, under the one handle that its native function was
given. -/
def Holds (w : World) (id : OperationId) (h : CommandHandle) : Prop :=
  w.handlesGiven id = [h] ∧
    ∃ c e, w.correlator = .present c ∧ c.table.find? h = some e ∧ e.owner = id

namespace Sound

variable {w v : World} {owed owed' : List OperationId}

/-! ### Entries and their operations -/

/-- Whatever is found under a handle was registered under it. -/
theorem holds_of_find? (h : w.Sound owed) {c : Correlator} (hc : w.correlator = .present c)
    {handle : CommandHandle} {e : Entry} (he : c.table.find? handle = some e) :
    w.Holds e.owner handle := by
  obtain ⟨hmem, hhandle⟩ := PendingTable.find?_eq_some he
  rw [← entries_of_present hc] at hmem
  refine ⟨?_, c, e, hc, he, rfl⟩
  rw [h.given e hmem, hhandle]

theorem holds_of_mem_entries (h : w.Sound owed) {e : Entry} (he : e ∈ w.entries) :
    w.Holds e.owner e.handle := by
  cases hc : w.correlator with
  | absent absence =>
    rw [entries, hc] at he
    cases he
  | present c =>
    rw [entries_of_present hc] at he
    exact h.holds_of_find? hc ((h.table c hc).find?_of_mem he)

/-- Entries belong to operations that were begun. -/
theorem owner_lt (h : w.Sound owed) {e : Entry} (he : e ∈ w.entries) :
    e.owner < w.operations.length :=
  h.begun e.owner (List.mem_append_left _ (List.mem_map_of_mem he))

/-- No operation has two entries. -/
theorem nodup_owners (h : w.Sound owed) : w.owners.Nodup :=
  (List.nodup_append.mp h.nodup).1

theorem holds_of_mem_owners (h : w.Sound owed) {id : OperationId} (hid : id ∈ w.owners) :
    ∃ handle, w.Holds id handle := by
  obtain ⟨e, he, rfl⟩ := List.mem_map.mp hid
  exact ⟨e.handle, h.holds_of_mem_entries he⟩

/-! ### Changes that leave operations and journal alone -/

theorem quiet (h : w.Sound owed) (hq : w.Quiet v) : v.Sound owed := by
  have howners : v.owners = w.owners := by rw [owners, hq.entries, owners]
  refine ⟨?_, ?_, ?_, ?_, ?_, ?_, ?_, ?_⟩
  · intro c hc
    exact h.table c (hq.correlator.symm.trans hc)
  · rw [howners]
    exact h.nodup
  · rw [howners, hq.length]
    exact h.begun
  · intro id hid hopen
    rw [hq.length] at hid
    rw [hq.outcome?] at hopen
    rw [howners]
    exact h.covered id hid hopen
  · intro id
    rw [hq.timesRun, hq.outcome?]
    exact h.runs id
  · intro id hid
    rw [hq.length] at hid
    rw [hq.handlesGiven]
    exact h.ungiven id hid
  · intro id
    rw [hq.handlesGiven]
    exact h.once id
  · intro e he
    rw [hq.entries] at he
    rw [hq.handlesGiven]
    exact h.given e he

/-- Another sound table, as long as the operations that leave it are owed from then on. -/
theorem retabled (h : w.Sound owed) (hoperations : v.operations = w.operations)
    (hjournal : v.journal = w.journal) (htable : ∀ c, v.correlator = .present c → c.table.Sound)
    (hperm : (v.owners ++ owed').Perm (w.owners ++ owed))
    (hentries : ∀ e ∈ v.entries, e ∈ w.entries) : v.Sound owed' := by
  refine ⟨htable, ?_, ?_, ?_, ?_, ?_, ?_, ?_⟩
  · exact hperm.nodup_iff.mpr h.nodup
  · intro id hid
    rw [hoperations]
    exact h.begun id (hperm.mem_iff.mp hid)
  · intro id hid hopen
    rw [hoperations] at hid
    rw [outcome?_congr hoperations] at hopen
    exact hperm.mem_iff.mpr (h.covered id hid hopen)
  · intro id
    rw [timesRun_congr hjournal, outcome?_congr hoperations]
    exact h.runs id
  · intro id hid
    rw [hoperations] at hid
    rw [handlesGiven_congr hjournal]
    exact h.ungiven id hid
  · intro id
    rw [handlesGiven_congr hjournal]
    exact h.once id
  · intro e he
    rw [handlesGiven_congr hjournal]
    exact h.given e (hentries e he)

/-- The order in which operations are owed does not matter. -/
theorem perm (h : w.Sound owed) (hperm : owed'.Perm owed) : w.Sound owed' :=
  h.retabled rfl rfl h.table (hperm.append_left _) (fun _ he => he)

theorem installed (h : w.Sound owed) {c : Correlator} (hw : w.correlator = .absent .notInstalled)
    (hc : c.table = {}) : World.Sound { w with correlator := .present c } owed := by
  have hold : w.entries = [] := by simp only [entries, hw]
  have hnew : World.entries { w with correlator := .present c } = [] := by simp only [entries, hc]
  refine h.retabled rfl rfl ?_ ?_ ?_
  · rintro d hd
    cases hd
    rw [hc]
    exact PendingTable.sound_empty
  · rw [owners, hnew, owners, hold]
  · intro e he
    rw [hnew] at he
    cases he

theorem installDefault (h : w.Sound owed) : w.installDefault.Sound owed := by
  unfold World.installDefault
  split
  · next hw => exact h.installed hw rfl
  · exact h

theorem readied (h : w.Sound owed) (hv : v = w ∨ v = w.installDefault) : v.Sound owed := by
  rcases hv with rfl | rfl
  · exact h
  · exact h.installDefault

/-- Another table of the same correlator. -/
theorem setTable (h : w.Sound owed) {c : Correlator} (hc : w.correlator = .present c)
    {t : PendingTable} (ht : t.Sound) (hperm : (t.owners ++ owed').Perm (c.table.owners ++ owed))
    (hentries : ∀ e ∈ t.entries, e ∈ c.table.entries) : (w.setTable t).Sound owed' := by
  have hnew := correlator_setTable hc t
  refine h.retabled (operations_setTable w t) (journal_setTable w t) ?_ ?_ ?_
  · intro d hd
    cases hnew.symm.trans hd
    exact ht
  · rw [owners, entries_of_present hnew, owners, entries_of_present hc]
    exact hperm
  · rw [entries_of_present hnew, entries_of_present hc]
    exact hentries

/-- Whoever takes an entry out owes its operation. -/
theorem takenOut (h : w.Sound owed) {c : Correlator} (hc : w.correlator = .present c)
    {handle : CommandHandle} {e : Entry} (he : c.table.find? handle = some e) :
    (w.setTable (c.table.erase handle)).Sound (e.owner :: owed) := by
  have htable := h.table c hc
  refine h.setTable hc (htable.erase handle) ?_ ?_
  · have hperm := (PendingTable.owners_erase he).append_right owed
    exact List.perm_middle.trans hperm.symm
  · exact fun d hd => (PendingTable.entries_erase_sublist c.table handle).subset hd

/-- Whoever drains the table owes all its operations. -/
theorem drained (h : w.Sound owed) {c : Correlator} (hc : w.correlator = .present c)
    (order : Arrangement) :
    (w.setTable c.table.drain.2).Sound
      ((order.apply c.table.entries).map Entry.owner ++ owed) := by
  refine h.setTable hc (h.table c hc).drain ?_ (fun e he => absurd he List.not_mem_nil)
  exact ((order.apply_perm c.table.entries).map Entry.owner).append_right owed

theorem dropped (h : w.Sound owed) {c : Correlator} (hc : w.correlator = .present c)
    (order : Arrangement) :
    World.Sound { w with correlator := .absent .dropped }
      ((order.apply c.table.entries).map Entry.owner ++ owed) := by
  have howners : w.owners = c.table.owners := by
    rw [owners, entries_of_present hc]
    rfl
  refine h.retabled rfl rfl (fun d hd => by cases hd) ?_ (fun e he => by cases he)
  rw [howners]
  exact ((order.apply_perm c.table.entries).map Entry.owner).append_right owed

theorem seeded (h : w.Sound owed) {c : Correlator} (hc : w.correlator = .present c)
    {next : Int32} (hnext : 0 < next) : (w.setTable (c.table.seed next)).Sound owed :=
  h.setTable hc ((h.table c hc).seed hnext) (.refl _) (fun _ he => he)

/-! ### A new operation -/

theorem nextId_not_mem (h : w.Sound owed) : w.nextId ∉ w.owners ++ owed := by
  intro hmem
  have hlt := h.begun w.nextId hmem
  exact Nat.lt_irrefl _ hlt

/-- An operation that gets an entry is accounted for by it. -/
theorem entered (h : w.Sound owed) {c : Correlator} (hc : w.correlator = .present c)
    {name : String} {listener : Listener} {handle : CommandHandle} {t : PendingTable}
    (ht : c.table.register w.nextId name w.clock = some (handle, t))
    (hfits : (w.enter name listener handle t).Fits) :
    (w.enter name listener handle t).Sound owed := by
  have hnew : (w.enter name listener handle t).correlator = .present { c with table := t } :=
    correlator_enter hc
  have hentries : (w.enter name listener handle t).entries =
      w.entries ++ [⟨handle, w.nextId, name, w.clock⟩] := entries_enter hc ht
  have hroom : c.table.entries.length < Allocator.fullTurn := by
    rw [Fits, hentries, List.length_append, entries_of_present hc] at hfits
    exact hfits
  have htable := (h.table c hc).register hroom ht
  have hperm : ((w.enter name listener handle t).owners ++ owed).Perm
      (w.nextId :: (w.owners ++ owed)) := by
    rw [owners, hentries, List.map_append, List.append_assoc]
    exact List.perm_middle
  have hlength : (w.enter name listener handle t).operations.length =
      w.operations.length + 1 := by
    rw [operations_enter]
    exact List.length_append
  refine ⟨?_, ?_, ?_, ?_, ?_, ?_, ?_, ?_⟩
  · intro d hd
    cases hnew.symm.trans hd
    exact htable
  · exact hperm.nodup_iff.mpr (List.nodup_cons.mpr ⟨h.nextId_not_mem, h.nodup⟩)
  · intro id hid
    rw [hlength]
    rcases List.mem_cons.mp (hperm.mem_iff.mp hid) with rfl | hold
    · exact Nat.lt_succ_self _
    · exact Nat.lt_succ_of_lt (h.begun id hold)
  · intro id hid hopen
    rw [hlength] at hid
    rw [outcome?_enter] at hopen
    rw [hperm.mem_iff]
    rcases Nat.lt_succ_iff_lt_or_eq.mp hid with hlt | rfl
    · exact List.mem_cons_of_mem _ (h.covered id hlt hopen)
    · exact List.mem_cons_self
  · intro id
    rw [outcome?_enter, timesRun_enter]
    exact h.runs id
  · intro id hid
    rw [hlength] at hid
    have hne : w.nextId ≠ id := Nat.ne_of_lt hid
    rw [handlesGiven_enter, if_neg hne]
    exact h.ungiven id (Nat.le_of_succ_le hid)
  · intro id
    rw [handlesGiven_enter]
    by_cases hid : w.nextId = id
    · subst hid
      rw [if_pos rfl, h.ungiven w.nextId (Nat.le_refl _)]
      exact Nat.le_refl _
    · rw [if_neg hid]
      exact h.once id
  · intro e he
    rw [hentries] at he
    rcases List.mem_append.mp he with hold | hnewest
    · have hne : w.nextId ≠ e.owner := Nat.ne_of_gt (h.owner_lt hold)
      rw [handlesGiven_enter, if_neg hne]
      exact h.given e hold
    · obtain rfl := List.mem_singleton.mp hnewest
      rw [handlesGiven_enter, if_pos rfl, h.ungiven w.nextId (Nat.le_refl _)]

/-- An operation that is refused an entry is owed by whoever refuses it. -/
theorem refused (h : w.Sound owed) (name : String) (listener : Listener) :
    (w.begin name listener).Sound (w.nextId :: owed) := by
  have hlength : (w.begin name listener).operations.length = w.operations.length + 1 :=
    List.length_append
  have hperm : (w.owners ++ w.nextId :: owed).Perm (w.nextId :: (w.owners ++ owed)) :=
    List.perm_middle
  refine ⟨h.table, ?_, ?_, ?_, ?_, ?_, h.once, h.given⟩
  · exact hperm.nodup_iff.mpr (List.nodup_cons.mpr ⟨h.nextId_not_mem, h.nodup⟩)
  · intro id hid
    rw [hlength]
    rcases List.mem_cons.mp (hperm.mem_iff.mp hid) with rfl | hold
    · exact Nat.lt_succ_self _
    · exact Nat.lt_succ_of_lt (h.begun id hold)
  · intro id hid hopen
    rw [hlength] at hid
    rw [outcome?_begin] at hopen
    refine hperm.mem_iff.mpr ?_
    rcases Nat.lt_succ_iff_lt_or_eq.mp hid with hlt | rfl
    · exact List.mem_cons_of_mem _ (h.covered id hlt hopen)
    · exact List.mem_cons_self
  · intro id
    rw [outcome?_begin]
    exact h.runs id
  · intro id hid
    rw [hlength] at hid
    exact h.ungiven id (Nat.le_of_succ_le hid)

/-! ### Resolving -/

/-- Resolving an unresolved operation starts its continuation for the first time. -/
theorem resolved (h : w.Sound owed) {id : OperationId} {o : Operation}
    (hid : w.operations[id]? = some o) (hopen : o.outcome = none) (outcome : Outcome)
    (cause : Cause) : (w.recordOutcome id outcome cause).Sound owed := by
  have hbefore : w.outcome? id = none := by
    rw [outcome?, hid]
    exact hopen
  refine ⟨h.table, h.nodup, ?_, ?_, ?_, ?_, h.once, h.given⟩
  · intro other hother
    rw [length_recordOutcome]
    exact h.begun other hother
  · intro other hother hnone
    rw [length_recordOutcome] at hother
    rw [outcome?_recordOutcome hid] at hnone
    by_cases heq : id = other
    · rw [if_pos heq] at hnone
      cases hnone
    · rw [if_neg heq] at hnone
      exact h.covered other hother hnone
  · intro other
    rw [timesRun_recordOutcome, outcome?_recordOutcome hid]
    by_cases heq : id = other
    · subst heq
      rw [if_pos rfl, if_pos rfl, h.runs id, hbefore]
      rfl
    · rw [if_neg heq, if_neg heq]
      exact h.runs other
  · intro other hother
    rw [length_recordOutcome] at hother
    exact h.ungiven other hother

theorem outcome?_resolved {id : OperationId} {o : Operation} {outcome : Outcome} {cause : Cause}
    (hid : w.operations[id]? = some o) : (w.recordOutcome id outcome cause).outcome? id ≠ none := by
  rw [outcome?_recordOutcome hid, if_pos rfl]
  exact Option.some_ne_none outcome

/-- Nobody owes an operation that is resolved. -/
theorem discharged {id : OperationId} (h : w.Sound (id :: owed))
    (hid : w.outcome? id ≠ none) : w.Sound owed := by
  have hperm : (w.owners ++ id :: owed).Perm (id :: (w.owners ++ owed)) := List.perm_middle
  refine ⟨h.table, ?_, ?_, ?_, h.runs, h.ungiven, h.once, h.given⟩
  · exact (List.nodup_cons.mp (hperm.nodup_iff.mp h.nodup)).2
  · intro other hother
    exact h.begun other (hperm.mem_iff.mpr (List.mem_cons_of_mem _ hother))
  · intro other hother hopen
    rcases List.mem_cons.mp (hperm.mem_iff.mp (h.covered other hother hopen)) with rfl | hmem
    · exact absurd hopen hid
    · exact hmem

/-- After an attempt to resolve an operation, whether it counted or not, nobody owes it for this
attempt any more. -/
theorem attempted {id : OperationId} {outcome : Outcome} {cause : Cause} {after : Aftermath}
    {below : Stack} {others : List OperationId}
    (h : w.Sound (Stack.owed (.resolve id outcome cause after :: below) ++ others))
    (hid : id < w.operations.length → w.outcome? id ≠ none) :
    w.Sound ((after.owed ++ below.owed) ++ others) := by
  rw [Stack.owed_cons, Frame.owed] at h
  by_cases htaken : after.hasTaken = true
  · rw [if_pos htaken] at h
    refine h.discharged (hid (h.begun id ?_))
    exact List.mem_append_right _ List.mem_cons_self
  · rwa [if_neg htaken] at h

/-! ### Sections -/

variable {stack stack' below : Stack} {others : List OperationId}

/-- The first section of a step keeps the state sound. -/
theorem begins {self : Option CommandHandle} {s : Step} (hs : s.Begins w self below v stack)
    (hfits : v.Fits) (hseeds : ∀ n ∈ s.seeds, 0 < n) (h : w.Sound (below.owed ++ others)) :
    v.Sound (stack.owed ++ others) := by
  cases hs with
  | answered hv _ =>
    rw [Stack.owed_reply]
    exact h.quiet hv
  | installed hw hc hv _ =>
    rw [Stack.owed_reply]
    exact (h.installed hw hc).quiet hv
  | @seeded next c hc =>
    rw [Stack.owed_reply]
    exact h.seeded hc (hseeds next List.mem_cons_self)
  | @accepted _ r _ _ _ _ _ hv hc ht =>
    rw [Fits, (quiet_handOver _ _ _).entries] at hfits
    exact ((h.readied hv).entered hc ht hfits).quiet (quiet_handOver _ _ _)
  | refused _ hv _ _ => exact (h.readied hv).refused _ _
  | completed _ hv hc ht =>
    obtain ⟨hfind, rfl⟩ := PendingTable.remove_eq_some ht
    rcases hv with rfl | ⟨n, rfl⟩
    · exact h.takenOut hc hfind
    · exact (h.quiet (quiet_useUp w n)).takenOut hc hfind
  | expired _ _ _ => exact h
  | swept _ _ =>
    rw [Stack.owed_sweepOn]
    exact h.quiet (quiet_sweepOn _ _ _ _ _)
  | @shutDown order c hc =>
    rw [Stack.owed_shutdownOn, List.append_assoc]
    exact (h.drained hc order).quiet (quiet_shutdownOn _ _ _ _)
  | @dropped order c _ hc _ hv _ =>
    rw [Stack.owed_dropOn, List.append_assoc]
    exact ((h.dropped hc order).quiet hv).quiet (quiet_dropOn _ _ _)
  | gaveUp _ _ _ _ => exact h.quiet (quiet_useUp _ _)
  | configured => exact h

/-- **Every section of a thread keeps the state sound**, whatever the other threads owe, as long as
the entries fit. -/
theorem step (hs : Section w stack v stack') (hfits : v.Fits)
    (hseeds : ∀ n ∈ stack.seeds, 0 < n) (h : w.Sound (stack.owed ++ others)) :
    v.Sound (stack'.owed ++ others) := by
  cases hs with
  | began hbegins =>
    refine h.begins hbegins hfits (fun n hn => hseeds n ?_)
    exact List.mem_append_left _ (List.mem_append_left _ hn)
  | left _ => exact h
  | issued hdone =>
    rw [hdone.owed] at h
    rw [Stack.owed_reply]
    exact h.quiet (quiet_settle_note rfl)
  | failed hdone _ hc ht =>
    obtain ⟨e, hfind, rfl, rfl⟩ := PendingTable.removeOwned_eq_some ht
    rw [hdone.owed] at h
    exact h.takenOut hc hfind
  | failedLate hdone _ _ =>
    rw [hdone.owed] at h
    rw [Stack.owed_reply]
    exact h.quiet (quiet_settle_note rfl)
  | configured hdone =>
    rw [hdone.owed] at h
    rw [Stack.owed_reply]
    exact h
  | continued hdone =>
    rw [hdone.owed] at h
    exact h.quiet (quiet_note w rfl)
  | passed hid =>
    refine h.attempted (fun hlt => ?_)
    rw [outcome?, List.getElem?_eq_getElem hlt]
    exact hid _ (List.getElem?_eq_getElem hlt)
  | @ran id outcome cause _ _ _ _ _ hid hopen _ =>
    exact (h.resolved hid hopen outcome cause).attempted (fun _ => outcome?_resolved hid)
  | @told id outcome cause _ _ _ _ _ _ hid hopen _ hv _ =>
    have hresolved := h.resolved hid hopen outcome cause
    exact (hresolved.attempted (fun _ => outcome?_resolved hid)).quiet hv
  | refused =>
    rw [Stack.owed_reply]
    exact h.quiet (quiet_settle _ _ _ _ _ _)
  | failedNow =>
    rw [Stack.owed_reply]
    exact h.quiet (quiet_settle_note rfl)
  | answered hafter hv _ =>
    rw [Stack.owed_cons, Frame.owed, Aftermath.owed_of_entriesLeft hafter] at h
    rw [Stack.owed_reply]
    exact h.quiet hv
  | sweptOn =>
    rw [Stack.owed_sweepOn]
    exact h.quiet (quiet_sweepOn _ _ _ _ _)
  | shutDownOn =>
    rw [Stack.owed_shutdownOn]
    exact h.quiet (quiet_shutdownOn _ _ _ _)
  | droppedOn =>
    rw [Stack.owed_dropOn]
    exact h.quiet (quiet_dropOn _ _ _)

end Sound

end World

end CommandBridge

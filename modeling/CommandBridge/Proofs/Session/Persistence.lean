import CommandBridge.Proofs.Session.Effect

/-!
# What a session never takes back

Some things hold for good once they hold.

* `Presence.Leads` — how the correlator can change: installed once, its statuses fixed, closed for
  good, and gone for good;
* `Presence.isClosed` — the correlator has been shut down or dropped, which is for good;
* `World.Keeps` — the correlator keeps its course, the journal and the handles given stay, and the
  clock does not go back;
* `World.Precedes` — and so do outcomes;
* `Effect.outcomes` — a section sets at most one outcome, that of the operation it resolves;
* `Effect.precedes` — every section leads to a later state.
-/

namespace CommandBridge

/-! ### The course of a correlator -/

/-- How the correlator of a session can change in the long run. -/
inductive Presence.Leads : Presence → Presence → Prop
  | fresh {p : Presence} : Leads (.absent .notInstalled) p
  | kept {c d : Correlator} (hstatuses : d.statuses = c.statuses)
      (hclosed : c.table.isShutDown = true → d.table.isShutDown = true) :
      Leads (.present c) (.present d)
  | gone {c : Correlator} : Leads (.present c) (.absent .dropped)
  | stays : Leads (.absent .dropped) (.absent .dropped)

namespace Presence.Leads

theorem refl (p : Presence) : p.Leads p := by
  cases p with
  | present c => exact .kept rfl (fun h => h)
  | absent absence =>
    cases absence with
    | notInstalled => exact .fresh
    | dropped => exact .stays

theorem trans {p q r : Presence} (hpq : p.Leads q) (hqr : q.Leads r) : p.Leads r := by
  cases hpq with
  | fresh => exact .fresh
  | kept hstatuses hclosed =>
    cases hqr with
    | kept hstatuses' hclosed' =>
      exact .kept (hstatuses'.trans hstatuses) (fun h => hclosed' (hclosed h))
    | gone => exact .gone
  | gone =>
    cases hqr with
    | stays => exact .gone
  | stays => exact hqr

end Presence.Leads

/-- The correlator takes no more operations. -/
def Presence.isClosed : Presence → Bool
  | .present c => c.table.isShutDown
  | .absent .dropped => true
  | .absent .notInstalled => false

theorem Presence.Leads.isClosed {p q : Presence} (h : p.Leads q) (hp : p.isClosed = true) :
    q.isClosed = true := by
  cases h with
  | fresh => cases hp
  | kept _ hclosed => exact hclosed hp
  | gone => rfl
  | stays => rfl

/-- A closed correlator is not replaced by the default one. -/
theorem World.eq_of_readied_of_isClosed {w v : World} (hv : v = w ∨ v = w.installDefault)
    (hclosed : w.correlator.isClosed = true) : v = w := by
  rcases hv with rfl | rfl
  · rfl
  · unfold World.installDefault
    split
    · next hw =>
      rw [hw] at hclosed
      cases hclosed
    · rfl

namespace World

/-- What a later state has in common with an earlier one. -/
structure Keeps (w v : World) : Prop where
  correlator : w.correlator.Leads v.correlator
  length : w.operations.length ≤ v.operations.length
  journal : w.journal <:+ v.journal
  /-- Only a new operation is given a handle. -/
  given : ∀ id, id < w.operations.length → v.handlesGiven id = w.handlesGiven id
  clock : w.clock ≤ v.clock

namespace Keeps

variable {u v w : World}

theorem refl (w : World) : w.Keeps w :=
  ⟨.refl _, Nat.le_refl _, List.suffix_refl _, fun _ _ => rfl, Nat.le_refl _⟩

theorem trans (huv : u.Keeps v) (hvw : v.Keeps w) : u.Keeps w := by
  refine ⟨huv.correlator.trans hvw.correlator, Nat.le_trans huv.length hvw.length,
    huv.journal.trans hvw.journal, fun id hid => ?_, Nat.le_trans huv.clock hvw.clock⟩
  rw [hvw.given id (Nat.lt_of_lt_of_le hid huv.length), huv.given id hid]

theorem of_quiet (hq : w.Quiet v) : w.Keeps v := by
  refine ⟨?_, Nat.le_of_eq hq.length.symm, ?_, fun id _ => hq.handlesGiven id, hq.clock⟩
  · rw [hq.correlator]
    exact .refl _
  · obtain ⟨events, hjournal, -⟩ := hq.journal
    rw [hjournal]
    exact List.suffix_append _ _

/-- Only the correlator changes. -/
theorem of_correlator (hcorrelator : w.correlator.Leads v.correlator)
    (hoperations : v.operations = w.operations) (hjournal : v.journal = w.journal)
    (hclock : v.clock = w.clock) : w.Keeps v := by
  refine ⟨hcorrelator, ?_, ?_, fun id _ => handlesGiven_congr hjournal id,
    Nat.le_of_eq hclock.symm⟩
  · exact Nat.le_of_eq (congrArg List.length hoperations.symm)
  · rewrite [hjournal]
    exact List.suffix_refl _

theorem installDefault (w : World) : w.Keeps w.installDefault := by
  unfold World.installDefault
  split
  · next hw =>
    refine of_correlator ?_ rfl rfl rfl
    rw [hw]
    exact .fresh
  · exact refl w

theorem readied (hv : v = w ∨ v = w.installDefault) : w.Keeps v := by
  rcases hv with rfl | rfl
  · exact refl v
  · exact installDefault w

/-- A change of the table keeps it closed if it is. -/
theorem setTable {c : Correlator} (hc : w.correlator = .present c) {t : PendingTable}
    (ht : c.table.isShutDown = true → t.isShutDown = true) : w.Keeps (w.setTable t) := by
  refine of_correlator ?_ (operations_setTable w t) (journal_setTable w t) (clock_setTable w t)
  rw [correlator_setTable hc, hc]
  exact .kept rfl ht

theorem begin (w : World) (name : String) (listener : Listener) :
    w.Keeps (w.begin name listener) := by
  refine ⟨.refl _, ?_, List.suffix_refl _, fun _ _ => rfl, Nat.le_refl _⟩
  show w.operations.length ≤ (w.operations ++ _).length
  rw [List.length_append]
  exact Nat.le_add_right _ _

theorem enter {c : Correlator} (hc : w.correlator = .present c) {t : PendingTable}
    (ht : c.table.isShutDown = true → t.isShutDown = true) (name : String) (listener : Listener)
    (h : CommandHandle) : w.Keeps (w.enter name listener h t) := by
  refine ⟨?_, ?_, ?_, ?_, Nat.le_of_eq clock_enter.symm⟩
  · rw [correlator_enter hc, hc]
    exact .kept rfl ht
  · rw [operations_enter, List.length_append]
    exact Nat.le_add_right _ _
  · rw [journal_enter]
    exact List.suffix_cons _ _
  · intro id hid
    have hne : w.nextId ≠ id := Nat.ne_of_gt hid
    rw [handlesGiven_enter, if_neg hne]

theorem recordOutcome (w : World) (id : OperationId) (outcome : Outcome) (cause : Cause) :
    w.Keeps (w.recordOutcome id outcome cause) := by
  refine ⟨.refl _, ?_, List.suffix_cons _ _, fun _ _ => rfl, Nat.le_refl _⟩
  exact Nat.le_of_eq length_recordOutcome.symm

end Keeps

/-- The one state is earlier than the other: what holds for good in it still holds. -/
structure Precedes (w v : World) : Prop extends w.Keeps v where
  outcome : ∀ id o, w.outcome? id = some o → v.outcome? id = some o

namespace Precedes

variable {u v w : World}

theorem refl (w : World) : w.Precedes w :=
  ⟨.refl w, fun _ _ ho => ho⟩

theorem trans (huv : u.Precedes v) (hvw : v.Precedes w) : u.Precedes w :=
  ⟨huv.toKeeps.trans hvw.toKeeps, fun id o ho => hvw.outcome id o (huv.outcome id o ho)⟩

/-- An operation that is resolved stays resolved. -/
theorem outcome?_ne_none (h : w.Precedes v) {id : OperationId} (ho : w.outcome? id ≠ none) :
    v.outcome? id ≠ none := by
  obtain ⟨o, ho⟩ := Option.ne_none_iff_exists'.mp ho
  rw [h.outcome id o ho]
  exact Option.some_ne_none o

end Precedes

end World

/-! ### Effects -/

/-- The stack is about to resolve an operation, which is unresolved. -/
structure Resolves (w : World) (stack : Stack) (v : World) (id : OperationId) (outcome : Outcome)
    (cause : Cause) : Prop where
  top : ∃ after below, stack = .resolve id outcome cause after :: below
  isOpen : w.outcome? id = none
  noted : .resolved id outcome cause ∈ v.journal
  set : ∀ other, v.outcome? other = if id = other then some outcome else w.outcome? other

open World in
theorem Resolves.of_recordOutcome {w v : World} {stack below : Stack} {id : OperationId}
    {o : Operation} {outcome : Outcome} {cause : Cause} {after : Aftermath}
    (hstack : stack = .resolve id outcome cause after :: below)
    (hid : w.operations[id]? = some o) (hopen : o.outcome = none)
    (hv : (w.recordOutcome id outcome cause).Quiet v) : Resolves w stack v id outcome cause := by
  refine ⟨⟨after, below, hstack⟩, ?_, ?_, fun other => ?_⟩
  · rw [outcome?, hid]
    exact hopen
  · obtain ⟨events, hjournal, -⟩ := hv.journal
    rw [hjournal]
    exact List.mem_append_right _ List.mem_cons_self
  · rw [hv.outcome?]
    exact outcome?_recordOutcome hid other

namespace Effect

variable {w v : World} {stack : Stack}

open World in
/-- **Every section keeps what is kept.** -/
theorem keeps (h : Effect w stack v) : w.Keeps v := by
  cases h with
  | quiet hv => exact .of_quiet hv
  | @installed c _ hw _ hv =>
    have hfirst : w.Keeps { w with correlator := .present c } := by
      refine .of_correlator ?_ rfl rfl rfl
      rw [hw]
      exact .fresh
    exact hfirst.trans (.of_quiet hv)
  | retabled hu hc _ hclosed hv =>
    exact ((Keeps.of_quiet hu).trans (.setTable hc hclosed)).trans (.of_quiet hv)
  | dropped hc hu hv =>
    have hgone : w.Keeps { w with correlator := .absent .dropped } := by
      refine .of_correlator ?_ rfl rfl rfl
      rw [hc]
      exact .gone
    exact (hgone.trans (.of_quiet hu)).trans (.of_quiet hv)
  | entered _ hu hc ht hv =>
    obtain ⟨-, -, hshape⟩ := PendingTable.register_eq_some ht
    refine ((Keeps.readied hu).trans (.enter hc ?_ _ _ _)).trans (.of_quiet hv)
    intro hclosed
    rw [hshape]
    exact hclosed
  | refused _ hu => exact (Keeps.readied hu).trans (.begin _ _ _)
  | resolved _ _ _ hv => exact (Keeps.recordOutcome w _ _ _).trans (.of_quiet hv)

open World in
/-- **A section sets no outcome, or just that of the operation it resolves.** -/
theorem outcomes (h : Effect w stack v) :
    (∀ id, v.outcome? id = w.outcome? id) ∨
      ∃ id outcome cause, Resolves w stack v id outcome cause := by
  cases h with
  | quiet hv => exact .inl hv.outcome?
  | installed _ _ hv => exact .inl hv.outcome?
  | retabled hu _ _ _ hv =>
    refine .inl (fun id => ?_)
    rw [hv.outcome?, outcome?_congr (operations_setTable _ _), hu.outcome?]
  | dropped _ hu hv =>
    refine .inl (fun id => ?_)
    rw [hv.outcome?]
    exact hu.outcome? id
  | entered _ hu _ _ hv =>
    refine .inl (fun id => ?_)
    rw [hv.outcome?, outcome?_enter]
    exact outcome?_congr (operations_of_readied hu) id
  | refused _ hu =>
    refine .inl (fun id => ?_)
    rw [outcome?_begin]
    exact outcome?_congr (operations_of_readied hu) id
  | resolved hstack hid hopen hv =>
    exact .inr ⟨_, _, _, .of_recordOutcome hstack hid hopen hv⟩

/-- An outcome is never set again. -/
theorem outcome?_of_some (h : Effect w stack v) {id : OperationId} {outcome : Outcome}
    (ho : w.outcome? id = some outcome) : v.outcome? id = some outcome := by
  rcases h.outcomes with hsame | ⟨other, outcome', cause, hresolves⟩
  · rw [hsame, ho]
  · have hne : other ≠ id := by
      rintro rfl
      rw [hresolves.isOpen] at ho
      cases ho
    rw [hresolves.set, if_neg hne, ho]

/-- **Every section leads to a later state.** -/
theorem precedes (h : Effect w stack v) : w.Precedes v :=
  ⟨h.keeps, fun _ _ ho => h.outcome?_of_some ho⟩

end Effect

theorem Step.Begins.precedes {w v : World} {self : Option CommandHandle} {below stack : Stack}
    {s : Step} (h : s.Begins w self below v stack) : w.Precedes v :=
  (h.effect [] [] []).precedes

theorem Section.precedes {w v : World} {stack stack' : Stack} (h : Section w stack v stack') :
    w.Precedes v :=
  h.effect.precedes

end CommandBridge

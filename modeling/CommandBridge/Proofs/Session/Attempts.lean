import CommandBridge.Proofs.Session.Provenance

/-!
# Attempts and what is on record about them

An attempt to resolve an operation is made for a cause.  Some causes let the operation keep its
entry: it expired, it was swept up, or its caller gave up.  For any other cause the entry was taken
out before, or was never made.  So once an operation was resolved for such a cause, nobody has to do
with it any more, and an operation that is resolved while it has an entry has run out of time.

* `Cause.takesEntry` — the cause leaves the operation without an entry;
* `Frame.Candid` — an attempt brings the outcome of its cause, and is followed by what fits it;
* `Section.candid` — every section keeps the attempts of its thread like this;
* `Effect.resolved_of_mem` — a section puts an outcome on record only if it sets it;
* `World.Sound.not_mem_step` — nobody gets an operation back that nobody has;
* `World.Recorded` — what is on record about outcomes is true;
* `Threads.Regular`, `Threads.Regular.follow` — all this, for threads after any schedule;
* `Reaches.regular` — and for a session with one thread.
-/

namespace CommandBridge

/-! ### Candid attempts -/

/-- Whoever resolves an operation for this cause has taken its entry out, unless it had none. -/
def Cause.takesEntry : Cause → Bool
  | .expired _ => false
  | .swept _ => false
  | .gaveUp _ => false
  | _ => true

/-- An attempt brings the outcome of its cause, and is followed by what fits the cause. -/
def Frame.Candid (statuses : StatusTable) : Frame → Prop
  | .resolve _ outcome cause after =>
    outcome = cause.outcome statuses ∧ after.hasTaken = cause.takesEntry
  | _ => True

/-- All attempts on the stack are candid. -/
def Stack.Candid (statuses : StatusTable) (stack : Stack) : Prop :=
  ∀ f ∈ stack, f.Candid statuses

namespace Stack.Candid

variable {statuses : StatusTable} {below : Stack}

theorem push (h : below.Candid statuses) {f : Frame} (hf : f.Candid statuses) :
    Stack.Candid statuses (f :: below) :=
  List.forall_mem_cons.mpr ⟨hf, h⟩

theorem pop {f : Frame} (h : Stack.Candid statuses (f :: below)) : below.Candid statuses :=
  (List.forall_mem_cons.mp h).2

theorem reply (h : below.Candid statuses) (a : Answer) : (reply a below).Candid statuses :=
  forall_mem_reply (fun _ _ _ => trivial) h a

theorem goOn (h : below.Candid statuses) (round : Round) (w : World) (entries : List Entry) :
    (round.goOn w entries below).2.Candid statuses :=
  round.goOn_stack w h.reply (fun _ _ _ => h.push (by cases round <;> exact ⟨rfl, rfl⟩))

end Stack.Candid

theorem Done.candid {statuses : StatusTable} {stack below : Stack} {answers : List Answer}
    (hdone : Done stack answers below) (h : stack.Candid statuses) : below.Candid statuses := by
  cases hdone with
  | script => exact h.pop
  | bare => exact h

section Step

variable {statuses : StatusTable} {w v : World} {stack stack' below : Stack}

/-- The first section of a step begins with a candid attempt, if it makes one. -/
theorem Step.Begins.candid {self : Option CommandHandle} {s : Step}
    (hs : s.Begins w self below v stack)
    (hstatuses : ∀ c, w.correlator = .present c → c.statuses = statuses)
    (h : below.Candid statuses) : stack.Candid statuses := by
  cases hs with
  | answered _ _ => exact h.reply _
  | installed _ _ _ _ => exact h.reply _
  | seeded _ => exact h.reply _
  | accepted _ _ _ _ =>
    refine Stack.Candid.push ?_ trivial
    exact h.push trivial
  | refused _ _ _ _ => exact h.push ⟨rfl, rfl⟩
  | @completed _ _ c _ _ _ _ _ _ _ _ hc _ =>
    refine h.push ⟨?_, rfl⟩
    rw [hstatuses c hc]
  | expired _ _ _ => exact h.push ⟨rfl, rfl⟩
  | swept _ _ => exact h.goOn (.sweep _ _) _ _
  | shutDown _ => exact h.goOn (.shutdown _) _ _
  | dropped _ _ _ _ => exact h.goOn .drop _ _
  | gaveUp _ _ _ _ => exact h.push ⟨rfl, rfl⟩
  | configured =>
    refine Stack.Candid.push ?_ trivial
    exact h.push trivial

/-- **Every section keeps the attempts of its thread candid.** -/
theorem Section.candid (hs : Section w stack v stack')
    (hstatuses : ∀ c, w.correlator = .present c → c.statuses = statuses)
    (h : stack.Candid statuses) : stack'.Candid statuses := by
  cases hs with
  | began hbegins => exact hbegins.candid hstatuses (h.pop.push trivial)
  | left _ => exact h.pop
  | issued hdone => exact (hdone.candid h).pop.reply _
  | @failed _ _ _ _ _ _ _ _ c _ hdone _ hc _ =>
    refine (hdone.candid h).pop.push ⟨?_, rfl⟩
    rw [hstatuses c hc]
    rfl
  | failedLate hdone _ _ => exact (hdone.candid h).pop.reply _
  | configured hdone => exact (hdone.candid h).pop.reply _
  | continued hdone => exact (hdone.candid h).pop.push trivial
  | passed _ => exact h.pop.push trivial
  | ran _ _ _ =>
    refine Stack.Candid.push ?_ trivial
    exact h.pop.push trivial
  | told _ _ _ _ _ => exact h.pop.push trivial
  | refused => exact h.pop.reply _
  | failedNow => exact h.pop.reply _
  | answered _ _ _ => exact h.pop.reply _
  | sweptOn => exact h.pop.goOn (.sweep _ _) _ _
  | shutDownOn => exact h.pop.goOn (.shutdown _) _ _
  | droppedOn => exact h.pop.goOn .drop _ _

/-! ### The record of outcomes -/

theorem World.Quiet.resolved_of_mem (h : w.Quiet v) {id : OperationId} {outcome : Outcome}
    {cause : Cause} (hmem : .resolved id outcome cause ∈ v.journal) :
    .resolved id outcome cause ∈ w.journal := by
  obtain ⟨events, hjournal, hneutral⟩ := h.journal
  rw [hjournal] at hmem
  rcases List.mem_append.mp hmem with hnew | hold
  · cases hneutral _ hnew
  · exact hold

/-- **A section puts an outcome on record only if it sets it.** -/
theorem Effect.resolved_of_mem (h : Effect w stack v) {id : OperationId} {outcome : Outcome}
    {cause : Cause} (hmem : .resolved id outcome cause ∈ v.journal) :
    .resolved id outcome cause ∈ w.journal ∨ Resolves w stack v id outcome cause := by
  cases h with
  | quiet hv => exact .inl (hv.resolved_of_mem hmem)
  | installed _ _ hv => exact .inl (hv.resolved_of_mem hmem)
  | retabled hu _ _ _ hv =>
    have hretabled := hv.resolved_of_mem hmem
    rw [World.journal_setTable] at hretabled
    exact .inl (hu.resolved_of_mem hretabled)
  | dropped _ hu hv => exact .inl (hu.resolved_of_mem (hv.resolved_of_mem hmem))
  | entered _ hu _ _ hv =>
    have hentered := hv.resolved_of_mem hmem
    rw [World.journal_enter, World.journal_of_readied hu] at hentered
    rcases List.mem_cons.mp hentered with heq | hold
    · cases heq
    · exact .inl hold
  | refused _ hu =>
    refine .inl ?_
    rw [← World.journal_of_readied hu]
    exact hmem
  | resolved hstack hid hopen hv =>
    rcases List.mem_cons.mp (hv.resolved_of_mem hmem) with heq | hold
    · cases heq
      exact .inr (.of_recordOutcome hstack hid hopen hv)
    · exact .inl hold

end Step

/-! ### Operations that nobody has -/

section Sections

variable {w v : World} {stack stack' : Stack} {others : List OperationId} {id : OperationId}

/-- An operation that nobody has may as well be counted as owed by somebody else. -/
theorem World.Sound.bystander {owed : List OperationId} (h : w.Sound (owed ++ others))
    (hid : id < w.operations.length) (hout : id ∉ w.owners ++ (owed ++ others)) :
    w.Sound (owed ++ id :: others) := by
  have hperm : (w.owners ++ (owed ++ id :: others)).Perm (id :: (w.owners ++ (owed ++ others))) :=
    (List.perm_middle.append_left _).trans List.perm_middle
  refine ⟨h.table, ?_, ?_, ?_, h.runs, h.ungiven, h.once, h.given⟩
  · exact hperm.nodup_iff.mpr (List.nodup_cons.mpr ⟨hout, h.nodup⟩)
  · intro other hother
    rcases List.mem_cons.mp (hperm.mem_iff.mp hother) with rfl | hold
    · exact hid
    · exact h.begun other hold
  · intro other hother hopen
    exact hperm.mem_iff.mpr (List.mem_cons_of_mem _ (h.covered other hother hopen))

/-- **Nobody gets an operation back that nobody has.** -/
theorem World.Sound.not_mem_step (h : w.Sound (stack.owed ++ others))
    (hs : Section w stack v stack') (hfits : v.Fits) (hseeds : ∀ n ∈ stack.seeds, 0 < n)
    (hid : id < w.operations.length) (hout : id ∉ w.owners ++ (stack.owed ++ others)) :
    id ∉ v.owners ++ (stack'.owed ++ others) := by
  have hnodup := (World.Sound.step hs hfits hseeds (h.bystander hid hout)).nodup
  have hperm : (v.owners ++ (stack'.owed ++ id :: others)).Perm
      (id :: (v.owners ++ (stack'.owed ++ others))) :=
    (List.perm_middle.append_left _).trans List.perm_middle
  exact (List.nodup_cons.mp (hperm.nodup_iff.mp hnodup)).1

/-- An attempt leaves the table alone, and leaves its thread with what is to be done after it. -/
theorem Section.of_resolve {outcome : Outcome} {cause : Cause} {after : Aftermath} {below : Stack}
    (hs : Section w (.resolve id outcome cause after :: below) v stack') :
    v.correlator = w.correlator ∧ stack'.owed = after.owed ++ below.owed := by
  cases hs with
  | issued hdone => cases hdone
  | failed hdone _ _ _ => cases hdone
  | failedLate hdone _ _ => cases hdone
  | configured hdone => cases hdone
  | continued hdone => cases hdone
  | passed _ => exact ⟨rfl, rfl⟩
  | ran _ _ _ => exact ⟨rfl, rfl⟩
  | told _ _ _ hv _ => exact ⟨hv.correlator, rfl⟩

/-- What is on record about outcomes is true: each is the outcome of the operation, brought by its
cause, and if the cause takes the entry then nobody has the operation any more. -/
def World.Recorded (w : World) (owed : List OperationId) (statuses : StatusTable) : Prop :=
  ∀ id outcome cause, .resolved id outcome cause ∈ w.journal →
    w.outcome? id = some outcome ∧ outcome = cause.outcome statuses ∧
      (cause.takesEntry = true → id ∉ w.owners ++ owed)

theorem World.Recorded.perm {statuses : StatusTable} {owed owed' : List OperationId}
    (h : w.Recorded owed statuses) (hperm : owed'.Perm owed) : w.Recorded owed' statuses := by
  intro id outcome cause hmem
  obtain ⟨ho, hbrought, hgone⟩ := h id outcome cause hmem
  refine ⟨ho, hbrought, fun htakes hid => hgone htakes ?_⟩
  exact (hperm.append_left _).mem_iff.mp hid

theorem World.lt_of_outcome?_eq_some {outcome : Outcome} (ho : w.outcome? id = some outcome) :
    id < w.operations.length := by
  by_contra hle
  rw [outcome?_eq_none_of_le (Nat.le_of_not_lt hle)] at ho
  cases ho

/-- **Every section keeps the record true.** -/
theorem World.Recorded.step {statuses : StatusTable}
    (h : w.Recorded (stack.owed ++ others) statuses)
    (hs : Section w stack v stack') (hfits : v.Fits) (hseeds : ∀ n ∈ stack.seeds, 0 < n)
    (hsound : w.Sound (stack.owed ++ others)) (hcandid : stack.Candid statuses) :
    v.Recorded (stack'.owed ++ others) statuses := by
  intro id outcome cause hmem
  rcases hs.effect.resolved_of_mem hmem with hold | hresolves
  · obtain ⟨ho, hbrought, hgone⟩ := h id outcome cause hold
    refine ⟨hs.precedes.outcome id outcome ho, hbrought, fun htakes => ?_⟩
    exact hsound.not_mem_step hs hfits hseeds (lt_of_outcome?_eq_some ho) (hgone htakes)
  · obtain ⟨after, below, rfl⟩ := hresolves.top
    obtain ⟨hbrought, htaken⟩ := hcandid _ List.mem_cons_self
    refine ⟨?_, hbrought, fun htakes => ?_⟩
    · rw [hresolves.set, if_pos rfl]
    · obtain ⟨hcorrelator, howed⟩ := hs.of_resolve
      -- the thread owed the operation for this attempt, so nobody else had it
      have hnodup := hsound.nodup
      rw [Stack.owed_cons, Frame.owed, if_pos (htaken.trans htakes)] at hnodup
      have hperm : (w.owners ++ ((id :: after.owed ++ Stack.owed below) ++ others)).Perm
          (id :: (w.owners ++ ((after.owed ++ Stack.owed below) ++ others))) := List.perm_middle
      rw [owners, entries_congr hcorrelator, howed]
      exact (List.nodup_cons.mp (hperm.nodup_iff.mp hnodup)).1

end Sections

/-! ### Threads -/

/-- The invariant of threads that share a session which began with the correlator `c`. -/
structure Threads.Regular (c : Correlator) (t : Threads) : Prop where
  sound : t.Sound
  leads : (Presence.present c).Leads t.world.correlator
  candid : ∀ stack ∈ t.running, stack.Candid c.statuses
  recorded : t.world.Recorded t.owed c.statuses

namespace Threads

variable {c : Correlator} {t : Threads}

namespace Regular

/-- The statuses mean what they meant at the start. -/
theorem statuses (h : t.Regular c) {d : Correlator} (hd : t.world.correlator = .present d) :
    d.statuses = c.statuses := by
  have hleads := h.leads
  rw [hd] at hleads
  cases hleads with
  | kept hstatuses _ => exact hstatuses

/-- **A section of any thread keeps the threads regular**, as long as the entries fit. -/
theorem move (h : t.Regular c) {i : Nat} (hfits : (t.move i).world.Fits) :
    (t.move i).Regular c := by
  have hsound := h.sound.move hfits
  rcases move_cases t i with hsame | ⟨stack, v, stack', hi, hadvance, hmove⟩
  · rw [hsame]
    exact h
  · have hsection := section_of_advance hadvance
    have hbefore := flatMap_running Stack.owed hi
    have hafter := flatMap_running_set Stack.owed hi stack'
    have hcandid := h.candid stack (List.mem_of_getElem? hi)
    rw [hmove] at hsound hfits ⊢
    refine ⟨hsound, h.leads.trans hsection.precedes.correlator, fun other hother => ?_, ?_⟩
    · rcases List.mem_or_eq_of_mem_set hother with hold | rfl
      · exact h.candid other hold
      · exact hsection.candid (fun _ hd => h.statuses hd) hcandid
    · -- the others owe what they owed before
      have hseeds : ∀ n ∈ stack.seeds, 0 < n := by
        intro n hn
        refine h.sound.seeds_pos n (List.mem_append_right _ ?_)
        exact (flatMap_running Stack.seeds hi).mem_iff.mpr (List.mem_append_left _ hn)
      have hrecorded := h.recorded.perm hbefore.symm
      have hstep := hrecorded.step hsection hfits hseeds (h.sound.world.perm hbefore.symm) hcandid
      exact hstep.perm hafter

/-- **Every schedule keeps the threads regular.** -/
theorem follow (h : t.Regular c) (hfits : ∀ schedule, (t.follow schedule).world.Fits)
    (schedule : List Nat) : (t.follow schedule).Regular c := by
  induction schedule generalizing t with
  | nil => exact h
  | cons i schedule ih => exact ih (h.move (hfits [i])) (fun later => hfits (i :: later))

/-- Every outcome is on record, with its cause. -/
theorem exists_cause (h : t.Regular c) {id : OperationId} {outcome : Outcome}
    (ho : t.world.outcome? id = some outcome) :
    ∃ cause, .resolved id outcome cause ∈ t.world.journal := by
  have hran : 0 < t.world.timesRun id := by
    rw [h.sound.world.runs, ho]
    exact Nat.one_pos
  obtain ⟨e, he, hid⟩ := List.countP_pos_iff.mp hran
  cases e with
  | resolved other outcome' cause =>
    obtain rfl := eq_of_beq hid
    obtain ⟨ho', -, -⟩ := h.recorded other outcome' cause he
    cases ho.symm.trans ho'
    exact ⟨cause, he⟩
  | _ => cases hid

end Regular

/-- Threads that start on a fresh correlator are regular. -/
theorem regular_start (hc : c.IsFresh) {scripts : List (List Step)}
    (hseeds : ∀ steps ∈ scripts, ∀ n ∈ Step.seedsIn steps, 0 < n) : (start c scripts).Regular c := by
  refine ⟨sound_start hc hseeds, .refl _, fun stack hstack => ?_, fun id outcome cause hmem => ?_⟩
  · obtain ⟨steps, -, rfl⟩ := List.mem_map.mp hstack
    exact List.forall_mem_singleton.mpr trivial
  · cases hmem

end Threads

/-- **Every state of a session is regular**, as long as the entries fit. -/
theorem Reaches.regular {c : Correlator} (hc : c.IsFresh) {steps : List Step}
    (hseeds : ∀ n ∈ Step.seedsIn steps, 0 < n)
    (hfits : ∀ m, Reaches (Session.start c steps) m → m.1.Fits) {m : World × Stack}
    (hm : Reaches (Session.start c steps) m) : Threads.Regular c ⟨m.1, [m.2]⟩ := by
  induction hm with
  | refl => exact Threads.regular_start hc (List.forall_mem_singleton.mpr hseeds)
  | @tail m n hreaches hmoves ih =>
    have hmove := Threads.move_of_moves hmoves
    rw [← hmove]
    refine ih.move ?_
    rw [hmove]
    exact hfits n (hreaches.tail hmoves)

end CommandBridge

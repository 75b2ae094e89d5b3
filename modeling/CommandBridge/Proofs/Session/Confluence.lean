import CommandBridge.Proofs.Session.Runs
import CommandBridge.Proofs.Session.Workers

/-!
# All schedules come to the same

Threads submit commands, and then threads complete the commands that were issued.  A native side
whose answers hang on the handle alone leaves the schedule no influence: failed submissions take
their entries out while others are being entered, but no handle comes back before the counter has
come round.

* `Threads.Finished` — no thread has more to do;
* `exists_follow_eq_finish`, `exists_finished` — finishing is a schedule, so no schedule gets stuck;
* `Threads.submitting`, `Threads.Submitted` — threads that submit, and what they bring about;
* `Threads.completing`, `Threads.Completed` — the same for threads that complete;
* `Threads.schedule_independent` — **submitting and completing end the same way, whatever the
  schedules**.
-/

namespace CommandBridge

open Allocator (nth index firstHandles)

/-! ### Schedules that come to an end -/

/-- Whether a thread has more to do does not depend on the state. -/
theorem advance_eq_none_congr {w : World} {stack : Stack} (h : advance w stack = none)
    (v : World) : advance v stack = none := by
  unfold advance at h ⊢
  split at h <;> first | (cases h; done) | rfl

namespace Threads

/-- No thread has more to do. -/
def Finished (t : Threads) : Prop :=
  ∀ stack ∈ t.running, advance t.world stack = none

instance (t : Threads) : Decidable t.Finished :=
  decidable_of_iff (∀ stack ∈ t.running, (advance t.world stack).isNone = true)
    (by simp only [Finished, Option.isNone_iff_eq_none])

/-- A thread that is moved often enough has run to its end. -/
theorem follow_run (w : World) (before : List Stack) (stack : Stack) (after : List Stack) :
    ∃ n, (⟨w, before ++ stack :: after⟩ : Threads).follow (List.replicate n before.length) =
      ⟨(run w stack).1, before ++ (run w stack).2 :: after⟩ := by
  induction w, stack using run.induct with
  | case1 w stack v stack' hadvance ih =>
    obtain ⟨n, hn⟩ := ih
    have hmove : (⟨w, before ++ stack :: after⟩ : Threads).move before.length =
        ⟨v, before ++ stack' :: after⟩ := by
      simp only [move, List.getElem?_append_right (Nat.le_refl _), Nat.sub_self,
        List.getElem?_cons_zero, hadvance, List.set_append_right _ _ (Nat.le_refl _),
        List.set_cons_zero]
    refine ⟨n + 1, ?_⟩
    rw [List.replicate_succ, follow_cons, hmove, hn, run_of_some hadvance]
  | case2 w stack hadvance =>
    refine ⟨0, ?_⟩
    rw [run_of_none hadvance]
    rfl

theorem follow_finishAll (before : List Stack) (w : World) (rest : List Stack) :
    ∃ schedule, (⟨w, before ++ rest⟩ : Threads).follow schedule =
      ⟨(finishAll w rest).1, before ++ (finishAll w rest).2⟩ := by
  induction rest generalizing w before with
  | nil => exact ⟨[], rfl⟩
  | cons stack rest ih =>
    obtain ⟨n, hn⟩ := follow_run w before stack rest
    obtain ⟨schedule, hschedule⟩ := ih (before ++ [(run w stack).2]) (run w stack).1
    refine ⟨List.replicate n before.length ++ schedule, ?_⟩
    rw [List.append_assoc, List.append_assoc] at hschedule
    rw [follow_append, hn]
    exact hschedule

/-- **To finish one thread after the other is to follow some schedule.** -/
theorem exists_follow_eq_finish (t : Threads) : ∃ schedule, t.follow schedule = t.finish :=
  follow_finishAll [] t.world t.running

theorem finished_finish (t : Threads) : t.finish.Finished := by
  suffices h : ∀ (running : List Stack) (w v : World), ∀ stack ∈ (finishAll w running).2,
      advance v stack = none from h t.running t.world _
  intro running
  induction running with
  | nil =>
    intro w v stack hstack
    cases hstack
  | cons first rest ih =>
    intro w v stack hstack
    rcases List.mem_cons.mp hstack with rfl | hlater
    · exact advance_eq_none_congr (advance_run w first) v
    · exact ih (run w first).1 v stack hlater

/-- **No schedule gets stuck**: whatever was done, the threads can be brought to their ends. -/
theorem exists_finished (t : Threads) (schedule : List Nat) :
    ∃ more, (t.follow (schedule ++ more)).Finished := by
  obtain ⟨more, hmore⟩ := (t.follow schedule).exists_follow_eq_finish
  refine ⟨more, ?_⟩
  rw [follow_append, hmore]
  exact finished_finish _

end Threads

/-! ### Crews from beginning to end -/

variable {s : Scenario}

/-- **Threads that run errands have, once they are finished, run just these errands**, and every
operation is where its errands have brought it. -/
theorem Crew.finished {w : World} {plans : List (List (Errand s))}
    {others : List (OperationId × Stage)} {t : Threads} {schedule : List Nat}
    (htally : w.Tally s.correlator s.verdict (plans.flatten.flatMap Errand.stages ++ others))
    (hfits : w.operations.length + plans.flatten.countP Errand.isSubmit ≤ Allocator.fullTurn)
    (ht : (⟨w, plans.map (fun rest => [.script none (rest.map Errand.step) []])⟩ :
      Threads).follow schedule = t) (hfinished : t.Finished) :
    ∃ deeds : List (List (Deed s)),
      t.running = deeds.map (fun done => [.script none [] (done.map Deed.answer)]) ∧
      t.world.Tally s.correlator s.verdict
        (deeds.flatten.map (fun d => (d.id, d.stage)) ++ others) ∧
      t.world.operations.length = w.operations.length + plans.flatten.countP Errand.isSubmit ∧
      deeds.map (List.map Deed.errand) = plans := by
  have hcrew : Crew (plans.map (fun rest => (⟨rest, .idle, []⟩ : Worker s))) others
      (w.operations.length + plans.flatten.countP Errand.isSubmit)
      ⟨w, plans.map (fun rest => [.script none (rest.map Errand.step) []])⟩ := by
    refine ⟨?_, ?_, ?_⟩
    · rw [List.map_map]
      rfl
    · rw [List.flatMap_map]
      rw [← List.flatMap_id, List.flatMap_assoc] at htally
      exact htally
    · rw [List.flatMap_map]
      show _ + (plans.flatMap id).countP _ = _
      rw [List.flatMap_id]
  obtain ⟨workers, hend, hplans⟩ := hcrew.follow hfits schedule
  rw [ht] at hend
  obtain ⟨deeds, hrunning, htally', htotal, hdeeds⟩ := hend.ended hfits hfinished
  refine ⟨deeds, hrunning, htally', htotal, ?_⟩
  rw [hdeeds, hplans, List.map_map]
  exact List.map_id plans

/-! ### Submitting -/

/-- The handle that the native function of a submission was given. -/
def Answer.nativeHandle? : Answer → Option CommandHandle
  | .submitted _ _ native _ => native
  | _ => none

namespace Threads

/-- What the steps of all threads returned. -/
def answers (t : Threads) : List Answer :=
  t.running.flatMap Stack.answers

/-- The handles that were issued. -/
def issued (t : Threads) : List CommandHandle :=
  t.answers.filterMap Answer.issuedHandle?

/-- Threads that submit commands of these names. -/
def submitting (s : Scenario) (names : List (List String)) : Threads :=
  start s.correlator (names.map (List.map (fun name => .submit name s.reaction [] [])))

/-- Threads that complete the commands under these handles. -/
def completing (s : Scenario) (w : World) (orders : List (List CommandHandle)) : Threads :=
  ⟨w, orders.map (fun handles =>
    [.script none (handles.map (fun h => .deliver (.handle h) (s.status h) (s.payload h))) []])⟩

/-- What `n` submissions bring about. -/
structure Submitted (s : Scenario) (n : Nat) (t : Threads) : Prop where
  /-- Whoever submits learns the number, the handle or the error, and the native call. -/
  answers : t.answers.Perm ((List.range n).map s.receipt)
  /-- The native functions were given the first `n` handles, each of them once. -/
  native : (t.answers.filterMap Answer.nativeHandle?).Perm (firstHandles n)
  given : ∀ id, t.world.handlesGiven id = if id < n then [nth id] else []
  /-- The handles issued are those whose native functions do not fail. -/
  issued : t.issued.Perm ((firstHandles n).filter (fun h => s.reaction h = successStatus))
  begun : t.world.operations.length = n
  /-- Operations that were issued wait for their completions, and the others have left the table. -/
  owners : t.world.owners.Perm ((List.range n).filter (fun id => s.Accepts id))
  pending : ∀ id, id < n → s.Accepts id →
    t.world.Holds id (nth id) ∧ t.world.outcome? id = none ∧ t.world.timesRun id = 0
  refused : ∀ id, id < n → ¬ s.Accepts id →
    t.world.outcome? id = some (.error (s.error id)) ∧ t.world.timesRun id = 1

/-- What the completion of every command that was issued brings about. -/
structure Completed (s : Scenario) (n : Nat) (t : Threads) : Prop where
  /-- Every delivery finds its command. -/
  answers : t.answers =
    List.replicate ((List.range n).countP (fun id => s.Accepts id)) (.delivered (.ok ()))
  entries : t.world.entries = []
  /-- Every operation has its verdict. -/
  outcomes : t.world.operations.map Operation.outcome =
    (List.range n).map (fun id => some (s.verdict id))
  once : ∀ id, id < n → t.world.timesRun id = 1

end Threads

namespace Deed

theorem of_isSubmit {d : Deed s} (h : d.errand.isSubmit = true) :
    d.answer = s.receipt d.id ∧ d.stage = s.submittedStage d.id := by
  cases d with
  | submitted id name => exact ⟨rfl, rfl⟩
  | delivered id accepted => cases h

theorem of_isSubmit_eq_false {d : Deed s} (h : d.errand.isSubmit = false) :
    d.answer = .delivered (.ok ()) ∧ d.stage = .settled := by
  cases d with
  | submitted id name => cases h
  | delivered id accepted => exact ⟨rfl, rfl⟩

/-- The answers of finished threads, one for each errand that was run. -/
theorem answers_eq {t : Threads} {deeds : List (List (Deed s))}
    (hrunning : t.running = deeds.map (fun done => [.script none [] (done.map Deed.answer)])) :
    t.answers = deeds.flatten.map Deed.answer := by
  rw [Threads.answers, hrunning, List.flatMap_map, List.map_flatten]
  rfl

end Deed

theorem heldAmong_submitted (s : Scenario) (ids : List OperationId) :
    heldAmong (ids.map (fun id => (id, s.submittedStage id))) =
      ids.filter (fun id => s.Accepts id) := by
  rw [heldAmong, List.filter_map, List.map_map]
  have hstage : ∀ id, (s.submittedStage id = .held) ↔ s.Accepts id := by
    intro id
    unfold Scenario.submittedStage
    split <;> simp [*]
  simp only [Function.comp_def, hstage, List.map_id']

theorem issued_receipts (s : Scenario) (ids : List OperationId) :
    (ids.map s.receipt).filterMap Answer.issuedHandle? =
      (ids.filter (fun id => s.Accepts id)).map nth := by
  induction ids with
  | nil => rfl
  | cons id ids ih =>
    by_cases accepted : s.Accepts id
    · have hissued : (s.receipt id).issuedHandle? = some (nth id) := by
        rw [Scenario.receipt, if_pos accepted]
        rfl
      rw [List.map_cons, List.filterMap_cons_some hissued, ih,
        List.filter_cons_of_pos (by simpa using accepted), List.map_cons]
    · have hrefused : (s.receipt id).issuedHandle? = none := by
        rw [Scenario.receipt, if_neg accepted]
        rfl
      rw [List.map_cons, List.filterMap_cons_none hrefused, ih,
        List.filter_cons_of_neg (by simpa using accepted)]

namespace World.Tally

variable {c : Correlator} {verdict : OperationId → Outcome} {w : World}
  {stages : List (OperationId × Stage)} {id : OperationId}

/-- An operation at the stage `held` has its own entry under its own handle. -/
theorem holds (h : w.Tally c verdict stages) (hfits : w.operations.length ≤ Allocator.fullTurn)
    (hid : (id, .held) ∈ stages) : w.Holds id (nth id) := by
  obtain ⟨t, hc, ht⟩ := h.correlator
  have howner : id ∈ t.owners := by
    have hheld : id ∈ heldAmong stages :=
      List.mem_map.mpr ⟨(id, .held), List.mem_filter.mpr ⟨hid, by simp⟩, rfl⟩
    have hmem := h.owners.mem_iff.mpr hheld
    rw [World.owners, entries_of_present hc] at hmem
    exact hmem
  obtain ⟨e, hfind, hown⟩ := ht.find?_nth hfits howner
  refine ⟨?_, _, e, hc, hfind, hown⟩
  rw [h.given, if_pos (h.begun hid)]

end World.Tally

namespace Threads

variable {names : List (List String)} {schedule : List Nat} {t : Threads}

/-- The errands of threads that submit commands of these names. -/
def submissions (s : Scenario) (names : List (List String)) : List (List (Errand s)) :=
  names.map (List.map .submit)

theorem submitting_eq (s : Scenario) (names : List (List String)) :
    submitting s names = ⟨World.start s.correlator,
      (submissions s names).map (fun rest => [.script none (rest.map Errand.step) []])⟩ := by
  simp only [submitting, start, submissions, List.map_map, Function.comp_def]
  rfl

/-- **Once every command is submitted**, every operation is at the stage where its native function
has left it. -/
theorem tally_of_submitting (hnew : s.correlator.table = {})
    (hfits : names.flatten.length ≤ Allocator.fullTurn)
    (ht : (submitting s names).follow schedule = t) (hfinished : t.Finished) :
    t.answers.Perm ((List.range names.flatten.length).map s.receipt) ∧
      t.world.Tally s.correlator s.verdict
        ((List.range names.flatten.length).map (fun id => (id, s.submittedStage id))) ∧
      t.world.operations.length = names.flatten.length := by
  have hplans : (submissions s names).flatten = names.flatten.map .submit :=
    (List.map_flatten).symm
  have hstages : (submissions s names).flatten.flatMap Errand.stages = [] := by
    rw [hplans, List.flatMap_map]
    exact List.flatMap_eq_nil_iff.mpr (fun _ _ => rfl)
  have hcount : (submissions s names).flatten.countP Errand.isSubmit = names.flatten.length := by
    rw [hplans, List.countP_map]
    exact List.countP_eq_length.mpr (fun _ _ => rfl)
  have htally : (World.start s.correlator).Tally s.correlator s.verdict
      ((submissions s names).flatten.flatMap Errand.stages ++ []) := by
    rw [hstages]
    exact World.Tally.start hnew
  rw [submitting_eq] at ht
  obtain ⟨deeds, hrunning, htally', hlength, hdeeds⟩ := Crew.finished htally (by
    rw [hcount]
    exact (Nat.zero_add _).symm ▸ hfits) ht hfinished
  have hsubmits : ∀ d ∈ deeds.flatten, d.errand.isSubmit = true := by
    intro d hd
    have herrand : d.errand ∈ (submissions s names).flatten := by
      rw [← hdeeds, ← List.map_flatten]
      exact List.mem_map_of_mem hd
    rw [hplans] at herrand
    obtain ⟨name, -, hname⟩ := List.mem_map.mp herrand
    rw [← hname]
    rfl
  have hanswers : deeds.flatten.map Deed.answer = (deeds.flatten.map Deed.id).map s.receipt := by
    rw [List.map_map]
    exact List.map_congr_left (fun d hd => (Deed.of_isSubmit (hsubmits d hd)).1)
  have hreached : deeds.flatten.map (fun d => (d.id, d.stage)) =
      (deeds.flatten.map Deed.id).map (fun id => (id, s.submittedStage id)) := by
    rw [List.map_map]
    exact List.map_congr_left
      (fun d hd => congrArg (Prod.mk d.id) (Deed.of_isSubmit (hsubmits d hd)).2)
  have htotal : t.world.operations.length = names.flatten.length := by
    rw [hlength, hcount]
    exact Nat.zero_add _
  rw [List.append_nil, hreached] at htally'
  have hids : (deeds.flatten.map Deed.id).Perm (List.range names.flatten.length) := by
    simpa only [List.map_map, Function.comp_def, htotal] using htally'.ids
  refine ⟨?_, htally'.perm (hids.map _), htotal⟩
  rw [Deed.answers_eq hrunning, hanswers]
  exact hids.map _

/-- What the tally says once every command is submitted. -/
theorem Submitted.of_tally {n : Nat} (hfits : n ≤ Allocator.fullTurn)
    (hanswers : t.answers.Perm ((List.range n).map s.receipt))
    (htally : t.world.Tally s.correlator s.verdict
      ((List.range n).map (fun id => (id, s.submittedStage id))))
    (hlength : t.world.operations.length = n) : t.Submitted s n := by
  have hstage : ∀ id, id < n → (id, s.submittedStage id) ∈
      (List.range n).map (fun id => (id, s.submittedStage id)) :=
    fun id hid => List.mem_map_of_mem (List.mem_range.mpr hid)
  refine ⟨hanswers, ?_, ?_, ?_, hlength, ?_, ?_, ?_⟩
  · have hnative : ((List.range n).map s.receipt).filterMap Answer.nativeHandle? =
        firstHandles n := by
      rw [List.filterMap_map]
      exact congrFun (List.filterMap_eq_map (f := nth)) _
    rw [← hnative]
    exact hanswers.filterMap _
  · rw [← hlength]
    exact htally.given
  · have hissued : ((List.range n).map s.receipt).filterMap Answer.issuedHandle? =
        (firstHandles n).filter (fun h => s.reaction h = successStatus) := by
      rw [issued_receipts, Allocator.firstHandles, List.filter_map]
      rfl
    rw [← hissued]
    exact hanswers.filterMap _
  · rw [← heldAmong_submitted]
    exact htally.owners
  · intro id hid accepted
    have hheld : s.submittedStage id = .held := if_pos accepted
    have hopen := htally.outcome _ (hstage id hid)
    have hmem := hstage id hid
    rw [hheld] at hopen hmem
    refine ⟨htally.holds (hlength ▸ hfits) hmem, hopen, ?_⟩
    rw [htally.runs, show t.world.outcome? id = none from hopen]
    rfl
  · intro id hid refused
    have hsettled : s.submittedStage id = .settled := if_neg refused
    have houtcome := htally.outcome _ (hstage id hid)
    rw [hsettled, if_pos rfl, Scenario.verdict, if_neg refused] at houtcome
    refine ⟨houtcome, ?_⟩
    rw [htally.runs, houtcome]
    rfl

/-! ### Completing -/

/-- A thread that completes commands that were accepted runs errands. -/
theorem exists_errands (handles : List CommandHandle)
    (hissued : ∀ h ∈ handles, nth (index h) = h ∧ s.Accepts (index h)) :
    ∃ rest : List (Errand s),
      rest.map Errand.step =
        handles.map (fun h => .deliver (.handle h) (s.status h) (s.payload h)) ∧
      rest.flatMap Errand.stages = handles.map (fun h => (index h, .held)) ∧
      ∀ e ∈ rest, e.isSubmit = false := by
  induction handles with
  | nil => exact ⟨[], rfl, rfl, fun e he => absurd he List.not_mem_nil⟩
  | cons h handles ih =>
    obtain ⟨hback, accepted⟩ := hissued h List.mem_cons_self
    obtain ⟨rest, hsteps, hstages, hdeliver⟩ :=
      ih (fun h' hh' => hissued h' (List.mem_cons_of_mem _ hh'))
    refine ⟨.deliver (index h) accepted :: rest, ?_, ?_, ?_⟩
    · rw [List.map_cons, List.map_cons, hsteps, Errand.step, hback]
    · rw [List.flatMap_cons, hstages, List.map_cons]
      rfl
    · intro e he
      rcases List.mem_cons.mp he with rfl | hlater
      · rfl
      · exact hdeliver e hlater

theorem exists_plans (orders : List (List CommandHandle))
    (hissued : ∀ h ∈ orders.flatten, nth (index h) = h ∧ s.Accepts (index h)) :
    ∃ plans : List (List (Errand s)),
      plans.map (List.map Errand.step) =
        orders.map (List.map (fun h => .deliver (.handle h) (s.status h) (s.payload h))) ∧
      plans.flatten.flatMap Errand.stages =
        orders.flatten.map (fun h => (index h, .held)) ∧
      ∀ e ∈ plans.flatten, e.isSubmit = false := by
  induction orders with
  | nil => exact ⟨[], rfl, rfl, fun e he => absurd he List.not_mem_nil⟩
  | cons handles orders ih =>
    rw [List.flatten_cons] at hissued
    obtain ⟨rest, hsteps, hstages, hdeliver⟩ :=
      exists_errands handles (fun h hh => hissued h (List.mem_append_left _ hh))
    obtain ⟨plans, hsteps', hstages', hdeliver'⟩ :=
      ih (fun h hh => hissued h (List.mem_append_right _ hh))
    refine ⟨rest :: plans, ?_, ?_, ?_⟩
    · rw [List.map_cons, List.map_cons, hsteps, hsteps']
    · rw [List.flatten_cons, List.flatMap_append, hstages, hstages', List.flatten_cons,
        List.map_append]
    · intro e he
      rcases List.mem_append.mp he with hfirst | hlater
      · exact hdeliver e hfirst
      · exact hdeliver' e hlater

/-- What the tally says once every operation is settled. -/
theorem Completed.of_tally {n : Nat} {stages : List (OperationId × Stage)}
    (hanswers : t.answers =
      List.replicate ((List.range n).countP (fun id => s.Accepts id)) (.delivered (.ok ())))
    (htally : t.world.Tally s.correlator s.verdict stages)
    (hsettled : ∀ p ∈ stages, p.2 = .settled) (hlength : t.world.operations.length = n) :
    t.Completed s n := by
  have houtcome : ∀ id, id < n → t.world.outcome? id = some (s.verdict id) := by
    intro id hid
    have hmem := htally.ids.mem_iff.mpr (List.mem_range.mpr (hlength ▸ hid))
    obtain ⟨p, hp, rfl⟩ := List.mem_map.mp hmem
    rw [htally.outcome p hp, if_pos (hsettled p hp)]
  refine ⟨hanswers, ?_, ?_, ?_⟩
  · have hheld : heldAmong stages = [] := by
      rw [heldAmong, List.filter_eq_nil_iff.mpr]
      · rfl
      · intro p hp
        simp [hsettled p hp]
    have howners := htally.owners
    rw [hheld] at howners
    exact List.map_eq_nil_iff.mp howners.eq_nil
  · refine List.ext_getElem ?_ ?_
    · rw [List.length_map, List.length_map, List.length_range, hlength]
    · intro id hid hid'
      rw [List.length_map] at hid
      have hone := houtcome id (hlength ▸ hid)
      rw [World.outcome?, List.getElem?_eq_getElem hid] at hone
      rw [List.getElem_map, List.getElem_map, List.getElem_range]
      exact hone
  · intro id hid
    rw [htally.runs, houtcome id hid]
    rfl

/-- The operations whose native functions do not fail come first, and then the others. -/
theorem stages_split (s : Scenario) (ids : List OperationId) :
    (ids.map (fun id => (id, s.submittedStage id))).Perm
      ((ids.filter (fun id => s.Accepts id)).map (fun id => (id, .held)) ++
        (ids.filter (fun id => !decide (s.Accepts id))).map (fun id => (id, .settled))) := by
  have hheld : (ids.filter (fun id => s.Accepts id)).map (fun id => (id, Stage.held)) =
      (ids.filter (fun id => s.Accepts id)).map (fun id => (id, s.submittedStage id)) := by
    refine List.map_congr_left (fun id hid => ?_)
    have accepted : s.Accepts id := of_decide_eq_true (List.mem_filter.mp hid).2
    rw [Scenario.submittedStage, if_pos accepted]
  have hsettled : (ids.filter (fun id => !decide (s.Accepts id))).map
      (fun id => (id, Stage.settled)) =
      (ids.filter (fun id => !decide (s.Accepts id))).map (fun id => (id, s.submittedStage id)) := by
    refine List.map_congr_left (fun id hid => ?_)
    have refused : ¬ s.Accepts id := by simpa using (List.mem_filter.mp hid).2
    rw [Scenario.submittedStage, if_neg refused]
  rw [hheld, hsettled, ← List.map_append]
  exact ((List.filter_append_perm _ ids).map _).symm

/-- **Once every command that was issued is completed**, every operation has its verdict. -/
theorem completed_of_finished {n : Nat} {w : World} {orders : List (List CommandHandle)}
    (hfits : n ≤ Allocator.fullTurn) (hlength : w.operations.length = n)
    (htally : w.Tally s.correlator s.verdict
      ((List.range n).map (fun id => (id, s.submittedStage id))))
    (horders : orders.flatten.Perm (((List.range n).filter (fun id => s.Accepts id)).map nth))
    (ht : (completing s w orders).follow schedule = t) (hfinished : t.Finished) :
    t.Completed s n := by
  have hindex : ∀ id ∈ (List.range n).filter (fun id => s.Accepts id), index (nth id) = id := by
    intro id hid
    have hlt := List.mem_range.mp (List.mem_filter.mp hid).1
    exact Allocator.index_nth (Nat.lt_of_lt_of_le hlt hfits)
  have hissued : ∀ h ∈ orders.flatten, nth (index h) = h ∧ s.Accepts (index h) := by
    intro h hh
    obtain ⟨id, hid, rfl⟩ := List.mem_map.mp (horders.mem_iff.mp hh)
    rw [hindex id hid]
    exact ⟨rfl, of_decide_eq_true (List.mem_filter.mp hid).2⟩
  obtain ⟨plans, hsteps, hstages, hdeliver⟩ := exists_plans orders hissued
  have hstart : completing s w orders =
      ⟨w, plans.map (fun rest => [.script none (rest.map Errand.step) []])⟩ := by
    have hstacks := congrArg (List.map (fun steps => [Frame.script none steps []])) hsteps
    rw [List.map_map, List.map_map] at hstacks
    exact congrArg (Threads.mk w) hstacks.symm
  have hheld : (orders.flatten.map (fun h => (index h, Stage.held))).Perm
      (((List.range n).filter (fun id => s.Accepts id)).map (fun id => (id, .held))) := by
    refine (horders.map _).trans (List.Perm.of_eq ?_)
    rw [List.map_map]
    exact List.map_congr_left (fun id hid => congrArg (fun k => (k, Stage.held)) (hindex id hid))
  have hcount : plans.flatten.countP Errand.isSubmit = 0 :=
    List.countP_eq_zero.mpr (fun e he => by simp [hdeliver e he])
  rw [hstart] at ht
  obtain ⟨deeds, hrunning, htally', hlength', hdeeds⟩ := Crew.finished
    (htally.perm ((stages_split s _).trans ((hstages ▸ hheld.symm).append_right _)))
    (by omega) ht hfinished
  have hdelivered : ∀ d ∈ deeds.flatten, d.errand.isSubmit = false := by
    intro d hd
    refine hdeliver d.errand ?_
    rw [← hdeeds, ← List.map_flatten]
    exact List.mem_map_of_mem hd
  have hsame : deeds.flatten.length = (List.range n).countP (fun id => s.Accepts id) := by
    have hran : deeds.flatten.length = plans.flatten.length := by
      rw [← hdeeds, ← List.map_flatten, List.length_map]
    have hordered : plans.flatten.length = orders.flatten.length := by
      have hboth := congrArg (fun steps => steps.flatten.length) hsteps
      simpa only [← List.map_flatten, List.length_map] using hboth
    rw [hran, hordered, horders.length_eq, List.length_map, List.countP_eq_length_filter]
  refine .of_tally ?_ htally' ?_ (by omega)
  · rw [Deed.answers_eq hrunning, ← hsame]
    refine List.eq_replicate_iff.mpr ⟨List.length_map _, fun a ha => ?_⟩
    obtain ⟨d, hd, rfl⟩ := List.mem_map.mp ha
    exact (Deed.of_isSubmit_eq_false (hdelivered d hd)).1
  · intro p hp
    rcases List.mem_append.mp hp with hdeed | hother
    · obtain ⟨d, hd, rfl⟩ := List.mem_map.mp hdeed
      exact (Deed.of_isSubmit_eq_false (hdelivered d hd)).2
    · obtain ⟨id, -, rfl⟩ := List.mem_map.mp hother
      rfl

/-! ### Both together -/

/-- **Submitting and completing end the same way, whatever the schedules.**  On a new correlator,
for any numbers of threads and of commands that each of them submits, no more in all than there are
handles, and for a native side whose answers hang on the handle alone:

* no schedule gets stuck, and once all threads are finished, the native functions were given the
  handles `1, 2, …`, each of them once; issued are those whose native functions do not fail, and
  every other operation is resolved once with the error that its status means and has left the table;
* for any distribution of the handles issued among threads that complete them, no schedule gets
  stuck either, and once all threads are finished, every delivery has found its command, every
  operation has the verdict that belongs to its own handle, and the table is empty.

What is said of the end mentions neither schedule. -/
theorem schedule_independent (s : Scenario) (hnew : s.correlator.table = {})
    (names : List (List String)) (hfits : names.flatten.length ≤ Allocator.fullTurn)
    (schedule : List Nat) :
    (∃ more, ((submitting s names).follow (schedule ++ more)).Finished) ∧
    ∀ t, (submitting s names).follow schedule = t → t.Finished →
      t.Submitted s names.flatten.length ∧
      ∀ orders : List (List CommandHandle), orders.flatten.Perm t.issued →
        ∀ schedule' : List Nat,
          (∃ more, ((completing s t.world orders).follow (schedule' ++ more)).Finished) ∧
          ∀ u, (completing s t.world orders).follow schedule' = u → u.Finished →
            u.Completed s names.flatten.length := by
  refine ⟨exists_finished _ schedule, fun t ht hfinished => ?_⟩
  obtain ⟨hanswers, htally, hlength⟩ := tally_of_submitting hnew hfits ht hfinished
  refine ⟨.of_tally hfits hanswers htally hlength, fun orders horders schedule' => ?_⟩
  refine ⟨exists_finished _ schedule', fun u hu hfinished' => ?_⟩
  have hissued : t.issued.Perm
      (((List.range names.flatten.length).filter (fun id => s.Accepts id)).map nth) := by
    rw [← issued_receipts]
    exact hanswers.filterMap _
  exact completed_of_finished hfits hlength htally (horders.trans hissued) hu hfinished'

/-- Three commands from two threads, on a native side that refuses the second handle. -/
def contention : Scenario where
  correlator := {}
  reaction h := if h.raw = 2 then 200 else 0
  status _ := 0
  payload h := .handle h.raw

/-- The refused submission takes its entry out between the two others, and is resolved after the
third has its entry. -/
theorem schedule_independent_contention :
    ((submitting contention [["open_wallet", "close_wallet"], ["open_pool_ledger"]]).follow
      [0, 1, 0, 1, 0, 1, 0, 1, 1]).Submitted contention 3 ∧
    ((completing contention
      ((submitting contention [["open_wallet", "close_wallet"], ["open_pool_ledger"]]).follow
        [0, 1, 0, 1, 0, 1, 0, 1, 1]).world [[⟨3⟩], [⟨1⟩]]).follow
      [1, 0, 0, 1, 1, 0, 1, 0]).Completed contention 3 := by
  have hfits : [["open_wallet", "close_wallet"], ["open_pool_ledger"]].flatten.length ≤
      Allocator.fullTurn := by decide
  obtain ⟨-, hrun⟩ := schedule_independent contention rfl _ hfits [0, 1, 0, 1, 0, 1, 0, 1, 1]
  obtain ⟨hsubmitted, hcomplete⟩ := hrun _ rfl (by decide)
  obtain ⟨-, hdone⟩ := hcomplete [[⟨3⟩], [⟨1⟩]] (by decide) [1, 0, 0, 1, 1, 0, 1, 0]
  exact ⟨hsubmitted, hdone _ rfl (by decide)⟩

end Threads

end CommandBridge

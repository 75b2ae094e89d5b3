import CommandBridge.Proofs.Session.Schedules
import CommandBridge.Proofs.Session.Tally

/-!
# Workers

A worker is a thread that only submits commands and completes commands, to a native side whose
answers hang on the handle alone.  A worker is described by the errands that it has run, the one
that it is on, and the rest; the stages of its operations can be read off this description.

* `Scenario` — the correlator and the native side;
* `Errand`, `Deed`, `Job` — an errand to run, one that was run, one under way;
* `Worker` — a thread, with the stack that it is working on and the stages of its operations;
* `Worker.advance` — **a section of a worker leaves a worker with the same errands**, and the tally
  goes along with it;
* `Crew`, `Crew.move`, `Crew.follow` — the same for a crew of workers, under every schedule.
-/

namespace CommandBridge

open Allocator (nth)

/-! ### The native side -/

/-- A correlator, and a native side whose answers hang on the handle alone. -/
structure Scenario where
  correlator : Correlator
  /-- What the native functions return. -/
  reaction : CommandHandle → Int32
  /-- The status and the payload of a completion. -/
  status : CommandHandle → Int32
  payload : CommandHandle → Payload

namespace Scenario

variable (s : Scenario) (id : OperationId)

/-- The native function of the operation does not fail. -/
def Accepts : Prop :=
  s.reaction (nth id) = successStatus

instance : Decidable (s.Accepts id) :=
  inferInstanceAs (Decidable (_ = _))

/-- The error that a failing native function means. -/
def error : BridgeError :=
  s.correlator.statuses.errorOf (s.reaction (nth id))

/-- What is returned to whoever submits the operation. -/
def receipt : Answer :=
  .submitted id (if s.Accepts id then .ok (nth id) else .error (s.error id)) (some (nth id)) []

/-- The outcome of the operation: that of its completion, or of the failure of its native
function. -/
def verdict : Outcome :=
  if s.Accepts id then
    (Cause.delivered (nth id) (s.status (nth id)) (s.payload (nth id))).outcome
      s.correlator.statuses
  else .error (s.error id)

/-- How far an operation is once it was submitted. -/
def submittedStage : Stage :=
  if s.Accepts id then .held else .settled

end Scenario

/-! ### Errands -/

/-- An errand: submit a command, or complete one that was accepted. -/
inductive Errand (s : Scenario) where
  | submit (name : String)
  | deliver (id : OperationId) (accepted : s.Accepts id)

/-- An errand that was run. -/
inductive Deed (s : Scenario) where
  | submitted (id : OperationId) (name : String)
  | delivered (id : OperationId) (accepted : s.Accepts id)

/-- How an operation comes to be resolved: its native function has failed, or it is completed. -/
inductive Ending (s : Scenario) (id : OperationId) where
  | failure (name : String) (refused : ¬ s.Accepts id)
  | delivery (entry : Entry) (accepted : s.Accepts id)

/-- What a worker is busy with. -/
inductive Job (s : Scenario) where
  | idle
  /-- The native function of an operation is running. -/
  | calling (id : OperationId) (name : String)
  /-- An operation is about to be resolved. -/
  | resolving (id : OperationId) (ending : Ending s id)
  /-- Its continuation is running. -/
  | running (id : OperationId) (ending : Ending s id)
  | concluding (id : OperationId) (ending : Ending s id)

/-- A thread that runs errands. -/
structure Worker (s : Scenario) where
  rest : List (Errand s)
  job : Job s := .idle
  done : List (Deed s) := []

variable {s : Scenario}

namespace Errand

def step : Errand s → Step
  | submit name => .submit name s.reaction [] []
  | deliver id _ => .deliver (.handle (nth id)) (s.status (nth id)) (s.payload (nth id))

/-- What must be so before the errand. -/
def stages : Errand s → List (OperationId × Stage)
  | submit _ => []
  | deliver id _ => [(id, .held)]

def isSubmit : Errand s → Bool
  | submit _ => true
  | deliver _ _ => false

end Errand

namespace Deed

def errand : Deed s → Errand s
  | submitted _ name => .submit name
  | delivered id accepted => .deliver id accepted

def id : Deed s → OperationId
  | submitted id _ => id
  | delivered id _ => id

def answer : Deed s → Answer
  | submitted id _ => s.receipt id
  | delivered _ _ => .delivered (.ok ())

def stage : Deed s → Stage
  | submitted id _ => s.submittedStage id
  | delivered _ _ => .settled

end Deed

namespace Ending

variable {id : OperationId}

def cause : Ending s id → Cause
  | failure _ _ => .failed (nth id) (s.reaction (nth id))
  | delivery _ _ => .delivered (nth id) (s.status (nth id)) (s.payload (nth id))

def aftermath : Ending s id → Aftermath
  | failure name _ => .fail id (.submit id) name (nth id) (s.error id) []
  | delivery entry _ => .deliver entry (s.status (nth id)) .sender

def deed : Ending s id → Deed s
  | failure name _ => .submitted id name
  | delivery _ accepted => .delivered id accepted

/-- However it ends, the operation is resolved by then. -/
theorem stage_deed (ending : Ending s id) : (ending.deed.id, ending.deed.stage) = (id, .settled) := by
  cases ending with
  | failure name refused =>
    simp only [deed, Deed.id, Deed.stage, Scenario.submittedStage, if_neg refused]
  | delivery entry accepted => rfl

end Ending

namespace Job

/-- The frames on top of the worker's script. -/
def frames : Job s → Stack
  | idle => []
  | calling id name =>
    [.script (some (nth id)) [] [],
      .native id (.submit id) name (nth id) (s.reaction (nth id))]
  | resolving id ending => [.resolve id (s.verdict id) ending.cause ending.aftermath]
  | running id ending => [.script none [] [], .continuation id ending.aftermath]
  | concluding _ ending => [.conclude ending.aftermath true]

def stages : Job s → List (OperationId × Stage)
  | idle => []
  | calling id _ => [(id, .held)]
  | resolving id _ => [(id, .taken)]
  | running id _ => [(id, .settled)]
  | concluding id _ => [(id, .settled)]

def errands : Job s → List (Errand s)
  | idle => []
  | calling _ name => [.submit name]
  | resolving _ ending => [ending.deed.errand]
  | running _ ending => [ending.deed.errand]
  | concluding _ ending => [ending.deed.errand]

end Job

namespace Worker

/-- The stack of the thread. -/
def stack (x : Worker s) : Stack :=
  x.job.frames ++ [.script none (x.rest.map Errand.step) (x.done.map Deed.answer)]

/-- The operations that the worker deals with. -/
def stages (x : Worker s) : List (OperationId × Stage) :=
  x.done.map (fun d => (d.id, d.stage)) ++ (x.job.stages ++ x.rest.flatMap Errand.stages)

/-- All errands of the worker, those that were run included. -/
def plan (x : Worker s) : List (Errand s) :=
  x.done.map Deed.errand ++ (x.job.errands ++ x.rest)

/-- The commands still to be submitted. -/
def left (x : Worker s) : Nat :=
  x.rest.countP Errand.isSubmit

/-- From `w` and `x` to `v` and `y`: the errands are the same, and the tally goes along, where
`others` are the operations that other threads deal with. -/
structure Proceeds (others : List (OperationId × Stage)) (w : World) (x : Worker s) (v : World)
    (y : Worker s) : Prop where
  tally : v.Tally s.correlator s.verdict (y.stages ++ others)
  plan : y.plan = x.plan
  total : v.operations.length + y.left = w.operations.length + x.left

/-! ### One section of a worker -/

section Advance

variable {others : List (OperationId × Stage)} {w : World} {rest : List (Errand s)}
  {done : List (Deed s)} {id : OperationId}

/-- The operation under way can be put in front of all the others. -/
theorem stages_perm (x : Worker s) {p : OperationId × Stage}
    {stages others : List (OperationId × Stage)}
    (h : x.job.stages ++ x.rest.flatMap Errand.stages = p :: stages) :
    (x.stages ++ others).Perm
      (p :: (x.done.map (fun d => (d.id, d.stage)) ++ stages ++ others)) := by
  rw [Worker.stages, h]
  exact List.perm_middle.append_right others

theorem stages_snoc (d : Deed s) :
    (⟨rest, .idle, done ++ [d]⟩ : Worker s).stages =
      done.map (fun d => (d.id, d.stage)) ++ ((d.id, d.stage) :: rest.flatMap Errand.stages) := by
  simp only [Worker.stages, Job.stages, List.map_append, List.map_cons, List.map_nil,
    List.append_assoc, List.singleton_append, List.nil_append]

theorem plan_snoc (d : Deed s) :
    (⟨rest, .idle, done ++ [d]⟩ : Worker s).plan = done.map Deed.errand ++ (d.errand :: rest) := by
  simp only [Worker.plan, Job.errands, List.map_append, List.map_cons, List.map_nil,
    List.append_assoc, List.singleton_append, List.nil_append]

theorem stack_snoc (d : Deed s) :
    (⟨rest, .idle, done ++ [d]⟩ : Worker s).stack =
      [.script none (rest.map Errand.step) (done.map Deed.answer ++ [d.answer])] := by
  simp only [Worker.stack, Job.frames, List.map_append, List.map_cons, List.map_nil,
    List.nil_append]

/-- **The next command is submitted**: its operation gets its entry. -/
theorem advance_submit {name : String} {x : Worker s} (hx : x = ⟨.submit name :: rest, .idle, done⟩)
    (h : w.Tally s.correlator s.verdict (x.stages ++ others))
    (hroom : w.operations.length < Allocator.fullTurn) :
    ∃ v y, advance w x.stack = some (v, y.stack) ∧ Proceeds others w x v y := by
  subst hx
  obtain ⟨d, t, hc, hregister, htally⟩ := h.enter hroom name w.submittedCount
  have hadvance : advance w (⟨.submit name :: rest, .idle, done⟩ : Worker s).stack =
      some (w.enter name (.continuation w.submittedCount []) (nth w.operations.length) t,
        (⟨rest, .calling w.operations.length name, done⟩ : Worker s).stack) := by
    show some (Step.begin w none _ (.submit name s.reaction [] [])) = _
    simp only [Step.begin, withCorrelator, hc, register, hregister, h.submittedCount]
    rfl
  refine ⟨_, _, hadvance, htally.perm ?_, rfl, ?_⟩
  · exact (stages_perm ⟨rest, .calling w.operations.length name, done⟩ rfl).symm
  · rw [World.operations_enter, List.length_append, left, left, List.countP_cons_of_pos rfl]
    simp only [List.length_cons, List.length_nil]
    omega

/-- **A completion arrives**: the entry is taken out. -/
theorem advance_deliver {accepted : s.Accepts id} {x : Worker s}
    (hx : x = ⟨.deliver id accepted :: rest, .idle, done⟩)
    (h : w.Tally s.correlator s.verdict (x.stages ++ others))
    (hfits : w.operations.length ≤ Allocator.fullTurn) :
    ∃ v y, advance w x.stack = some (v, y.stack) ∧ Proceeds others w x v y := by
  have hstages : x.job.stages ++ x.rest.flatMap Errand.stages =
      (id, .held) :: rest.flatMap Errand.stages := by
    rw [hx]
    rfl
  obtain ⟨d, e, hc, hfind, howner, htally⟩ := (h.perm (stages_perm x hstages)).take hfits
  subst hx
  have hstatuses : d.statuses = s.correlator.statuses := by
    rw [← h.statuses, World.statuses, hc]
  have hremove : d.table.remove (nth id) = some (e, d.table.erase (nth id)) := by
    rw [PendingTable.remove, hfind]
    rfl
  have hadvance : advance w (⟨.deliver id accepted :: rest, .idle, done⟩ : Worker s).stack =
      some (w.setTable (d.table.erase (nth id)),
        (⟨rest, .resolving id (.delivery e accepted), done⟩ : Worker s).stack) := by
    show some (Step.begin w none _
      (.deliver (.handle (nth id)) (s.status (nth id)) (s.payload (nth id)))) = _
    simp only [Step.begin, withCorrelator, hc, withTarget, Target.resolve, complete, hremove,
      howner, hstatuses, Worker.stack, Job.frames, Scenario.verdict, if_pos accepted]
    rfl
  refine ⟨_, _, hadvance, htally.perm ?_, rfl, ?_⟩
  · exact (stages_perm ⟨rest, .resolving id (.delivery e accepted), done⟩ rfl).symm
  · rw [World.operations_setTable, left, left, List.countP_cons_of_neg (by simp [Errand.isSubmit])]

/-- **The native function returns**: the command is issued, or the entry is taken out. -/
theorem advance_calling {name : String} {x : Worker s} (hx : x = ⟨rest, .calling id name, done⟩)
    (h : w.Tally s.correlator s.verdict (x.stages ++ others))
    (hfits : w.operations.length ≤ Allocator.fullTurn) :
    ∃ v y, advance w x.stack = some (v, y.stack) ∧ Proceeds others w x v y := by
  have hstages : x.job.stages ++ x.rest.flatMap Errand.stages =
      (id, .held) :: rest.flatMap Errand.stages := by
    rw [hx]
    rfl
  have hheld := h.perm (stages_perm x hstages)
  subst hx
  have hreturned : advance w (⟨rest, .calling id name, done⟩ : Worker s).stack =
      some (returned w id (.submit id) name (nth id) (s.reaction (nth id)) []
        [.script none (rest.map Errand.step) (done.map Deed.answer)]) := rfl
  by_cases accepted : s.Accepts id
  · have hstatus : s.reaction (nth id) = successStatus := accepted
    have hstage : (Deed.submitted (s := s) id name).stage = .held := if_pos accepted
    have hanswer : (Deed.submitted (s := s) id name).answer =
        .submitted id (.ok (nth id)) (some (nth id)) [] := by
      rw [Deed.answer, Scenario.receipt, if_pos accepted]
    refine ⟨w.note (.issued id name (nth id)), ⟨rest, .idle, done ++ [.submitted id name]⟩, ?_,
      ?_, ?_, rfl⟩
    · rw [hreturned, returned, if_pos hstatus, stack_snoc, hanswer]
      rfl
    · rw [stages_snoc, hstage]
      exact h.note rfl
    · exact plan_snoc _
  · have hstatus : ¬ s.reaction (nth id) = successStatus := accepted
    obtain ⟨d, e, hc, hfind, howner, htally⟩ := hheld.take hfits
    have hremove : d.table.removeOwned (nth id) id = some (d.table.erase (nth id)) := by
      rw [← howner]
      rw [← howner] at hfind
      exact PendingTable.removeOwned_of_find? hfind
    have hadvance : advance w (⟨rest, .calling id name, done⟩ : Worker s).stack =
        some (w.setTable (d.table.erase (nth id)),
          (⟨rest, .resolving id (.failure name accepted), done⟩ : Worker s).stack) := by
      rw [hreturned, returned, if_neg hstatus]
      simp only [hc, hremove, h.statuses, Worker.stack, Job.frames, Scenario.verdict,
        if_neg accepted]
      rfl
    refine ⟨_, _, hadvance, htally.perm ?_, rfl, ?_⟩
    · exact (stages_perm ⟨rest, .resolving id (.failure name accepted), done⟩ rfl).symm
    · rw [World.operations_setTable]
      rfl

/-- **The operation is resolved** with its verdict. -/
theorem advance_resolving {ending : Ending s id} {x : Worker s}
    (hx : x = ⟨rest, .resolving id ending, done⟩)
    (h : w.Tally s.correlator s.verdict (x.stages ++ others)) :
    ∃ v y, advance w x.stack = some (v, y.stack) ∧ Proceeds others w x v y := by
  have hstages : x.job.stages ++ x.rest.flatMap Errand.stages =
      (id, .taken) :: rest.flatMap Errand.stages := by
    rw [hx]
    rfl
  obtain ⟨o, number, honce, hlistener, htally⟩ :=
    (h.perm (stages_perm x hstages)).resolve ending.cause
  subst hx
  have hadvance : advance w (⟨rest, .resolving id ending, done⟩ : Worker s).stack =
      some (w.recordOutcome id (s.verdict id) ending.cause,
        (⟨rest, .running id ending, done⟩ : Worker s).stack) := by
    show some (resolve w id (s.verdict id) ending.cause ending.aftermath _) = _
    simp only [resolve, honce, hlistener]
    rfl
  refine ⟨_, _, hadvance, htally.perm ?_, rfl, ?_⟩
  · exact (stages_perm ⟨rest, .running id ending, done⟩ rfl).symm
  · rw [World.length_recordOutcome]
    rfl

/-- The continuation, which does nothing, has ended. -/
theorem advance_running {ending : Ending s id} {x : Worker s}
    (hx : x = ⟨rest, .running id ending, done⟩)
    (h : w.Tally s.correlator s.verdict (x.stages ++ others)) :
    ∃ v y, advance w x.stack = some (v, y.stack) ∧ Proceeds others w x v y := by
  subst hx
  have hadvance : advance w (⟨rest, .running id ending, done⟩ : Worker s).stack =
      some (w.note (.continued id []), (⟨rest, .concluding id ending, done⟩ : Worker s).stack) :=
    rfl
  exact ⟨_, _, hadvance, h.note rfl, rfl, rfl⟩

/-- **The errand is over**, and whoever sent the worker has the answer. -/
theorem advance_concluding {ending : Ending s id} {x : Worker s}
    (hx : x = ⟨rest, .concluding id ending, done⟩)
    (h : w.Tally s.correlator s.verdict (x.stages ++ others)) :
    ∃ v y, advance w x.stack = some (v, y.stack) ∧ Proceeds others w x v y := by
  subst hx
  obtain ⟨e, he, hadvance⟩ : ∃ e : Event, e.isNeutral = true ∧
      advance w (⟨rest, .concluding id ending, done⟩ : Worker s).stack =
        some (w.note e, [.script none (rest.map Errand.step)
          (done.map Deed.answer ++ [ending.deed.answer])]) := by
    cases ending with
    | failure name refused =>
      refine ⟨.failed id name (s.error id), rfl, ?_⟩
      simp only [Ending.deed, Deed.answer, Scenario.receipt, if_neg refused]
      rfl
    | delivery entry accepted =>
      exact ⟨.completed entry.owner entry.operation entry.handle (s.status (nth id)), rfl, rfl⟩
  rw [← stack_snoc] at hadvance
  refine ⟨_, _, hadvance, ?_, plan_snoc _, rfl⟩
  rw [stages_snoc, ending.stage_deed]
  exact h.note he

/-- **A section of a worker leaves a worker with the same errands**, and a worker without a next
section has run all of them. -/
theorem advance (x : Worker s) (h : w.Tally s.correlator s.verdict (x.stages ++ others))
    (hfits : w.operations.length + x.left ≤ Allocator.fullTurn) :
    (∃ done, x = ⟨[], .idle, done⟩) ∨
      ∃ v y, CommandBridge.advance w x.stack = some (v, y.stack) ∧ Proceeds others w x v y := by
  have hnow : w.operations.length ≤ Allocator.fullTurn := by omega
  obtain ⟨rest, job, done⟩ := x
  cases job with
  | idle =>
    cases rest with
    | nil => exact .inl ⟨done, rfl⟩
    | cons errand rest =>
      cases errand with
      | submit name =>
        rw [left, List.countP_cons_of_pos rfl] at hfits
        exact .inr (advance_submit rfl h (by omega))
      | deliver id accepted => exact .inr (advance_deliver rfl h hnow)
  | calling id name => exact .inr (advance_calling rfl h hnow)
  | resolving id ending => exact .inr (advance_resolving rfl h)
  | running id ending => exact .inr (advance_running rfl h)
  | concluding id ending => exact .inr (advance_concluding rfl h)

end Advance

end Worker

/-! ### A crew under a schedule -/

/-- Threads that are all workers, where nobody deals with the operations `others`.  There will be
`total` operations once every command is submitted. -/
structure Crew (workers : List (Worker s)) (others : List (OperationId × Stage)) (total : Nat)
    (t : Threads) : Prop where
  running : t.running = workers.map Worker.stack
  tally : t.world.Tally s.correlator s.verdict (workers.flatMap Worker.stages ++ others)
  total : t.world.operations.length + (workers.flatMap Worker.rest).countP Errand.isSubmit = total

namespace Crew

variable {workers : List (Worker s)} {others : List (OperationId × Stage)} {total : Nat}
  {t : Threads}

/-- What one worker of a crew can do next. -/
theorem next (h : Crew workers others total t) (hfits : total ≤ Allocator.fullTurn) {i : Nat}
    {x : Worker s} (hx : workers[i]? = some x) :
    (∃ done, x = ⟨[], .idle, done⟩) ∨
      ∃ v y, advance t.world x.stack = some (v, y.stack) ∧
        x.Proceeds ((workers.eraseIdx i).flatMap Worker.stages ++ others) t.world v y := by
  have hperm := (Threads.flatMap_running Worker.stages hx).append_right others
  rw [List.append_assoc] at hperm
  have htotal := h.total
  rw [(Threads.flatMap_running Worker.rest hx).countP_eq, List.countP_append] at htotal
  change _ + (x.left + _) = _ at htotal
  exact x.advance (h.tally.perm hperm) (by omega)

/-- **A section of any worker leaves a crew with the same errands.** -/
theorem move (h : Crew workers others total t) (hfits : total ≤ Allocator.fullTurn) (i : Nat) :
    ∃ workers' : List (Worker s), Crew workers' others total (t.move i) ∧
      workers'.map Worker.plan = workers.map Worker.plan := by
  rcases t.move_cases i with hsame | ⟨stack, v, stack', hi, hadvance, hmove⟩
  · rw [hsame]
    exact ⟨workers, h, rfl⟩
  rw [h.running, List.getElem?_map] at hi
  obtain ⟨x, hx, rfl⟩ := Option.map_eq_some_iff.mp hi
  rcases h.next hfits hx with ⟨done, rfl⟩ | ⟨v', y, hnext, hproceeds⟩
  · cases hadvance
  cases hadvance.symm.trans hnext
  have hself : workers.set i x = workers := by
    obtain ⟨hlt, rfl⟩ := List.getElem?_eq_some_iff.mp hx
    exact List.set_getElem_self hlt
  refine ⟨workers.set i y, ⟨?_, ?_, ?_⟩, ?_⟩
  · rw [hmove, h.running, List.map_set]
  · rw [hmove]
    refine hproceeds.tally.perm ?_
    rw [← List.append_assoc]
    exact (Threads.flatMap_running_set Worker.stages hx y).symm.append_right others
  · have hbefore := h.total
    have hnow := hproceeds.total
    rw [(Threads.flatMap_running Worker.rest hx).countP_eq, List.countP_append] at hbefore
    rw [hmove, (Threads.flatMap_running_set Worker.rest hx y).countP_eq, List.countP_append]
    change _ + (x.left + _) = total at hbefore
    show v.operations.length + (y.left + _) = total
    omega
  · rw [List.map_set, hproceeds.plan, ← List.map_set, hself]

/-- **Every schedule leaves a crew with the same errands.** -/
theorem follow (h : Crew workers others total t) (hfits : total ≤ Allocator.fullTurn)
    (schedule : List Nat) :
    ∃ workers' : List (Worker s), Crew workers' others total (t.follow schedule) ∧
      workers'.map Worker.plan = workers.map Worker.plan := by
  induction schedule generalizing t workers with
  | nil => exact ⟨workers, h, rfl⟩
  | cons i schedule ih =>
    obtain ⟨workers₁, hcrew₁, hplan₁⟩ := h.move hfits i
    obtain ⟨workers₂, hcrew₂, hplan₂⟩ := ih hcrew₁
    exact ⟨workers₂, hcrew₂, hplan₂.trans hplan₁⟩

/-- **Workers that have no more to do have run all their errands.** -/
theorem ended (h : Crew workers others total t) (hfits : total ≤ Allocator.fullTurn)
    (hend : ∀ stack ∈ t.running, advance t.world stack = none) :
    ∃ deeds : List (List (Deed s)),
      t.running = deeds.map (fun done => [.script none [] (done.map Deed.answer)]) ∧
      t.world.Tally s.correlator s.verdict
        (deeds.flatten.map (fun d => (d.id, d.stage)) ++ others) ∧
      t.world.operations.length = total ∧
      deeds.map (List.map Deed.errand) = workers.map Worker.plan := by
  have hidle : ∀ x ∈ workers, x = ⟨[], .idle, x.done⟩ := by
    intro x hx
    obtain ⟨i, hi⟩ := List.mem_iff_getElem?.mp hx
    rcases h.next hfits hi with ⟨done, rfl⟩ | ⟨v, y, hnext, -⟩
    · rfl
    · have hnone := hend x.stack (h.running ▸ List.mem_map_of_mem hx)
      rw [hnone] at hnext
      cases hnext
  have hrest : workers.flatMap Worker.rest = [] := by
    refine List.flatMap_eq_nil_iff.mpr (fun x hx => ?_)
    rw [hidle x hx]
  refine ⟨workers.map Worker.done, ?_, ?_, ?_, ?_⟩
  · rw [h.running, List.map_map]
    refine List.map_congr_left (fun x hx => ?_)
    rw [hidle x hx]
    rfl
  · have hstages : workers.flatMap Worker.stages =
        (workers.map Worker.done).flatten.map (fun d => (d.id, d.stage)) := by
      rw [List.map_flatten, List.map_map, List.flatMap_def]
      refine congrArg List.flatten (List.map_congr_left (fun x hx => ?_))
      rw [hidle x hx]
      exact List.append_nil _
    rw [← hstages]
    exact h.tally
  · have htotal := h.total
    rw [hrest] at htotal
    exact htotal
  · rw [List.map_map]
    refine List.map_congr_left (fun x hx => ?_)
    rw [hidle x hx]
    exact (List.append_nil _).symm

end Crew

end CommandBridge

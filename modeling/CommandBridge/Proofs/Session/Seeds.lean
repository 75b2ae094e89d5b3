import CommandBridge.Proofs.Session.Section

/-!
# Where the counter can be set

A `seed` step sets the handle to give out next.  Handles are positive, so a session is set up
properly if all its seeds are.  Seeds may be hidden inside other steps, and a section moves steps
from where they are to where they wait; it never makes new ones.

* `Step.seeds`, `Step.seedsIn` — the counters that a step, or a list of steps, may set;
* `Stack.seeds`, `World.seeds` — those that a thread and the continuations of a state may set;
* `Section.seeds_subset` — a section brings in none that was not there.
-/

namespace CommandBridge

mutual

/-- The counters that a step may set, those of the steps inside it included. -/
def Step.seeds : Step → List Int32
  | .submit _ _ during onward => Step.seedsIn during ++ Step.seedsIn onward
  | .issue _ _ _ during => Step.seedsIn during
  | .command _ _ during => Step.seedsIn during
  | .runtimeConfig _ _ during => Step.seedsIn during
  | .seed next => [next]
  | _ => []

/-- The counters that a list of steps may set. -/
def Step.seedsIn : List Step → List Int32
  | [] => []
  | s :: rest => s.seeds ++ Step.seedsIn rest

end

/-- Without seeds, all seeds are handles. -/
theorem Step.seeds_pos_of_nil {steps : List Step} (h : Step.seedsIn steps = []) :
    ∀ n ∈ Step.seedsIn steps, 0 < n := by
  rw [h]
  exact List.forall_mem_nil _

theorem Step.seeds_pos_of_flatMap {scripts : List (List Step)}
    (h : scripts.flatMap Step.seedsIn = []) :
    ∀ steps ∈ scripts, ∀ n ∈ Step.seedsIn steps, 0 < n := by
  intro steps hsteps
  exact seeds_pos_of_nil (List.flatMap_eq_nil_iff.mp h steps hsteps)

/-- The counters that a continuation may set. -/
def Listener.seeds : Listener → List Int32
  | .continuation _ steps => Step.seedsIn steps
  | .caller _ _ => []

/-- The counters that a frame may set. -/
def Frame.seeds : Frame → List Int32
  | .script _ rest _ => Step.seedsIn rest
  | _ => []

/-- The counters that a thread may set. -/
def Stack.seeds (stack : Stack) : List Int32 :=
  stack.flatMap Frame.seeds

/-- The counters that the continuations of a state may set. -/
def World.seeds (w : World) : List Int32 :=
  w.operations.flatMap (fun o => o.listener.seeds)

namespace Stack

@[simp] theorem seeds_cons (f : Frame) (stack : Stack) :
    seeds (f :: stack) = f.seeds ++ seeds stack := rfl

@[simp] theorem seeds_reply (a : Answer) (stack : Stack) : seeds (reply a stack) = seeds stack := by
  cases stack with
  | nil => rfl
  | cons f below => cases f <;> rfl

@[simp] theorem seeds_sweepOn (w : World) (rest : List Entry) (expired : List CommandHandle)
    (age : Duration) (below : Stack) :
    seeds (sweepOn w rest expired age below).2 = seeds below := by
  cases rest with
  | nil => exact seeds_reply _ below
  | cons e rest => rfl

@[simp] theorem seeds_shutdownOn (w : World) (rest : List Entry) (count : Nat) (below : Stack) :
    seeds (shutdownOn w rest count below).2 = seeds below := by
  cases rest with
  | nil => exact seeds_reply _ below
  | cons e rest => rfl

@[simp] theorem seeds_dropOn (w : World) (rest : List Entry) (below : Stack) :
    seeds (dropOn w rest below).2 = seeds below := by
  cases rest with
  | nil => exact seeds_reply _ below
  | cons e rest => rfl

end Stack

theorem Done.seeds {stack below : Stack} {answers : List Answer} (h : Done stack answers below) :
    stack.seeds = below.seeds := by
  cases h <;> rfl

namespace World

variable {w v : World}

theorem seeds_congr (h : v.operations = w.operations) : v.seeds = w.seeds := by
  simp only [seeds, h]

@[simp] theorem seeds_setTable (w : World) (t : PendingTable) : (w.setTable t).seeds = w.seeds := by
  unfold setTable
  split <;> rfl

@[simp] theorem seeds_note (w : World) (e : Event) : (w.note e).seeds = w.seeds := rfl

@[simp] theorem seeds_installDefault (w : World) : w.installDefault.seeds = w.seeds := by
  unfold installDefault
  split <;> rfl

@[simp] theorem seeds_begin (w : World) (name : String) (listener : Listener) :
    (w.begin name listener).seeds = w.seeds ++ listener.seeds := by
  simp only [seeds, begin, List.flatMap_append, List.flatMap_cons, List.flatMap_nil,
    List.append_nil]

/-- What every listener of a list keeps, the whole list keeps. -/
theorem flatMap_seeds_modify (operations : List Operation) (id : OperationId)
    (f : Operation → Operation) (h : ∀ o, (f o).listener.seeds = o.listener.seeds) :
    (operations.modify id f).flatMap (fun o => o.listener.seeds) =
      operations.flatMap (fun o => o.listener.seeds) := by
  induction operations generalizing id with
  | nil => cases id <;> rfl
  | cons o rest ih =>
    cases id with
    | zero => simp only [List.modify_zero_cons, List.flatMap_cons, h]
    | succ id => simp only [List.modify_succ_cons, List.flatMap_cons, ih]

@[simp] theorem seeds_setOutcome (w : World) (id : OperationId) (outcome : Outcome) :
    (w.setOutcome id outcome).seeds = w.seeds :=
  flatMap_seeds_modify _ _ _ (fun _ => rfl)

@[simp] theorem seeds_enter (w : World) (name : String) (listener : Listener) (h : CommandHandle)
    (t : PendingTable) : (w.enter name listener h t).seeds = w.seeds ++ listener.seeds := by
  rw [enter, seeds_note, seeds_setTable, seeds_begin]

@[simp] theorem seeds_recordOutcome (w : World) (id : OperationId) (outcome : Outcome)
    (cause : Cause) : (w.recordOutcome id outcome cause).seeds = w.seeds :=
  seeds_setOutcome w id outcome

theorem Quiet.seeds (h : w.Quiet v) : v.seeds = w.seeds := by
  rcases h.operations with hsame | ⟨id, hmodify⟩
  · exact seeds_congr hsame
  · rw [World.seeds, hmodify]
    refine flatMap_seeds_modify _ _ _ (fun o => ?_)
    cases o.listener <;> rfl

/-- The continuation of an operation is part of the state. -/
theorem mem_seeds_of_listener {id : OperationId} {o : Operation} (hid : w.operations[id]? = some o)
    {n : Int32} (hn : n ∈ o.listener.seeds) : n ∈ w.seeds :=
  List.mem_flatMap.mpr ⟨o, List.mem_of_getElem? hid, hn⟩

end World

/-- A registration moves the steps inside the step. -/
theorem Step.seeds_registration? {w : World} {s : Step} {r : Registration}
    (hr : s.registration? w = some r) :
    ∀ n ∈ r.listener.seeds ++ Step.seedsIn r.during, n ∈ s.seeds := by
  intro n hn
  cases s with
  | submit operation reply during onward =>
    cases hr
    simp only [Listener.seeds, List.mem_append] at hn
    simp only [Step.seeds, List.mem_append]
    exact hn.symm
  | issue shape operation reply during =>
    cases hr
    simpa only [Listener.seeds, List.nil_append, Step.seeds] using hn
  | command cmd reply during =>
    simp only [Step.registration?] at hr
    split at hr
    · cases hr
    · cases hr
      simpa only [Listener.seeds, List.nil_append, Step.seeds] using hn
  | _ => cases hr

theorem World.seeds_of_readied {w v : World} (hv : v = w ∨ v = w.installDefault) :
    v.seeds = w.seeds := by
  rcases hv with rfl | rfl
  · rfl
  · exact World.seeds_installDefault w

/-- The first section of a step brings in no seed that the step did not have. -/
theorem Step.Begins.seeds_subset {w v : World} {self : Option CommandHandle} {below stack : Stack}
    {s : Step} (h : s.Begins w self below v stack) :
    ∀ n ∈ v.seeds ++ stack.seeds, n ∈ w.seeds ∨ n ∈ s.seeds ∨ n ∈ below.seeds := by
  intro n hn
  rw [List.mem_append] at hn
  cases h with
  | answered hv _ =>
    rw [hv.seeds, Stack.seeds_reply] at hn
    exact hn.imp_right .inr
  | installed _ _ hv _ =>
    rw [hv.seeds, Stack.seeds_reply] at hn
    exact hn.imp_right .inr
  | seeded hc =>
    rw [World.seeds_setTable, Stack.seeds_reply] at hn
    exact hn.imp_right .inr
  | accepted hr hv _ _ =>
    rw [(World.quiet_handOver _ _ _).seeds, World.seeds_enter, World.seeds_of_readied hv,
      List.mem_append, Stack.seeds_cons, Stack.seeds_cons, List.mem_append, List.mem_append] at hn
    rcases hn with (hw | hl) | hd | hn | hb
    · exact .inl hw
    · exact .inr (.inl (Step.seeds_registration? hr n (List.mem_append_left _ hl)))
    · exact .inr (.inl (Step.seeds_registration? hr n (List.mem_append_right _ hd)))
    · cases hn
    · exact .inr (.inr hb)
  | refused hr hv _ _ =>
    rw [World.seeds_begin, World.seeds_of_readied hv, List.mem_append] at hn
    rcases hn with (hw | hl) | hb
    · exact .inl hw
    · exact .inr (.inl (Step.seeds_registration? hr n (List.mem_append_left _ hl)))
    · exact .inr (.inr hb)
  | completed _ hv _ _ =>
    rw [World.seeds_setTable] at hn
    rcases hv with rfl | ⟨m, rfl⟩
    · exact hn.imp_right .inr
    · exact hn.imp_right .inr
  | expired _ _ _ => exact hn.imp_right .inr
  | swept _ _ =>
    rw [(World.quiet_sweepOn ..).seeds, Stack.seeds_sweepOn] at hn
    exact hn.imp_right .inr
  | shutDown _ =>
    rw [(World.quiet_shutdownOn ..).seeds, World.seeds_setTable, Stack.seeds_shutdownOn] at hn
    exact hn.imp_right .inr
  | dropped _ _ hv _ =>
    rw [(World.quiet_dropOn ..).seeds, hv.seeds, Stack.seeds_dropOn] at hn
    exact hn.imp_right .inr
  | gaveUp _ _ _ _ => exact hn.imp_right .inr
  | configured =>
    rcases hn with hw | hb
    · exact .inl hw
    · rw [Stack.seeds_cons, Stack.seeds_cons, List.mem_append, List.mem_append] at hb
      rcases hb with hd | hn | hb
      · exact .inr (.inl (by rw [Step.seeds]; exact hd))
      · cases hn
      · exact .inr (.inr hb)

/-- **A section brings in no seed that was not there.** -/
theorem Section.seeds_subset {w v : World} {stack stack' : Stack} (h : Section w stack v stack') :
    ∀ n ∈ v.seeds ++ stack'.seeds, n ∈ w.seeds ++ stack.seeds := by
  intro n hn
  rw [List.mem_append] at hn ⊢
  cases h with
  | @began _ s rest _ _ _ _ h =>
    rcases h.seeds_subset n (List.mem_append.mpr hn) with hw | hs | hb
    · exact .inl hw
    · refine .inr (List.mem_append_left _ ?_)
      exact List.mem_append_left _ hs
    · rw [Stack.seeds_cons, List.mem_append] at hb ⊢
      refine .inr (hb.imp_left (fun hr => ?_))
      exact List.mem_append_right s.seeds hr
  | left _ => exact hn
  | issued hdone =>
    rw [(World.quiet_settle ..).seeds, Stack.seeds_reply] at hn
    rwa [hdone.seeds]
  | failed hdone _ _ _ =>
    rw [World.seeds_setTable] at hn
    rwa [hdone.seeds]
  | failedLate hdone _ _ =>
    rw [(World.quiet_settle ..).seeds, Stack.seeds_reply] at hn
    rwa [hdone.seeds]
  | configured hdone =>
    rw [Stack.seeds_reply] at hn
    rwa [hdone.seeds]
  | continued hdone => rwa [hdone.seeds]
  | passed _ => exact hn
  | ran hid _ hlistener =>
    rw [World.seeds_recordOutcome, Stack.seeds_cons, List.mem_append] at hn
    rcases hn with hw | hsteps | hb
    · exact .inl hw
    · refine .inl (World.mem_seeds_of_listener hid ?_)
      rw [hlistener]
      exact hsteps
    · exact .inr hb
  | told _ _ _ hv _ =>
    rw [hv.seeds, World.seeds_recordOutcome] at hn
    exact hn
  | refused =>
    rw [(World.quiet_settle ..).seeds, Stack.seeds_reply] at hn
    exact hn
  | failedNow =>
    rw [(World.quiet_settle ..).seeds, Stack.seeds_reply] at hn
    exact hn
  | answered _ hv _ =>
    rw [hv.seeds, Stack.seeds_reply] at hn
    exact hn
  | sweptOn =>
    rw [(World.quiet_sweepOn ..).seeds, Stack.seeds_sweepOn] at hn
    exact hn
  | shutDownOn =>
    rw [(World.quiet_shutdownOn ..).seeds, Stack.seeds_shutdownOn] at hn
    exact hn
  | droppedOn =>
    rw [(World.quiet_dropOn ..).seeds, Stack.seeds_dropOn] at hn
    exact hn

end CommandBridge

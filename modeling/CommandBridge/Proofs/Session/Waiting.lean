import CommandBridge.Proofs.Session.Channel
import CommandBridge.Proofs.Session.Meanwhile

/-!
# Waiting with a limit

A caller waits for its call, and when its time is up it attempts to resolve the operation itself.
Whatever other threads do before the wait, during it, and between the limit and the attempt, the
caller gets the one outcome of the operation.

* `Step.wait?` — the call that a step waits for, and for how long;
* `Threads.HandedOut` — a call that its caller has, for good;
* `Threads.Yields` — a wait is over;
* `Frame.Bears`, `Threads.Kept` — who else than the caller can still resolve the operation;
* `Threads.GaveUp` — the caller's attempt was the one that counted;
* `Threads.timeout_exact` — **a wait with a limit never disagrees with the correlator**.
-/

namespace CommandBridge

/-! ### Waits -/

/-- The call that a step waits for, and for how long at most.  A step that waits for the default
time is not taken without a correlator; then the call can be waited for with the same limit. -/
def Step.wait? (w : World) : Step → Option (PendingCall × Duration)
  | .timeout n limit => (w.call? n).map fun call => (call, limit)
  | .defaultTimeout n =>
    match w.correlator with
    | .present _ =>
      (w.call? n).bind fun call => call.defaultTimeout.map fun limit => (call, limit)
    | .absent _ => none
  | _ => none

section

variable {w : World} {call : PendingCall} {limit : Duration} {id : OperationId}

/-- Waiting for the default time is waiting with a limit. -/
theorem Step.begin_of_wait {s : Step} (h : s.wait? w = some (call, limit)) :
    ∃ n, w.call? n = some call ∧
      ∀ self below, s.begin w self below = waitFor (w.useUp n) call limit below := by
  cases s with
  | timeout n time =>
    obtain ⟨call', hcall, heq⟩ := Option.map_eq_some_iff.mp h
    cases heq
    exact ⟨n, hcall, fun self below => by simp only [begin, withCall, hcall]⟩
  | defaultTimeout n =>
    simp only [wait?] at h
    split at h
    · next c hc =>
      obtain ⟨call', hcall, hdefault⟩ := Option.bind_eq_some_iff.mp h
      obtain ⟨time, htime, heq⟩ := Option.map_eq_some_iff.mp hdefault
      cases heq
      refine ⟨n, hcall, fun self below => ?_⟩
      simp only [begin, withCorrelator, hc, withCall, hcall, htime]
    · cases h
  | _ => cases h

/-- A call whose operation is resolved shows its outcome. -/
theorem resultAnswer_of_outcome (hsource : call.source = .operation id) {outcome : Outcome}
    (ho : w.outcome? id = some outcome) :
    resultAnswer w call = .result call.shape (call.shape.result outcome) := by
  have hresult : w.result? call = some (call.shape.result outcome) := by
    simp only [World.result?, hsource, ho, Option.map_some]
  simp only [resultAnswer, hresult]

/-- Waiting for an operation that is resolved is over at once, whatever the limit. -/
theorem waitFor_of_resolved (hsource : call.source = .operation id) {outcome : Outcome}
    (ho : w.outcome? id = some outcome) (limit : Duration) (below : Stack) :
    waitFor w call limit below =
      (w, reply (.result call.shape (call.shape.result outcome)) below) := by
  have hresult : w.result? call = some (call.shape.result outcome) := by
    simp only [World.result?, hsource, ho, Option.map_some]
  simp only [waitFor, hresult, resultAnswer_of_outcome hsource ho, answer]

/-- Else the caller is going to resolve it. -/
theorem waitFor_of_open (hsource : call.source = .operation id) (hopen : w.outcome? id = none)
    (limit : Duration) (below : Stack) :
    waitFor w call limit below =
      (w, .resolve id (.error (.timeoutOf call.handle)) (.gaveUp call.handle)
        (.giveUp call limit) :: below) := by
  have hresult : w.result? call = none := by
    simp only [World.result?, hsource, hopen, Option.map_none]
  simp only [waitFor, hresult, hsource]

/-- An attempt to resolve an unresolved operation with a caller counts, and the caller is told. -/
theorem resolve_of_hears (hhears : w.Hears id) (hopen : w.outcome? id = none) (outcome : Outcome)
    (cause : Cause) (after : Aftermath) (below : Stack) :
    ∃ v, (w.recordOutcome id outcome cause).Quiet v ∧
      resolve w id outcome cause after below = (v, .conclude after true :: below) := by
  obtain ⟨o, shape, isListening, hid, hlistener⟩ := hhears
  have hunset : o.outcome = none := by
    simpa only [World.outcome?, hid, Option.bind_some] using hopen
  cases isListening with
  | true =>
    refine ⟨_, .refl _, ?_⟩
    simp only [resolve, World.resolveOnce, hid, hunset, Option.isNone_none, hlistener, if_true]
    rfl
  | false =>
    refine ⟨_, World.quiet_note (e := .unheard id o.name) _ rfl, ?_⟩
    simp only [resolve, World.resolveOnce, hid, hunset, Option.isNone_none, hlistener, if_true]
    rfl

end

/-! ### Whoever has the entry -/

theorem Stack.owed_flatten (running : List Stack) :
    Stack.owed running.flatten = running.flatMap Stack.owed := by
  induction running with
  | nil => rfl
  | cons stack running ih =>
    rw [List.flatten_cons, List.flatMap_cons, ← ih]
    exact List.flatMap_append

/-- A delivery, a shutdown, or the giving up of the correlator. -/
def Aftermath.takesOut : Aftermath → Bool
  | .deliver _ _ _ => true
  | .shutdown _ _ => true
  | .drop _ => true
  | _ => false

/-- A delivery, a shutdown or the giving up of the correlator has taken out the entry of the
operation and is on the way to resolve it: now, or later because of the entries before. -/
inductive Frame.Bears (id : OperationId) : Frame → Prop
  | now {outcome : Outcome} {cause : Cause} {after : Aftermath} (h : after.takesOut = true) :
      Bears id (.resolve id outcome cause after)
  | resolving {other : OperationId} {outcome : Outcome} {cause : Cause} {after : Aftermath}
      (h : id ∈ after.owed) : Bears id (.resolve other outcome cause after)
  | continuing {other : OperationId} {after : Aftermath} (h : id ∈ after.owed) :
      Bears id (.continuation other after)
  | concluding {after : Aftermath} {ran : Bool} (h : id ∈ after.owed) :
      Bears id (.conclude after ran)

/-- Only a registration under way owes an operation in another way. -/
theorem Frame.Enrols.bears {w : World} {f : Frame} {id : OperationId} (h : f.Enrols w)
    (howed : id ∈ f.owed) (hout : id ∉ f.registering) : f.Bears id := by
  cases f with
  | resolve other outcome cause after =>
    by_cases hlater : id ∈ after.owed
    · exact .resolving hlater
    · rw [Frame.owed] at howed
      split at howed
      · next htaken =>
        rcases List.mem_cons.mp howed with rfl | hmem
        · cases after with
          | refuse registered ticket error =>
            exact absurd (List.mem_singleton.mpr h.1.symm) hout
          | fail registered ticket operation handle error during =>
            exact absurd (List.mem_singleton.mpr h.1.symm) hout
          | deliver entry status receipt => exact .now rfl
          | shutdown rest count => exact .now rfl
          | drop rest => exact .now rfl
          | expire handle => cases htaken
          | sweep handle rest expired age => cases htaken
          | giveUp call limit => cases htaken
        · exact absurd hmem hlater
      · exact absurd howed hlater
  | continuation other after => exact .continuing howed
  | conclude after ran => exact .concluding howed
  | _ => cases howed

namespace Threads

variable {c : Correlator} {t u v : Threads} {i : Nat} {call : PendingCall} {id : OperationId}

/-! ### Calls handed out -/

/-- The operation is registered, and its call is the caller's. -/
structure HandedOut (t : Threads) (call : PendingCall) (id : OperationId) : Prop where
  source : call.source = .operation id
  registered : t.Registered id
  enrolled : call.Enrolled t.world

namespace HandedOut

theorem hears (h : t.HandedOut call id) : t.world.Hears id :=
  (h.enrolled id h.source).1

theorem move (h : t.HandedOut call id) (ht : t.InOrder c) (i : Nat) :
    (t.move i).HandedOut call id := by
  refine ⟨h.source, h.registered.move ht.enrolled ht.regular.sound i, ?_⟩
  rcases move_cases t i with hsame | ⟨stack, w, stack', -, hadvance, hmove⟩
  · rw [hsame]
    exact h.enrolled
  · rw [hmove]
    exact h.enrolled.later (section_of_advance hadvance).effect

theorem follow (h : t.HandedOut call id) (ht : t.InOrder c) (schedule : List Nat) :
    (t.follow schedule).HandedOut call id := by
  induction schedule generalizing t with
  | nil => exact h
  | cons i schedule ih => exact ih (h.move ht i) (ht.move i)

theorem meanwhile (h : t.HandedOut call id) (ht : t.InOrder c) (hu : Meanwhile i t u) :
    u.HandedOut call id := by
  obtain ⟨others, -, rfl⟩ := hu
  exact h.follow ht others

end HandedOut

/-! ### The end of a wait -/

/-- The channel of an operation. -/
def channel (t : Threads) (id : OperationId) : Channel :=
  t.world.channel t.running.flatten id

theorem InOrder.channel_ne_closed (h : t.InOrder c) (hid : id < t.world.operations.length) :
    t.channel id ≠ .closed := by
  refine World.Sound.channel_ne_closed ?_ hid
  rw [Stack.owed_flatten]
  exact h.regular.sound.world

/-- A wait is over.  The caller has what the call makes of the outcome of its operation, which was
resolved with this outcome, once and for good. -/
structure Yields (t : Threads) (c : Correlator) (i : Nat) (base : Stack) (call : PendingCall)
    (id : OperationId) (outcome : Outcome) : Prop where
  answered : t.running[i]? =
    some (reply (.result call.shape (call.shape.result outcome)) base)
  settled : ∀ schedule, (t.follow schedule).world.outcome? id = some outcome ∧
    (t.follow schedule).world.timesRun id = 1
  cause : ∃ cause, .resolved id outcome cause ∈ t.world.journal ∧
    outcome = cause.outcome c.statuses
  neverAbandoned : ∀ handle, call.shape.result outcome ≠ .error (.abandoned handle)

theorem InOrder.yields (h : t.InOrder c) {base : Stack} {outcome : Outcome}
    (hanswer : t.running[i]? =
      some (reply (.result call.shape (call.shape.result outcome)) base))
    (ho : t.world.outcome? id = some outcome) : t.Yields c i base call id outcome := by
  obtain ⟨cause, hnoted⟩ := h.regular.exists_cause ho
  obtain ⟨-, hbrought, -⟩ := h.regular.recorded id outcome cause hnoted
  refine ⟨hanswer, fun schedule => ?_, ⟨cause, hnoted, hbrought⟩, fun handle heq => ?_⟩
  · have hlater := (precedes_follow t schedule).outcome id outcome ho
    refine ⟨hlater, ?_⟩
    rw [(h.follow schedule).regular.sound.world.runs, hlater]
    rfl
  · cases outcome with
    | ok payload => exact Shape.decode_ne_abandoned call.shape payload handle heq
    | error e =>
      rw [Except.error.inj heq] at hbrought
      exact Cause.outcome_ne_abandoned c.statuses cause handle hbrought.symm

/-- Whoever resolved the operation, the caller has its outcome once the attempt is over. -/
theorem InOrder.concluded (h : t.InOrder c) (hsource : call.source = .operation id)
    {outcome : Outcome} (ho : t.world.outcome? id = some outcome) {limit : Duration} {ran : Bool}
    {base : Stack} (hi : t.running[i]? = some (.conclude (.giveUp call limit) ran :: base)) :
    (t.move i).world = (if ran then t.world.note (.gaveUp call.handle limit) else t.world) ∧
      (t.move i).Yields c i base call id outcome := by
  obtain ⟨hworld, hrunning⟩ := move_of_conclude hi
  have hstill : (conclude t.world ran base (.giveUp call limit)).1.outcome? id = some outcome := by
    cases ran
    · exact ho
    · exact ho
  refine ⟨hworld, (h.move i).yields ?_ ?_⟩
  · rw [hrunning, ← resultAnswer_of_outcome hsource hstill]
    rfl
  · rw [hworld]
    exact hstill

/-! ### The caller gives up -/

/-- The entry of the operation, or someone who has taken it out and is on the way to resolve the
operation, keeps its resolver alive. -/
def Kept (t : Threads) (id : OperationId) : Prop :=
  (∃ h, t.world.Holds id h) ∨ ∃ stack ∈ t.running, ∃ f ∈ stack, f.Bears id

theorem InOrder.exists_bears (h : t.InOrder c) (hregistered : t.Registered id)
    (howed : id ∈ t.owed) : ∃ stack ∈ t.running, ∃ f ∈ stack, f.Bears id := by
  obtain ⟨stack, hstack, hmem⟩ := List.mem_flatMap.mp howed
  obtain ⟨f, hf, hmem⟩ := List.mem_flatMap.mp hmem
  refine ⟨stack, hstack, f, hf, (h.enrolled.frames stack hstack f hf).bears hmem fun hout => ?_⟩
  refine hregistered.2 (List.mem_flatMap.mpr ⟨stack, hstack, ?_⟩)
  exact List.mem_flatMap.mpr ⟨f, hf, hout⟩

/-- Until a registered operation is resolved, its resolver is alive. -/
theorem InOrder.kept (h : t.InOrder c) (hregistered : t.Registered id)
    (hopen : t.world.outcome? id = none) : t.Kept id := by
  rcases List.mem_append.mp (h.regular.sound.world.covered id hregistered.1 hopen) with
    hentry | howed
  · exact .inl (h.regular.sound.world.holds_of_mem_owners hentry)
  · exact .inr (h.exists_bears hregistered howed)

/-- The caller's attempt is the one that counts.  It leaves the table alone: the entry is still
there, unless someone has taken it out before and is on the way to resolve the operation.  From now
on the operation is passed over. -/
structure GaveUp (t : Threads) (i : Nat) (call : PendingCall) (id : OperationId) : Prop where
  outcome : (t.move i).world.outcome? id = some (.error (.timeoutOf call.handle))
  noted : .resolved id (.error (.timeoutOf call.handle)) (.gaveUp call.handle) ∈
    (t.move i).world.journal
  correlator : (t.move i).world.correlator = t.world.correlator
  entry : (∃ h, call.handle = some h ∧ (t.move i).world.Holds id h) ∨
    ∃ stack ∈ (t.move i).running, ∃ f ∈ stack, f.Bears id
  passedOver : ∀ schedule, ((t.move i).follow schedule).PassedOver id

/-- **A caller who comes first gives up**, and goes on to say so. -/
theorem InOrder.gaveUp (h : t.InOrder c) (hcall : t.HandedOut call id) {limit : Duration}
    {base : Stack} (hopen : t.world.outcome? id = none)
    (hi : t.running[i]? = some (.resolve id (.error (.timeoutOf call.handle))
      (.gaveUp call.handle) (.giveUp call limit) :: base)) :
    t.GaveUp i call id ∧
      (t.move i).running[i]? = some (.conclude (.giveUp call limit) true :: base) := by
  obtain ⟨w, hquiet, hresolve⟩ := resolve_of_hears hcall.hears hopen
    (.error (.timeoutOf call.handle)) (.gaveUp call.handle) (.giveUp call limit) base
  obtain ⟨hworld, hrunning⟩ := move_of_resolve hi
  rw [hresolve] at hworld hrunning
  have hset : (t.move i).world.outcome? id = some (.error (.timeoutOf call.handle)) := by
    obtain ⟨o, -, -, hid, -⟩ := hcall.hears
    rw [hworld, hquiet.outcome?, World.outcome?_recordOutcome hid, if_pos rfl]
  have hcorrelator : (t.move i).world.correlator = t.world.correlator := by
    rw [hworld]
    exact hquiet.correlator
  refine ⟨⟨hset, ?_, hcorrelator, ?_, fun schedule => ?_⟩, hrunning⟩
  · obtain ⟨events, hjournal, -⟩ := hquiet.journal
    rw [hworld, hjournal]
    exact List.mem_append_right _ List.mem_cons_self
  · have hlt := hcall.registered.1
    rcases List.mem_append.mp (h.regular.sound.world.covered id hlt hopen) with hentry | howed
    · obtain ⟨handle, hgiven, d, e, hd, he, howner⟩ :=
        h.regular.sound.world.holds_of_mem_owners hentry
      rcases (hcall.enrolled id hcall.source).2 with ⟨handle', hsome, hsame⟩ | ⟨-, hout⟩
      · cases hgiven.symm.trans hsame
        refine .inl ⟨handle, hsome, ?_, d, e, hcorrelator.trans hd, he, howner⟩
        rw [(precedes_move t i).given id hlt, hgiven]
      · exact absurd hentry hout
    · -- the attempt leaves everyone with what they owed before
      have hmove := move_eq hi (congrArg some hresolve)
      have hbefore := (flatMap_running Stack.owed hi).mem_iff.mp howed
      have hafter : id ∈ (t.move i).owed := by
        rw [hmove]
        exact (flatMap_running_set Stack.owed hi _).mem_iff.mpr hbefore
      exact .inr ((h.move i).exists_bears (hcall.move h i).registered hafter)
  · refine passedOver_of_resolved ((precedes_follow (t.move i) schedule).outcome?_ne_none ?_)
    rw [hset]
    exact Option.some_ne_none _

/-- **A wait with a limit never disagrees with the correlator.**  Threads share a fresh correlator,
their entries always fit, and one of them is about to wait for a call, for a limited time or for
the default time.  Whatever the others do,

* until the operation is resolved, its entry or someone who has taken it out keeps its resolver
  alive, so the attempt of the caller reaches it, and the channel is never closed;
* if the operation is resolved already, the wait is over at once, whatever the limit, and the
  caller has the outcome of the operation;
* else the others move until the time is up.  If they have resolved the operation by then, the
  attempt of the caller changes nothing, and the caller has the outcome that they brought;
* if they have not, the caller gives up, and has the error of a timeout. -/
theorem timeout_exact (hc : c.IsFresh) {scripts : List (List Step)}
    (hseeds : ∀ steps ∈ scripts, ∀ n ∈ Step.seedsIn steps, 0 < n)
    (hfits : ∀ schedule, ((start c scripts).follow schedule).world.Fits) {schedule : List Nat}
    (ht : (start c scripts).follow schedule = t) {self : Option CommandHandle} {s : Step}
    {rest : List Step} {answers : List Answer} {below : Stack}
    (hi : t.running[i]? = some (.script self (s :: rest) answers :: below)) {limit : Duration}
    (hwait : s.wait? t.world = some (call, limit)) (hsource : call.source = .operation id) :
    (∀ later, (t.follow later).channel id ≠ .closed ∧
      ((t.follow later).world.outcome? id = none → (t.follow later).Kept id)) ∧
    (∀ outcome, t.world.outcome? id = some outcome →
      (t.move i).Yields c i (.script self rest answers :: below) call id outcome) ∧
    (t.world.outcome? id = none → ∀ u, Meanwhile i (t.move i) u →
      (∀ outcome, u.world.outcome? id = some outcome →
        (u.move i).world = u.world ∧ ∀ v, Meanwhile i (u.move i) v →
          (v.move i).world = v.world ∧
            (v.move i).Yields c i (.script self rest answers :: below) call id outcome) ∧
      (u.world.outcome? id = none →
        u.GaveUp i call id ∧ ∀ v, Meanwhile i (u.move i) v →
          (v.move i).world = v.world.note (.gaveUp call.handle limit) ∧
            (v.move i).Yields c i (.script self rest answers :: below) call id
              (.error (.timeoutOf call.handle)))) := by
  have hinOrder : t.InOrder c := ht ▸ (inOrder_start hc hseeds hfits).follow schedule
  obtain ⟨n, hn, hbegin⟩ := s.begin_of_wait hwait
  have hmem : some call ∈ t.world.calls := List.mem_of_getElem? (Option.join_eq_some_iff.mp hn)
  have hcall : t.HandedOut call id :=
    ⟨hsource, hinOrder.enrolled.registered hmem hsource, hinOrder.enrolled.calls call hmem⟩
  have hused : (t.world.useUp n).outcome? id = t.world.outcome? id := rfl
  obtain ⟨hworld, hrunning⟩ := move_of_script hi
  rw [hbegin] at hworld hrunning
  refine ⟨fun later => ?_, fun outcome ho => ?_, fun hopen u hu => ?_⟩
  · have hregistered := (hcall.follow hinOrder later).registered
    exact ⟨(hinOrder.follow later).channel_ne_closed hregistered.1,
      (hinOrder.follow later).kept hregistered⟩
  · rw [waitFor_of_resolved hsource (hused.trans ho)] at hworld hrunning
    refine (hinOrder.move i).yields hrunning ?_
    rw [hworld]
    exact ho
  · rw [waitFor_of_open hsource (hused.trans hopen)] at hrunning
    have hattempts := hu.running.trans hrunning
    have hinOrder' : u.InOrder c := hu.inOrder (hinOrder.move i)
    refine ⟨fun outcome ho => ?_, fun hopen' => ?_⟩
    · have hresolved : u.world.outcome? id ≠ none := by
        rw [ho]
        exact Option.some_ne_none outcome
      obtain ⟨hsame, hpassed⟩ := move_of_resolved hresolved hattempts
      refine ⟨hsame, fun v hv => ?_⟩
      refine (hv.inOrder (hinOrder'.move i)).concluded hsource ?_ (hv.running.trans hpassed)
      exact hv.precedes.outcome id outcome (hsame ▸ ho)
    · obtain ⟨hgaveUp, hrecorded⟩ :=
        hinOrder'.gaveUp ((hcall.move hinOrder i).meanwhile (hinOrder.move i) hu) hopen' hattempts
      refine ⟨hgaveUp, fun v hv => ?_⟩
      refine (hv.inOrder (hinOrder'.move i)).concluded hsource ?_ (hv.running.trans hrecorded)
      exact hv.precedes.outcome id _ hgaveUp.outcome

/-- A caller waits for five milliseconds, and another thread reports the completion. -/
def overdue : List (List Step) :=
  [[.issue .handle "open_pool_ledger" (fun _ => 0) [], .timeout 0 ⟨5⟩],
   [.deliver (.handle ⟨1⟩) 0 (.handle 7)]]

/-- If the completion comes between the limit and the attempt, the caller has what it says.  If it
does not, the caller gives up. -/
theorem timeout_exact_overdue : ∃ call base, call.handle = some ⟨1⟩ ∧
    ((start {} overdue).follow [0, 0, 0, 1, 1, 0, 0]).Yields {} 0 base call 0 (.ok (.handle 7)) ∧
    ((start {} overdue).follow [0, 0, 0]).GaveUp 0 call 0 ∧
    ((start {} overdue).follow [0, 0, 0, 0, 0]).Yields {} 0 base call 0
      (.error (.timeoutOf call.handle)) := by
  have hfresh : Correlator.IsFresh {} := ⟨rfl, by decide⟩
  have hseeds : ∀ steps ∈ overdue, ∀ n ∈ Step.seedsIn steps, 0 < n :=
    Step.seeds_pos_of_flatMap rfl
  have hbudget : (start {} overdue).budget < Allocator.fullTurn := by decide
  have hfits : ∀ schedule, ((start {} overdue).follow schedule).world.Fits :=
    fun schedule => ((sound_start hfresh hseeds).roomAlong hbudget schedule).last.fits
  have hi : ((start {} overdue).follow [0, 0]).running[0]? =
      some [.script none [.timeout 0 ⟨5⟩]
        [.issued 0 ⟨.handle, .operation 0, some ⟨1⟩, none⟩ (some ⟨1⟩) []]] := rfl
  obtain ⟨-, -, hwaits⟩ := timeout_exact hfresh hseeds hfits rfl hi rfl rfl
  have hnobody : ∀ t, Meanwhile 0 t t := fun t => ⟨[], List.not_mem_nil, rfl⟩
  obtain ⟨hlate, -⟩ := hwaits (by decide) (((start {} overdue).follow [0, 0, 0]).follow [1, 1])
    ⟨[1, 1], by decide, rfl⟩
  obtain ⟨-, hfirst⟩ := hwaits (by decide) _ (hnobody _)
  obtain ⟨-, hyields⟩ := hlate (.ok (.handle 7)) (by decide)
  obtain ⟨hgaveUp, htold⟩ := hfirst (by decide)
  exact ⟨_, _, rfl, (hyields _ (hnobody _)).2, hgaveUp, (htold _ (hnobody _)).2⟩

end Threads

end CommandBridge

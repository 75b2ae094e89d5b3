import CommandBridge.Proofs.Native.Copies
import CommandBridge.Proofs.Session.Closed
import CommandBridge.Proofs.Session.Completions
import CommandBridge.Proofs.Session.Oblivious

/-!
# What a callback does

A callback delivers the copy of its arguments, and after a failure nothing.  Section by section it
does to the state what the same delivery does if it is reported as a step; only the native side is
told nothing about it.

* `Place` — where a step stands in a thread;
* `Told`, `Lockstep` — work that does the same in every state, until the sender of the one is told
  and the native side of the other is not;
* `InStep`, `ActsAs` — a callback has the effect of a delivery;
* `callback_actsAs` — **every callback has the effect of a delivery**, and `moves_callback` which
  arguments do not matter;
* `exists_resolvesCall` — what the caller of an unresolved call gets;
* `callback_exact` — all of it, and what happens without a correlator.
-/

namespace CommandBridge

/-! ### Where a step stands -/

/-- The steps around the one that comes next: those after it, what those before it returned, the
handle that the native function around them was given, and what waits for them all. -/
structure Place where
  self : Option CommandHandle
  rest : List Step
  answers : List Answer
  below : Stack

namespace Place

/-- The steps that wait for the answer. -/
def base (p : Place) : Stack :=
  .script p.self p.rest p.answers :: p.below

/-- A thread that is to take a step. -/
def taking (p : Place) (w : World) (s : Step) : World × Stack :=
  (w, .script p.self (s :: p.rest) p.answers :: p.below)

theorem moves_taking (p : Place) (w : World) (s : Step) :
    Moves (p.taking w s) (s.begin w p.self p.base) :=
  .begin rfl

end Place

/-! ### The same work -/

/-- A delivery is over on both sides.  The native side is told nothing, the sender the result. -/
def Told (base stack stack' : Stack) : Prop :=
  ∃ result, stack = reply .done base ∧ stack' = reply (.delivered result) base

/-- Stacks that are related have work above `base` that does the same in every section, whatever the
state is at its beginning, until the delivery is over. -/
structure Lockstep (base : Stack) (R : Stack → Stack → Prop) : Prop where
  isAbove : ∀ {stack stack'}, R stack stack' → Stack.Over base stack ∧ Stack.Over base stack'
  advance : ∀ {stack stack'}, R stack stack' → ∀ w, ∃ v t t', advance w stack = some (v, t) ∧
    advance w stack' = some (v, t') ∧ (R t t' ∨ Told base t t')

/-- Related stacks come to their end in the same state, if nothing else runs. -/
theorem Lockstep.exists_told {base stack stack' : Stack} {R : Stack → Stack → Prop}
    (h : Lockstep base R) (hR : R stack stack') (w : World) :
    ∃ v t t', Inside base (w, stack) (v, t) ∧ Inside base (w, stack') (v, t') ∧ Told base t t' := by
  induction w, stack using run.induct generalizing stack' with
  | case2 w stack hnone =>
    obtain ⟨v, t, t', hadvance, -, -⟩ := h.advance hR w
    rw [hnone] at hadvance
    cases hadvance
  | case1 w stack v t hsome ih =>
    obtain ⟨hover, hover'⟩ := h.isAbove hR
    obtain ⟨_, _, t', hadvance, hadvance', hnext⟩ := h.advance hR w
    rw [hsome] at hadvance
    cases hadvance
    rcases hnext with hR' | htold
    · obtain ⟨u, r, r', hinside, hinside', htold⟩ := ih hR'
      exact ⟨u, r, r', .head ⟨hover, hsome⟩ hinside, .head ⟨hover', hadvance'⟩ hinside', htold⟩
    · exact ⟨v, t, t', .single ⟨hover, hsome⟩, .single ⟨hover', hadvance'⟩, htold⟩

/-- The same delivery is over on both sides, or there is the same left to do about it. -/
def InStep (base stack stack' : Stack) : Prop :=
  Told base stack stack' ∨ ∃ R, Lockstep base R ∧ R stack stack'

theorem InStep.exists_told {base stack stack' : Stack} (h : InStep base stack stack') (w : World) :
    ∃ v t t', Inside base (w, stack) (v, t) ∧ Inside base (w, stack') (v, t') ∧ Told base t t' := by
  rcases h with htold | ⟨R, hlockstep, hR⟩
  · exact ⟨w, _, _, .refl, .refl, htold⟩
  · exact hlockstep.exists_told hR w

/-- The callback that comes next in `m` has the effect of the delivery that comes next in `m'`. -/
structure ActsAs (base : Stack) (m m' : World × Stack) : Prop where
  /-- It does the same to the state in every section, whatever other threads do in between. -/
  sections : ∃ v t t', Moves m (v, t) ∧ Moves m' (v, t') ∧ InStep base t t'
  /-- If nothing comes in between, it returns in the same state. -/
  returns : ∃ v t t' result, Returns m (v, t) .done ∧ Returns m' (v, t') (.delivered result)

section Delivery

variable {w : World} {c : Correlator} {p : Place} {target : Target} {h : CommandHandle}

/-- The attempts of a callback and of a delivery go in lockstep. -/
theorem lockstep_attempt (entry : Entry) (status : Int32) (base : Stack) :
    Lockstep base (Stack.Attempt (.deliver entry status .nobody) (.deliver entry status .sender)
      base base) := by
  refine ⟨fun hattempt => ⟨hattempt.isAbove, hattempt.symm.isAbove⟩, fun hattempt w => ?_⟩
  rcases hattempt.advance w with ⟨ran, rfl, rfl⟩ | ⟨v, t, t', hadvance, hadvance', hnext⟩
  · exact ⟨_, _, _, rfl, rfl, .inr ⟨.ok (), rfl, rfl⟩⟩
  · exact ⟨v, t, t', hadvance, hadvance', .inl hnext⟩

/-- A completion does the same, whether its sender is told or not. -/
theorem exists_inStep (w : World) (c : Correlator) (h : CommandHandle) (status : Int32)
    (payload : Payload) (base : Stack) :
    ∃ v t t', complete w c h status payload .nobody base = (v, t) ∧
      complete w c h status payload .sender base = (v, t') ∧ InStep base t t' := by
  unfold complete
  cases c.table.remove h with
  | none => exact ⟨_, _, _, rfl, rfl, .inl ⟨_, rfl, rfl⟩⟩
  | some found =>
    exact ⟨_, _, _, rfl, rfl, .inr ⟨_, lockstep_attempt found.1 status base, .resolve⟩⟩

theorem begin_callback (hc : w.correlator = .present c) (ht : target.resolve p.self = some h)
    (status : Int32) (arguments : CallbackArguments) :
    (Step.callback target status arguments).begin w p.self p.base =
      complete w c h status (arguments.completion status) .nobody p.base := by
  simp only [Step.begin, withTarget, ht, callBack, hc]

theorem begin_deliver (hc : w.correlator = .present c) (ht : target.resolve p.self = some h)
    (status : Int32) (payload : Payload) :
    (Step.deliver target status payload).begin w p.self p.base =
      complete w c h status payload .sender p.base := by
  simp only [Step.begin, withCorrelator, hc, withTarget, ht]

/-- **Every callback has the effect of a delivery.** -/
theorem callback_actsAs (hc : w.correlator = .present c) (ht : target.resolve p.self = some h)
    (status : Int32) (arguments : CallbackArguments) :
    ActsAs p.base (p.taking w (.callback target status arguments))
      (p.taking w (.deliver target status (arguments.completion status))) := by
  obtain ⟨v, t, t', hcomplete, hcomplete', hstep⟩ :=
    exists_inStep w c h status (arguments.completion status) p.base
  rw [← begin_callback hc ht] at hcomplete
  rw [← begin_deliver hc ht] at hcomplete'
  refine ⟨⟨v, t, t', hcomplete ▸ p.moves_taking w _, hcomplete' ▸ p.moves_taking w _, hstep⟩, ?_⟩
  obtain ⟨u, r, r', hinside, hinside', result, rfl, rfl⟩ := hstep.exists_told v
  rw [← hcomplete] at hinside
  rw [← hcomplete'] at hinside'
  exact ⟨u, _, _, result, returns_of_inside rfl hinside, returns_of_inside rfl hinside'⟩

/-- **The arguments that come with a failure do not matter**: the first section leaves the same
state, and the same to do. -/
theorem moves_callback {status : Int32} (hs : status ≠ successStatus) (p : Place) (w : World)
    (target : Target) (arguments other : CallbackArguments) :
    ∃ q, Moves (p.taking w (.callback target status arguments)) q ∧
      Moves (p.taking w (.callback target status other)) q := by
  have hsame : (Step.callback target status arguments).begin w p.self p.base =
      (Step.callback target status other).begin w p.self p.base := by
    simp only [Step.begin, callBack, CallbackArguments.completion_of_failure hs]
  exact ⟨_, p.moves_taking w _, hsame ▸ p.moves_taking w _⟩

/-- Without a correlator the completion is put on record, and that is all. -/
theorem returns_of_absent {absence : Absence} (hw : w.correlator = .absent absence)
    (ht : target.resolve p.self = some h) (status : Int32) (arguments : CallbackArguments) :
    ∃ n, Moves (p.taking w (.callback target status arguments)) n ∧
      n.1 = w.note (.uncorrelated h status) ∧
        Returns (p.taking w (.callback target status arguments)) n .done := by
  refine returns_at_once rfl ?_
  show (Step.callback target status arguments).begin w p.self p.base = _
  simp only [Step.begin, withTarget, ht, callBack, hw]
  rfl

/-! ### Unresolved calls -/

/-- An attempt to resolve an unresolved operation with a caller is over at once. -/
theorem exists_resolve_of_caller {id : OperationId} {o : Operation} {shape : Shape}
    {isListening : Bool} (ho : w.operations[id]? = some o) (hopen : o.outcome = none)
    (hcaller : o.listener = .caller shape isListening) (outcome : Outcome) (cause : Cause)
    (after : Aftermath) (base : Stack) :
    ∃ v, resolve w id outcome cause after base = (v, .conclude after true :: base) ∧
      (w.recordOutcome id outcome cause).Quiet v := by
  have honce : w.resolveOnce id outcome cause = some (o, w.recordOutcome id outcome cause) := by
    simp only [World.resolveOnce, ho, hopen]
    rfl
  simp only [resolve, honce, hcaller]
  cases isListening with
  | true => exact ⟨_, rfl, .refl _⟩
  | false => exact ⟨_, rfl, World.quiet_note _ rfl⟩

/-- A completion that finds the entry of an unresolved operation with a caller takes the entry out
and sets the outcome, and that is all that happens to the table and to outcomes. -/
theorem exists_resolvesCall {e : Entry} {o : Operation} {shape : Shape} {isListening : Bool}
    (hc : w.correlator = .present c) (he : c.table.find? h = some e)
    (ho : w.operations[e.owner]? = some o) (hopen : o.outcome = none)
    (hcaller : o.listener = .caller shape isListening) (status : Int32) (payload : Payload)
    (receipt : Receipt) (base : Stack) :
    ∃ v, Inside base (complete w c h status payload receipt base)
        (answer v (receipt.answer v (.ok ())) base) ∧
      v.correlator = .present { c with table := c.table.erase h } ∧
      ∀ id, v.outcome? id = if e.owner = id then
        some ((Cause.delivered h status payload).outcome c.statuses) else w.outcome? id := by
  have hremove : c.table.remove h = some (e, c.table.erase h) := by
    rw [PendingTable.remove, he, Option.map_some]
  have hopened : (w.setTable (c.table.erase h)).operations[e.owner]? = some o := by
    rw [World.operations_setTable, ho]
  obtain ⟨u, hresolve, hquiet⟩ := exists_resolve_of_caller hopened hopen hcaller
    ((Cause.delivered h status payload).outcome c.statuses) (.delivered h status payload)
    (.deliver e status receipt) base
  have hlast := hquiet.note (e := .completed e.owner e.operation e.handle status) rfl
  simp only [complete, hremove]
  refine ⟨_, .head ⟨.work (by simp), congrArg some hresolve⟩ (.single ⟨.work (by simp), rfl⟩),
    ?_, fun id => ?_⟩
  · exact hquiet.correlator.trans (World.correlator_setTable hc _)
  · refine (hlast.outcome? id).trans ?_
    rw [World.outcome?_recordOutcome hopened,
      World.outcome?_congr (World.operations_setTable w (c.table.erase h))]

/-- **What a callback does**, in every state and for every handle and status.

* With a failure its arguments do not matter, and it has the effect of a delivery of nothing.
* With a success it has the effect of a delivery of what its arguments mean.  If it finds an
  unresolved operation whose caller holds a call, the call shows the copy, or an error if it wants
  another shape; either way this entry is taken out, no other, and no other operation is resolved.
* Without a correlator it is put on record as an error, and nothing else happens. -/
theorem callback_exact (p : Place) (w : World) (ht : target.resolve p.self = some h)
    (status : Int32) (arguments : CallbackArguments) :
    (status ≠ successStatus →
      (∀ other, ∃ q, Moves (p.taking w (.callback target status arguments)) q ∧
        Moves (p.taking w (.callback target status other)) q) ∧
      ∀ c, w.correlator = .present c → ActsAs p.base
        (p.taking w (.callback target status arguments))
        (p.taking w (.deliver target status .empty))) ∧
    (status = successStatus → ∀ payload c, arguments.Copies payload → w.correlator = .present c →
      ActsAs p.base (p.taking w (.callback target status arguments))
        (p.taking w (.deliver target status payload)) ∧
      ∀ e o call isListening, c.table.find? h = some e → w.operations[e.owner]? = some o →
        o.outcome = none → o.listener = .caller call.shape isListening →
        call.source = .operation e.owner →
        w.result? call = none ∧
          ∃ n result, Returns (p.taking w (.callback target status arguments)) n .done ∧
            n.1.result? call = some result ∧ ShownAs arguments payload call.shape result ∧
            n.1.correlator = .present { c with table := c.table.erase h } ∧
            c.table.entries.Perm (e :: (c.table.erase h).entries) ∧
            ∀ id, id ≠ e.owner → n.1.outcome? id = w.outcome? id) ∧
    (∀ absence, w.correlator = .absent absence →
      ∃ n, Moves (p.taking w (.callback target status arguments)) n ∧
        n.1 = w.note (.uncorrelated h status) ∧
        (Event.uncorrelated h status).level? = some .error ∧
        Returns (p.taking w (.callback target status arguments)) n .done) := by
  refine ⟨fun hfailure => ⟨fun other => ?_, fun c hc => ?_⟩, ?_, fun absence hw => ?_⟩
  · exact moves_callback hfailure p w target arguments other
  · rw [← CallbackArguments.completion_of_failure hfailure arguments]
    exact callback_actsAs hc ht status arguments
  · rintro rfl payload c hcopies hc
    have hcompletion : arguments.completion successStatus = payload :=
      (arguments.completion_of_success).trans hcopies.payload_eq
    refine ⟨hcompletion ▸ callback_actsAs hc ht successStatus arguments, ?_⟩
    intro e o call isListening he ho hopen hcaller hsource
    have hresult : ∀ v : World, v.result? call = (v.outcome? e.owner).map call.shape.result := by
      intro v
      simp only [World.result?, hsource]
    obtain ⟨v, hinside, hcorrelator, houtcome⟩ :=
      exists_resolvesCall hc he ho hopen hcaller successStatus payload .nobody p.base
    rw [← hcompletion, ← begin_callback hc ht] at hinside
    refine ⟨?_, _, call.shape.result (.ok payload), returns_of_inside rfl hinside, ?_,
      hcopies.shownAs call.shape, hcorrelator, PendingTable.entries_erase he, fun id hid => ?_⟩
    · rw [hresult, World.outcome?, ho, Option.bind_some, hopen, Option.map_none]
    · show v.result? call = _
      rw [hresult, houtcome, if_pos rfl]
      rfl
    · exact (houtcome id).trans (if_neg hid.symm)
  · obtain ⟨n, hmoves, hworld, hreturns⟩ := returns_of_absent hw ht status arguments
    exact ⟨n, hmoves, hworld, rfl, hreturns⟩

/-- A call that wants a text is pending under handle `1`. -/
def awaiting : World where
  correlator := .present { table := { entries := [⟨⟨1⟩, 0, "create_key", 0⟩] } }
  operations := [⟨"create_key", .caller .text true, none⟩]
  calls := [some ⟨.text, .operation 0, some ⟨1⟩, none⟩]

/-- A thread with one step to take. -/
def alone : Place :=
  ⟨none, [], [], []⟩

/-- A callback with two texts leaves the call with an error that names both shapes.  If it reports a
failure, it does not matter that its pointers are null. -/
theorem callback_exact_awaiting :
    (∃ n error, Returns (alone.taking awaiting
        (.callback (.handle ⟨1⟩) 0 (.textPair (some [0x61, 0, 0x62]) none))) n .done ∧
      n.1.result? ⟨.text, .operation 0, some ⟨1⟩, none⟩ = some (.error error) ∧
      error.message = "expected a text completion payload, got text_pair") ∧
    ∃ q, Moves (alone.taking awaiting
        (.callback (.handle ⟨1⟩) 113 (.textPair (some [0x61, 0, 0x62]) none))) q ∧
      Moves (alone.taking awaiting (.callback (.handle ⟨1⟩) 113 (.textPair none none))) q := by
  have hcopies : CallbackArguments.Copies (.textPair (some [0x61, 0, 0x62]) none)
      (.textPair "a" "") := .textPair (@IsText.bytes [0x61] (by decide) [0x62]) .null
  have htarget : (Target.handle ⟨1⟩).resolve alone.self = some ⟨1⟩ := rfl
  obtain ⟨-, hsuccess, -⟩ := callback_exact alone awaiting htarget 0
    (.textPair (some [0x61, 0, 0x62]) none)
  obtain ⟨hfailure, -⟩ := callback_exact alone awaiting htarget 113
    (.textPair (some [0x61, 0, 0x62]) none)
  refine ⟨?_, (hfailure (by decide)).1 _⟩
  obtain ⟨-, hcall⟩ := hsuccess rfl _ _ hcopies rfl
  obtain ⟨-, n, result, hreturns, hresult, hshown, -⟩ :=
    hcall ⟨⟨1⟩, 0, "create_key", 0⟩ _ ⟨.text, .operation 0, some ⟨1⟩, none⟩ true rfl rfl rfl rfl rfl
  cases result with
  | ok value => exact absurd (hshown.isOk.mp ⟨value, rfl⟩) (by decide)
  | error error => exact ⟨n, error, hreturns, hresult, (hshown.error error rfl).2.2⟩

end Delivery

end CommandBridge

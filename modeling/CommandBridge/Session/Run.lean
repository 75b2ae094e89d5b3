import CommandBridge.Session.Frame

/-!
# Running a session

A thread comes to an end.  Two numbers bound the work that is left: the steps still to be begun,
those of unresolved continuations included, and the height of the stack.  Beginning a step lowers
the first; every other section keeps it and lowers the second.

* `World.load`, `Stack.load` — the steps still to be begun;
* `Stack.height` — a weight of the frames that every section but the first of a step lowers;
* `run` — a thread's sections until it has no more to do;
* `World.perform` — one step from start to end, with its answer.

`advance_lt` says that the two numbers, in this order, go down with every section.
-/

namespace CommandBridge

/-! ### Steps still to be begun -/

/-- The steps that wait in a continuation. -/
def Listener.load : Listener → Nat
  | .continuation _ steps => Step.sizes steps
  | .caller _ _ => 0

/-- The steps that an unresolved operation can still lead to. -/
def Operation.load (o : Operation) : Nat :=
  if o.outcome.isNone then o.listener.load else 0

/-- The steps that several operations can still lead to. -/
def Operation.loads : List Operation → Nat
  | [] => 0
  | o :: rest => o.load + loads rest

/-- The steps that the operations of a session can still lead to. -/
def World.load (w : World) : Nat :=
  Operation.loads w.operations

/-- The steps that a frame can still lead to. -/
def Frame.load : Frame → Nat
  | .script _ rest _ => Step.sizes rest
  | _ => 0

/-- The steps that a stack can still lead to. -/
def Stack.load : Stack → Nat
  | [] => 0
  | f :: stack => f.load + Stack.load stack

/-! ### The height of a stack -/

/-- The entries that are still to be gone through. -/
def Aftermath.entriesLeft : Aftermath → Nat
  | .sweep _ rest _ _ => rest.length
  | .shutdown rest _ => rest.length
  | .drop rest => rest.length
  | _ => 0

/-- The weight of a frame, more than that of all it is replaced by. -/
def Frame.height : Frame → Nat
  | .script _ _ _ => 1
  | .native _ _ _ _ _ => 6
  | .configure _ _ => 1
  | .resolve _ _ _ after => 5 + 6 * after.entriesLeft
  | .continuation _ after => 3 + 6 * after.entriesLeft
  | .conclude after _ => 2 + 6 * after.entriesLeft

/-- The weight of all frames. -/
def Stack.height : Stack → Nat
  | [] => 0
  | f :: stack => f.height + Stack.height stack

namespace Stack

@[simp] theorem load_nil : load [] = 0 := rfl

@[simp] theorem load_cons (f : Frame) (stack : Stack) :
    load (f :: stack) = f.load + load stack := rfl

@[simp] theorem height_nil : height [] = 0 := rfl

@[simp] theorem height_cons (f : Frame) (stack : Stack) :
    height (f :: stack) = f.height + height stack := rfl

@[simp] theorem load_reply (a : Answer) (stack : Stack) : load (reply a stack) = load stack := by
  cases stack with
  | nil => rfl
  | cons f below => cases f <;> rfl

@[simp] theorem height_reply (a : Answer) (stack : Stack) :
    height (reply a stack) = height stack := by
  cases stack with
  | nil => rfl
  | cons f below => cases f <;> rfl

end Stack

/-! ### What leaves the load alone -/

namespace Operation

theorem loads_append (operations others : List Operation) :
    loads (operations ++ others) = loads operations + loads others := by
  induction operations with
  | nil => simp [loads]
  | cons o rest ih =>
    simp only [List.cons_append, loads, ih]
    omega

theorem loads_modify_of_eq (operations : List Operation) (id : OperationId)
    (f : Operation → Operation) (h : ∀ o, (f o).load = o.load) :
    loads (operations.modify id f) = loads operations := by
  induction operations generalizing id with
  | nil => cases id <;> rfl
  | cons o rest ih => cases id <;> simp [loads, h, ih]

/-- Setting the first outcome of an operation takes its continuation out of the load. -/
theorem loads_modify_outcome {operations : List Operation} {id : OperationId} {o : Operation}
    (hget : operations[id]? = some o) (hopen : o.outcome.isNone) (outcome : Outcome) :
    loads (operations.modify id (fun o => { o with outcome := some outcome })) + o.listener.load =
      loads operations := by
  induction operations generalizing id with
  | nil => simp at hget
  | cons a rest ih =>
    cases id with
    | zero =>
      obtain rfl : a = o := by simpa using hget
      simp [loads, load, hopen]
      omega
    | succ id =>
      have := @ih id (by simpa using hget)
      simp only [List.modify_succ_cons, loads]
      omega

end Operation

namespace World

@[simp] theorem load_note (w : World) (e : Event) : (w.note e).load = w.load := rfl

@[simp] theorem load_setTable (w : World) (t : PendingTable) : (w.setTable t).load = w.load := by
  unfold setTable
  split <;> rfl

@[simp] theorem load_addCall (w : World) (call : PendingCall) : (w.addCall call).load = w.load :=
  rfl

@[simp] theorem load_useUp (w : World) (n : Nat) : (w.useUp n).load = w.load := rfl

@[simp] theorem load_install (w : World) (c : Correlator) : (w.install c).2.load = w.load := by
  unfold install
  split <;> rfl

@[simp] theorem load_installDefault (w : World) : w.installDefault.load = w.load := by
  unfold installDefault
  split <;> rfl

@[simp] theorem load_begin (w : World) (name : String) (listener : Listener) :
    (w.begin name listener).load = w.load + listener.load := by
  simp [begin, load, Operation.loads_append, Operation.loads, Operation.load]

@[simp] theorem load_stopListening (w : World) (call : PendingCall) :
    (w.stopListening call).load = w.load := by
  unfold stopListening
  split
  · refine Operation.loads_modify_of_eq _ _ _ (fun o => ?_)
    cases o with
    | mk name listener outcome => cases listener <;> rfl
  · rfl

theorem load_of_resolveOnce {w v : World} {id : OperationId} {outcome : Outcome} {cause : Cause}
    {o : Operation} (h : w.resolveOnce id outcome cause = some (o, v)) :
    v.load + o.listener.load = w.load := by
  unfold resolveOnce at h
  split at h
  · next a hget =>
    split at h
    · next hopen =>
      cases h
      exact Operation.loads_modify_outcome hget hopen outcome
    · cases h
  · cases h

end World

/-! ### What each section does to load and height -/

/-- The steps that a state and a stack can still lead to. -/
def loadOf (m : World × Stack) : Nat :=
  m.1.load + m.2.load

@[simp] theorem loadOf_answer (w : World) (a : Answer) (below : Stack) :
    loadOf (answer w a below) = w.load + below.load := by
  simp [loadOf, answer]

@[simp] theorem height_answer (w : World) (a : Answer) (below : Stack) :
    (answer w a below).2.height = below.height := by
  simp [answer]

@[simp] theorem load_settle (ticket : Ticket) (w : World) (id : OperationId)
    (native : Option CommandHandle) (during : List Answer)
    (result : Except BridgeError CommandHandle) :
    (ticket.settle w id native during result).1.load = w.load := by
  cases ticket <;> rfl

@[simp] theorem load_handOver (ticket : Ticket) (handle : CommandHandle) (w : World) :
    (ticket.handOver handle w).load = w.load := by
  cases ticket <;> rfl

theorem loadOf_register (w : World) (c : Correlator) (operation : String) (listener : Listener)
    (ticket : Ticket) (reply : CommandHandle → Int32) (during : List Step) (below : Stack) :
    loadOf (register w c operation listener ticket reply during below) ≤
      w.load + listener.load + Step.sizes during + below.load := by
  simp only [register]
  split
  · simp [loadOf, Frame.load]
  · simp [loadOf, Frame.load]
    omega

theorem loadOf_returned (w : World) (id : OperationId) (ticket : Ticket) (operation : String)
    (handle : CommandHandle) (status : Int32) (during : List Answer) (below : Stack) :
    loadOf (returned w id ticket operation handle status during below) = w.load + below.load := by
  simp only [returned]
  split
  · simp
  · split <;> simp [loadOf, Frame.load, answer]

theorem height_returned (w : World) (id : OperationId) (ticket : Ticket) (operation : String)
    (handle : CommandHandle) (status : Int32) (during : List Answer) (below : Stack) :
    (returned w id ticket operation handle status during below).2.height ≤ 5 + below.height := by
  simp only [returned]
  split
  · simp
  · split <;> simp [Frame.height, Aftermath.entriesLeft]

@[simp] theorem loadOf_complete (w : World) (c : Correlator) (handle : CommandHandle)
    (status : Int32) (payload : Payload) (receipt : Receipt) (below : Stack) :
    loadOf (complete w c handle status payload receipt below) = w.load + below.load := by
  simp only [complete]
  split <;> simp [loadOf, Frame.load, answer]

@[simp] theorem loadOf_callBack (w : World) (handle : CommandHandle) (status : Int32)
    (arguments : CallbackArguments) (below : Stack) :
    loadOf (callBack w handle status arguments below) = w.load + below.load := by
  simp only [callBack]
  split <;> simp

@[simp] theorem loadOf_sweepOn (w : World) (rest : List Entry) (expired : List CommandHandle)
    (age : Duration) (below : Stack) :
    loadOf (sweepOn w rest expired age below) = w.load + below.load := by
  cases rest with
  | nil => by_cases h : expired.isEmpty <;> simp [sweepOn, h]
  | cons e rest => simp [sweepOn, loadOf, Frame.load]

theorem height_sweepOn (w : World) (rest : List Entry) (expired : List CommandHandle)
    (age : Duration) (below : Stack) :
    (sweepOn w rest expired age below).2.height ≤ 6 * rest.length + below.height := by
  cases rest with
  | nil => simp [sweepOn]
  | cons e rest => simp [sweepOn, Frame.height, Aftermath.entriesLeft]; omega

@[simp] theorem loadOf_shutdownOn (w : World) (rest : List Entry) (count : Nat) (below : Stack) :
    loadOf (shutdownOn w rest count below) = w.load + below.load := by
  cases rest <;> simp [shutdownOn, loadOf, Frame.load, answer]

theorem height_shutdownOn (w : World) (rest : List Entry) (count : Nat) (below : Stack) :
    (shutdownOn w rest count below).2.height ≤ 6 * rest.length + below.height := by
  cases rest with
  | nil => simp [shutdownOn]
  | cons e rest => simp [shutdownOn, Frame.height, Aftermath.entriesLeft]; omega

@[simp] theorem loadOf_dropOn (w : World) (rest : List Entry) (below : Stack) :
    loadOf (dropOn w rest below) = w.load + below.load := by
  cases rest <;> simp [dropOn, loadOf, Frame.load, answer]

theorem height_dropOn (w : World) (rest : List Entry) (below : Stack) :
    (dropOn w rest below).2.height ≤ 6 * rest.length + below.height := by
  cases rest with
  | nil => simp [dropOn]
  | cons e rest => simp [dropOn, Frame.height, Aftermath.entriesLeft]; omega

@[simp] theorem loadOf_waitFor (w : World) (call : PendingCall) (limit : Duration)
    (below : Stack) : loadOf (waitFor w call limit below) = w.load + below.load := by
  simp only [waitFor]
  split <;> simp [loadOf, Frame.load, answer]

theorem loadOf_withCorrelator {w : World} {below : Stack} {go : Correlator → World × Stack}
    {n : Nat} (habsent : w.load + below.load ≤ n) (h : ∀ c, loadOf (go c) ≤ n) :
    loadOf (withCorrelator w below go) ≤ n := by
  simp only [withCorrelator]
  split
  · exact h _
  · simpa using habsent

theorem loadOf_withTarget {w : World} {self : Option CommandHandle} {target : Target}
    {below : Stack} {go : CommandHandle → World × Stack} {n : Nat}
    (habsent : w.load + below.load ≤ n) (h : ∀ c, loadOf (go c) ≤ n) :
    loadOf (withTarget w self target below go) ≤ n := by
  simp only [withTarget]
  split
  · exact h _
  · simpa using habsent

theorem loadOf_withCall {w : World} {call : Nat} {below : Stack}
    {go : PendingCall → World × Stack} {n : Nat} (habsent : w.load + below.load ≤ n)
    (h : ∀ c, loadOf (go c) ≤ n) : loadOf (withCall w call below go) ≤ n := by
  simp only [withCall]
  split
  · exact h _
  · simpa using habsent

/-- Beginning a step moves what is inside it to where it waits, and uses the step itself up. -/
theorem loadOf_begin (w : World) (self : Option CommandHandle) (below : Stack) (s : Step) :
    loadOf (s.begin w self below) + 1 ≤ w.load + below.load + s.size := by
  suffices h : loadOf (s.begin w self below) ≤ w.load + below.load + (s.size - 1) by
    have := s.size_pos
    omega
  have nothing : w.load + below.load ≤ w.load + below.load + (s.size - 1) := by omega
  cases s with
  | submit operation reply during onward =>
    refine loadOf_withCorrelator nothing (fun c => Nat.le_trans (loadOf_register ..) ?_)
    simp only [Listener.load, Step.size]
    omega
  | issue shape operation reply during =>
    refine loadOf_withCorrelator nothing (fun c => Nat.le_trans (loadOf_register ..) ?_)
    simp only [Listener.load, Step.size]
    omega
  | command cmd reply during =>
    simp only [Step.begin]
    split
    · simp
    · refine loadOf_withCorrelator (by simp) (fun c => Nat.le_trans (loadOf_register ..) ?_)
      simp only [Listener.load, Step.size, World.load_installDefault]
      omega
  | runtimeConfig config status during =>
    simp only [Step.begin]
    split
    · simp
    · simp [loadOf, Frame.load, Step.size]
      omega
  | deliver target status payload =>
    exact loadOf_withCorrelator nothing (fun c => loadOf_withTarget nothing (fun h => by simp))
  | expire target =>
    refine loadOf_withCorrelator nothing (fun c => loadOf_withTarget nothing (fun h => ?_))
    split <;> simp [loadOf, Frame.load, answer]
  | sweep age order =>
    refine loadOf_withCorrelator nothing (fun c => ?_)
    split <;> simp
  | shutdown order => exact loadOf_withCorrelator nothing (fun c => by simp)
  | drop order =>
    simp only [Step.begin]
    split
    · refine loadOf_withCorrelator nothing (fun c => ?_)
      split <;> simp [World.load, World.note]
    · simp
  | callback target status arguments =>
    exact loadOf_withTarget nothing (fun h => by simp)
  | fire target status argument =>
    refine loadOf_withTarget nothing (fun h => ?_)
    split <;> simp
  | install config =>
    simp only [Step.begin]
    split <;> simp
  | installDefault => exact loadOf_withCorrelator (by simp) (fun c => by simp)
  | isInstalled => simp [Step.begin]
  | ask question => exact loadOf_withCorrelator nothing (fun c => by simp)
  | seed next => exact loadOf_withCorrelator nothing (fun c => by simp)
  | sleep time => simp [Step.begin, World.load]
  | poll n =>
    refine loadOf_withCall nothing (fun call => ?_)
    simp only [loadOf_answer]
    split <;> simp
  | timeout n limit => exact loadOf_withCall nothing (fun call => by simp)
  | defaultTimeout n =>
    refine loadOf_withCorrelator nothing (fun c => loadOf_withCall nothing (fun call => ?_))
    split <;> simp
  | wait n completion =>
    refine loadOf_withCorrelator nothing (fun c => loadOf_withCall nothing (fun call => ?_))
    split <;> simp
  | forget n => exact loadOf_withCall nothing (fun call => by simp)
  | view n => exact loadOf_withCall nothing (fun call => by simp)

theorem loadOf_resolve (w : World) (id : OperationId) (outcome : Outcome) (cause : Cause)
    (after : Aftermath) (below : Stack) :
    loadOf (resolve w id outcome cause after below) = w.load + below.load := by
  simp only [resolve]
  split
  · simp [loadOf, Frame.load]
  · next o v h =>
    have hload := World.load_of_resolveOnce h
    split
    · next number steps hl =>
      simp only [hl, Listener.load] at hload
      simp only [loadOf, Stack.load_cons, Frame.load]
      omega
    · next shape isListening hl =>
      simp only [hl, Listener.load] at hload
      split <;> simp [loadOf, Frame.load] <;> omega

theorem height_resolve (w : World) (id : OperationId) (outcome : Outcome) (cause : Cause)
    (after : Aftermath) (below : Stack) :
    (resolve w id outcome cause after below).2.height ≤
      4 + 6 * after.entriesLeft + below.height := by
  simp only [resolve]
  split
  · simp only [Stack.height_cons, Frame.height]
    omega
  · split <;> simp only [Stack.height_cons, Frame.height] <;> omega

theorem loadOf_conclude (w : World) (ran : Bool) (below : Stack) (after : Aftermath) :
    loadOf (conclude w ran below after) = w.load + below.load := by
  cases after <;> cases ran <;> simp [conclude]

theorem height_conclude (w : World) (ran : Bool) (below : Stack) (after : Aftermath) :
    (conclude w ran below after).2.height ≤ 6 * after.entriesLeft + below.height := by
  cases after <;>
    simp [conclude, Aftermath.entriesLeft, height_sweepOn, height_shutdownOn, height_dropOn]

theorem loadOf_resume (w : World) (answers : List Answer) (stack : Stack) :
    loadOf (resume w answers stack) = w.load + stack.load := by
  unfold resume
  split
  · simp [loadOf_returned, Frame.load]
  · simp [Frame.load]
  · simp [loadOf, Frame.load]
  · rfl

theorem height_resume (w : World) (answers : List Answer) (stack : Stack) :
    (resume w answers stack).2.height ≤ stack.height := by
  unfold resume
  split
  · have := height_returned w
    simp only [Stack.height_cons, Frame.height]
    grind
  · simp [Frame.height]
  · simp [Frame.height]
  · exact Nat.le_refl _

/-- Every section uses up a step, or keeps the steps and lowers the stack. -/
theorem advance_lt {w v : World} {stack stack' : Stack} (h : advance w stack = some (v, stack')) :
    v.load + stack'.load < w.load + stack.load ∨
      v.load + stack'.load = w.load + stack.load ∧ stack'.height < stack.height := by
  unfold advance at h
  split at h
  · next self s rest answers below =>
    left
    have := loadOf_begin w self (.script self rest answers :: below) s
    simp only [Option.some.injEq] at h
    simp only [h, loadOf, Stack.load_cons, Frame.load, Step.sizes] at this ⊢
    omega
  · cases h
  · next self answers below _ =>
    right
    have hload := loadOf_resume w answers below
    have hheight := height_resume w answers below
    simp only [Option.some.injEq] at h
    simp only [h, loadOf] at hload hheight
    simp only [Stack.load_cons, Frame.load, Step.sizes, Stack.height_cons, Frame.height]
    omega
  · next id outcome cause after below =>
    right
    have hload := loadOf_resolve w id outcome cause after below
    have hheight := height_resolve w id outcome cause after below
    simp only [Option.some.injEq] at h
    simp only [h, loadOf] at hload hheight
    simp only [Stack.load_cons, Frame.load, Stack.height_cons, Frame.height]
    omega
  · next after ran below =>
    right
    have hload := loadOf_conclude w ran below after
    have hheight := height_conclude w ran below after
    simp only [Option.some.injEq] at h
    simp only [h, loadOf] at hload hheight
    simp only [Stack.load_cons, Frame.load, Stack.height_cons, Frame.height]
    omega
  · next id ticket operation handle status below =>
    right
    have hload := loadOf_returned w id ticket operation handle status [] below
    have hheight := height_returned w id ticket operation handle status [] below
    simp only [Option.some.injEq] at h
    simp only [h, loadOf] at hload hheight
    simp only [Stack.load_cons, Frame.load, Stack.height_cons, Frame.height]
    omega
  · right
    cases h
    simp [Frame.load, Frame.height]
  · right
    cases h
    simp [Frame.load, Frame.height]
  · cases h

/-! ### Running -/

/-- A thread's sections, one after the other, until it has no more to do. -/
def run (w : World) (stack : Stack) : World × Stack :=
  match _h : advance w stack with
  | some (v, stack') => run v stack'
  | none => (w, stack)
  termination_by (w.load + stack.load, stack.height)
  decreasing_by
    rcases advance_lt _h with h | ⟨h, h'⟩
    · exact Prod.Lex.left _ _ h
    · rw [h]
      exact Prod.Lex.right _ h'

/-- The answer that a finished thread has last. -/
def lastAnswer : Stack → Answer
  | .script _ _ answers :: _ => answers.getLast?.getD .done
  | _ => .done

/-- Steps from start to end, one after the other, without anything in between. -/
def World.runSteps (w : World) (steps : List Step) : World × Stack :=
  run w [.script none steps []]

/-- One step from start to end, and its answer. -/
def World.perform (w : World) (s : Step) : World × Answer :=
  let (w, stack) := w.runSteps [s]
  (w, lastAnswer stack)

end CommandBridge

import CommandBridge.Proofs.Session.Provenance

/-!
# The channel of a call

A call is told the outcome of its operation through a channel.  One end is with the call, the other
is with the resolver of the operation, which is kept alive by everyone who may still have to resolve
the operation: its entry in the table, and the frames of a thread that works on it.  If the last of
them let go of the resolver with nothing sent, the channel would be closed, and the call would have
to report that its command was dropped without being resolved.

* `Stack.keeps` — the operations whose resolver a frame keeps alive;
* `World.channel` — the channel of an operation: nothing sent yet, the outcome, or closed;
* `BridgeError.abandoned`, `World.polled` — the error of a closed channel, and what a call receives;
* `World.Sound.channel_ne_closed` — **no channel is ever closed**;
* `Session.polled_ne_abandoned` — nor is the error of a closed channel told in any other way.
-/

namespace CommandBridge

/-! ### Who keeps a resolver alive -/

/-- The operations that are still to be answered for or resolved after this. -/
def Aftermath.keeps : Aftermath → List OperationId
  | .refuse id _ _ => [id]
  | .fail id _ _ _ _ _ => [id]
  | .deliver entry _ _ => [entry.owner]
  | .sweep _ rest _ _ => rest.map Entry.owner
  | .shutdown rest _ => rest.map Entry.owner
  | .drop rest => rest.map Entry.owner
  | _ => []

/-- The operations whose resolver a frame keeps alive. -/
def Frame.keeps : Frame → List OperationId
  | .native id _ _ _ _ => [id]
  | .resolve id _ _ after => id :: after.keeps
  | .continuation id after => id :: after.keeps
  | .conclude after _ => after.keeps
  | _ => []

/-- The operations whose resolver a thread keeps alive. -/
def Stack.keeps (stack : Stack) : List OperationId :=
  stack.flatMap Frame.keeps

theorem Aftermath.keeps_of_owed {after : Aftermath} {id : OperationId} (h : id ∈ after.owed) :
    id ∈ after.keeps := by
  cases after with
  | shutdown rest count => exact h
  | drop rest => exact h
  | _ => cases h

/-- Whoever owes the resolution of an operation keeps its resolver alive. -/
theorem Stack.keeps_of_owed {stack : Stack} {id : OperationId} (h : id ∈ stack.owed) :
    id ∈ stack.keeps := by
  obtain ⟨f, hf, hid⟩ := List.mem_flatMap.mp h
  refine List.mem_flatMap.mpr ⟨f, hf, ?_⟩
  cases f with
  | resolve other outcome cause after =>
    rw [Frame.owed] at hid
    split at hid
    · rcases List.mem_cons.mp hid with rfl | hlater
      · exact List.mem_cons_self
      · exact List.mem_cons_of_mem _ (Aftermath.keeps_of_owed hlater)
    · exact List.mem_cons_of_mem _ (Aftermath.keeps_of_owed hid)
  | continuation other after => exact List.mem_cons_of_mem _ (Aftermath.keeps_of_owed hid)
  | conclude after ran => exact Aftermath.keeps_of_owed hid
  | _ => cases hid

/-! ### Channels -/

/-- What is in the channel of an operation. -/
inductive Channel where
  | waiting
  | sent (outcome : Outcome)
  /-- Nothing was sent, and nothing can be sent any more. -/
  | closed
  deriving DecidableEq

/-- The channel of an operation, where a thread has this stack. -/
def World.channel (w : World) (stack : Stack) (id : OperationId) : Channel :=
  match w.outcome? id with
  | some outcome => .sent outcome
  | none => if id ∈ w.owners ++ stack.keeps then .waiting else .closed

/-- The error of a call whose channel is closed. -/
def BridgeError.abandoned (handle : Option CommandHandle) : BridgeError :=
  { kind := .shutDown
    code := BridgeError.boundaryStatus
    detail := some
      s!"command {CommandHandle.listingOption handle} was dropped without being resolved" }

/-- What a call receives from its channel, if anything. -/
def World.polled (w : World) (stack : Stack) (call : PendingCall) : Option (Result call.shape) :=
  match call.source with
  | .operation id =>
    match w.channel stack id with
    | .waiting => none
    | .sent outcome => some (call.shape.result outcome)
    | .closed => some (.error (.abandoned call.handle))
  | .failed error => some (.error error)

namespace World.Sound

variable {w : World} {stack : Stack} {id : OperationId}

/-- Until an operation is resolved, its entry or a thread keeps its resolver alive. -/
theorem channel_of_open (h : w.Sound stack.owed) (hid : id < w.operations.length)
    (hopen : w.outcome? id = none) : w.channel stack id = .waiting := by
  have hkept : id ∈ w.owners ++ stack.keeps := by
    rcases List.mem_append.mp (h.covered id hid hopen) with hentry | howed
    · exact List.mem_append_left _ hentry
    · exact List.mem_append_right _ (Stack.keeps_of_owed howed)
  simp only [channel, hopen, if_pos hkept]

/-- **The channel of an operation is never closed.** -/
theorem channel_ne_closed (h : w.Sound stack.owed) (hid : id < w.operations.length) :
    w.channel stack id ≠ .closed := by
  cases hopen : w.outcome? id with
  | none =>
    rw [h.channel_of_open hid hopen]
    exact fun heq => by cases heq
  | some outcome =>
    simp only [channel, hopen]
    exact fun heq => by cases heq

/-- So a call receives the result of its operation, and nothing else. -/
theorem polled_eq (h : w.Sound stack.owed) (hid : id < w.operations.length) {call : PendingCall}
    (hsource : call.source = .operation id) : w.polled stack call = w.result? call := by
  simp only [polled, result?, hsource]
  cases hopen : w.outcome? id with
  | none =>
    rw [h.channel_of_open hid hopen]
    rfl
  | some outcome =>
    simp only [channel, hopen]
    rfl

end World.Sound

/-! ### The error of a closed channel -/

namespace BridgeError

variable {handle : Option CommandHandle}

/-- The messages differ in their last letter. -/
theorem shutDown_ne_abandoned (h : CommandHandle) : shutDown h ≠ abandoned handle := by
  intro heq
  have hmessage : "command " ++ h.render ++ " was pending when the correlator shut down" =
      "command " ++ CommandHandle.listingOption handle ++ " was dropped without being resolved" :=
    Option.some.inj (congrArg detail heq)
  have hletter := congrArg (fun message => message.toList.reverse.head?) hmessage
  simp at hletter

theorem refused_ne_abandoned (operation : String) : refused operation ≠ abandoned handle := by
  intro heq
  have hmessage : "cannot issue " ++ operation ++ ": the correlator is shut down" =
      "command " ++ CommandHandle.listingOption handle ++ " was dropped without being resolved" :=
    Option.some.inj (congrArg detail heq)
  have hletter := congrArg (fun message => message.toList.reverse.head?) hmessage
  simp at hletter

theorem timeoutOf_ne_abandoned (h : Option CommandHandle) : timeoutOf h ≠ abandoned handle := by
  intro heq
  cases h <;> cases congrArg kind heq

end BridgeError

/-- No cause brings the error of a closed channel. -/
theorem Cause.outcome_ne_abandoned (statuses : StatusTable) (cause : Cause)
    (handle : Option CommandHandle) : cause.outcome statuses ≠ .error (.abandoned handle) := by
  have herrorOf : ∀ status, statuses.errorOf status ≠ .abandoned handle := fun status =>
    StatusTable.errorOf_ne (Option.some_ne_none _) (fun _ heq => by cases heq)
  intro heq
  cases cause with
  | refused operation =>
    exact BridgeError.refused_ne_abandoned operation (Except.error.inj heq)
  | failed h status => exact herrorOf status (Except.error.inj heq)
  | delivered h status payload => exact herrorOf status (error_of_delivered heq)
  | expired h => exact BridgeError.timeoutOf_ne_abandoned (some h) (Except.error.inj heq)
  | swept h => exact BridgeError.timeoutOf_ne_abandoned (some h) (Except.error.inj heq)
  | shutDown h => exact BridgeError.shutDown_ne_abandoned h (Except.error.inj heq)
  | dropped h => exact BridgeError.shutDown_ne_abandoned h (Except.error.inj heq)
  | gaveUp h => exact BridgeError.timeoutOf_ne_abandoned h (Except.error.inj heq)

/-- The error of a payload of another form has another kind. -/
theorem Shape.decode_ne_abandoned (shape : Shape) (payload : Payload)
    (handle : Option CommandHandle) : shape.decode payload ≠ .error (.abandoned handle) := by
  intro heq
  cases shape <;> cases payload <;> cases heq

/-- **No call ever receives the error of a closed channel.** -/
theorem Session.polled_ne_abandoned {c : Correlator} (hc : c.IsFresh) {steps : List Step}
    (hseeds : ∀ n ∈ Step.seedsIn steps, 0 < n)
    (hfits : ∀ m, Reaches (start c steps) m → m.1.Fits) {m : World × Stack}
    (hm : Reaches (start c steps) m) {id : OperationId} (hid : id < m.1.operations.length)
    {call : PendingCall} (hsource : call.source = .operation id) (handle : Option CommandHandle) :
    m.1.polled m.2 call ≠ some (.error (.abandoned handle)) := by
  rw [(hm.sound_of_fits hc hseeds hfits).polled_eq hid hsource]
  simp only [World.result?, hsource]
  cases hopen : m.1.outcome? id with
  | none => exact fun heq => by cases heq
  | some outcome =>
    obtain ⟨cause, hresolved⟩ := exists_resolvedBy_of_fits hc hseeds hfits hm hopen
    rw [Option.map_some]
    intro heq
    have hresult := Option.some.inj heq
    cases houtcome : outcome with
    | ok payload =>
      rw [houtcome] at hresult
      exact Shape.decode_ne_abandoned call.shape payload handle hresult
    | error e =>
      rw [houtcome] at hresult
      have hbrought := hresolved.brought
      rw [houtcome, Except.error.inj hresult] at hbrought
      exact Cause.outcome_ne_abandoned c.statuses cause handle hbrought.symm

end CommandBridge

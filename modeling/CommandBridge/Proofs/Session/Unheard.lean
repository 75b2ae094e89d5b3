import CommandBridge.Proofs.Session.Attendance
import CommandBridge.Proofs.Session.Closed
import CommandBridge.Proofs.Session.Likeness

/-!
# A call that is dropped, and a call that is kept

A caller may give its call up at any time.  Nothing is cancelled by it: the operation goes its way
as if the call were kept, and only the journal says that nobody heard its outcome.  To see this, two
states are compared, the one with the call and the one without it, section by section.

* `DroppedCall` — the call, its operation, and what was on record when it was dropped;
* `DroppedCall.echo` — what is on record without the call for an event that is on record with it;
* `DroppedCall.Alike` — the same state with the call and without it;
* `DroppedCall.Matches` — such states, and the same stack;
* `DroppedCall.likeness` — so all sections but attempts to resolve go the same way;
* `DroppedCall.matches_resolve` — an attempt to resolve an operation, heard or unheard;
* `DroppedCall.exists_matches` — **every section does the same on both sides**, as long as it is not
  about the call itself.
-/

namespace CommandBridge

/-! ### With the call and without it -/

/-- A call that is dropped. -/
structure DroppedCall where
  number : Nat
  call : PendingCall
  /-- The operation of the call, and what it is called in logs. -/
  id : OperationId
  name : String
  /-- What had happened before. -/
  before : List Event

/-- What is on record without the call, the last event first: the outcome of its operation finds
nobody to hear it. -/
def DroppedCall.echo (x : DroppedCall) : Event → List Event
  | .resolved id outcome cause =>
    if id = x.id then [.unheard x.id x.name, .resolved id outcome cause]
    else [.resolved id outcome cause]
  | e => [e]

/-- The operation once its caller has stopped listening. -/
def Operation.deaf (o : Operation) : Operation :=
  { o with listener := o.listener.deaf }

/-- The same state with the call and without it.  The caller of its operation listens or not, and
the record of the outcome that nobody heard may be there; nothing else differs. -/
structure DroppedCall.Alike (x : DroppedCall) (w w' : World) : Prop where
  correlator : w'.correlator = w.correlator
  operations : w'.operations = w.operations.modify x.id Operation.deaf
  named : ∃ o, w.operations[x.id]? = some o ∧ o.name = x.name
  calls : w'.calls = w.calls.set x.number none
  kept : w.call? x.number = some x.call
  callbacks : w'.callbacks = w.callbacks
  clock : w'.clock = w.clock
  journal : ∃ since, w.journal = since ++ x.before ∧
    w'.journal = since.flatMap x.echo ++ x.before

/-- Changes of one operation each that do not depend on one another may change places. -/
theorem modify_comm {α : Type} {f g : α → α} (hfg : ∀ a, f (g a) = g (f a)) (i j : Nat)
    (l : List α) : (l.modify i f).modify j g = (l.modify j g).modify i f := by
  by_cases hij : i = j
  · subst hij
    rw [List.modify_modify_eq, List.modify_modify_eq]
    congr 1
    funext a
    exact (hfg a).symm
  · exact List.modify_modify_ne f g l hij

/-- A change of an element that was there leaves an added one alone. -/
theorem modify_concat {α : Type} (f : α → α) {i : Nat} {l : List α} (hi : i < l.length) (a : α) :
    (l ++ [a]).modify i f = l.modify i f ++ [a] := by
  induction l generalizing i with
  | nil => exact absurd hi (Nat.not_lt_zero i)
  | cons b l ih =>
    cases i with
    | zero => rfl
    | succ i =>
      simp only [List.cons_append, List.modify_succ_cons]
      rw [ih (Nat.lt_of_succ_lt_succ hi)]

theorem countP_modify {α : Type} {p : α → Bool} {f : α → α} (hf : ∀ a, p (f a) = p a) (i : Nat)
    (l : List α) : (l.modify i f).countP p = l.countP p := by
  induction l generalizing i with
  | nil => cases i <;> rfl
  | cons a l ih =>
    cases i with
    | zero => simp only [List.modify_zero_cons, List.countP_cons, hf]
    | succ i => simp only [List.modify_succ_cons, List.countP_cons, ih]

/-- Only the outcome of an operation has an echo of its own. -/
theorem DroppedCall.echo_of_isOutcome (x : DroppedCall) {e : Event} (he : e.isOutcome = false) :
    x.echo e = [e] := by
  cases e with
  | resolved id outcome cause => cases he
  | _ => rfl

namespace DroppedCall.Alike

variable {x : DroppedCall} {w w' : World}

/-! ### What both sides see -/

theorem length (h : x.Alike w w') : w'.operations.length = w.operations.length := by
  rw [h.operations, List.length_modify]

theorem nextId (h : x.Alike w w') : w'.nextId = w.nextId :=
  h.length

theorem lt (h : x.Alike w w') : x.id < w.operations.length := by
  obtain ⟨o, hid, -⟩ := h.named
  exact (List.getElem?_eq_some_iff.mp hid).1

/-- All other operations are the same. -/
theorem getElem?_of_ne (h : x.Alike w w') {id : OperationId} (hid : id ≠ x.id) :
    w'.operations[id]? = w.operations[id]? := by
  rw [h.operations, List.getElem?_modify]
  simp only [Ne.symm hid, if_false, Option.map_eq_map, Option.map_id']

theorem getElem?_id (h : x.Alike w w') {o : Operation} (ho : w.operations[x.id]? = some o) :
    w'.operations[x.id]? = some o.deaf := by
  rw [h.operations, List.getElem?_modify, ho]
  simp only [if_true, Option.map_eq_map, Option.map_some]

theorem outcome? (h : x.Alike w w') (id : OperationId) : w'.outcome? id = w.outcome? id := by
  unfold World.outcome?
  by_cases hid : id = x.id
  · obtain ⟨o, ho, -⟩ := h.named
    rw [hid, h.getElem?_id ho, ho]
    rfl
  · rw [h.getElem?_of_ne hid]

theorem result? (h : x.Alike w w') (call : PendingCall) : w'.result? call = w.result? call := by
  unfold World.result?
  split
  · rw [h.outcome?]
  · rfl

theorem call? (h : x.Alike w w') {n : Nat} (hn : n ≠ x.number) : w'.call? n = w.call? n := by
  unfold World.call?
  rw [h.calls, List.getElem?_set_ne (Ne.symm hn)]

/-- Without the call there is nothing under its number. -/
theorem call?_number (h : x.Alike w w') : w'.call? x.number = none := by
  unfold World.call?
  rw [h.calls, List.getElem?_set_self (World.call?_lt h.kept)]
  rfl

theorem callsLength (h : x.Alike w w') : w'.calls.length = w.calls.length := by
  rw [h.calls, List.length_set]

/-- A continuation is never taken for a caller, whoever listens. -/
theorem submittedCount (h : x.Alike w w') : w'.submittedCount = w.submittedCount := by
  unfold World.submittedCount
  rw [h.operations]
  apply countP_modify
  intro o
  cases hlistener : o.listener with
  | continuation number steps => simp only [Operation.deaf, hlistener, Listener.deaf]
  | caller shape isListening => simp only [Operation.deaf, hlistener, Listener.deaf]

/-! ### The same change on both sides -/

theorem note (h : x.Alike w w') {e : Event} (he : x.echo e = [e]) :
    x.Alike (w.note e) (w'.note e) := by
  obtain ⟨since, hjournal, hjournal'⟩ := h.journal
  refine ⟨h.correlator, h.operations, h.named, h.calls, h.kept, h.callbacks, h.clock, e :: since,
    ?_, ?_⟩
  · show e :: w.journal = e :: since ++ x.before
    rw [hjournal, List.cons_append]
  · show e :: w'.journal = (e :: since).flatMap x.echo ++ x.before
    rw [hjournal', List.flatMap_cons, he]
    rfl

theorem setPresence (h : x.Alike w w') (p : Presence) :
    x.Alike { w with correlator := p } { w' with correlator := p } :=
  ⟨rfl, h.operations, h.named, h.calls, h.kept, h.callbacks, h.clock, h.journal⟩

theorem begin (h : x.Alike w w') (name : String) (listener : Listener) :
    x.Alike (w.begin name listener) (w'.begin name listener) := by
  have hlt := h.lt
  refine ⟨h.correlator, ?_, ?_, h.calls, h.kept, h.callbacks, h.clock, h.journal⟩
  · show w'.operations ++ [_] = (w.operations ++ [_]).modify x.id Operation.deaf
    rw [h.operations, modify_concat _ hlt]
  · obtain ⟨o, hid, hname⟩ := h.named
    refine ⟨o, ?_, hname⟩
    show (w.operations ++ [_])[x.id]? = some o
    rw [List.getElem?_append_left hlt, hid]

theorem addCall (h : x.Alike w w') (call : PendingCall) :
    x.Alike (w.addCall call) (w'.addCall call) := by
  have hlt := World.call?_lt h.kept
  refine ⟨h.correlator, h.operations, h.named, ?_, ?_, h.callbacks, h.clock, h.journal⟩
  · show w'.calls ++ [some call] = (w.calls ++ [some call]).set x.number none
    rw [h.calls, List.set_append_left _ _ hlt]
  · show (w.calls ++ [some call])[x.number]?.join = some x.call
    rw [List.getElem?_append_left hlt]
    exact h.kept

/-- Another call is used up. -/
theorem useUp (h : x.Alike w w') {n : Nat} (hn : n ≠ x.number) :
    x.Alike (w.useUp n) (w'.useUp n) := by
  refine ⟨h.correlator, h.operations, h.named, ?_, ?_, h.callbacks, h.clock, h.journal⟩
  · show w'.calls.set n none = (w.calls.set n none).set x.number none
    rw [h.calls, List.set_comm _ _ (Ne.symm hn)]
  · rw [World.call?_useUp, if_neg (Ne.symm hn)]
    exact h.kept

/-- A change of an operation that does not ask who listens. -/
theorem modify (h : x.Alike w w') (id : OperationId) {f : Operation → Operation}
    (hname : ∀ o, (f o).name = o.name) (hf : ∀ o, (f o).deaf = f o.deaf) :
    x.Alike { w with operations := w.operations.modify id f }
      { w' with operations := w'.operations.modify id f } := by
  refine ⟨h.correlator, ?_, ?_, h.calls, h.kept, h.callbacks, h.clock, h.journal⟩
  · show w'.operations.modify id f = (w.operations.modify id f).modify x.id Operation.deaf
    rw [h.operations]
    exact modify_comm hf x.id id w.operations
  · obtain ⟨o, hid, hsame⟩ := h.named
    show ∃ p, (w.operations.modify id f)[x.id]? = some p ∧ p.name = x.name
    rw [List.getElem?_modify, hid]
    refine ⟨_, rfl, ?_⟩
    split
    · exact (hname o).trans hsame
    · exact hsame

theorem stopListening (h : x.Alike w w') (call : PendingCall) :
    x.Alike (w.stopListening call) (w'.stopListening call) := by
  unfold World.stopListening
  split
  · exact h.modify _ (fun _ => rfl) (fun _ => rfl)
  · exact h

theorem recordOutcome (h : x.Alike w w') {id : OperationId} (hid : id ≠ x.id) (outcome : Outcome)
    (cause : Cause) :
    x.Alike (w.recordOutcome id outcome cause) (w'.recordOutcome id outcome cause) := by
  have hset : x.Alike (w.setOutcome id outcome) (w'.setOutcome id outcome) :=
    h.modify id (fun _ => rfl) (fun _ => rfl)
  apply hset.note
  show (if id = x.id then _ else _) = _
  rw [if_neg hid]

/-- The outcome of the operation itself is the same, and without the call nobody hears it. -/
theorem recordUnheard (h : x.Alike w w') (outcome : Outcome) (cause : Cause) :
    x.Alike (w.recordOutcome x.id outcome cause)
      ((w'.recordOutcome x.id outcome cause).note (.unheard x.id x.name)) := by
  have hset : x.Alike (w.setOutcome x.id outcome) (w'.setOutcome x.id outcome) :=
    h.modify x.id (fun _ => rfl) (fun _ => rfl)
  obtain ⟨since, hjournal, hjournal'⟩ := hset.journal
  refine ⟨hset.correlator, hset.operations, hset.named, hset.calls, hset.kept, hset.callbacks,
    hset.clock, .resolved x.id outcome cause :: since, ?_, ?_⟩
  · show _ :: (w.setOutcome x.id outcome).journal = _
    rw [hjournal, List.cons_append]
  · show _ :: _ :: (w'.setOutcome x.id outcome).journal = _
    rw [hjournal', List.flatMap_cons, echo, if_pos rfl]
    rfl

theorem handOver (h : x.Alike w w') (ticket : Ticket) (handle : CommandHandle) :
    x.Alike (ticket.handOver handle w) (ticket.handOver handle w') := by
  cases ticket with
  | command cmd arguments =>
    exact ⟨h.correlator, h.operations, h.named, h.calls, h.kept,
      congrArg ((handle, cmd.callback) :: ·) h.callbacks, h.clock, h.journal⟩
  | _ => exact h

theorem sleep (h : x.Alike w w') (time : Nat) :
    x.Alike { w with clock := w.clock + time } { w' with clock := w'.clock + time } :=
  ⟨h.correlator, h.operations, h.named, h.calls, h.kept, h.callbacks,
    congrArg (· + time) h.clock, h.journal⟩

end DroppedCall.Alike

/-- **When a call is dropped**, the states before and after differ in nothing else. -/
theorem World.alike_of_dropped {w : World} {n : Nat} {call : PendingCall} {id : OperationId}
    {o : Operation} (hcall : w.call? n = some call) (hsource : call.source = .operation id)
    (ho : w.operations[id]? = some o) :
    DroppedCall.Alike ⟨n, call, id, o.name, w.journal⟩ w ((w.useUp n).stopListening call) := by
  have hdropped : (w.useUp n).stopListening call =
      { w.useUp n with operations := w.operations.modify id Operation.deaf } := by
    unfold World.stopListening
    rw [hsource]
    rfl
  rw [hdropped]
  exact ⟨rfl, rfl, ⟨o, ho, rfl⟩, rfl, hcall, rfl, rfl, [], rfl, rfl⟩

/-! ### Sections -/

/-- The same state with the call and without it, and the same stack. -/
structure DroppedCall.Matches (x : DroppedCall) (m m' : World × Stack) : Prop where
  world : x.Alike m.1 m'.1
  stack : m'.2 = m.2

namespace DroppedCall

/-- Such states and equal stacks go together, as far as other calls are concerned. -/
def likeness (x : DroppedCall) : Likeness where
  worldRel := x.Alike
  stackRel s s' := s' = s
  isLoose := False
  shares n := n ≠ x.number
  correlator h := h.correlator
  clock h := h.clock
  callbacks h := h.callbacks
  nextId h := h.nextId
  submittedCount h := .inl h.submittedCount
  callsLength h := h.callsLength
  call? h _ hn := h.call? hn
  result? h call := h.result? call
  note h e he := h.note (x.echo_of_isOutcome he)
  continued h _ _ _ hsame := by
    rw [hsame.resolve_right not_false]
    exact h.note rfl
  setPresence h p := h.setPresence p
  beginCaller h name _ := h.begin name _
  beginContinuation h name _ _ _ hsame := by
    rw [hsame.resolve_right not_false]
    exact h.begin name _
  addCall h call := h.addCall call
  useUp h _ hn := h.useUp hn
  stopListening h call := h.stopListening call
  handOver h ticket handle := h.handOver ticket handle
  sleep h time := h.sleep time
  push h _ _ _ hsame := by rw [h, hsame.resolve_right not_false]
  reply h _ _ hsame := by rw [h, hsame.resolve_right not_false]
  isOutermost h := by rw [h]

theorem matches_of_holds {x : DroppedCall} {m m' : World × Stack} (h : x.likeness.Holds m m') :
    x.Matches m m' :=
  ⟨h.world, h.stack⟩

section Sections

variable {x : DroppedCall} {w w' : World}

/-- **An attempt to resolve an operation goes the same way.**  With the call, its caller hears the
outcome; without it, the journal says that nobody did. -/
theorem matches_resolve (h : x.Alike w w') (hlistens : w.Listens x.id) (id : OperationId)
    (outcome : Outcome) (cause : Cause) (after : Aftermath) (below : Stack) :
    x.Matches (resolve w id outcome cause after below)
      (resolve w' id outcome cause after below) := by
  unfold resolve World.resolveOnce
  by_cases hid : id = x.id
  · -- the operation of the call: only who listens to it differs
    obtain ⟨o, shape, ho, hlistener⟩ := hlistens
    obtain ⟨p, hp, hname⟩ := h.named
    obtain rfl : o = p := Option.some.inj (ho.symm.trans hp)
    have hdeaf : o.deaf.listener = .caller shape false := by
      unfold Operation.deaf
      rw [hlistener]
      rfl
    have hsame : o.deaf.outcome = o.outcome := rfl
    have hsameName : o.deaf.name = x.name := hname
    subst hid
    simp only [ho, h.getElem?_id ho, hsame]
    by_cases hopen : o.outcome.isNone = true
    · simp only [if_pos hopen, hlistener, hdeaf, hsameName]
      exact ⟨h.recordUnheard outcome cause, rfl⟩
    · simp only [if_neg hopen]
      exact ⟨h, rfl⟩
  · -- any other operation is the same on both sides, whoever listens to it
    have hset := h.recordOutcome hid outcome cause
    rw [h.getElem?_of_ne hid]
    cases w.operations[id]? with
    | none => exact ⟨h, rfl⟩
    | some o =>
      dsimp only
      by_cases hopen : o.outcome.isNone = true
      · simp only [if_pos hopen]
        split
        · exact ⟨hset, rfl⟩
        · refine ⟨?_, rfl⟩
          split
          · exact hset
          · exact hset.note rfl
      · simp only [if_neg hopen]
        exact ⟨h, rfl⟩

/-- **Every section does the same with the call and without it**, unless it begins a step that is
about the call. -/
theorem exists_matches (h : x.Alike w w') (hlistens : w.Listens x.id) {stack : Stack}
    (hnext : ∀ s, stack.next? = some s → s.call? ≠ some x.number) :
    (advance w stack = none ∧ advance w' stack = none) ∨
      ∃ m m', advance w stack = some m ∧ advance w' stack = some m' ∧ x.Matches m m' := by
  have hworlds : x.likeness.worldRel w w' := h
  have hsame : ∀ s : Stack, x.likeness.stackRel s s := fun _ => rfl
  have hresume : ∀ answers f below,
      x.Matches (resume w answers (f :: below)) (resume w' answers (f :: below)) :=
    fun answers f below => matches_of_holds
      (Likeness.holds_resume hworlds (hsame below) (.refl f) (.inl rfl) (.inl rfl))
  match stack with
  | [] => exact .inl ⟨rfl, rfl⟩
  | .script self (s :: rest) answers :: below =>
    have hshared : ∀ n, s.call? = some n → n ≠ x.number := by
      rintro n hn rfl
      exact hnext s rfl hn
    exact .inr ⟨_, _, rfl, rfl,
      matches_of_holds (Likeness.holds_begin hworlds (hsame _) self hshared)⟩
  | [.script self [] answers] => exact .inl ⟨rfl, rfl⟩
  | .script self [] answers :: f :: below => exact .inr ⟨_, _, rfl, rfl, hresume answers f below⟩
  | .resolve id outcome cause after :: below =>
    exact .inr ⟨_, _, rfl, rfl, matches_resolve h hlistens id outcome cause after below⟩
  | .conclude after ran :: below =>
    exact .inr ⟨_, _, rfl, rfl,
      matches_of_holds (Likeness.holds_conclude hworlds (hsame below) ran .same (.inl rfl))⟩
  | .native id ticket operation handle status :: below =>
    exact .inr ⟨_, _, rfl, rfl, hresume [] (.native id ticket operation handle status) below⟩
  | .configure call status :: below =>
    exact .inr ⟨_, _, rfl, rfl, hresume [] (.configure call status) below⟩
  | .continuation id after :: below =>
    exact .inr ⟨_, _, rfl, rfl, hresume [] (.continuation id after) below⟩

end Sections

end DroppedCall

end CommandBridge

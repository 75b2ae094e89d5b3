import CommandBridge.Proofs.Session.Likeness
import CommandBridge.Proofs.Session.Returns

/-!
# Callers do what continuations without steps do

An operation is begun for a caller, who holds a call, or for a continuation.  A caller does nothing
when the operation is resolved: the outcome is kept, and the call reads it off.  So a thread goes on
in the same way if the caller of an operation is replaced by a continuation without steps, which
only keeps the outcome as well.

* `Listener.Alike`, `World.Alike` — states that differ in the listener of one operation, and in
  nothing else that threads share;
* `Stack.Alike` — stacks that differ in what was answered, and in the numbers of continuations;
* `Related` — both together, above a given pair of stacks;
* `Related.likeness` — so all sections but attempts to resolve go the same way;
* `exists_alike_resolve` — an attempt to resolve an operation, for its caller and for a continuation;
* `exists_related` — **a section of the one is matched by some sections of the other**;
* `Related.exists_reaches` — so a thread goes through states like those of the other to the end.
-/

namespace CommandBridge

/-! ### States -/

/-- Events that do not come from a listener itself. -/
def Event.isCommon : Event → Bool
  | .continued _ _ => false
  | .unheard _ _ => false
  | _ => true

/-- The second listener does what the first does.  A caller may be replaced if it `isIssued`. -/
inductive Listener.Alike (isIssued : Prop) : Listener → Listener → Prop
  | continuation {number number' : Nat} {steps : List Step} :
      Alike isIssued (.continuation number steps) (.continuation number' steps)
  | caller {shape : Shape} {isListening : Bool} :
      Alike isIssued (.caller shape isListening) (.caller shape isListening)
  /-- A caller, and a continuation that only keeps the outcome. -/
  | kept {shape : Shape} {isListening : Bool} {number : Nat} (h : isIssued) :
      Alike isIssued (.caller shape isListening) (.continuation number [])

theorem Listener.Alike.deaf {isIssued : Prop} {l l' : Listener} (h : l.Alike isIssued l') :
    l.deaf.Alike isIssued l'.deaf := by
  cases h with
  | continuation => exact .continuation
  | caller => exact .caller
  | kept h => exact .kept h

/-- The operations differ in their listeners only, and these are alike. -/
structure Operation.Alike (isIssued : Prop) (o o' : Operation) : Prop where
  name : o'.name = o.name
  outcome : o'.outcome = o.outcome
  listener : o.listener.Alike isIssued o'.listener

/-- Nothing that threads share differs but the listener of the operation `issued`, the numbers of
continuations, and what listeners note. -/
structure World.Alike (issued : OperationId) (w w' : World) : Prop where
  correlator : w'.correlator = w.correlator
  length : w'.operations.length = w.operations.length
  operations : ∀ (id : OperationId) (o o' : Operation), w.operations[id]? = some o →
    w'.operations[id]? = some o' → o.Alike (id = issued) o'
  calls : w'.calls = w.calls
  callbacks : w'.callbacks = w.callbacks
  clock : w'.clock = w.clock
  journal : w'.journal.filter Event.isCommon = w.journal.filter Event.isCommon

namespace World.Alike

variable {issued : OperationId} {w w' : World}

theorem refl (issued : OperationId) (w : World) : w.Alike issued w := by
  refine ⟨rfl, rfl, fun id o o' ho ho' => ?_, rfl, rfl, rfl, rfl⟩
  cases ho.symm.trans ho'
  refine ⟨rfl, rfl, ?_⟩
  cases o.listener with
  | continuation number steps => exact .continuation
  | caller shape isListening => exact .caller

theorem nextId (h : w.Alike issued w') : w'.nextId = w.nextId :=
  h.length

/-- Operations of the same identity are alike. -/
theorem getElem? (h : w.Alike issued w') (id : OperationId) :
    (w.operations[id]? = none ∧ w'.operations[id]? = none) ∨
      ∃ o o', w.operations[id]? = some o ∧ w'.operations[id]? = some o' ∧
        o.Alike (id = issued) o' := by
  rcases Nat.lt_or_ge id w.operations.length with hlt | hge
  · have ho := List.getElem?_eq_getElem hlt
    have ho' := List.getElem?_eq_getElem (h.length ▸ hlt : id < w'.operations.length)
    exact .inr ⟨_, _, ho, ho', h.operations id _ _ ho ho'⟩
  · exact .inl ⟨List.getElem?_eq_none hge, List.getElem?_eq_none (h.length ▸ hge)⟩

theorem outcome? (h : w.Alike issued w') (id : OperationId) : w'.outcome? id = w.outcome? id := by
  rcases h.getElem? id with ⟨hid, hid'⟩ | ⟨o, o', hid, hid', halike⟩
  · rw [World.outcome?, World.outcome?, hid, hid']
  · rw [World.outcome?, World.outcome?, hid, hid']
    exact halike.outcome

theorem result? (h : w.Alike issued w') (call : PendingCall) :
    w'.result? call = w.result? call := by
  unfold World.result?
  split
  · rw [h.outcome?]
  · rfl

theorem call? (h : w.Alike issued w') (n : Nat) : w'.call? n = w.call? n := by
  rw [World.call?, World.call?, h.calls]

/-! ### Changes that keep states alike -/

theorem note (h : w.Alike issued w') (e : Event) : (w.note e).Alike issued (w'.note e) := by
  refine ⟨h.correlator, h.length, h.operations, h.calls, h.callbacks, h.clock, ?_⟩
  simp only [World.note, List.filter_cons, h.journal]

/-- What a listener notes need not be the same. -/
theorem note_right (h : w.Alike issued w') {e : Event} (he : e.isCommon = false) :
    w.Alike issued (w'.note e) := by
  refine ⟨h.correlator, h.length, h.operations, h.calls, h.callbacks, h.clock, ?_⟩
  rw [World.note, List.filter_cons_of_neg (by simp [he]), h.journal]

theorem note_left (h : w.Alike issued w') {e : Event} (he : e.isCommon = false) :
    (w.note e).Alike issued w' := by
  refine ⟨h.correlator, h.length, h.operations, h.calls, h.callbacks, h.clock, ?_⟩
  rw [World.note, List.filter_cons_of_neg (by simp [he]), h.journal]

theorem setPresence (h : w.Alike issued w') (p : Presence) :
    World.Alike issued { w with correlator := p } { w' with correlator := p } :=
  ⟨rfl, h.length, h.operations, h.calls, h.callbacks, h.clock, h.journal⟩

theorem setTable (h : w.Alike issued w') (t : PendingTable) :
    (w.setTable t).Alike issued (w'.setTable t) := by
  unfold World.setTable
  rw [h.correlator]
  split
  · exact h.setPresence _
  · exact h

theorem begin (h : w.Alike issued w') (name : String) {l l' : Listener}
    (hl : l.Alike (w.nextId = issued) l') : (w.begin name l).Alike issued (w'.begin name l') := by
  refine ⟨h.correlator, ?_, fun id o o' ho ho' => ?_, h.calls, h.callbacks, h.clock, h.journal⟩
  · simp only [World.begin, List.length_append, h.length]
    rfl
  · simp only [World.begin, List.getElem?_append, h.length] at ho ho'
    split at ho
    · next hlt =>
      rw [if_pos hlt] at ho'
      exact h.operations id o o' ho ho'
    · next hge =>
      rw [if_neg hge] at ho'
      rw [List.getElem?_singleton] at ho ho'
      split at ho
      · next hlast =>
        have hid : w.nextId = id := by
          show w.operations.length = id
          omega
        rw [if_pos hlast] at ho'
        cases ho
        cases ho'
        exact ⟨rfl, rfl, hid ▸ hl⟩
      · cases ho

theorem addCall (h : w.Alike issued w') (call : PendingCall) :
    (w.addCall call).Alike issued (w'.addCall call) :=
  ⟨h.correlator, h.length, h.operations, congrArg (· ++ [some call]) h.calls, h.callbacks, h.clock,
    h.journal⟩

theorem useUp (h : w.Alike issued w') (n : Nat) : (w.useUp n).Alike issued (w'.useUp n) :=
  ⟨h.correlator, h.length, h.operations, congrArg (·.set n none) h.calls, h.callbacks, h.clock,
    h.journal⟩

/-- The same change of an operation on both sides. -/
theorem modify (h : w.Alike issued w') (id : OperationId) {f : Operation → Operation}
    (hf : ∀ {isIssued o o'}, Operation.Alike isIssued o o' → (f o).Alike isIssued (f o')) :
    World.Alike issued { w with operations := w.operations.modify id f }
      { w' with operations := w'.operations.modify id f } := by
  refine ⟨h.correlator, ?_, fun other o o' ho ho' => ?_, h.calls, h.callbacks, h.clock, h.journal⟩
  · simp only [List.length_modify, h.length]
  · simp only [List.getElem?_modify] at ho ho'
    obtain ⟨p, hp, rfl⟩ := Option.map_eq_some_iff.mp ho
    obtain ⟨p', hp', rfl⟩ := Option.map_eq_some_iff.mp ho'
    have halike := h.operations other p p' hp hp'
    split
    · exact hf halike
    · exact halike

theorem stopListening (h : w.Alike issued w') (call : PendingCall) :
    (w.stopListening call).Alike issued (w'.stopListening call) := by
  unfold World.stopListening
  split
  · exact h.modify _ (fun halike => ⟨halike.name, halike.outcome, halike.listener.deaf⟩)
  · exact h

theorem recordOutcome (h : w.Alike issued w') (id : OperationId) (outcome : Outcome)
    (cause : Cause) :
    (w.recordOutcome id outcome cause).Alike issued (w'.recordOutcome id outcome cause) :=
  (h.modify id (f := fun o => { o with outcome := some outcome })
    (fun halike => ⟨halike.name, rfl, halike.listener⟩)).note _

theorem handOver (h : w.Alike issued w') (ticket : Ticket) (handle : CommandHandle) :
    (ticket.handOver handle w).Alike issued (ticket.handOver handle w') := by
  cases ticket with
  | command cmd arguments =>
    exact ⟨h.correlator, h.length, h.operations, h.calls,
      congrArg ((handle, cmd.callback) :: ·) h.callbacks, h.clock, h.journal⟩
  | _ => exact h

theorem sleep (h : w.Alike issued w') (time : Nat) :
    World.Alike issued { w with clock := w.clock + time } { w' with clock := w'.clock + time } :=
  ⟨h.correlator, h.length, h.operations, h.calls, h.callbacks, congrArg (· + time) h.clock,
    h.journal⟩

theorem statuses (h : w.Alike issued w') : w'.statuses = w.statuses := by
  rw [World.statuses, World.statuses, h.correlator]

end World.Alike

/-! ### Stacks -/

/-- Alike frames above two stacks, the lowest of them a list of steps. -/
inductive Stack.Alike (base base' : Stack) : Stack → Stack → Prop
  | steps {self : Option CommandHandle} {rest : List Step} {answers answers' : List Answer} :
      Alike base base' (.script self rest answers :: base) (.script self rest answers' :: base')
  | push {f f' : Frame} {stack stack' : Stack} (hf : f.Alike f')
      (h : Alike base base' stack stack') : Alike base base' (f :: stack) (f' :: stack')

@[simp] theorem Stack.length_reply (a : Answer) (stack : Stack) :
    (reply a stack).length = stack.length := by
  cases stack with
  | nil => rfl
  | cons f below => cases f <;> rfl

namespace Stack.Alike

variable {base base' stack stack' : Stack}

theorem reply (h : Alike base base' stack stack') (a a' : Answer) :
    Alike base base' (reply a stack) (CommandBridge.reply a' stack') := by
  cases h with
  | steps => exact .steps
  | push hf h =>
    cases hf with
    | script => exact .push .script h
    | native hticket => exact .push (.native hticket) h
    | configure => exact .push .configure h
    | resolve hafter => exact .push (.resolve hafter) h
    | continuation hafter => exact .push (.continuation hafter) h
    | conclude hafter => exact .push (.conclude hafter) h

theorem length (h : Alike base base' stack stack') (hbase : base'.length = base.length) :
    stack'.length = stack.length := by
  induction h with
  | steps => exact congrArg (· + 1) hbase
  | push _ _ ih => exact congrArg (· + 1) ih

end Stack.Alike

/-- States and stacks that are alike, the stacks above `base` and `base'`. -/
structure Related (issued : OperationId) (base base' : Stack) (m m' : World × Stack) : Prop where
  world : m.1.Alike issued m'.1
  stack : Stack.Alike base base' m.2 m'.2

/-! ### Sections -/

/-- Alike states and alike stacks go together, above any two stacks of one height.  Answers may
differ, as continuations may have other numbers. -/
def Related.likeness (issued : OperationId) {base base' : Stack}
    (hbase : base'.length = base.length) : Likeness where
  worldRel := World.Alike issued
  stackRel := Stack.Alike base base'
  isLoose := True
  shares := fun _ => True
  correlator h := h.correlator
  clock h := h.clock
  callbacks h := h.callbacks
  nextId h := h.nextId
  submittedCount _ := .inr trivial
  callsLength h := congrArg List.length h.calls
  call? h _ _ := h.call? _
  result? h call := h.result? call
  note h e _ := h.note e
  continued h id _ _ _ := (h.note_left rfl).note_right rfl
  setPresence h p := h.setPresence p
  beginCaller h name _ := h.begin name .caller
  beginContinuation h name _ _ _ _ := h.begin name .continuation
  addCall h call := h.addCall call
  useUp h n _ := h.useUp n
  stopListening h call := h.stopListening call
  handOver h ticket handle := h.handOver ticket handle
  sleep h time := h.sleep time
  push h _ _ hf _ := .push hf h
  reply h a a' _ := h.reply a a'
  isOutermost h := by rw [isOutermost, isOutermost, h.length hbase]

theorem Likeness.Holds.related {issued : OperationId} {base base' : Stack}
    {hbase : base'.length = base.length} {m m' : World × Stack}
    (h : (Related.likeness issued hbase).Holds m m') : Related issued base base' m m' :=
  ⟨h.world, h.stack⟩

section Sections

variable {issued : OperationId} {w w' : World}

/-- **The same attempt to resolve an operation goes alike**: it is concluded, or a continuation
starts.  Where a caller is told on the one side, the continuation without steps on the other is done
in one more section. -/
theorem exists_alike_resolve (hw : w.Alike issued w') (id : OperationId) (outcome : Outcome)
    (cause : Cause) (after after' : Aftermath) (stack stack' : Stack) :
    ∃ v v' n', v.Alike issued v' ∧
      Inside stack' (w', .resolve id outcome cause after' :: stack') n' ∧
      ((∃ ran, resolve w id outcome cause after stack = (v, .conclude after ran :: stack) ∧
          n' = (v', .conclude after' ran :: stack')) ∨
        ∃ steps, resolve w id outcome cause after stack =
            (v, .script none steps [] :: .continuation id after :: stack) ∧
          n' = (v', .script none steps [] :: .continuation id after' :: stack')) := by
  have hset := hw.recordOutcome id outcome cause
  have hfirst : Inside stack' (w', .resolve id outcome cause after' :: stack')
      (resolve w' id outcome cause after' stack') := .single ⟨.work (by simp), rfl⟩
  unfold resolve World.resolveOnce at hfirst ⊢
  rcases hw.getElem? id with ⟨hid, hid'⟩ | ⟨o, o', hid, hid', halike⟩
  · simp only [hid, hid'] at hfirst ⊢
    exact ⟨w, w', _, hw, hfirst, .inl ⟨false, rfl, rfl⟩⟩
  · simp only [hid, hid', halike.outcome] at hfirst ⊢
    cases hopen : o.outcome with
    | some old =>
      rw [hopen] at hfirst
      exact ⟨w, w', _, hw, hfirst, .inl ⟨false, rfl, rfl⟩⟩
    | none =>
      rw [hopen] at hfirst
      have hlistener := halike.listener
      simp only [Option.isNone_none, if_true] at hfirst ⊢
      generalize o.listener = l, o'.listener = l' at hlistener hfirst ⊢
      cases hlistener with
      | continuation => exact ⟨_, _, _, hset, hfirst, .inr ⟨_, rfl, rfl⟩⟩
      | @caller shape isListening =>
        cases isListening with
        | true => exact ⟨_, _, _, hset, hfirst, .inl ⟨true, rfl, rfl⟩⟩
        | false =>
          rw [halike.name] at hfirst
          exact ⟨_, _, _, hset.note (.unheard id o.name), hfirst, .inl ⟨true, rfl, rfl⟩⟩
      | @kept shape isListening number _ =>
        have hdone := (hfirst.tail ⟨.push (.work (by simp)), rfl⟩ : Inside stack' _
          (((w'.setOutcome id outcome).note (.resolved id outcome cause)).note (.continued id []),
            .conclude after' true :: stack'))
        have hlast := hset.note_right (e := .continued id []) rfl
        cases isListening with
        | true => exact ⟨_, _, _, hlast, hdone, .inl ⟨true, rfl, rfl⟩⟩
        | false =>
          have hunheard := hlast.note_left (e := .unheard id o.name) rfl
          exact ⟨_, _, _, hunheard, hdone, .inl ⟨true, rfl, rfl⟩⟩

end Sections

/-! ### Runs -/

/-- Any number of sections on stacks with `base` at the bottom. -/
abbrev Upon (base : Stack) : World × Stack → World × Stack → Prop :=
  Relation.ReflTransGen (fun m n => base <:+ m.2 ∧ Moves m n)

/-- A stack with a frame of work in it has this work above what is below it. -/
theorem Stack.over_of_suffix {base stack : Stack} {f : Frame}
    (hf : ∀ self rest answers, f ≠ .script self rest answers) (h : f :: base <:+ stack) :
    Stack.Over base stack := by
  obtain ⟨top, rfl⟩ := h
  induction top with
  | nil => exact .work hf
  | cons g top ih => exact .push ih

namespace Upon

variable {base : Stack} {m n : World × Stack}

theorem reaches (h : Upon base m n) : Reaches m n :=
  Relation.ReflTransGen.mono (fun _ _ hmoves => hmoves.2) _ _ h

/-- What happens upon a frame of work happens above what is below it. -/
theorem inside {f : Frame} (hf : ∀ self rest answers, f ≠ .script self rest answers)
    (h : Upon (f :: base) m n) : Inside base m n :=
  Relation.ReflTransGen.mono (fun _ _ hmoves => ⟨Stack.over_of_suffix hf hmoves.1, hmoves.2⟩) _ _ h

end Upon

theorem Stack.Over.suffix {base stack : Stack} (h : Stack.Over base stack) : base <:+ stack := by
  induction h with
  | work _ => exact List.suffix_cons _ _
  | push _ ih => exact ih.trans (List.suffix_cons _ _)

theorem Inside.upon {base high : Stack} {m n : World × Stack} (h : Inside high m n)
    (hbase : base <:+ high) : Upon base m n :=
  Relation.ReflTransGen.mono (fun _ _ hmoves => ⟨hbase.trans hmoves.1.suffix, hmoves.2⟩) _ _ h

theorem Stack.Alike.suffixes {base base' stack stack' : Stack}
    (h : Stack.Alike base base' stack stack') : base <:+ stack ∧ base' <:+ stack' := by
  induction h with
  | steps => exact ⟨List.suffix_cons _ _, List.suffix_cons _ _⟩
  | push _ _ ih => exact ⟨ih.1.trans (List.suffix_cons _ _), ih.2.trans (List.suffix_cons _ _)⟩

section Runs

variable {issued : OperationId} {base base' below below' : Stack} {w w' : World}
variable {m m' n : World × Stack}

/-- An attempt to resolve an operation above alike stacks. -/
theorem exists_resolved (hw : w.Alike issued w') (hs : Stack.Alike base base' below below')
    {after after' : Aftermath} (hafter : after.Alike after') (id : OperationId)
    (outcome : Outcome) (cause : Cause) :
    ∃ n', Upon base' (w', .resolve id outcome cause after' :: below') n' ∧
      Related issued base base' (resolve w id outcome cause after below) n' := by
  obtain ⟨v, v', n', hv, hinside, ⟨ran, hleft, rfl⟩ | ⟨steps, hleft, rfl⟩⟩ :=
    exists_alike_resolve hw id outcome cause after after' below below'
  · rw [hleft]
    exact ⟨_, hinside.upon hs.suffixes.2, hv, .push (.conclude hafter) hs⟩
  · rw [hleft]
    exact ⟨_, hinside.upon hs.suffixes.2, hv, .push .script (.push (.continuation hafter) hs)⟩

/-- **Every section is matched**, until only the steps at the bottom are left, and they are done. -/
theorem exists_related (h : Related issued base base' m m') (hbase : base'.length = base.length)
    (hmoves : Moves m n) :
    (∃ self answers answers', m.2 = .script self [] answers :: base ∧
        m'.2 = .script self [] answers' :: base') ∨
      ∃ n', Upon base' m' n' ∧ Related issued base base' n n' := by
  obtain ⟨w, stack⟩ := m
  obtain ⟨w', stack'⟩ := m'
  obtain ⟨hw, hs⟩ := h
  -- a section that is matched by one section
  have hone : ∀ {p p'}, (Related.likeness issued hbase).Holds p p' → Moves (w, stack) p →
      Moves (w', stack') p' →
      ∃ n', Upon base' (w', stack') n' ∧ Related issued base base' n n' := by
    intro p p' hholds hmoves' hmoves''
    obtain rfl := hmoves.unique hmoves'
    exact ⟨p', .single ⟨hs.suffixes.2, hmoves''⟩, hholds.related⟩
  cases hs with
  | @steps self rest answers answers' =>
    cases rest with
    | nil => exact .inl ⟨self, answers, answers', rfl, rfl⟩
    | cons s rest =>
      have hsteps : Stack.Alike base base' (.script self rest answers :: base)
          (.script self rest answers' :: base') := .steps
      exact .inr (hone (Likeness.holds_begin hw hsteps self (fun _ _ => trivial)) rfl rfl)
  | @push f f' below below' hf hbelow =>
    refine .inr ?_
    cases hf with
    | @script self rest answers answers' =>
      cases rest with
      | cons s rest =>
        have hpushed : Stack.Alike base base' (.script self rest answers :: below)
            (.script self rest answers' :: below') := .push .script hbelow
        exact hone (Likeness.holds_begin hw hpushed self (fun _ _ => trivial)) rfl rfl
      | nil =>
        cases hbelow with
        | @steps self rest answers answers' =>
          have hsteps : Stack.Alike base base' (.script self rest answers :: base)
              (.script self rest answers' :: base') := .steps
          have hleft : (Related.likeness issued hbase).Holds
              (w, .script self rest answers :: base) (w', .script self rest answers' :: base') :=
            ⟨hw, hsteps⟩
          exact hone hleft rfl rfl
        | push hf hbelow =>
          exact hone (Likeness.holds_resume hw hbelow hf (.inr trivial) (.inr trivial)) rfl rfl
    | resolve hafter =>
      cases hmoves
      exact exists_resolved hw hbelow hafter _ _ _
    | conclude hafter =>
      exact hone (Likeness.holds_conclude hw hbelow _ hafter (.inr trivial)) rfl rfl
    | native hticket =>
      exact hone (Likeness.holds_resume hw hbelow (.native hticket) (.inr trivial) (.inl rfl))
        rfl rfl
    | configure =>
      exact hone (Likeness.holds_resume hw hbelow .configure (.inr trivial) (.inl rfl)) rfl rfl
    | continuation hafter =>
      exact hone (Likeness.holds_resume hw hbelow (.continuation hafter) (.inr trivial) (.inl rfl))
        rfl rfl

/-- **Whatever one thread does, a thread like it does alike.** -/
theorem Related.exists_reaches (h : Related issued [] [] m m')
    (hn : Reaches m n) : ∃ n', Reaches m' n' ∧ Related issued [] [] n n' := by
  induction hn with
  | refl => exact ⟨m', .refl, h⟩
  | tail _ hmoves ih =>
    obtain ⟨p', hp', hrelated⟩ := ih
    rcases exists_related hrelated rfl hmoves with ⟨self, answers, answers', hend, -⟩ |
      ⟨n', hn', hnext⟩
    · have hnone := hmoves
      rw [Moves, hend] at hnone
      cases hnone
    · exact ⟨n', hp'.trans hn'.reaches, hnext⟩

/-- A thread is like itself. -/
theorem Stack.Alike.refl_of_rests {rest : List Step} {stack : Stack} (h : stack.Rests rest) :
    Stack.Alike [] [] stack stack := by
  induction stack with
  | nil => cases h
  | cons f below ih =>
    cases below with
    | nil =>
      obtain ⟨answers, rfl⟩ := h
      exact .steps
    | cons g below => exact .push (.refl f) (ih h)

end Runs

end CommandBridge

import CommandBridge.Proofs.Session.Attempts
import CommandBridge.Proofs.Session.Conservation

/-!
# Registrations under way, and calls handed out

A registration is under way from the moment that its operation is begun until its answer is given.
The call of an operation is handed out with this answer, so whoever holds the call comes after the
registration.

* `Frame.registering`, `Stack.registering` — the registrations that are under way;
* `World.Hears` — the operation reports to a caller;
* `Frame.Enrols`, `PendingCall.Enrolled` — what a registration under way and a call rely on;
* `Enrolment`, `Section.enrolment` — a section begins a registration, or ends one and hands its call
  out, or does neither;
* `Threads.Enrolled` — all this for threads: nobody registers an operation twice, and no call is
  handed out before its registration is over;
* `Threads.Enrolled.move`, `Threads.Regular.enrolled_follow`, `Reaches.enrolled` — every section,
  every schedule and every run keep it.
-/

namespace CommandBridge

/-! ### Registrations under way -/

/-- The registration that is to be answered after this. -/
def Aftermath.registering : Aftermath → List OperationId
  | .refuse id _ _ => [id]
  | .fail id _ _ _ _ _ => [id]
  | _ => []

/-- The registration that the frame is part of. -/
def Frame.registering : Frame → List OperationId
  | .native id _ _ _ _ => [id]
  | .resolve _ _ _ after => after.registering
  | .continuation _ after => after.registering
  | .conclude after _ => after.registering
  | _ => []

/-- The operations that a thread is about to register. -/
def Stack.registering (stack : Stack) : List OperationId :=
  stack.flatMap Frame.registering

namespace Stack

@[simp] theorem registering_reply (a : Answer) (stack : Stack) :
    registering (reply a stack) = registering stack := by
  cases stack with
  | nil => rfl
  | cons f below => cases f <;> rfl

@[simp] theorem registering_sweepOn (w : World) (rest : List Entry)
    (expired : List CommandHandle) (age : Duration) (below : Stack) :
    registering (sweepOn w rest expired age below).2 = registering below := by
  cases rest with
  | nil => exact registering_reply _ below
  | cons e rest => rfl

@[simp] theorem registering_shutdownOn (w : World) (rest : List Entry) (count : Nat)
    (below : Stack) : registering (shutdownOn w rest count below).2 = registering below := by
  cases rest with
  | nil => exact registering_reply _ below
  | cons e rest => rfl

@[simp] theorem registering_dropOn (w : World) (rest : List Entry) (below : Stack) :
    registering (dropOn w rest below).2 = registering below := by
  cases rest with
  | nil => exact registering_reply _ below
  | cons e rest => rfl

end Stack

theorem Done.registering {stack below : Stack} {answers : List Answer}
    (h : Done stack answers below) : stack.registering = below.registering := by
  cases h <;> rfl

/-! ### Callers -/

/-- The operation reports to a caller. -/
def World.Hears (w : World) (id : OperationId) : Prop :=
  ∃ o shape isListening, w.operations[id]? = some o ∧ o.listener = .caller shape isListening

namespace World.Hears

variable {w v : World} {id : OperationId}

theorem congr (h : w.Hears id) (hoperations : v.operations = w.operations) : v.Hears id := by
  rw [Hears, hoperations]
  exact h

theorem append (h : w.Hears id) {added : List Operation}
    (hoperations : v.operations = w.operations ++ added) : v.Hears id := by
  obtain ⟨o, shape, isListening, hid, hlistener⟩ := h
  obtain ⟨hlt, -⟩ := List.getElem?_eq_some_iff.mp hid
  refine ⟨o, shape, isListening, ?_, hlistener⟩
  rw [hoperations, List.getElem?_append_left hlt, hid]

/-- Whatever happens to operations one by one, their callers stay. -/
theorem modify (h : w.Hears id) {other : OperationId} {f : Operation → Operation}
    (hoperations : v.operations = w.operations.modify other f)
    (hf : ∀ o, (f o).listener = o.listener ∨ (f o).listener = o.listener.deaf) : v.Hears id := by
  obtain ⟨o, shape, isListening, hid, hlistener⟩ := h
  by_cases hother : other = id
  · have hmodified : v.operations[id]? = some (f o) := by
      simp only [hoperations, List.getElem?_modify, hid, hother, if_true, Option.map_eq_map,
        Option.map_some]
    rcases hf o with hsame | hdeaf
    · exact ⟨f o, shape, isListening, hmodified, hsame.trans hlistener⟩
    · refine ⟨f o, shape, false, hmodified, ?_⟩
      rw [hdeaf, hlistener]
      rfl
  · refine ⟨o, shape, isListening, ?_, hlistener⟩
    simp only [hoperations, List.getElem?_modify, hid, hother, if_false, Option.map_eq_map,
      Option.map_some]

theorem quiet (h : w.Hears id) (hq : w.Quiet v) : v.Hears id := by
  rcases hq.operations with hsame | ⟨other, hmodify⟩
  · exact h.congr hsame
  · exact h.modify hmodify (fun _ => .inr rfl)

theorem recordOutcome (h : w.Hears id) (other : OperationId) (outcome : Outcome) (cause : Cause) :
    (w.recordOutcome other outcome cause).Hears id :=
  h.modify rfl (fun _ => .inl rfl)

theorem lt (h : w.Hears id) : id < w.operations.length := by
  obtain ⟨o, _, _, hid, -⟩ := h
  exact (List.getElem?_eq_some_iff.mp hid).1

/-- No section takes a caller away. -/
theorem effect {stack : Stack} (h : w.Hears id) (he : Effect w stack v) : v.Hears id := by
  cases he with
  | quiet hv => exact h.quiet hv
  | installed _ _ hv =>
    refine World.Hears.quiet ?_ hv
    exact h.congr rfl
  | retabled hu _ _ _ hv => exact ((h.quiet hu).congr (operations_setTable _ _)).quiet hv
  | dropped _ hu hv =>
    refine World.Hears.quiet (World.Hears.quiet ?_ hu) hv
    exact h.congr rfl
  | entered _ hu _ _ hv =>
    exact ((h.congr (operations_of_readied hu)).append operations_enter).quiet hv
  | refused _ hu => exact (h.congr (operations_of_readied hu)).append rfl
  | resolved _ _ _ hv => exact (h.recordOutcome _ _ _).quiet hv

end World.Hears

/-! ### What registrations and calls rely on -/

/-- The registration to be answered is that of an operation without an entry, which reports to a
caller if it was registered for a call. -/
def Aftermath.Enrols (w : World) : Aftermath → Prop
  | .refuse id ticket _ => id < w.operations.length ∧ id ∉ w.owners ∧
      (ticket.wantsCall = true → w.Hears id)
  | .fail id ticket _ _ _ _ => id < w.operations.length ∧ id ∉ w.owners ∧
      (ticket.wantsCall = true → w.Hears id)
  | _ => True

/-- The same for a frame; a native function works under the handle of its operation, and an attempt
that belongs to a registration is about the operation registered. -/
def Frame.Enrols (w : World) : Frame → Prop
  | .native id ticket _ handle _ => id < w.operations.length ∧ w.handlesGiven id = [handle] ∧
      (ticket.wantsCall = true → w.Hears id)
  | .resolve id _ _ after => after.Concerns id ∧ after.Enrols w
  | .continuation _ after => after.Enrols w
  | .conclude after _ => after.Enrols w
  | _ => True

/-- The operation of a call reports to a caller.  If the call has a handle, it is the one that the
operation was given; else the operation has no entry, or not any more. -/
def PendingCall.Enrolled (w : World) (call : PendingCall) : Prop :=
  ∀ id, call.source = .operation id → w.Hears id ∧
    ((∃ h, call.handle = some h ∧ w.handlesGiven id = [h]) ∨
      call.handle = none ∧ id ∉ w.owners)

section Later

variable {w v : World} {stack : Stack}

theorem Aftermath.Enrols.later {after : Aftermath} (h : after.Enrols w) (he : Effect w stack v) :
    after.Enrols v := by
  cases after with
  | refuse id ticket error =>
    obtain ⟨hid, hout, hhears⟩ := h
    exact ⟨Nat.lt_of_lt_of_le hid he.precedes.length, he.not_mem_owners hid hout,
      fun hwants => (hhears hwants).effect he⟩
  | fail id ticket operation handle error during =>
    obtain ⟨hid, hout, hhears⟩ := h
    exact ⟨Nat.lt_of_lt_of_le hid he.precedes.length, he.not_mem_owners hid hout,
      fun hwants => (hhears hwants).effect he⟩
  | _ => trivial

theorem Frame.Enrols.later {f : Frame} (h : f.Enrols w) (he : Effect w stack v) : f.Enrols v := by
  cases f with
  | native id ticket operation handle status =>
    obtain ⟨hid, hgiven, hhears⟩ := h
    refine ⟨Nat.lt_of_lt_of_le hid he.precedes.length, ?_, fun hwants => (hhears hwants).effect he⟩
    rw [he.precedes.given id hid, hgiven]
  | resolve id outcome cause after => exact ⟨h.1, Aftermath.Enrols.later h.2 he⟩
  | continuation id after => exact Aftermath.Enrols.later h he
  | conclude after ran => exact Aftermath.Enrols.later h he
  | _ => trivial

theorem PendingCall.Enrolled.later {call : PendingCall} (h : call.Enrolled w)
    (he : Effect w stack v) : call.Enrolled v := by
  intro id hsource
  obtain ⟨hhears, hhandle⟩ := h id hsource
  refine ⟨hhears.effect he, ?_⟩
  rcases hhandle with ⟨handle, hsome, hgiven⟩ | ⟨hnone, hout⟩
  · refine .inl ⟨handle, hsome, ?_⟩
    rw [he.precedes.given id hhears.lt, hgiven]
  · exact .inr ⟨hnone, he.not_mem_owners hhears.lt hout⟩

end Later

/-! ### Sections -/

/-- All frames are in order. -/
def Stack.Enrols (w : World) (stack : Stack) : Prop :=
  ∀ f ∈ stack, f.Enrols w

namespace Stack.Enrols

variable {w : World} {below : Stack}

theorem push (h : below.Enrols w) {f : Frame} (hf : f.Enrols w) : Stack.Enrols w (f :: below) :=
  List.forall_mem_cons.mpr ⟨hf, h⟩

theorem pop {f : Frame} (h : Stack.Enrols w (f :: below)) : below.Enrols w :=
  (List.forall_mem_cons.mp h).2

theorem top {f : Frame} (h : Stack.Enrols w (f :: below)) : f.Enrols w :=
  (List.forall_mem_cons.mp h).1

theorem later {v : World} {stack stack' : Stack} (h : stack.Enrols w) (he : Effect w stack' v) :
    stack.Enrols v :=
  fun f hf => (h f hf).later he

theorem reply (h : below.Enrols w) (a : Answer) : (reply a below).Enrols w :=
  forall_mem_reply (fun _ _ _ => trivial) h a

theorem goOn (h : below.Enrols w) (round : Round) (v : World) (entries : List Entry) :
    (round.goOn v entries below).2.Enrols w :=
  round.goOn_stack v h.reply (fun _ _ _ => h.push (by cases round <;> exact ⟨trivial, trivial⟩))

end Stack.Enrols

theorem Done.enrols {w : World} {stack below : Stack} {answers : List Answer}
    (hdone : Done stack answers below) (h : stack.Enrols w) : below.Enrols w := by
  cases hdone with
  | script => exact h.pop
  | bare => exact h

/-- The frames that the first section of a step puts on the stack are in order. -/
theorem Step.Begins.enrols {w v : World} {self : Option CommandHandle} {below stack : Stack}
    {s : Step} {owed : List OperationId} (hs : s.Begins w self below v stack)
    (hsound : w.Sound owed) (h : below.Enrols v) : stack.Enrols v := by
  cases hs with
  | answered _ _ => exact h.reply _
  | installed _ _ _ _ => exact h.reply _
  | seeded _ => exact h.reply _
  | @accepted _ r u c handle t hr hu hc ht =>
    have hquiet := World.quiet_handOver r.ticket handle (u.enter r.operation r.listener handle t)
    have hnew : (u.enter r.operation r.listener handle t).operations[u.nextId]? =
        some ⟨r.operation, r.listener, none⟩ := by
      rw [World.operations_enter]
      exact List.getElem?_concat_length
    refine Stack.Enrols.push ?_ trivial
    refine h.push ⟨?_, ?_, fun hwants => ?_⟩
    · rw [hquiet.length]
      exact (List.getElem?_eq_some_iff.mp hnew).1
    · rw [hquiet.handlesGiven, World.handlesGiven_enter, if_pos rfl,
        (hsound.readied hu).ungiven u.nextId (Nat.le_refl _)]
    · obtain ⟨shape, hlistener⟩ := Step.listener_of_registration hr hwants
      exact World.Hears.quiet ⟨_, shape, true, hnew, hlistener⟩ hquiet
  | @refused _ r u c hr hu hc ht =>
    have hnew : (u.begin r.operation r.listener).operations[u.nextId]? =
        some ⟨r.operation, r.listener, none⟩ := List.getElem?_concat_length
    refine h.push ⟨rfl, (List.getElem?_eq_some_iff.mp hnew).1, ?_, fun hwants => ?_⟩
    · exact fun hmem => (hsound.readied hu).nextId_not_mem (List.mem_append_left _ hmem)
    · obtain ⟨shape, hlistener⟩ := Step.listener_of_registration hr hwants
      exact ⟨_, shape, true, hnew, hlistener⟩
  | completed _ _ _ _ => exact h.push ⟨trivial, trivial⟩
  | expired _ _ _ => exact h.push ⟨trivial, trivial⟩
  | swept _ _ => exact h.goOn (.sweep _ _) _ _
  | shutDown _ => exact h.goOn (.shutdown _) _ _
  | dropped _ _ _ _ => exact h.goOn .drop _ _
  | gaveUp _ _ _ _ => exact h.push ⟨trivial, trivial⟩
  | configured =>
    refine Stack.Enrols.push ?_ trivial
    exact h.push trivial

/-- Whoever is owed has no entry. -/
theorem World.Sound.not_mem_owners_of_owed {w : World} {owed : List OperationId}
    (h : w.Sound owed) {id : OperationId} (hid : id ∈ owed) : id ∉ w.owners :=
  fun hmem => List.disjoint_of_nodup_append h.nodup hmem hid

section Sections

variable {w v : World} {stack stack' : Stack} {others : List OperationId}

/-- **Every section keeps the frames of its thread in order.** -/
theorem Section.enrols (hs : Section w stack v stack') (hsound : w.Sound (stack.owed ++ others))
    (h : stack.Enrols w) : stack'.Enrols v := by
  have hlater : stack.Enrols v := h.later hs.effect
  cases hs with
  | began hbegins => exact hbegins.enrols hsound (hlater.pop.push trivial)
  | left _ => exact hlater.pop
  | issued hdone => exact (hdone.enrols hlater).pop.reply _
  | @failed _ below during id ticket operation handle status c t hdone hstatus hc ht =>
    obtain ⟨hid, -, hhears⟩ := (hdone.enrols hlater).top
    refine (hdone.enrols hlater).pop.push ⟨rfl, hid, ?_, hhears⟩
    obtain ⟨e, hfind, rfl, rfl⟩ := PendingTable.removeOwned_eq_some ht
    exact (hsound.takenOut hc hfind).not_mem_owners_of_owed List.mem_cons_self
  | failedLate hdone _ _ => exact (hdone.enrols hlater).pop.reply _
  | configured hdone => exact (hdone.enrols hlater).pop.reply _
  | continued hdone => exact (hdone.enrols hlater).pop.push (hdone.enrols hlater).top
  | passed _ => exact hlater.pop.push hlater.top.2
  | ran _ _ _ =>
    refine Stack.Enrols.push ?_ trivial
    exact hlater.pop.push hlater.top.2
  | told _ _ _ _ _ => exact hlater.pop.push hlater.top.2
  | refused => exact hlater.pop.reply _
  | failedNow => exact hlater.pop.reply _
  | answered _ _ _ => exact hlater.pop.reply _
  | sweptOn => exact hlater.pop.goOn (.sweep _ _) _ _
  | shutDownOn => exact hlater.pop.goOn (.shutdown _) _ _
  | droppedOn => exact hlater.pop.goOn .drop _ _

/-- What a section does to the registrations under way and to the calls. -/
inductive Enrolment (w : World) (stack : Stack) (v : World) (stack' : Stack) : Prop
  | kept (hids : stack'.registering.Sublist stack.registering)
      (hcalls : ∀ call, some call ∈ v.calls → some call ∈ w.calls ∨ ∃ e, call.source = .failed e)
  /-- A registration begins. -/
  | begun (hids : stack'.registering = w.nextId :: stack.registering)
      (hcalls : ∀ call, some call ∈ v.calls → some call ∈ w.calls ∨ ∃ e, call.source = .failed e)
  /-- A registration ends, and its call may be handed out. -/
  | ended {id : OperationId} (hids : stack.registering = id :: stack'.registering)
      (hcalls : ∀ call, some call ∈ v.calls → some call ∈ w.calls ∨
        call.source = .operation id ∧ call.Enrolled v)

/-- The first section of a step begins a registration, or leaves registrations alone. -/
theorem Step.Begins.enrolment {self : Option CommandHandle} {below : Stack} {s : Step}
    (hs : s.Begins w self below v stack') (hstack : stack.registering = below.registering) :
    Enrolment w stack v stack' := by
  have hcalls : ∀ call, some call ∈ v.calls → some call ∈ w.calls ∨ ∃ e, call.source = .failed e :=
    fun _ hcall => hs.calls hcall
  have hkept : stack'.registering = below.registering → Enrolment w stack v stack' := by
    intro hsame
    refine .kept ?_ hcalls
    rw [hsame, hstack]
  cases hs with
  | answered _ _ => exact hkept (Stack.registering_reply ..)
  | installed _ _ _ _ => exact hkept (Stack.registering_reply ..)
  | seeded _ => exact hkept (Stack.registering_reply ..)
  | @accepted _ _ u _ _ _ _ hu _ _ =>
    have hid : u.nextId = w.nextId := congrArg List.length (World.operations_of_readied hu)
    refine .begun ?_ hcalls
    rw [hstack, ← hid]
    rfl
  | @refused _ _ u _ _ hu _ _ =>
    have hid : u.nextId = w.nextId := congrArg List.length (World.operations_of_readied hu)
    refine .begun ?_ hcalls
    rw [hstack, ← hid]
    rfl
  | completed _ _ _ _ => exact hkept rfl
  | expired _ _ _ => exact hkept rfl
  | swept _ _ => exact hkept (Stack.registering_sweepOn ..)
  | shutDown _ => exact hkept (Stack.registering_shutdownOn ..)
  | dropped _ _ _ _ => exact hkept (Stack.registering_dropOn ..)
  | gaveUp _ _ _ _ => exact hkept rfl
  | configured => exact hkept rfl

/-- The call that answers a registration is enrolled. -/
theorem enrolled_of_settle {ticket : Ticket} {u : World} {id : OperationId}
    {native : Option CommandHandle} {during : List Answer}
    {result : Except BridgeError CommandHandle} (hu : u.calls = w.calls)
    (hhears : ticket.wantsCall = true → v.Hears id)
    (hhandle : (∃ h, result.toOption = some h ∧ v.handlesGiven id = [h]) ∨
      result.toOption = none ∧ id ∉ v.owners) (call : PendingCall)
    (hcall : some call ∈ (ticket.settle u id native during result).1.calls) :
    some call ∈ w.calls ∨ call.source = .operation id ∧ call.Enrolled v := by
  rcases World.calls_settle hcall with hold | ⟨hsource, hsame, hwants⟩
  · exact .inl (hu ▸ hold)
  · refine .inr ⟨hsource, fun other hother => ?_⟩
    cases hsource.symm.trans hother
    rw [hsame]
    exact ⟨hhears hwants, hhandle⟩

/-- **A section begins a registration, or ends one and hands its call out, or does neither.** -/
theorem Section.enrolment (hs : Section w stack v stack') (hsound : w.Sound (stack.owed ++ others))
    (h : stack.Enrols w) : Enrolment w stack v stack' := by
  have hlater : stack.Enrols v := h.later hs.effect
  have hkept : stack'.registering = stack.registering → v.calls = w.calls →
      Enrolment w stack v stack' := by
    intro hsame hcalls
    refine .kept ?_ (fun call hcall => .inl (hcalls ▸ hcall))
    rw [hsame]
  cases hs with
  | began hbegins => exact hbegins.enrolment rfl
  | left _ => exact hkept rfl rfl
  | @issued _ below during id ticket operation handle hdone =>
    obtain ⟨-, hgiven, hhears⟩ := (hdone.enrols hlater).top
    refine .ended ?_ (enrolled_of_settle rfl hhears (.inl ⟨handle, rfl, hgiven⟩))
    rw [hdone.registering, Stack.registering_reply]
    rfl
  | failed hdone _ _ _ =>
    refine hkept ?_ (World.calls_setTable w _)
    rw [hdone.registering]
    rfl
  | @failedLate _ below during id ticket operation handle status hdone _ hgone =>
    obtain ⟨-, hgiven, hhears⟩ := (hdone.enrols hlater).top
    have hquiet : w.Quiet (ticket.settle (w.note (.failedLate id operation handle status)) id
        (some handle) during (.error (w.statuses.errorOf status))).1 :=
      World.quiet_settle_note rfl
    have hout : id ∉ w.owners := by
      intro hmem
      obtain ⟨other, hother, c, e, hc, hfind, rfl⟩ := hsound.holds_of_mem_owners hmem
      rw [hquiet.handlesGiven, hother] at hgiven
      cases hgiven
      cases (hgone c hc).symm.trans (PendingTable.removeOwned_of_find? hfind)
    refine .ended ?_ (enrolled_of_settle rfl hhears (.inr ⟨rfl, ?_⟩))
    · rw [hdone.registering, Stack.registering_reply]
      rfl
    · rw [World.owners, hquiet.entries]
      exact hout
  | configured hdone =>
    refine hkept ?_ rfl
    rw [hdone.registering, Stack.registering_reply]
    rfl
  | continued hdone =>
    refine hkept ?_ rfl
    rw [hdone.registering]
    rfl
  | passed _ => exact hkept rfl rfl
  | ran _ _ _ => exact hkept rfl rfl
  | told _ _ _ _ hcalls => exact hkept rfl hcalls
  | @refused id ticket error ran below =>
    obtain ⟨-, hout, hhears⟩ := hlater.top
    refine .ended ?_ (enrolled_of_settle rfl hhears (.inr ⟨rfl, hout⟩))
    rw [Stack.registering_reply]
    rfl
  | @failedNow id ticket operation handle error during ran below =>
    obtain ⟨-, hout, hhears⟩ := hlater.top
    refine .ended ?_ (enrolled_of_settle rfl hhears (.inr ⟨rfl, hout⟩))
    rw [Stack.registering_reply]
    rfl
  | answered _ _ hcalls =>
    refine .kept ?_ (fun call hcall => .inl (hcalls ▸ hcall))
    rw [Stack.registering_reply]
    exact List.sublist_append_right _ _
  | sweptOn => exact hkept (Stack.registering_sweepOn ..) (World.calls_sweepOn ..)
  | shutDownOn => exact hkept (Stack.registering_shutdownOn ..) (World.calls_shutdownOn ..)
  | droppedOn => exact hkept (Stack.registering_dropOn ..) (World.calls_dropOn ..)

end Sections

/-- A call of a failed command relies on no operation. -/
theorem PendingCall.enrolled_of_failed {call : PendingCall} (h : ∃ e, call.source = .failed e)
    (v : World) : call.Enrolled v ∧ ∀ id, call.source ≠ .operation id := by
  obtain ⟨e, he⟩ := h
  have hnone : ∀ id, call.source ≠ .operation id := by
    intro id hsource
    cases he.symm.trans hsource
  exact ⟨fun id hsource => absurd hsource (hnone id), hnone⟩

/-- **Nobody registers an operation twice, and no new call is one of an operation that is still
being registered**, whatever the other threads register. -/
theorem Enrolment.nodup_and_apart (h : Enrolment w stack v stack') {ids : List OperationId}
    (hnodup : (stack.registering ++ ids).Nodup) (hfresh : w.nextId ∉ stack.registering ++ ids) :
    (stack'.registering ++ ids).Nodup ∧
      ∀ call, some call ∈ v.calls → some call ∈ w.calls ∨ call.Enrolled v ∧
        ∀ id, call.source = .operation id → id ∉ stack'.registering ++ ids := by
  have hfailed : ∀ call : PendingCall, (∃ e, call.source = .failed e) → call.Enrolled v ∧
      ∀ id, call.source = .operation id → id ∉ stack'.registering ++ ids := by
    intro call hcall
    obtain ⟨henrolled, hnone⟩ := PendingCall.enrolled_of_failed hcall v
    exact ⟨henrolled, fun id hsource => absurd hsource (hnone id)⟩
  cases h with
  | kept hids hcalls =>
    exact ⟨hnodup.sublist (hids.append_right ids),
      fun call hcall => (hcalls call hcall).imp_right (hfailed call)⟩
  | begun hids hcalls =>
    refine ⟨?_, fun call hcall => (hcalls call hcall).imp_right (hfailed call)⟩
    rw [hids]
    exact List.nodup_cons.mpr ⟨hfresh, hnodup⟩
  | ended hids hcalls =>
    rw [hids] at hnodup
    obtain ⟨hout, hrest⟩ := List.nodup_cons.mp hnodup
    refine ⟨hrest, fun call hcall => (hcalls call hcall).imp_right ?_⟩
    rintro ⟨hsource, henrolled⟩
    refine ⟨henrolled, fun other hother hmem => hout ?_⟩
    cases hsource.symm.trans hother
    exact hmem

/-! ### Threads -/

theorem Frame.Enrols.begun {w : World} {f : Frame} (h : f.Enrols w) :
    ∀ id ∈ f.registering, id < w.operations.length := by
  have hafter : ∀ after : Aftermath, after.Enrols w →
      ∀ id ∈ after.registering, id < w.operations.length := by
    intro after hafter id hid
    cases after with
    | refuse other ticket error => exact List.mem_singleton.mp hid ▸ hafter.1
    | fail other ticket operation handle error during => exact List.mem_singleton.mp hid ▸ hafter.1
    | _ => cases hid
  intro id hid
  cases f with
  | native other ticket operation handle status => exact List.mem_singleton.mp hid ▸ h.1
  | resolve other outcome cause after => exact hafter after h.2 id hid
  | continuation other after => exact hafter after h id hid
  | conclude after ran => exact hafter after h id hid
  | _ => cases hid

namespace Threads

/-- The operations that are being registered. -/
def registering (t : Threads) : List OperationId :=
  t.running.flatMap Stack.registering

/-- The invariant of registrations and calls: nobody registers an operation twice, all frames and
calls are in order, and no call is handed out before its registration is over. -/
structure Enrolled (t : Threads) : Prop where
  nodup : t.registering.Nodup
  frames : ∀ stack ∈ t.running, stack.Enrols t.world
  calls : ∀ call, some call ∈ t.world.calls → call.Enrolled t.world
  apart : ∀ call id, some call ∈ t.world.calls → call.source = .operation id →
    id ∉ t.registering

/-- The registration of the operation is over. -/
def Registered (t : Threads) (id : OperationId) : Prop :=
  id < t.world.operations.length ∧ id ∉ t.registering

variable {t : Threads}

namespace Enrolled

theorem begun (h : t.Enrolled) : ∀ id ∈ t.registering, id < t.world.operations.length := by
  intro id hid
  obtain ⟨stack, hstack, hmem⟩ := List.mem_flatMap.mp hid
  obtain ⟨f, hf, hmem⟩ := List.mem_flatMap.mp hmem
  exact (h.frames stack hstack f hf).begun id hmem

/-- The caller of an operation comes after its registration. -/
theorem registered (h : t.Enrolled) {call : PendingCall} (hcall : some call ∈ t.world.calls)
    {id : OperationId} (hsource : call.source = .operation id) : t.Registered id :=
  ⟨(h.calls call hcall id hsource).1.lt, h.apart call id hcall hsource⟩

/-- What a section does to the registrations under way of all threads and to the calls. -/
theorem move_cases (h : t.Enrolled) (hsound : t.Sound) (i : Nat) :
    t.move i = t ∨ (∃ stack v stack' others, t.running[i]? = some stack ∧
      advance t.world stack = some (v, stack') ∧ t.move i = ⟨v, t.running.set i stack'⟩ ∧
      t.registering.Perm (stack.registering ++ others) ∧
      (t.move i).registering.Perm (stack'.registering ++ others) ∧
      stack'.Enrols v ∧ Enrolment t.world stack v stack') := by
  rcases Threads.move_cases t i with hsame | ⟨stack, v, stack', hi, hadvance, hmove⟩
  · exact .inl hsame
  · have hafter := flatMap_running_set Stack.registering hi stack'
    have hframes := h.frames stack (List.mem_of_getElem? hi)
    have hworld := hsound.world.perm (flatMap_running Stack.owed hi).symm
    refine .inr ⟨stack, v, stack', _, hi, hadvance, hmove, flatMap_running Stack.registering hi, ?_,
      (section_of_advance hadvance).enrols hworld hframes,
      (section_of_advance hadvance).enrolment hworld hframes⟩
    rw [hmove]
    exact hafter

/-- Only the next operation can be registered anew. -/
theorem registering_move (h : t.Enrolled) (hsound : t.Sound) (i : Nat) :
    ∀ id ∈ (t.move i).registering, id ∈ t.registering ∨ id = t.world.nextId := by
  intro id hid
  rcases h.move_cases hsound i with
    hsame | ⟨stack, v, stack', others, -, -, -, hbefore, hafter, -, henrolment⟩
  · rw [hsame] at hid
    exact .inl hid
  · rw [hbefore.mem_iff]
    have hnew := hafter.mem_iff.mp hid
    cases henrolment with
    | kept hids _ => exact .inl ((hids.append_right others).subset hnew)
    | begun hids _ =>
      rw [hids] at hnew
      rcases List.mem_cons.mp hnew with rfl | hold
      · exact .inr rfl
      · exact .inl hold
    | ended hids _ =>
      rw [hids]
      exact .inl (List.mem_cons_of_mem _ hnew)

/-- **Every section keeps the threads enrolled.** -/
theorem move (h : t.Enrolled) (hsound : t.Sound) (i : Nat) : (t.move i).Enrolled := by
  have hregistering := h.registering_move hsound i
  rcases h.move_cases hsound i with
    hsame | ⟨stack, v, stack', others, hi, hadvance, hmove, hbefore, hafter, hframes, henrolment⟩
  · rw [hsame]
    exact h
  · have heffect := (section_of_advance hadvance).effect
    have hfresh : t.world.nextId ∉ stack.registering ++ others :=
      fun hmem => Nat.lt_irrefl _ (h.begun _ (hbefore.mem_iff.mpr hmem))
    obtain ⟨hnodup, hnew⟩ :=
      henrolment.nodup_and_apart (hbefore.nodup_iff.mp h.nodup) hfresh
    rw [hmove] at hafter hregistering ⊢
    refine ⟨hafter.nodup_iff.mpr hnodup, fun other hother => ?_, fun call hcall => ?_,
      fun call id hcall hsource => ?_⟩
    · rcases List.mem_or_eq_of_mem_set hother with hthere | rfl
      · exact (h.frames other hthere).later heffect
      · exact hframes
    · rcases hnew call hcall with hthere | ⟨henrolled, -⟩
      · exact (h.calls call hthere).later heffect
      · exact henrolled
    · rcases hnew call hcall with hthere | ⟨-, happart⟩
      · -- a call that was there before stays away from the registrations under way
        obtain ⟨hlt, hout⟩ := h.registered hthere hsource
        intro hmem
        rcases hregistering id hmem with hstill | rfl
        · exact hout hstill
        · exact Nat.lt_irrefl _ hlt
      · exact fun hmem => happart id hsource (hafter.mem_iff.mp hmem)

end Enrolled

/-- A registration that is over stays over. -/
theorem Registered.move {id : OperationId} (hid : t.Registered id) (h : t.Enrolled)
    (hsound : t.Sound) (i : Nat) : (t.move i).Registered id := by
  obtain ⟨hlt, hout⟩ := hid
  refine ⟨?_, fun hmem => ?_⟩
  · rcases Threads.move_cases t i with hsame | ⟨stack, v, stack', -, hadvance, hmove⟩
    · rwa [hsame]
    · rw [hmove]
      exact Nat.lt_of_lt_of_le hlt (section_of_advance hadvance).precedes.length
  · rcases h.registering_move hsound i id hmem with hthere | rfl
    · exact hout hthere
    · exact Nat.lt_irrefl _ hlt

/-- Nobody has registered anything before threads start. -/
theorem enrolled_start (c : Correlator) (scripts : List (List Step)) :
    (start c scripts).Enrolled := by
  have hrunning : ∀ stack ∈ (start c scripts).running,
      ∃ steps, stack = [.script none steps []] := by
    intro stack hstack
    obtain ⟨steps, -, rfl⟩ := List.mem_map.mp hstack
    exact ⟨steps, rfl⟩
  have hnone : (start c scripts).registering = [] := by
    refine List.flatMap_eq_nil_iff.mpr (fun stack hstack => ?_)
    obtain ⟨steps, rfl⟩ := hrunning stack hstack
    rfl
  refine ⟨?_, fun stack hstack => ?_, fun call hcall => ?_, fun call id hcall => ?_⟩
  · rw [hnone]
    exact List.nodup_nil
  · obtain ⟨steps, rfl⟩ := hrunning stack hstack
    exact List.forall_mem_singleton.mpr trivial
  · cases hcall
  · cases hcall

variable {c : Correlator}

/-- **Every schedule keeps the threads enrolled.** -/
theorem Regular.enrolled_follow (h : t.Regular c) (henrolled : t.Enrolled)
    (hfits : ∀ schedule, (t.follow schedule).world.Fits) (schedule : List Nat) :
    (t.follow schedule).Enrolled := by
  induction schedule generalizing t with
  | nil => exact henrolled
  | cons i schedule ih =>
    exact ih (h.move (hfits [i])) (henrolled.move h.sound i) (fun later => hfits (i :: later))

end Threads

namespace Reaches

variable {c : Correlator} {steps : List Step} {m n : World × Stack}

/-- **Every state of a session is enrolled**, as long as the entries fit. -/
theorem enrolled (hc : c.IsFresh) (hseeds : ∀ n ∈ Step.seedsIn steps, 0 < n)
    (hfits : ∀ m, Reaches (Session.start c steps) m → m.1.Fits)
    (hm : Reaches (Session.start c steps) m) : Threads.Enrolled ⟨m.1, [m.2]⟩ := by
  induction hm with
  | refl => exact Threads.enrolled_start c [steps]
  | tail hreaches hmoves ih =>
    rw [← Threads.move_of_moves hmoves]
    exact ih.move (Reaches.regular hc hseeds hfits hreaches).sound 0

/-- A registration that is over stays over. -/
theorem registered (hc : c.IsFresh) (hseeds : ∀ n ∈ Step.seedsIn steps, 0 < n)
    (hfits : ∀ m, Reaches (Session.start c steps) m → m.1.Fits)
    (hm : Reaches (Session.start c steps) m) (hmn : Reaches m n) {id : OperationId}
    (hid : Threads.Registered ⟨m.1, [m.2]⟩ id) : Threads.Registered ⟨n.1, [n.2]⟩ id := by
  induction hmn with
  | refl => exact hid
  | tail hreaches hmoves ih =>
    have hreached := hm.trans hreaches
    rw [← Threads.move_of_moves hmoves]
    exact ih.move (Reaches.enrolled hc hseeds hfits hreached)
      (Reaches.regular hc hseeds hfits hreached).sound 0

end Reaches

end CommandBridge

import CommandBridge.Proofs.Session.Schedules
import CommandBridge.Proofs.Session.Ties

/-!
# Whoever holds a call is listened to

A call is handed out when the registration of its operation ends, and nobody gets a second call for
the same operation.  The operation reports to the caller until the caller gives the call up.  So an
operation whose call is still held never finds its caller gone.

* `Stack.registers` — the registrations that are under way, with their tickets;
* `World.Listens` — the caller of an operation listens;
* `World.Serves` — what a section may do to the calls and their callers;
* `Turnout` — a section begins a registration, or ends one, or does neither;
* `Step.Opens.turnout`, `turnout_resolve`, `turnout_conclude`, `turnout_of_advance` — no section
  does anything else;
* `World.Attended` — **each operation has one call at most, and its holder listens**;
* `Threads.attended_of_scripts`, `Threads.Attended.move`, `Threads.Attended.follow` — this holds
  from the start, whoever moves, and needs no assumption on handles or entries.
-/

namespace CommandBridge

/-! ### Registrations under way -/

/-- The registration that is to be answered after this. -/
def Aftermath.registers : Aftermath → List (OperationId × Ticket)
  | .refuse id ticket _ => [(id, ticket)]
  | .fail id ticket _ _ _ _ => [(id, ticket)]
  | _ => []

/-- The registration that the frame is part of. -/
def Frame.registers : Frame → List (OperationId × Ticket)
  | .native id ticket _ _ _ => [(id, ticket)]
  | .resolve _ _ _ after => after.registers
  | .continuation _ after => after.registers
  | .conclude after _ => after.registers
  | _ => []

/-- The operations that a thread is about to register, each with its ticket. -/
def Stack.registers (stack : Stack) : List (OperationId × Ticket) :=
  stack.flatMap Frame.registers

namespace Stack

@[simp] theorem registers_reply (a : Answer) (stack : Stack) :
    registers (reply a stack) = registers stack := by
  cases stack with
  | nil => rfl
  | cons f below => cases f <;> rfl

end Stack

/-! ### Callers -/

/-- The caller of the operation is still listening. -/
def World.Listens (w : World) (id : OperationId) : Prop :=
  ∃ o shape, w.operations[id]? = some o ∧ o.listener = .caller shape true

namespace World.Listens

variable {w v : World} {id : OperationId}

theorem lt (h : w.Listens id) : id < w.operations.length := by
  obtain ⟨o, _, hid, -⟩ := h
  exact (List.getElem?_eq_some_iff.mp hid).1

theorem congr (h : w.Listens id) (hoperations : v.operations = w.operations) : v.Listens id := by
  unfold Listens
  rw [hoperations]
  exact h

theorem append (h : w.Listens id) {added : List Operation}
    (hoperations : v.operations = w.operations ++ added) : v.Listens id := by
  have hlt := h.lt
  obtain ⟨o, shape, hid, hlistener⟩ := h
  refine ⟨o, shape, ?_, hlistener⟩
  rw [hoperations, List.getElem?_append_left hlt]
  exact hid

/-- A change of operations that keeps their listeners, or is about another operation. -/
theorem modify (h : w.Listens id) {other : OperationId} {f : Operation → Operation}
    (hoperations : v.operations = w.operations.modify other f)
    (hf : other = id → ∀ o, (f o).listener = o.listener) : v.Listens id := by
  obtain ⟨o, shape, hid, hlistener⟩ := h
  by_cases hsame : other = id
  · refine ⟨f o, shape, ?_, ?_⟩
    · simp only [hoperations, List.getElem?_modify, hid, hsame, if_true, Option.map_eq_map,
        Option.map_some]
    · rw [hf hsame o]
      exact hlistener
  · refine ⟨o, shape, ?_, hlistener⟩
    simp only [hoperations, List.getElem?_modify, hid, hsame, if_false, Option.map_eq_map,
      Option.map_some]

/-- Only the operation of the call loses its caller. -/
theorem stopListening (h : w.Listens id) {call : PendingCall}
    (hcall : call.source ≠ .operation id) : (w.stopListening call).Listens id := by
  unfold World.stopListening
  split
  · next other hsource =>
    apply h.modify rfl
    intro hsame
    rw [hsource, hsame] at hcall
    exact absurd rfl hcall
  · exact h

end World.Listens

/-- The call is for a command that failed before it began. -/
def PendingCall.HadFailed (call : PendingCall) : Prop :=
  ∃ e, call.source = .failed e

theorem World.call?_lt {w : World} {n : Nat} {call : PendingCall} (h : w.call? n = some call) :
    n < w.calls.length := by
  have hn : w.calls[n]? = some (some call) := Option.join_eq_some_iff.mp h
  exact (List.getElem?_eq_some_iff.mp hn).1

/-- A call that is used up is gone, and all others stay. -/
theorem World.call?_useUp (w : World) (n m : Nat) :
    (w.useUp n).call? m = if m = n then none else w.call? m := by
  unfold World.call? World.useUp
  rw [List.getElem?_set]
  by_cases hm : m = n
  · rw [if_pos hm, if_pos hm.symm]
    split
    · rfl
    · rfl
  · rw [if_neg hm, if_neg (Ne.symm hm)]

/-- What may happen to calls and their callers.  A new call is put last and satisfies `P`, and
whoever stops listening uses a call of the operation up. -/
structure World.Serves (w v : World) (P : PendingCall → Prop) : Prop where
  calls : ∀ n call, v.call? n = some call →
    w.call? n = some call ∨ n = w.calls.length ∧ P call
  callers : ∀ id, w.Listens id → v.Listens id ∨
    ∃ n call, w.call? n = some call ∧ call.source = .operation id ∧ v.call? n = none

namespace World.Serves

variable {w u v : World} {P : PendingCall → Prop}

/-- The calls stay, and operations are at most begun. -/
theorem of_calls {added : List Operation} (hoperations : v.operations = w.operations ++ added)
    (hcalls : v.calls = w.calls) : w.Serves v P := by
  refine ⟨fun n call hcall => .inl ?_, fun id hid => .inl (hid.append hoperations)⟩
  rw [World.call?, ← hcalls]
  exact hcall

theorem refl (w : World) : w.Serves w P :=
  of_calls (List.append_nil _).symm rfl

theorem congr (h : w.Serves u P) (hoperations : v.operations = u.operations)
    (hcalls : v.calls = u.calls) : w.Serves v P := by
  have hcall? : ∀ n, v.call? n = u.call? n := by
    intro n
    rw [World.call?, World.call?, hcalls]
  refine ⟨fun n call hcall => ?_, fun id hid => ?_⟩
  · rw [hcall?] at hcall
    exact h.calls n call hcall
  · rcases h.callers id hid with hlistens | ⟨n, call, hcall, hsource, hgone⟩
    · exact .inl (hlistens.congr hoperations)
    · refine .inr ⟨n, call, hcall, hsource, ?_⟩
      rw [hcall?]
      exact hgone

theorem calls_of_useUp {n m : Nat} {call : PendingCall} (h : (w.useUp n).call? m = some call) :
    w.call? m = some call := by
  rw [call?_useUp] at h
  split at h
  · cases h
  · exact h

theorem useUp (w : World) (n : Nat) : w.Serves (w.useUp n) P :=
  ⟨fun _ _ hcall => .inl (calls_of_useUp hcall), fun _ hid => .inl (hid.congr rfl)⟩

/-- Whoever gives a call up uses it up and listens no more. -/
theorem forget {n : Nat} {call : PendingCall} (hcall : w.call? n = some call) :
    w.Serves ((w.useUp n).stopListening call) P := by
  have hcalls : ((w.useUp n).stopListening call).calls = (w.useUp n).calls := by
    unfold World.stopListening
    split
    · rfl
    · rfl
  have hcall? : ∀ m, ((w.useUp n).stopListening call).call? m = (w.useUp n).call? m := by
    intro m
    rw [World.call?, World.call?, hcalls]
  refine ⟨fun m other hother => .inl ?_, fun id hid => ?_⟩
  · rw [hcall?] at hother
    exact calls_of_useUp hother
  · by_cases hsource : call.source = .operation id
    · refine .inr ⟨n, call, hcall, hsource, ?_⟩
      rw [hcall?, call?_useUp, if_pos rfl]
    · left
      have hstill : (w.useUp n).Listens id := hid.congr rfl
      exact hstill.stopListening hsource

theorem addCall {call : PendingCall} (h : P call) : w.Serves (w.addCall call) P := by
  refine ⟨fun n other hother => ?_, fun id hid => .inl (hid.congr rfl)⟩
  unfold World.call? World.addCall at hother
  rw [List.getElem?_append] at hother
  split at hother
  · exact .inl hother
  · next hge =>
    rw [List.getElem?_singleton] at hother
    split at hother
    · next hlast =>
      cases hother
      exact .inr ⟨by omega, h⟩
    · cases hother

theorem installDefault (w : World) : w.Serves w.installDefault P := by
  unfold World.installDefault
  split
  · exact (refl w).congr rfl rfl
  · exact refl w

/-- The outcome of an operation is no business of its caller's. -/
theorem recordOutcome (w : World) (id : OperationId) (outcome : Outcome) (cause : Cause) :
    w.Serves (w.recordOutcome id outcome cause) P :=
  ⟨fun _ _ hcall => .inl hcall, fun _ hid => .inl (hid.modify rfl (fun _ _ => rfl))⟩

end World.Serves

/-! ### Sections -/

/-- What a section does to the registrations under way, which were `before`, and to the calls. -/
inductive Turnout (w : World) (before : List (OperationId × Ticket)) (m : World × Stack) : Prop
  | kept (hregisters : m.2.registers = before) (hserves : w.Serves m.1 PendingCall.HadFailed)
  /-- A registration begins.  Whoever wants a call of the operation listens. -/
  | begun {ticket : Ticket} (hregisters : m.2.registers = (w.nextId, ticket) :: before)
      (hlength : w.nextId < m.1.operations.length)
      (hlistens : ticket.wantsCall = true → m.1.Listens w.nextId)
      (hserves : w.Serves m.1 PendingCall.HadFailed)
  /-- A registration ends.  If its ticket asks for a call, the call is handed out. -/
  | ended {id : OperationId} {ticket : Ticket} (hregisters : before = (id, ticket) :: m.2.registers)
      (hserves : w.Serves m.1
        (fun call => call.source = .operation id ∧ ticket.wantsCall = true))

section Sections

variable {w u : World} {below : Stack}

theorem turnout_answer (h : w.Serves u PendingCall.HadFailed) (a : Answer) :
    Turnout w below.registers (answer u a below) :=
  .kept (Stack.registers_reply a below) h

/-- An attempt to resolve that is no registration's. -/
theorem turnout_push (h : w.Serves u PendingCall.HadFailed) {f : Frame} (hf : f.registers = []) :
    Turnout w below.registers (u, f :: below) := by
  refine .kept ?_ h
  show f.registers ++ below.registers = below.registers
  rw [hf, List.nil_append]

/-- The answer to a registration hands its call out. -/
theorem turnout_settle (hoperations : u.operations = w.operations) (hcalls : u.calls = w.calls)
    (ticket : Ticket) (id : OperationId) (native : Option CommandHandle) (during : List Answer)
    (result : Except BridgeError CommandHandle) :
    Turnout w ((id, ticket) :: below.registers)
      (answer (ticket.settle u id native during result).1
        (ticket.settle u id native during result).2 below) := by
  refine @Turnout.ended w _ _ id ticket ?_ ?_
  · show _ = (id, ticket) :: (reply _ below).registers
    rw [Stack.registers_reply]
  · have hnone : w.Serves u (fun call => call.source = .operation id ∧ ticket.wantsCall = true) :=
      (World.Serves.refl w).congr hoperations hcalls
    have hnew : ∀ call : PendingCall, call.source = .operation id → ticket.wantsCall = true →
        w.Serves (u.addCall call)
          (fun call => call.source = .operation id ∧ ticket.wantsCall = true) := by
      intro call hsource hwants
      have hadded : w.Serves (w.addCall call)
          (fun call => call.source = .operation id ∧ ticket.wantsCall = true) :=
        .addCall ⟨hsource, hwants⟩
      refine hadded.congr hoperations ?_
      show u.calls ++ [some call] = w.calls ++ [some call]
      rw [hcalls]
    cases ticket with
    | submit number => exact hnone
    | issue shape => exact hnew _ rfl rfl
    | command cmd arguments => exact hnew _ rfl rfl

/-- Handing a callback over is no business of a caller's. -/
theorem Ticket.handOver_keeps (ticket : Ticket) (handle : CommandHandle) (w : World) :
    (ticket.handOver handle w).operations = w.operations ∧
      (ticket.handOver handle w).calls = w.calls := by
  cases ticket with
  | command cmd arguments => exact ⟨rfl, rfl⟩
  | _ => exact ⟨rfl, rfl⟩

/-- A registration begins, whether it is accepted or not. -/
theorem turnout_register (hoperations : u.operations = w.operations) (hcalls : u.calls = w.calls)
    (c : Correlator) (operation : String) {listener : Listener} {ticket : Ticket}
    (hlistener : ticket.wantsCall = true → ∃ shape, listener = .caller shape true)
    (reply : CommandHandle → Int32) (during : List Step) :
    Turnout w below.registers (register u c operation listener ticket reply during below) := by
  have hid : u.nextId = w.nextId := congrArg List.length hoperations
  -- whatever is done to the table, the operation is the last one begun
  have hbegun : ∀ v : World, v.operations = u.operations ++ [⟨operation, listener, none⟩] →
      v.calls = u.calls → w.nextId < v.operations.length ∧
        (ticket.wantsCall = true → v.Listens w.nextId) ∧ w.Serves v PendingCall.HadFailed := by
    intro v hv hvcalls
    rw [hoperations] at hv
    refine ⟨?_, fun hwants => ?_, World.Serves.of_calls hv (hvcalls.trans hcalls)⟩
    · show w.operations.length < v.operations.length
      rw [hv, List.length_append, List.length_singleton]
      omega
    · obtain ⟨shape, hshape⟩ := hlistener hwants
      refine ⟨⟨operation, listener, none⟩, shape, ?_, hshape⟩
      rw [hv]
      exact List.getElem?_concat_length
  unfold register
  dsimp only
  split
  · obtain ⟨hlength, hlistens, hserves⟩ := hbegun (u.begin operation listener) rfl rfl
    refine .begun ?_ hlength hlistens hserves
    rw [← hid]
    rfl
  · next handle table _ =>
    obtain ⟨hsame, hkept⟩ := ticket.handOver_keeps handle
      (((u.begin operation listener).setTable table).note (.allocated u.nextId operation handle))
    have hadded := hsame.trans (World.operations_setTable (u.begin operation listener) table)
    replace hkept := hkept.trans (World.calls_setTable (u.begin operation listener) table)
    obtain ⟨hlength, hlistens, hserves⟩ := hbegun _ hadded hkept
    refine .begun ?_ hlength hlistens hserves
    rw [← hid]
    rfl

theorem turnout_complete (h : w.Serves u PendingCall.HadFailed) (c : Correlator)
    (handle : CommandHandle) (status : Int32) (payload : Payload) (receipt : Receipt) :
    Turnout w below.registers (complete u c handle status payload receipt below) := by
  unfold complete
  split
  · apply turnout_answer
    exact h.congr rfl rfl
  · refine turnout_push ?_ rfl
    exact h.congr (World.operations_setTable _ _) (World.calls_setTable _ _)

theorem turnout_sweepOn (h : w.Serves u PendingCall.HadFailed) (rest : List Entry)
    (expired : List CommandHandle) (age : Duration) :
    Turnout w below.registers (sweepOn u rest expired age below) := by
  cases rest with
  | cons e rest => exact turnout_push h rfl
  | nil =>
    apply turnout_answer
    split
    · exact h
    · exact h.congr rfl rfl

theorem turnout_shutdownOn (h : w.Serves u PendingCall.HadFailed) (rest : List Entry)
    (count : Nat) : Turnout w below.registers (shutdownOn u rest count below) := by
  cases rest with
  | cons e rest => exact turnout_push h rfl
  | nil =>
    apply turnout_answer
    exact h.congr rfl rfl

theorem turnout_dropOn (h : w.Serves u PendingCall.HadFailed) (rest : List Entry) :
    Turnout w below.registers (dropOn u rest below) := by
  cases rest with
  | cons e rest => exact turnout_push h rfl
  | nil => exact turnout_answer h _

theorem turnout_waitFor (h : w.Serves u PendingCall.HadFailed) (call : PendingCall)
    (limit : Duration) : Turnout w below.registers (waitFor u call limit below) := by
  unfold waitFor
  split
  · exact turnout_push h rfl
  · exact turnout_answer h _

/-- **A step begins a registration, or uses a call up.** -/
theorem Step.Opens.turnout {self : Option CommandHandle} {s : Step} {m : World × Stack}
    (h : s.Opens w self below m) : Turnout w below.registers m := by
  have hrefl : w.Serves w PendingCall.HadFailed := .refl w
  cases h with
  | answered _ => exact turnout_answer hrefl _
  | @rejected cmd _ _ e _ => exact turnout_answer (.addCall ⟨e, rfl⟩) _
  | readied _ => exact turnout_answer (.installDefault w) _
  | installed _ =>
    apply turnout_answer
    unfold World.install
    split
    · exact hrefl.congr rfl rfl
    · exact hrefl
  | seeded _ =>
    apply turnout_answer
    exact hrefl.congr (World.operations_setTable _ _) (World.calls_setTable _ _)
  | slept =>
    apply turnout_answer
    exact hrefl.congr rfl rfl
  | used _ => exact turnout_answer (.useUp w _) _
  | forgotten hcall _ => exact turnout_answer (.forget hcall) _
  | uncorrelated _ =>
    apply turnout_answer
    exact hrefl.congr rfl rfl
  | registers hr hv _ =>
    have hready := hv.imp_right And.right
    exact turnout_register (World.operations_of_readied hready) (World.calls_of_readied hready) _ _
      (Step.listener_of_registration hr) _ _
  | @completes _ v _ _ _ _ _ _ hv _ =>
    have hserves : w.Serves v PendingCall.HadFailed := by
      rcases hv with ⟨rfl, -⟩ | ⟨n, call, -, rfl, -⟩
      · exact hrefl
      · exact .useUp w n
    exact turnout_complete hserves _ _ _ _ _
  | expires _ _ _ => exact turnout_push hrefl rfl
  | sweeps _ _ => exact turnout_sweepOn hrefl _ _ _
  | shutsDown _ =>
    apply turnout_shutdownOn
    exact hrefl.congr (World.operations_setTable _ _) (World.calls_setTable _ _)
  | drops _ _ =>
    apply turnout_dropOn
    split
    · exact hrefl.congr rfl rfl
    · exact hrefl.congr rfl rfl
  | waits _ _ => exact turnout_waitFor (.useUp w _) _ _
  | configures _ => exact .kept rfl hrefl

theorem turnout_begin (w : World) (self : Option CommandHandle) (below : Stack) (s : Step) :
    Turnout w below.registers (s.begin w self below) :=
  (opens_begin w self below s).turnout

/-- A native function that returns ends a registration, or is going to. -/
theorem turnout_returned (w : World) (id : OperationId) (ticket : Ticket) (operation : String)
    (handle : CommandHandle) (status : Int32) (during : List Answer) (below : Stack) :
    Turnout w ((id, ticket) :: below.registers)
      (returned w id ticket operation handle status during below) := by
  unfold returned
  split
  · exact turnout_settle (w := w) (u := w.note _) rfl rfl ticket id (some handle) during _
  · dsimp only
    split
    · refine .kept rfl ?_
      exact (World.Serves.refl w).congr (World.operations_setTable _ _) (World.calls_setTable _ _)
    · exact turnout_settle (w := w) (u := w.note _) rfl rfl ticket id (some handle) during _

/-- An attempt to resolve an operation is part of the same registration afterwards. -/
theorem turnout_resolve (w : World) (id : OperationId) (outcome : Outcome) (cause : Cause)
    (after : Aftermath) (below : Stack) :
    Turnout w (after.registers ++ below.registers) (resolve w id outcome cause after below) := by
  have hrecorded : w.Serves (w.recordOutcome id outcome cause) PendingCall.HadFailed :=
    .recordOutcome w id outcome cause
  unfold resolve World.resolveOnce
  cases hid : w.operations[id]? with
  | none => exact .kept rfl (.refl w)
  | some o =>
    dsimp only
    by_cases hopen : o.outcome.isNone = true
    · rw [if_pos hopen]
      dsimp only
      split
      · exact .kept rfl hrecorded
      · refine .kept rfl ?_
        dsimp only
        split
        · exact hrecorded
        · exact hrecorded.congr rfl rfl
    · rw [if_neg hopen]
      exact .kept rfl (.refl w)

/-- What is done afterwards ends the registration, if there is one. -/
theorem turnout_conclude (w : World) (ran : Bool) (below : Stack) (after : Aftermath) :
    Turnout w (after.registers ++ below.registers) (conclude w ran below after) := by
  have hrefl : w.Serves w PendingCall.HadFailed := .refl w
  have hnoted : ∀ (ran : Bool) (e : Event),
      w.Serves (if ran then w.note e else w) PendingCall.HadFailed := by
    intro ran e
    split
    · exact hrefl.congr rfl rfl
    · exact hrefl
  cases after with
  | refuse id ticket error => exact turnout_settle rfl rfl ticket id none [] _
  | fail id ticket operation handle error during =>
    exact turnout_settle (w := w) (u := w.note _) rfl rfl ticket id (some handle) during _
  | deliver entry status receipt =>
    apply turnout_answer
    exact hrefl.congr rfl rfl
  | expire handle => exact turnout_answer (hnoted ran _) _
  | sweep handle rest expired age => exact turnout_sweepOn hrefl _ _ _
  | shutdown rest count => exact turnout_shutdownOn hrefl _ _
  | drop rest => exact turnout_dropOn hrefl _
  | giveUp call limit => exact turnout_answer (hnoted ran _) _

/-- The steps above a frame are done. -/
theorem turnout_resume (w : World) (answers : List Answer) (below : Stack) :
    Turnout w below.registers (resume w answers below) := by
  have hrefl : w.Serves w PendingCall.HadFailed := .refl w
  unfold resume
  split
  · exact turnout_returned w _ _ _ _ _ _ _
  · next call status under =>
    exact @turnout_answer w w under hrefl _
  · refine .kept rfl ?_
    exact hrefl.congr rfl rfl
  · exact .kept rfl hrefl

/-- **Every section begins a registration, or ends one, or does neither.** -/
theorem turnout_of_advance {stack : Stack} {m : World × Stack} (h : advance w stack = some m) :
    Turnout w stack.registers m := by
  have hrefl : w.Serves w PendingCall.HadFailed := .refl w
  unfold advance at h
  split at h
  · next self s rest answers below =>
    rw [← Option.some.inj h]
    exact turnout_begin w self (.script self rest answers :: below) s
  · cases h
  · next self answers below _ =>
    rw [← Option.some.inj h]
    exact turnout_resume w answers below
  · rw [← Option.some.inj h]
    exact turnout_resolve w _ _ _ _ _
  · rw [← Option.some.inj h]
    exact turnout_conclude w _ _ _
  · rw [← Option.some.inj h]
    exact turnout_returned w _ _ _ _ _ _ _
  · next call status below =>
    rw [← Option.some.inj h]
    exact @turnout_answer w w below hrefl _
  · rw [← Option.some.inj h]
    refine .kept rfl ?_
    exact hrefl.congr rfl rfl
  · cases h

end Sections

/-! ### One caller for each operation -/

/-- The invariant of calls and their callers.  Nobody registers an operation twice; whoever is going
to get a call, or has one, listens; no call is handed out before its registration is over; and no
two calls are for the same operation. -/
structure World.Attended (w : World) (registers : List (OperationId × Ticket)) : Prop where
  nodup : (registers.map Prod.fst).Nodup
  begun : ∀ p ∈ registers, p.1 < w.operations.length ∧ (p.2.wantsCall = true → w.Listens p.1)
  calls : ∀ n call id, w.call? n = some call → call.source = .operation id →
    w.Listens id ∧ ∀ p ∈ registers, p.1 ≠ id
  unique : ∀ m n call other id, w.call? m = some call → w.call? n = some other →
    call.source = .operation id → other.source = .operation id → m = n

namespace World.Attended

variable {w v : World} {registers others before : List (OperationId × Ticket)}

theorem perm (h : w.Attended registers) (hperm : others.Perm registers) : w.Attended others := by
  refine ⟨?_, ?_, ?_, h.unique⟩
  · exact ((hperm.map Prod.fst).nodup_iff).mpr h.nodup
  · intro p hp
    exact h.begun p (hperm.mem_iff.mp hp)
  · intro n call id hcall hsource
    obtain ⟨hlistens, hapart⟩ := h.calls n call id hcall hsource
    exact ⟨hlistens, fun p hp => hapart p (hperm.mem_iff.mp hp)⟩

/-- Whoever is going to get a call keeps listening: there is no call yet that could be given up. -/
theorem listens_of_registers (h : w.Attended registers) {P : PendingCall → Prop}
    (hserves : w.Serves v P) {p : OperationId × Ticket} (hp : p ∈ registers)
    (hwants : p.2.wantsCall = true) : v.Listens p.1 := by
  rcases hserves.callers p.1 ((h.begun p hp).2 hwants) with hstill | ⟨n, call, hcall, hsource, -⟩
  · exact hstill
  · exact absurd rfl ((h.calls n call p.1 hcall hsource).2 p hp)

/-- Whoever keeps a call keeps listening: no other call of the operation could be given up. -/
theorem listens_of_call (h : w.Attended registers) {P : PendingCall → Prop}
    (hserves : w.Serves v P) {n : Nat} {call : PendingCall} {id : OperationId}
    (hcall : w.call? n = some call) (hkept : v.call? n = some call)
    (hsource : call.source = .operation id) : v.Listens id := by
  rcases hserves.callers id (h.calls n call id hcall hsource).1 with
    hstill | ⟨m, other, hother, hsame, hgone⟩
  · exact hstill
  · have hplace : m = n := h.unique m n other call id hother hcall hsame hsource
    rw [hplace, hkept] at hgone
    cases hgone

/-- A section that hands no call of an operation out keeps the calls apart from `registers`. -/
theorem of_kept (h : w.Attended before) (hserves : w.Serves v PendingCall.HadFailed)
    (hnodup : (registers.map Prod.fst).Nodup)
    (hbegun : ∀ p ∈ registers, p.1 < v.operations.length ∧ (p.2.wantsCall = true → v.Listens p.1))
    (hnew : ∀ p ∈ registers, p ∈ before ∨ p.1 = w.nextId) : v.Attended registers := by
  have hold : ∀ n call id, v.call? n = some call → call.source = .operation id →
      w.call? n = some call := by
    intro n call id hcall hsource
    rcases hserves.calls n call hcall with hthere | ⟨-, e, hfailed⟩
    · exact hthere
    · cases hfailed.symm.trans hsource
  refine ⟨hnodup, hbegun, ?_, ?_⟩
  · intro n call id hcall hsource
    have hthere := hold n call id hcall hsource
    obtain ⟨hlistens, hapart⟩ := h.calls n call id hthere hsource
    refine ⟨h.listens_of_call hserves hthere hcall hsource, ?_⟩
    intro p hp hid
    rcases hnew p hp with hbefore | hnext
    · exact hapart p hbefore hid
    · have hlt : id < w.nextId := hlistens.lt
      rw [← hid, hnext] at hlt
      exact Nat.lt_irrefl _ hlt
  · intro m n call other id hcall hother hsource hsame
    exact h.unique m n call other id (hold m call id hcall hsource)
      (hold n other id hother hsame) hsource hsame

/-- The end of a registration hands out the only call of its operation. -/
theorem of_ended {id : OperationId} {ticket : Ticket}
    (h : w.Attended ((id, ticket) :: registers)) (hlength : w.operations.length ≤
    v.operations.length) (hserves : w.Serves v
      (fun call => call.source = .operation id ∧ ticket.wantsCall = true)) :
    v.Attended registers := by
  have hnodup := h.nodup
  rw [List.map_cons, List.nodup_cons] at hnodup
  -- no call of the operation has been handed out before
  have hfirst : ∀ n call, w.call? n = some call → call.source ≠ .operation id := by
    intro n call hcall hsource
    exact (h.calls n call id hcall hsource).2 (id, ticket) List.mem_cons_self rfl
  refine ⟨hnodup.2, ?_, ?_, ?_⟩
  · intro p hp
    have hmem := List.mem_cons_of_mem (id, ticket) hp
    refine ⟨Nat.lt_of_lt_of_le (h.begun p hmem).1 hlength, fun hwants => ?_⟩
    exact h.listens_of_registers hserves hmem hwants
  · intro n call other hcall hsource
    rcases hserves.calls n call hcall with hthere | ⟨-, hmine, hwants⟩
    · refine ⟨h.listens_of_call hserves hthere hcall hsource, fun p hp => ?_⟩
      exact (h.calls n call other hthere hsource).2 p (List.mem_cons_of_mem _ hp)
    · cases hmine.symm.trans hsource
      refine ⟨h.listens_of_registers hserves List.mem_cons_self hwants, ?_⟩
      intro p hp hid
      have hmem : p.1 ∈ registers.map Prod.fst := List.mem_map_of_mem hp
      rw [hid] at hmem
      exact hnodup.1 hmem
  · -- two calls of one operation are both old, or both the one that is handed out
    intro m n call other source hcall hother hsource hsame
    rcases hserves.calls m call hcall with hthere | ⟨hlast, hmine, -⟩
    · rcases hserves.calls n other hother with hthere' | ⟨-, hmine, -⟩
      · exact h.unique m n call other source hthere hthere' hsource hsame
      · rw [← hsame.symm.trans hmine] at hfirst
        exact absurd hsource (hfirst m call hthere)
    · rcases hserves.calls n other hother with hthere' | ⟨hlast', -, -⟩
      · rw [← hsource.symm.trans hmine] at hfirst
        exact absurd hsame (hfirst n other hthere')
      · omega

/-- **A section keeps one caller for each operation**, whatever other threads register. -/
theorem turnout (h : w.Attended (before ++ others)) {m : World × Stack}
    (hm : Turnout w before m) (hlength : w.operations.length ≤ m.1.operations.length) :
    m.1.Attended (m.2.registers ++ others) := by
  have hstill : ∀ {P : PendingCall → Prop}, w.Serves m.1 P → ∀ p ∈ before ++ others,
      p.1 < m.1.operations.length ∧ (p.2.wantsCall = true → m.1.Listens p.1) := by
    intro P hserves p hp
    exact ⟨Nat.lt_of_lt_of_le (h.begun p hp).1 hlength, h.listens_of_registers hserves hp⟩
  cases hm with
  | kept hregisters hserves =>
    rw [hregisters]
    exact h.of_kept hserves h.nodup (hstill hserves) (fun p hp => .inl hp)
  | begun hregisters hnext hlistens hserves =>
    rw [hregisters, List.cons_append]
    apply h.of_kept hserves
    · rw [List.map_cons, List.nodup_cons]
      refine ⟨fun hmem => ?_, h.nodup⟩
      obtain ⟨p, hp, hid⟩ := List.mem_map.mp hmem
      have hlt : p.1 < w.nextId := (h.begun p hp).1
      rw [hid] at hlt
      exact Nat.lt_irrefl _ hlt
    · intro p hp
      rcases List.mem_cons.mp hp with hfirst | hrest
      · rw [hfirst]
        exact ⟨hnext, hlistens⟩
      · exact hstill hserves p hrest
    · intro p hp
      rcases List.mem_cons.mp hp with hfirst | hrest
      · rw [hfirst]
        exact .inr rfl
      · exact .inl hrest
  | ended hregisters hserves =>
    rw [hregisters, List.cons_append] at h
    exact h.of_ended hlength hserves

end World.Attended

/-! ### Threads -/

namespace Threads

/-- Each operation has one caller, whoever registers it. -/
def Attended (t : Threads) : Prop :=
  t.world.Attended (t.running.flatMap Stack.registers)

/-- Nobody holds a call before threads start, with a correlator or without one. -/
theorem attended_of_scripts {w : World} (hcalls : w.calls = []) (scripts : List (List Step)) :
    Attended ⟨w, scripts.map (fun steps => [.script none steps []])⟩ := by
  have hnone : (scripts.map fun steps => ([.script none steps []] : Stack)).flatMap
      Stack.registers = [] := by
    refine List.flatMap_eq_nil_iff.mpr (fun stack hstack => ?_)
    obtain ⟨steps, -, rfl⟩ := List.mem_map.mp hstack
    rfl
  have hnobody : ∀ n call, w.call? n ≠ some call := by
    intro n call hcall
    have hlt := World.call?_lt hcall
    rw [hcalls] at hlt
    exact absurd hlt (Nat.not_lt_zero n)
  unfold Attended
  rw [hnone]
  refine ⟨List.nodup_nil, fun p hp => ?_, fun n call id hcall => ?_, fun m n call _ _ hcall => ?_⟩
  · cases hp
  · exact absurd hcall (hnobody n call)
  · exact absurd hcall (hnobody m call)

variable {t : Threads}

/-- **Every section keeps one caller for each operation.** -/
theorem Attended.move (h : t.Attended) (i : Nat) : (t.move i).Attended := by
  rcases move_cases t i with hsame | ⟨stack, v, stack', hi, hadvance, hmove⟩
  · rw [hsame]
    exact h
  · rw [hmove]
    have hbefore := h.perm (flatMap_running Stack.registers hi).symm
    have hafter := hbefore.turnout (turnout_of_advance hadvance)
      (section_of_advance hadvance).precedes.length
    exact hafter.perm (flatMap_running_set Stack.registers hi stack')

/-- **Every schedule keeps one caller for each operation.** -/
theorem Attended.follow (h : t.Attended) (schedule : List Nat) : (t.follow schedule).Attended := by
  induction schedule generalizing t with
  | nil => exact h
  | cons i schedule ih => exact ih (h.move i)

/-- Whoever holds a call is listened to. -/
theorem Attended.listens (h : t.Attended) {n : Nat} {call : PendingCall} {id : OperationId}
    (hcall : t.world.call? n = some call) (hsource : call.source = .operation id) :
    t.world.Listens id :=
  (h.calls n call id hcall hsource).1

end Threads

end CommandBridge

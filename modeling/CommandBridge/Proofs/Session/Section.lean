import CommandBridge.Proofs.Session.Opening

/-!
# What a section can do

`advance` computes the next section of a thread.  Here the same is said as a relation with one rule
for each kind of section, so that an invariant is proved by going through the rules and never by
opening `advance` again.

* `World.Quiet` — a change that leaves the table, the operations and their outcomes alone;
* `World.enter`, `World.recordOutcome` — the two changes that an operation goes through;
* `Step.Begins` — the first section of a step;
* `Done` — the steps above a frame are done;
* `Section` — any section;
* `Step.Opens.begins`, `section_of_advance` — every section that `advance` makes follows a rule;
* `Section.touches` — only beginning a step and a failed native function touch the correlator;
* `Round.goOn_stack` — what sweeps, shutdowns and giving up the correlator leave of their thread;
* `Section.begins` — a thread that is to take a step begins it.
-/

namespace CommandBridge

/-! ### Quiet changes -/

/-- Events that neither hand out a handle nor start a continuation. -/
def Event.isNeutral : Event → Bool
  | .allocated _ _ _ => false
  | .resolved _ _ _ => false
  | _ => true

/-- Whoever registers the operation wants a pending call. -/
def Ticket.wantsCall : Ticket → Bool
  | .submit _ => false
  | _ => true

namespace World

/-- Nothing has changed but what callers and the native side hold, who still listens, and neutral
events in the journal; the clock may have gone on. -/
structure Quiet (w v : World) : Prop where
  clock : w.clock ≤ v.clock
  correlator : v.correlator = w.correlator
  operations : v.operations = w.operations ∨
    ∃ id, v.operations =
      w.operations.modify id (fun o => { o with listener := o.listener.deaf })
  journal : ∃ events, v.journal = events ++ w.journal ∧ ∀ e ∈ events, e.isNeutral = true

theorem Quiet.refl (w : World) : w.Quiet w :=
  ⟨Nat.le_refl _, rfl, .inl rfl, [], rfl, fun _ he => absurd he List.not_mem_nil⟩

theorem quiet_note (w : World) {e : Event} (he : e.isNeutral = true) : w.Quiet (w.note e) := by
  refine ⟨Nat.le_refl _, rfl, .inl rfl, [e], rfl, fun d hd => ?_⟩
  obtain rfl := List.mem_singleton.mp hd
  exact he

theorem quiet_sleep (w : World) (time : Nat) : w.Quiet { w with clock := w.clock + time } :=
  ⟨Nat.le_add_right _ _, rfl, .inl rfl, [], rfl, fun _ he => absurd he List.not_mem_nil⟩

theorem quiet_useUp (w : World) (n : Nat) : w.Quiet (w.useUp n) :=
  ⟨Nat.le_refl _, rfl, .inl rfl, [], rfl, fun _ he => absurd he List.not_mem_nil⟩

theorem quiet_addCall (w : World) (call : PendingCall) : w.Quiet (w.addCall call) :=
  ⟨Nat.le_refl _, rfl, .inl rfl, [], rfl, fun _ he => absurd he List.not_mem_nil⟩

theorem quiet_stopListening (w : World) (n : Nat) (call : PendingCall) :
    w.Quiet ((w.useUp n).stopListening call) := by
  unfold stopListening
  split
  · next id _ =>
    exact ⟨Nat.le_refl _, rfl, .inr ⟨id, rfl⟩, [], rfl, fun _ he => absurd he List.not_mem_nil⟩
  · exact quiet_useUp w n

/-- Noting a neutral event after a quiet change of what callers hold is quiet, too. -/
theorem Quiet.note {w v : World} (h : w.Quiet v) {e : Event} (he : e.isNeutral = true) :
    w.Quiet (v.note e) := by
  obtain ⟨events, hjournal, hneutral⟩ := h.journal
  refine ⟨h.clock, h.correlator, h.operations, e :: events, ?_, ?_⟩
  · show e :: v.journal = e :: events ++ w.journal
    rw [hjournal]
    rfl
  · intro d hd
    rcases List.mem_cons.mp hd with rfl | hd
    · exact he
    · exact hneutral d hd

theorem quiet_handOver (ticket : Ticket) (handle : CommandHandle) (w : World) :
    w.Quiet (ticket.handOver handle w) := by
  cases ticket <;> exact ⟨Nat.le_refl _, rfl, .inl rfl, [], rfl, fun _ he => absurd he List.not_mem_nil⟩

theorem quiet_sweepOn (w : World) (rest : List Entry) (expired : List CommandHandle)
    (age : Duration) (below : Stack) : w.Quiet (sweepOn w rest expired age below).1 := by
  cases rest with
  | cons e rest => exact Quiet.refl w
  | nil =>
    show w.Quiet (if expired.isEmpty then w else w.note (.swept expired.length age))
    split
    · exact Quiet.refl w
    · exact quiet_note w rfl

theorem quiet_shutdownOn (w : World) (rest : List Entry) (count : Nat) (below : Stack) :
    w.Quiet (shutdownOn w rest count below).1 := by
  cases rest with
  | cons e rest => exact Quiet.refl w
  | nil => exact quiet_note w rfl

theorem quiet_dropOn (w : World) (rest : List Entry) (below : Stack) :
    w.Quiet (dropOn w rest below).1 := by
  cases rest <;> exact Quiet.refl w

/-- The answer to a registration changes nothing but the calls. -/
theorem quiet_settle (ticket : Ticket) (w : World) (id : OperationId)
    (native : Option CommandHandle) (during : List Answer)
    (result : Except BridgeError CommandHandle) :
    w.Quiet (ticket.settle w id native during result).1 := by
  cases ticket with
  | submit number => exact Quiet.refl w
  | issue shape => exact quiet_addCall w _
  | command cmd arguments => exact quiet_addCall w _

/-- Nor does it if a neutral event is noted before. -/
theorem quiet_settle_note {ticket : Ticket} {w : World} {e : Event} {id : OperationId}
    {native : Option CommandHandle} {during : List Answer}
    {result : Except BridgeError CommandHandle} (he : e.isNeutral = true) :
    w.Quiet (ticket.settle (w.note e) id native during result).1 := by
  obtain ⟨hclock, hcorrelator, hoperations, events, hjournal, hneutral⟩ :=
    quiet_settle ticket (w.note e) id native during result
  refine ⟨hclock, hcorrelator, hoperations, events ++ [e], ?_, ?_⟩
  · rw [hjournal, List.append_assoc]
    rfl
  · intro d hd
    rcases List.mem_append.mp hd with hlater | hfirst
    · exact hneutral d hlater
    · obtain rfl := List.mem_singleton.mp hfirst
      exact he

/-- The only new call is one for the operation, with the handle of the result, and only for whoever
wants a call. -/
theorem calls_settle {ticket : Ticket} {w : World} {id : OperationId}
    {native : Option CommandHandle} {during : List Answer}
    {result : Except BridgeError CommandHandle} {call : PendingCall}
    (h : some call ∈ (ticket.settle w id native during result).1.calls) :
    some call ∈ w.calls ∨ call.source = .operation id ∧ call.handle = result.toOption ∧
      ticket.wantsCall = true := by
  cases ticket with
  | submit number => exact .inl h
  | issue shape =>
    rcases List.mem_append.mp h with hold | hnew
    · exact .inl hold
    · cases List.mem_singleton.mp hnew
      exact .inr ⟨rfl, rfl, rfl⟩
  | command cmd arguments =>
    rcases List.mem_append.mp h with hold | hnew
    · exact .inl hold
    · cases List.mem_singleton.mp hnew
      exact .inr ⟨rfl, rfl, rfl⟩

/-! ### Changes of one operation -/

/-- The state once a new operation has its entry and its native function a handle. -/
def enter (w : World) (name : String) (listener : Listener) (handle : CommandHandle)
    (t : PendingTable) : World :=
  ((w.begin name listener).setTable t).note (.allocated w.nextId name handle)

/-- The state once an operation is resolved. -/
def recordOutcome (w : World) (id : OperationId) (outcome : Outcome) (cause : Cause) : World :=
  (w.setOutcome id outcome).note (.resolved id outcome cause)

end World

/-! ### The first section of a step -/

/-- The first section of a step, one rule for each thing it can do.  `below` is the stack that the
answer goes to. -/
inductive Step.Begins (w : World) (self : Option CommandHandle) (below : Stack) :
    Step → World → Stack → Prop
  /-- The step is over at once, and nothing has happened to any operation. -/
  | answered {s : Step} {v : World} {a : Answer} (hv : w.Quiet v)
      (hcalls : ∀ call, some call ∈ v.calls → some call ∈ w.calls ∨ ∃ e, call.source = .failed e) :
      Begins w self below s v (reply a below)
  /-- The first correlator is installed. -/
  | installed {s : Step} {c : Correlator} {v : World} {a : Answer}
      (hw : w.correlator = .absent .notInstalled) (hc : c.table = {})
      (hv : World.Quiet { w with correlator := .present c } v) (hcalls : v.calls = w.calls) :
      Begins w self below s v (reply a below)
  | seeded {next : Int32} {c : Correlator} (hc : w.correlator = .present c) :
      Begins w self below (.seed next) (w.setTable (c.table.seed next)) (reply .done below)
  /-- An operation gets an entry, and its native function runs. -/
  | accepted {s : Step} {r : Registration} {v : World} {c : Correlator} {h : CommandHandle}
      {t : PendingTable} (hr : s.registration? w = some r) (hv : v = w ∨ v = w.installDefault)
      (hc : v.correlator = .present c)
      (ht : c.table.register v.nextId r.operation v.clock = some (h, t)) :
      Begins w self below s
        (r.ticket.handOver h (v.enter r.operation r.listener h t))
        (.script (some h) r.during [] ::
          .native v.nextId r.ticket r.operation h (r.reply h) :: below)
  /-- An operation is refused and is to be resolved at once. -/
  | refused {s : Step} {r : Registration} {v : World} {c : Correlator}
      (hr : s.registration? w = some r) (hv : v = w ∨ v = w.installDefault)
      (hc : v.correlator = .present c)
      (ht : c.table.register v.nextId r.operation v.clock = none) :
      Begins w self below s (v.begin r.operation r.listener)
        (.resolve v.nextId (.error (.refused r.operation)) (.refused r.operation)
          (.refuse v.nextId r.ticket (.refused r.operation)) :: below)
  /-- A completion takes an entry out, and its operation is to be resolved. -/
  | completed {s : Step} {v : World} {c : Correlator} {handle : CommandHandle} {status : Int32}
      {payload : Payload} {entry : Entry} {t : PendingTable} {receipt : Receipt}
      (hd : s.delivery? w self = some (handle, status, payload))
      (hv : v = w ∨ ∃ n, v = w.useUp n) (hc : w.correlator = .present c)
      (ht : c.table.remove handle = some (entry, t)) :
      Begins w self below s (v.setTable t)
        (.resolve entry.owner ((Cause.delivered handle status payload).outcome c.statuses)
          (.delivered handle status payload) (.deliver entry status receipt) :: below)
  | expired {target : Target} {handle : CommandHandle} {c : Correlator} {entry : Entry}
      (htarget : target.resolve self = some handle) (hc : w.correlator = .present c)
      (he : c.table.find? handle = some entry) :
      Begins w self below (.expire target) w
        (.resolve entry.owner (.error (.timeout handle)) (.expired handle) (.expire handle) ::
          below)
  | swept {age : Option Duration} {order : Arrangement} {c : Correlator} {limit : Duration}
      (hc : w.correlator = .present c) (hage : age.or c.callTimeout = some limit) :
      Begins w self below (.sweep age order)
        (sweepOn w (order.apply (c.table.stale w.clock limit.millis)) [] limit below).1
        (sweepOn w (order.apply (c.table.stale w.clock limit.millis)) [] limit below).2
  | shutDown {order : Arrangement} {c : Correlator} (hc : w.correlator = .present c) :
      Begins w self below (.shutdown order)
        (shutdownOn (w.setTable c.table.drain.2) (order.apply c.table.entries)
          c.table.entries.length below).1
        (shutdownOn (w.setTable c.table.drain.2) (order.apply c.table.entries)
          c.table.entries.length below).2
  | dropped {order : Arrangement} {c : Correlator} {v : World} (hc : w.correlator = .present c)
      (hbelow : isOutermost below = true)
      (hv : World.Quiet { w with correlator := .absent .dropped } v) (hcalls : v.calls = w.calls) :
      Begins w self below (.drop order) (dropOn v (order.apply c.table.entries) below).1
        (dropOn v (order.apply c.table.entries) below).2
  /-- The caller's time is up while the operation is unresolved. -/
  | gaveUp {s : Step} {n : Nat} {call : PendingCall} {limit : Duration} {id : OperationId}
      (hs : s = .timeout n limit ∨ s = .defaultTimeout n) (hcall : w.call? n = some call)
      (hsource : call.source = .operation id) (hopen : w.outcome? id = none) :
      Begins w self below s (w.useUp n)
        (.resolve id (.error (.timeoutOf call.handle)) (.gaveUp call.handle)
          (.giveUp call limit) :: below)
  | configured {config : String} {status : Int32} {during : List Step} {call : NativeCall} :
      Begins w self below (.runtimeConfig config status during) w
        (.script none during [] :: .configure call status :: below)

namespace Step.Begins

variable {w : World} {self : Option CommandHandle} {below : Stack} {s : Step}

/-- Steps that only answer. -/
theorem of_answer {v : World} {a : Answer} (hv : w.Quiet v) (hcalls : v.calls = w.calls) :
    Begins w self below s (answer v a below).1 (answer v a below).2 :=
  .answered hv (fun _ hcall => .inl (hcalls ▸ hcall))

theorem mem_calls_useUp {n : Nat} {call : PendingCall} (h : some call ∈ (w.useUp n).calls) :
    some call ∈ w.calls := by
  rcases List.mem_or_eq_of_mem_set h with hold | hnone
  · exact hold
  · cases hnone

theorem of_useUp {n : Nat} {v : World} {a : Answer} (hv : w.Quiet v)
    (hcalls : v.calls = (w.useUp n).calls) :
    Begins w self below s (answer v a below).1 (answer v a below).2 :=
  .answered hv (fun _ hcall => .inl (mem_calls_useUp (n := n) (hcalls ▸ hcall)))

/-- Registering either enters or refuses. -/
theorem of_register {v : World} {c : Correlator} {r : Registration}
    (hr : s.registration? w = some r) (hv : v = w ∨ v = w.installDefault)
    (hc : v.correlator = .present c) :
    Begins w self below s
      (register v c r.operation r.listener r.ticket r.reply r.during below).1
      (register v c r.operation r.listener r.ticket r.reply r.during below).2 := by
  unfold register
  cases ht : c.table.register v.nextId r.operation v.clock with
  | none =>
    simp only [ht]
    exact .refused hr hv hc ht
  | some p =>
    obtain ⟨h, t⟩ := p
    simp only [ht]
    exact .accepted hr hv hc ht

/-- Completing either takes an entry out or reports a dangling completion. -/
theorem of_complete {v : World} {c : Correlator} {handle : CommandHandle} {status : Int32}
    {payload : Payload} {receipt : Receipt}
    (hd : s.delivery? w self = some (handle, status, payload))
    (hv : v = w ∨ ∃ n, v = w.useUp n) (hc : w.correlator = .present c) :
    Begins w self below s (complete v c handle status payload receipt below).1
      (complete v c handle status payload receipt below).2 := by
  have hquiet : w.Quiet v := by
    rcases hv with rfl | ⟨n, rfl⟩
    · exact World.Quiet.refl _
    · exact World.quiet_useUp w n
  unfold complete
  cases ht : c.table.remove handle with
  | none =>
    refine .answered (hquiet.note rfl) (fun call hcall => .inl ?_)
    rcases hv with rfl | ⟨n, rfl⟩
    · exact hcall
    · exact mem_calls_useUp hcall
  | some p =>
    obtain ⟨entry, t⟩ := p
    exact .completed hd hv hc ht

/-- Waiting either answers or gives up. -/
theorem of_waitFor {n : Nat} {call : PendingCall} {limit : Duration}
    (hs : s = .timeout n limit ∨ s = .defaultTimeout n) (hcall : w.call? n = some call) :
    Begins w self below s (waitFor (w.useUp n) call limit below).1
      (waitFor (w.useUp n) call limit below).2 := by
  unfold waitFor
  split
  · next id hresult hsource =>
    refine .gaveUp hs hcall hsource ?_
    simp only [World.result?, hsource] at hresult
    exact Option.map_eq_none_iff.mp hresult
  · exact of_useUp (World.quiet_useUp w n) rfl

end Step.Begins

/-- A configured correlator starts with an empty table. -/
theorem Correlator.table_of_ofText {config : Option String} {c : Correlator}
    (h : Correlator.ofText config = .ok c) : c.table = {} := by
  cases config with
  | none =>
    cases h
    rfl
  | some text =>
    simp only [Correlator.ofText, bind, Except.bind] at h
    split at h
    · cases h
    · exact (Correlator.of_ofConfig h).1

open Step.Begins in
/-- Whatever a step does first, it follows a rule. -/
theorem Step.Opens.begins {w : World} {self : Option CommandHandle} {below : Stack} {s : Step}
    {m : World × Stack} (h : s.Opens w self below m) : s.Begins w self below m.1 m.2 := by
  cases h with
  | answered _ => exact of_answer (.refl w) rfl
  | @rejected cmd _ _ e _ =>
    refine .answered (World.quiet_addCall w _) (fun call hcall => ?_)
    rcases List.mem_append.mp hcall with hold | hnew
    · exact .inl hold
    · cases List.mem_singleton.mp hnew
      exact .inr ⟨e, rfl⟩
  | readied _ =>
    unfold World.installDefault
    split
    · next hw => exact .installed hw rfl (.refl _) rfl
    · exact of_answer (.refl w) rfl
  | installed hc =>
    unfold World.install
    split
    · next hw => exact .installed hw (Correlator.table_of_ofText hc) (World.quiet_note _ rfl) rfl
    · exact of_answer (.refl w) rfl
  | seeded hc => exact .seeded hc
  | @slept time => exact of_answer (w.quiet_sleep time.millis) rfl
  | used _ => exact of_useUp (World.quiet_useUp w _) rfl
  | @forgotten _ n call _ _ _ =>
    refine of_useUp (n := n) (World.quiet_stopListening w n call) ?_
    unfold World.stopListening
    split <;> rfl
  | uncorrelated _ => exact of_answer (World.quiet_note w rfl) rfl
  | registers hr hv hc => exact of_register hr (hv.imp_right And.right) hc
  | completes hd hv hc =>
    refine of_complete hd (hv.imp And.left ?_) hc
    rintro ⟨n, call, -, hused, -⟩
    exact ⟨n, hused⟩
  | expires htarget hc he => exact .expired htarget hc he
  | sweeps hc hage => exact .swept hc hage
  | shutsDown hc => exact .shutDown hc
  | drops hc hbelow =>
    refine .dropped hc hbelow ?_ ?_
    · split
      · exact .refl _
      · exact World.quiet_note _ rfl
    · split <;> rfl
  | waits hs hcall => exact of_waitFor hs hcall
  | configures _ => exact .configured

/-- **The first section of every step follows a rule.** -/
theorem begins_begin (w : World) (self : Option CommandHandle) (below : Stack) (s : Step) :
    s.Begins w self below (s.begin w self below).1 (s.begin w self below).2 :=
  (opens_begin w self below s).begins

/-! ### The other sections -/

/-- The steps above a frame are done; they returned these answers. -/
inductive Done : Stack → List Answer → Stack → Prop
  | script {self : Option CommandHandle} {answers : List Answer} {stack : Stack} :
      Done (.script self [] answers :: stack) answers stack
  | bare {stack : Stack} : Done stack [] stack

/-- A section of a thread, one rule for each thing it can do. -/
inductive Section (w : World) : Stack → World → Stack → Prop
  | began {self : Option CommandHandle} {s : Step} {rest : List Step} {answers : List Answer}
      {below stack : Stack} {v : World}
      (h : s.Begins w self (.script self rest answers :: below) v stack) :
      Section w (.script self (s :: rest) answers :: below) v stack
  /-- Steps that nobody waits for are done. -/
  | left {self : Option CommandHandle} {answers : List Answer} {below : Stack}
      (hbelow : below ≠ []) : Section w (.script self [] answers :: below) w below
  /-- A native function has returned success. -/
  | issued {stack below : Stack} {during : List Answer} {id : OperationId} {ticket : Ticket}
      {operation : String} {handle : CommandHandle}
      (hdone : Done stack during (.native id ticket operation handle successStatus :: below)) :
      Section w stack
        (ticket.settle (w.note (.issued id operation handle)) id (some handle) during
          (.ok handle)).1
        (reply (ticket.settle (w.note (.issued id operation handle)) id (some handle) during
          (.ok handle)).2 below)
  /-- A native function has failed, and its operation still has its entry. -/
  | failed {stack below : Stack} {during : List Answer} {id : OperationId} {ticket : Ticket}
      {operation : String} {handle : CommandHandle} {status : Int32} {c : Correlator}
      {t : PendingTable}
      (hdone : Done stack during (.native id ticket operation handle status :: below))
      (hstatus : status ≠ successStatus) (hc : w.correlator = .present c)
      (ht : c.table.removeOwned handle id = some t) :
      Section w stack (w.setTable t)
        (.resolve id (.error (c.statuses.errorOf status)) (.failed handle status)
          (.fail id ticket operation handle (c.statuses.errorOf status) during) :: below)
  /-- A native function has failed, but its operation's entry is gone. -/
  | failedLate {stack below : Stack} {during : List Answer} {id : OperationId} {ticket : Ticket}
      {operation : String} {handle : CommandHandle} {status : Int32}
      (hdone : Done stack during (.native id ticket operation handle status :: below))
      (hstatus : status ≠ successStatus)
      (ht : ∀ c, w.correlator = .present c → c.table.removeOwned handle id = none) :
      Section w stack
        (ticket.settle (w.note (.failedLate id operation handle status)) id (some handle) during
          (.error (w.statuses.errorOf status))).1
        (reply (ticket.settle (w.note (.failedLate id operation handle status)) id (some handle)
          during (.error (w.statuses.errorOf status))).2 below)
  | configured {stack below : Stack} {during : List Answer} {call : NativeCall} {status : Int32}
      (hdone : Done stack during (.configure call status :: below)) :
      Section w stack w
        (reply (.configured (w.statuses.check status) (some call) during) below)
  /-- A continuation has ended. -/
  | continued {stack below : Stack} {answers : List Answer} {id : OperationId}
      {after : Aftermath} (hdone : Done stack answers (.continuation id after :: below)) :
      Section w stack (w.note (.continued id answers)) (.conclude after true :: below)
  /-- An attempt to resolve an operation that is resolved already. -/
  | passed {id : OperationId} {outcome : Outcome} {cause : Cause} {after : Aftermath}
      {below : Stack} (hid : ∀ o, w.operations[id]? = some o → o.outcome ≠ none) :
      Section w (.resolve id outcome cause after :: below) w (.conclude after false :: below)
  /-- An operation is resolved, and its continuation starts. -/
  | ran {id : OperationId} {outcome : Outcome} {cause : Cause} {after : Aftermath}
      {below : Stack} {o : Operation} {number : Nat} {steps : List Step}
      (hid : w.operations[id]? = some o) (hopen : o.outcome = none)
      (hlistener : o.listener = .continuation number steps) :
      Section w (.resolve id outcome cause after :: below)
        (w.recordOutcome id outcome cause)
        (.script none steps [] :: .continuation id after :: below)
  /-- An operation is resolved, and its caller is told. -/
  | told {id : OperationId} {outcome : Outcome} {cause : Cause} {after : Aftermath}
      {below : Stack} {o : Operation} {shape : Shape} {isListening : Bool} {v : World}
      (hid : w.operations[id]? = some o) (hopen : o.outcome = none)
      (hlistener : o.listener = .caller shape isListening)
      (hv : World.Quiet (w.recordOutcome id outcome cause) v)
      (hcalls : v.calls = w.calls) :
      Section w (.resolve id outcome cause after :: below) v (.conclude after true :: below)
  /-- A refused registration is answered. -/
  | refused {id : OperationId} {ticket : Ticket} {error : BridgeError} {ran : Bool}
      {below : Stack} :
      Section w (.conclude (.refuse id ticket error) ran :: below)
        (ticket.settle w id none [] (.error error)).1
        (reply (ticket.settle w id none [] (.error error)).2 below)
  /-- A failed registration is answered. -/
  | failedNow {id : OperationId} {ticket : Ticket} {operation : String}
      {handle : CommandHandle} {error : BridgeError} {during : List Answer} {ran : Bool}
      {below : Stack} :
      Section w (.conclude (.fail id ticket operation handle error during) ran :: below)
        (ticket.settle (w.note (.failed id operation error)) id (some handle) during
          (.error error)).1
        (reply (ticket.settle (w.note (.failed id operation error)) id (some handle) during
          (.error error)).2 below)
  /-- A delivery, an expiry or a wait is answered. -/
  | answered {after : Aftermath} {ran : Bool} {below : Stack} {v : World} {a : Answer}
      (hafter : after.entriesLeft = 0) (hv : w.Quiet v) (hcalls : v.calls = w.calls) :
      Section w (.conclude after ran :: below) v (reply a below)
  | sweptOn {handle : CommandHandle} {rest : List Entry} {expired : List CommandHandle}
      {age : Duration} {ran : Bool} {below : Stack} :
      Section w (.conclude (.sweep handle rest expired age) ran :: below)
        (sweepOn w rest (if ran then expired ++ [handle] else expired) age below).1
        (sweepOn w rest (if ran then expired ++ [handle] else expired) age below).2
  | shutDownOn {rest : List Entry} {count : Nat} {ran : Bool} {below : Stack} :
      Section w (.conclude (.shutdown rest count) ran :: below)
        (shutdownOn w rest count below).1 (shutdownOn w rest count below).2
  | droppedOn {rest : List Entry} {ran : Bool} {below : Stack} :
      Section w (.conclude (.drop rest) ran :: below) (dropOn w rest below).1
        (dropOn w rest below).2

/-- A native function that returns follows a rule. -/
theorem section_of_returned {w : World} {stack below : Stack} {during : List Answer}
    {id : OperationId} {ticket : Ticket} {operation : String} {handle : CommandHandle}
    {status : Int32}
    (hdone : Done stack during (.native id ticket operation handle status :: below)) :
    Section w stack (returned w id ticket operation handle status during below).1
      (returned w id ticket operation handle status during below).2 := by
  unfold returned
  by_cases hstatus : status = successStatus
  · subst hstatus
    rw [if_pos rfl]
    exact .issued hdone
  · rw [if_neg hstatus]
    cases hw : w.correlator with
    | absent absence =>
      exact .failedLate hdone hstatus (fun c hc => absurd (hw.symm.trans hc) (by simp))
    | present c =>
      cases ht : c.table.removeOwned handle id with
      | some t =>
        have hstatuses : w.statuses = c.statuses := by simp only [World.statuses, hw]
        simp only [ht, hstatuses]
        exact .failed hdone hstatus hw ht
      | none =>
        simp only [ht]
        refine .failedLate hdone hstatus (fun d hd => ?_)
        cases hw.symm.trans hd
        exact ht

theorem section_of_resolve (w : World) (id : OperationId) (outcome : Outcome) (cause : Cause)
    (after : Aftermath) (below : Stack) :
    Section w (.resolve id outcome cause after :: below)
      (resolve w id outcome cause after below).1 (resolve w id outcome cause after below).2 := by
  unfold resolve World.resolveOnce
  cases hid : w.operations[id]? with
  | none =>
    refine .passed (fun o ho => ?_)
    rw [hid] at ho
    cases ho
  | some o =>
    by_cases hopen : o.outcome = none
    · simp only [hopen, Option.isNone_none, if_true]
      split
      · next number steps hlistener => exact .ran hid hopen hlistener
      · next shape isListening hlistener =>
        refine .told hid hopen hlistener ?_ ?_
        · split
          · exact World.Quiet.refl _
          · exact World.quiet_note _ rfl
        · split <;> rfl
    · have hsome : o.outcome.isNone = false := by
        cases houtcome : o.outcome with
        | none => exact absurd houtcome hopen
        | some _ => rfl
      simp only [hsome]
      refine .passed (fun d hd => ?_)
      rw [hid] at hd
      cases hd
      exact hopen

theorem section_of_conclude (w : World) (ran : Bool) (below : Stack) (after : Aftermath) :
    Section w (.conclude after ran :: below) (conclude w ran below after).1
      (conclude w ran below after).2 := by
  cases after with
  | refuse id ticket error => exact .refused
  | fail id ticket operation handle error during => exact .failedNow
  | deliver entry status receipt =>
    refine .answered rfl (World.quiet_note w ?_) rfl
    cases ran <;> rfl
  | expire handle =>
    refine .answered rfl ?_ ?_
    · cases ran
      · exact World.Quiet.refl w
      · exact World.quiet_note w rfl
    · cases ran <;> rfl
  | sweep handle rest expired age => exact .sweptOn
  | shutdown rest count => exact .shutDownOn
  | drop rest => exact .droppedOn
  | giveUp call limit =>
    refine .answered rfl ?_ ?_
    · cases ran
      · exact World.Quiet.refl w
      · exact World.quiet_note w rfl
    · cases ran <;> rfl

theorem section_of_resume {w : World} {self : Option CommandHandle} {answers : List Answer}
    {below : Stack} (hbelow : below ≠ []) :
    Section w (.script self [] answers :: below) (resume w answers below).1
      (resume w answers below).2 := by
  unfold resume
  split
  · exact section_of_returned .script
  · exact .configured .script
  · exact .continued .script
  · exact .left hbelow

/-- **Every section of a thread follows a rule.** -/
theorem section_of_advance {w v : World} {stack stack' : Stack}
    (h : advance w stack = some (v, stack')) : Section w stack v stack' := by
  unfold advance at h
  split at h
  · next self s rest answers below =>
    have hbegins := begins_begin w self (.script self rest answers :: below) s
    rw [Option.some.inj h] at hbegins
    exact .began hbegins
  · cases h
  · next self answers below hbelow =>
    have hsection : Section w (.script self [] answers :: below) (resume w answers below).1
        (resume w answers below).2 := by
      refine section_of_resume ?_
      rintro rfl
      exact hbelow rfl
    rw [Option.some.inj h] at hsection
    exact hsection
  · next id outcome cause after below =>
    have hsection := section_of_resolve w id outcome cause after below
    rw [Option.some.inj h] at hsection
    exact hsection
  · next after ran below =>
    have hsection := section_of_conclude w ran below after
    rw [Option.some.inj h] at hsection
    exact hsection
  · next id ticket operation handle status below =>
    have hsection : Section w (.native id ticket operation handle status :: below)
        (returned w id ticket operation handle status [] below).1
        (returned w id ticket operation handle status [] below).2 :=
      section_of_returned .bare
    rw [Option.some.inj h] at hsection
    exact hsection
  · cases h
    exact .configured .bare
  · cases h
    exact .continued .bare
  · cases h

/-! ### The correlator -/

/-- What a section does to the correlator: nothing, unless it begins a step or takes out the entry of
an operation whose native function has failed. -/
inductive Section.Touches (w : World) (stack : Stack) (v : World) (stack' : Stack) : Prop
  | spared (hv : v.correlator = w.correlator)
  | began {self : Option CommandHandle} {s : Step} {rest : List Step} {answers : List Answer}
      {below : Stack} (hstack : stack = .script self (s :: rest) answers :: below)
      (h : s.Begins w self (.script self rest answers :: below) v stack')
  | failed {during : List Answer} {id : OperationId} {ticket : Ticket} {operation : String}
      {handle : CommandHandle} {status : Int32} {below : Stack} {c : Correlator} {t : PendingTable}
      (hdone : Done stack during (.native id ticket operation handle status :: below))
      (hc : w.correlator = .present c) (ht : c.table.removeOwned handle id = some t)
      (hv : v = w.setTable t)

/-- **Only beginning a step and a failed native function touch the correlator.** -/
theorem Section.touches {w v : World} {stack stack' : Stack} (h : Section w stack v stack') :
    Section.Touches w stack v stack' := by
  cases h with
  | began h => exact .began rfl h
  | left _ => exact .spared rfl
  | issued _ => exact .spared (World.quiet_settle_note rfl).correlator
  | failed hdone _ hc ht => exact .failed hdone hc ht rfl
  | failedLate _ _ _ => exact .spared (World.quiet_settle_note rfl).correlator
  | configured _ => exact .spared rfl
  | continued _ => exact .spared rfl
  | passed _ => exact .spared rfl
  | ran _ _ _ => exact .spared rfl
  | told _ _ _ hv _ => exact .spared hv.correlator
  | refused => exact .spared (World.quiet_settle ..).correlator
  | failedNow => exact .spared (World.quiet_settle_note rfl).correlator
  | answered _ hv _ => exact .spared hv.correlator
  | sweptOn => exact .spared (World.quiet_sweepOn ..).correlator
  | shutDownOn => exact .spared (World.quiet_shutdownOn ..).correlator
  | droppedOn => exact .spared (World.quiet_dropOn ..).correlator

/-! ### Frames -/

/-- What is said of every frame still holds after an answer, if it says nothing of lists of
steps. -/
theorem forall_mem_reply {P : Frame → Prop}
    (hscript : ∀ self rest answers, P (.script self rest answers)) {below : Stack}
    (h : ∀ f ∈ below, P f) (a : Answer) : ∀ f ∈ reply a below, P f := by
  cases below with
  | nil => exact h
  | cons f below =>
    cases f with
    | script self rest answers =>
      exact List.forall_mem_cons.mpr ⟨hscript _ _ _, (List.forall_mem_cons.mp h).2⟩
    | _ => exact h

/-! ### Rounds

A sweep, a shutdown and giving the correlator up go through entries of the table in one way: the
round is answered when there is no entry left, and goes on with an attempt at the next entry else. -/

/-- A round through entries of the table. -/
inductive Round where
  | sweep (expired : List CommandHandle) (age : Duration)
  | shutdown (count : Nat)
  | drop

namespace Round

/-- What the operations of the entries fail with. -/
def error : Round → CommandHandle → BridgeError
  | sweep _ _ => .timeout
  | shutdown _ => .shutDown
  | drop => .shutDown

/-- The cause of it. -/
def cause : Round → CommandHandle → Cause
  | sweep _ _ => .swept
  | shutdown _ => .shutDown
  | drop => .dropped

/-- What is to be done after the attempt at an entry. -/
def after (e : Entry) (rest : List Entry) : Round → Aftermath
  | sweep expired age => .sweep e.handle rest expired age
  | shutdown count => .shutdown rest count
  | drop => .drop rest

/-- The attempt at an entry. -/
def attempt (round : Round) (e : Entry) (rest : List Entry) : Frame :=
  .resolve e.owner (.error (round.error e.handle)) (round.cause e.handle) (round.after e rest)

/-- The round goes on with the entries left. -/
def goOn (w : World) (rest : List Entry) (below : Stack) : Round → World × Stack
  | sweep expired age => sweepOn w rest expired age below
  | shutdown count => shutdownOn w rest count below
  | drop => dropOn w rest below

theorem goOn_cons (round : Round) (w : World) (e : Entry) (rest : List Entry) (below : Stack) :
    round.goOn w (e :: rest) below = (w, round.attempt e rest :: below) := by
  cases round <;> rfl

theorem goOn_nil (round : Round) (w : World) (below : Stack) :
    ∃ a, (round.goOn w [] below).2 = reply a below := by
  cases round <;> exact ⟨_, rfl⟩

/-- **A round leaves an answer, or the attempt at the next entry.** -/
theorem goOn_stack {P : Stack → Prop} {below : Stack} {rest : List Entry} (round : Round) (w : World)
    (hreply : ∀ a, P (reply a below))
    (hattempt : ∀ e later, rest = e :: later → P (round.attempt e later :: below)) :
    P (round.goOn w rest below).2 := by
  cases rest with
  | nil =>
    obtain ⟨a, ha⟩ := round.goOn_nil w below
    rw [ha]
    exact hreply a
  | cons e rest =>
    rw [goOn_cons]
    exact hattempt e rest rfl

end Round

/-! ### Telling steps apart -/

/-- The next section of a thread that is to take a step begins it. -/
theorem Section.begins {w v : World} {self : Option CommandHandle} {s : Step} {rest : List Step}
    {answers : List Answer} {below stack : Stack}
    (h : Section w (.script self (s :: rest) answers :: below) v stack) :
    s.Begins w self (.script self rest answers :: below) v stack := by
  cases h with
  | began hbegins => exact hbegins
  | issued hdone => cases hdone
  | failed hdone _ _ _ => cases hdone
  | failedLate hdone _ _ => cases hdone
  | configured hdone => cases hdone
  | continued hdone => cases hdone

/-- No step registers an operation and delivers something, too. -/
theorem Step.registration?_of_delivery {w : World} {self : Option CommandHandle} {s : Step}
    {d : CommandHandle × Int32 × Payload} (hd : s.delivery? w self = some d) :
    s.registration? w = none := by
  cases s <;> first | rfl | cases hd

/-- Whoever registers an operation for a call has it report to a caller. -/
theorem Step.listener_of_registration {w : World} {s : Step} {r : Registration}
    (hr : s.registration? w = some r) (hwants : r.ticket.wantsCall = true) :
    ∃ shape, r.listener = .caller shape true := by
  cases s with
  | submit operation reply during onward =>
    cases hr
    cases hwants
  | issue shape operation reply during =>
    cases hr
    exact ⟨shape, rfl⟩
  | command cmd reply during =>
    cases harguments : cmd.arguments with
    | error e =>
      simp only [registration?, harguments] at hr
      cases hr
    | ok arguments =>
      simp only [registration?, harguments] at hr
      cases hr
      exact ⟨cmd.shape, rfl⟩
  | _ => cases hr

theorem isOutermost_script {self : Option CommandHandle} {rest : List Step}
    {answers : List Answer} {below : Stack}
    (h : isOutermost (.script self rest answers :: below) = true) : below = [] := by
  cases below with
  | nil => rfl
  | cons f below => simp [isOutermost] at h

end CommandBridge

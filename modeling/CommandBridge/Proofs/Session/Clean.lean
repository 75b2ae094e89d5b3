import CommandBridge.Proofs.Session.Errors
import CommandBridge.Proofs.Session.Returns

/-!
# Sections that bring no breach

If no status means a breach of the calling convention, then none is ever set as an outcome, and none
is returned but by a delivery to a handle that is not pending.

* `World.Clean`, `Stack.Clean` — no such error is set, stored or about to be;
* `Gives` — a section leaves a clean state, and an answer that it returns brings such an error only
  for a given reason;
* `Step.Dangles` — the reason that deliveries have;
* `Step.Opens.gives` — the first section of a step has this reason or none;
* `gives_of_over` — any later section has none;
* `Reaches.clean`, `Returns.dangles` — so states stay clean, and only deliveries return such errors.
-/

namespace CommandBridge

/-! ### Clean states -/

namespace World

/-- No error that the state holds or that its statuses mean is a breach. -/
structure Clean (w : World) : Prop where
  installed : w.correlator ≠ .absent .notInstalled
  statuses : ∀ code, (w.statuses.errorOf code).isIntegrityViolation = false
  outcomes : ∀ id outcome, w.outcome? id = some outcome → NoViolation (errorsOf outcome)
  calls : ∀ call, some call ∈ w.calls → NoViolation call.errors

namespace Clean

variable {w v : World}

theorem of_quiet (h : w.Clean) (hq : w.Quiet v)
    (hcalls : ∀ call, some call ∈ v.calls → NoViolation call.errors) : v.Clean := by
  refine ⟨?_, fun code => ?_, fun id outcome ho => ?_, hcalls⟩
  · rw [hq.correlator]
    exact h.installed
  · rw [World.statuses, hq.correlator]
    exact h.statuses code
  · rw [hq.outcome?] at ho
    exact h.outcomes id outcome ho

theorem note (h : w.Clean) (e : Event) : (w.note e).Clean :=
  ⟨h.installed, h.statuses, h.outcomes, h.calls⟩

theorem useUp (h : w.Clean) (n : Nat) : (w.useUp n).Clean :=
  h.of_quiet (w.quiet_useUp n) (fun call hcall => h.calls call (Step.Begins.mem_calls_useUp hcall))

theorem stopListening (h : w.Clean) (n : Nat) (call : PendingCall) :
    ((w.useUp n).stopListening call).Clean := by
  refine h.of_quiet (w.quiet_stopListening n call) (fun held hheld => ?_)
  have hsame : ((w.useUp n).stopListening call).calls = (w.useUp n).calls := by
    unfold World.stopListening
    split <;> rfl
  rw [hsame] at hheld
  exact h.calls held (Step.Begins.mem_calls_useUp hheld)

theorem addCall (h : w.Clean) {call : PendingCall} (hcall : NoViolation call.errors) :
    (w.addCall call).Clean := by
  refine h.of_quiet (w.quiet_addCall call) (fun held hheld => ?_)
  rcases List.mem_append.mp hheld with hold | hnew
  · exact h.calls held hold
  · cases List.mem_singleton.mp hnew
    exact hcall

theorem setTable (h : w.Clean) (t : PendingTable) : (w.setTable t).Clean := by
  cases hw : w.correlator with
  | absent absence =>
    have hsame : w.setTable t = w := by simp only [World.setTable, hw]
    rw [hsame]
    exact h
  | present c =>
    have hsame : w.setTable t = { w with correlator := .present { c with table := t } } := by
      simp only [World.setTable, hw]
    rw [hsame]
    refine ⟨(fun heq => by cases heq), fun code => ?_, h.outcomes, h.calls⟩
    have hcode := h.statuses code
    rw [World.statuses, hw] at hcode
    exact hcode

theorem begin (h : w.Clean) (name : String) (listener : Listener) :
    (w.begin name listener).Clean := by
  refine ⟨h.installed, h.statuses, fun id outcome ho => ?_, h.calls⟩
  rw [outcome?_begin] at ho
  exact h.outcomes id outcome ho

theorem handOver (h : w.Clean) (ticket : Ticket) (handle : CommandHandle) :
    (ticket.handOver handle w).Clean := by
  cases ticket <;> exact ⟨h.installed, h.statuses, h.outcomes, h.calls⟩

theorem recordOutcome (h : w.Clean) {id : OperationId} {o : Operation}
    (hid : w.operations[id]? = some o) {outcome : Outcome}
    (hclean : NoViolation (errorsOf outcome)) (cause : Cause) :
    (w.recordOutcome id outcome cause).Clean := by
  refine ⟨h.installed, h.statuses, fun other found ho => ?_, h.calls⟩
  rw [outcome?_recordOutcome hid] at ho
  split at ho
  · cases ho
    exact hclean
  · exact h.outcomes other found ho

/-- Without a correlator, statuses are read as published. -/
theorem dropped (h : w.Clean) : Clean { w with correlator := .absent .dropped } :=
  ⟨(fun heq => by cases heq), noViolation_published, h.outcomes, h.calls⟩

theorem installDefault (h : w.Clean) : w.installDefault.Clean := by
  unfold World.installDefault
  split
  · next hw => exact absurd hw h.installed
  · exact h

theorem install (h : w.Clean) (c : Correlator) : (w.install c).2.Clean := by
  unfold World.install
  split
  · next hw => exact absurd hw h.installed
  · exact h

theorem call? (h : w.Clean) {n : Nat} {call : PendingCall} (hcall : w.call? n = some call) :
    NoViolation call.errors :=
  h.calls call (List.mem_of_getElem? (Option.join_eq_some_iff.mp hcall))

/-- The result of a clean call is clean. -/
theorem result? (h : w.Clean) {call : PendingCall} (hcall : NoViolation call.errors)
    {found : Result call.shape} (hfound : w.result? call = some found) :
    NoViolation (errorsOf found) := by
  unfold World.result? at hfound
  split at hfound
  · obtain ⟨outcome, ho, rfl⟩ := Option.map_eq_some_iff.mp hfound
    exact noViolation_result (h.outcomes _ outcome ho)
  · next error hsource =>
    cases hfound
    rw [PendingCall.errors, hsource] at hcall
    exact hcall

theorem resultAnswer (h : w.Clean) {call : PendingCall} (hcall : NoViolation call.errors) :
    NoViolation (resultAnswer w call).errors := by
  unfold CommandBridge.resultAnswer
  split
  · next found hfound => exact h.result? hcall hfound
  · exact noViolation_nil

end Clean

end World

/-! ### Clean stacks -/

/-- The error of the call that a caller waits for. -/
def Receipt.errors : Receipt → List BridgeError
  | .waiter call => call.errors
  | _ => []

/-- The errors that wait for their answer. -/
def Aftermath.errors : Aftermath → List BridgeError
  | .refuse _ _ error => [error]
  | .fail _ _ _ _ error _ => [error]
  | .deliver _ _ receipt => receipt.errors
  | .giveUp call _ => call.errors
  | _ => []

/-- The errors that a frame is about to set or to return. -/
def Frame.errors : Frame → List BridgeError
  | .resolve _ outcome _ after => errorsOf outcome ++ after.errors
  | .continuation _ after => after.errors
  | .conclude after _ => after.errors
  | _ => []

namespace Stack

/-- No frame is about to set or to return a breach. -/
def Clean (stack : Stack) : Prop :=
  ∀ f ∈ stack, NoViolation f.errors

theorem Clean.push {below : Stack} (h : below.Clean) {f : Frame} (hf : NoViolation f.errors) :
    Clean (f :: below) :=
  List.forall_mem_cons.mpr ⟨hf, h⟩

theorem Clean.reply {below : Stack} (h : below.Clean) (a : Answer) :
    Clean (CommandBridge.reply a below) :=
  forall_mem_reply (fun _ _ _ => noViolation_nil) h a

end Stack

/-! ### What a section gives -/

/-- A section leaves a clean state.  There is work above `below` afterwards, or an answer to it, in
which every breach has the reason `D`. -/
structure Gives (D : BridgeError → Prop) (below : Stack) (m : World × Stack) : Prop where
  world : m.1.Clean
  stack : m.2.Clean
  answer : Stack.Over below m.2 ∨
    ∃ a, m.2 = reply a below ∧ ∀ e ∈ a.errors, e.isIntegrityViolation = true → D e

namespace Gives

variable {D : BridgeError → Prop} {w : World} {below : Stack}

theorem of_answer (hw : w.Clean) (hbelow : below.Clean) {a : Answer}
    (ha : ∀ e ∈ a.errors, e.isIntegrityViolation = true → D e) :
    Gives D below (CommandBridge.answer w a below) :=
  ⟨hw, hbelow.reply a, .inr ⟨a, rfl, ha⟩⟩

theorem of_clean (hw : w.Clean) (hbelow : below.Clean) {a : Answer} (ha : NoViolation a.errors) :
    Gives D below (CommandBridge.answer w a below) := by
  refine of_answer hw hbelow (fun e he hviolation => ?_)
  rw [ha e he] at hviolation
  cases hviolation

theorem of_work (hw : w.Clean) (hbelow : below.Clean) {f : Frame} (hf : NoViolation f.errors)
    (hwork : ∀ self rest answers, f ≠ .script self rest answers) :
    Gives D below (w, f :: below) :=
  ⟨hw, hbelow.push hf, .inl (.work hwork)⟩

/-- The steps of a native function or of a continuation run above it. -/
theorem of_script (hw : w.Clean) (hbelow : below.Clean) {f : Frame} (hf : NoViolation f.errors)
    (hwork : ∀ self rest answers, f ≠ .script self rest answers) {self : Option CommandHandle}
    {steps : List Step} : Gives D below (w, .script self steps [] :: f :: below) :=
  ⟨hw, (hbelow.push hf).push noViolation_nil, .inl (Stack.Over.work hwork).push⟩

end Gives

section Sections

variable {D : BridgeError → Prop} {w : World} {below : Stack}

/-! ### Registering and completing -/

/-- The answer to a registration brings the error of its result, or that of no call at all. -/
theorem gives_settle (hw : w.Clean) (hbelow : below.Clean) (ticket : Ticket) (id : OperationId)
    (native : Option CommandHandle) (during : List Answer)
    {given : Except BridgeError CommandHandle} (hgiven : NoViolation (errorsOf given)) :
    Gives D below (answer (ticket.settle w id native during given).1
      (ticket.settle w id native during given).2 below) := by
  cases ticket with
  | submit number => exact .of_clean hw hbelow hgiven
  | issue shape => refine .of_clean (hw.addCall ?_) hbelow ?_ <;> exact noViolation_nil
  | command cmd arguments => refine .of_clean (hw.addCall ?_) hbelow ?_ <;> exact noViolation_nil

theorem gives_register (hw : w.Clean) (hbelow : below.Clean) (c : Correlator) (operation : String)
    (listener : Listener) (ticket : Ticket) (status : CommandHandle → Int32)
    (during : List Step) :
    Gives D below (register w c operation listener ticket status during below) := by
  simp only [register]
  split
  · refine .of_work (hw.begin operation listener) hbelow ?_ (by simp)
    exact (noViolation_singleton rfl).append (noViolation_singleton rfl)
  · refine .of_script ((((hw.begin _ _).setTable _).note _).handOver _ _) hbelow ?_ (by simp)
    exact noViolation_nil

/-- A native function that fails brings the error of its status. -/
theorem gives_returned (hw : w.Clean) (hbelow : below.Clean) (id : OperationId) (ticket : Ticket)
    (operation : String) (handle : CommandHandle) (status : Int32) (during : List Answer) :
    Gives D below (returned w id ticket operation handle status during below) := by
  have herror : NoViolation [w.statuses.errorOf status] :=
    noViolation_singleton (hw.statuses status)
  have hlate : Gives D below (answer
      (ticket.settle (w.note (.failedLate id operation handle status)) id (some handle) during
        (.error (w.statuses.errorOf status))).1
      (ticket.settle (w.note (.failedLate id operation handle status)) id (some handle) during
        (.error (w.statuses.errorOf status))).2 below) :=
    gives_settle (hw.note _) hbelow ticket id _ during herror
  unfold returned
  split
  · exact gives_settle (hw.note _) hbelow ticket id _ during noViolation_nil
  · cases hcorrelator : w.correlator with
    | absent absence => exact hlate
    | present c =>
      cases htable : c.table.removeOwned handle id with
      | none =>
        simp only [htable]
        exact hlate
      | some t =>
        simp only [htable]
        refine .of_work (hw.setTable t) hbelow ?_ (by simp)
        exact herror.append herror

theorem noViolation_receipt {receipt : Receipt} (hw : w.Clean)
    (hreceipt : NoViolation receipt.errors) {given : Except BridgeError Unit} {e : BridgeError}
    (he : e ∈ (receipt.answer w given).errors) (hviolation : e.isIntegrityViolation = true) :
    e ∈ errorsOf given := by
  cases receipt with
  | sender => exact he
  | nobody => cases he
  | waiter call =>
    unfold Receipt.answer at he
    cases hfound : w.result? call with
    | none =>
      simp only [hfound] at he
      cases he
    | some found =>
      simp only [hfound] at he
      rcases List.mem_append.mp he with hresult | hgiven
      · rw [hw.result? hreceipt hfound e hresult] at hviolation
        cases hviolation
      · exact hgiven

/-- **A completion brings a breach only if its handle is not pending.** -/
theorem gives_complete (hw : w.Clean) (hbelow : below.Clean) {c : Correlator}
    (hc : w.correlator = .present c) {handle : CommandHandle} {status : Int32}
    (payload : Payload) {receipt : Receipt} (hreceipt : NoViolation receipt.errors)
    (hD : c.table.find? handle = none → D (.dangling handle status)) :
    Gives D below (complete w c handle status payload receipt below) := by
  unfold complete
  split
  · next hremove =>
    refine .of_answer (hw.note _) hbelow (fun e he hviolation => ?_)
    obtain rfl := List.mem_singleton.mp (noViolation_receipt (hw.note _) hreceipt he hviolation)
    exact hD (Option.map_eq_none_iff.mp hremove)
  · have hstatuses : w.statuses = c.statuses := by simp only [World.statuses, hc]
    have hcheck : NoViolation (errorsOf (c.statuses.check status)) :=
      noViolation_check (hstatuses ▸ hw.statuses status)
    refine .of_work (hw.setTable _) hbelow (NoViolation.append ?_ hreceipt) (by simp)
    simp only [Cause.outcome]
    cases hstatus : c.statuses.check status with
    | ok _ => exact noViolation_nil
    | error e =>
      rw [hstatus] at hcheck
      exact hcheck

/-! ### Going through the table, and waiting -/

theorem gives_sweepOn (hw : w.Clean) (hbelow : below.Clean) (rest : List Entry)
    (expired : List CommandHandle) (age : Duration) :
    Gives D below (sweepOn w rest expired age below) := by
  cases rest with
  | cons e rest => exact .of_work hw hbelow (noViolation_singleton rfl) (by simp)
  | nil =>
    refine .of_clean ?_ hbelow noViolation_nil
    split
    · exact hw
    · exact hw.note _

theorem gives_shutdownOn (hw : w.Clean) (hbelow : below.Clean) (rest : List Entry) (count : Nat) :
    Gives D below (shutdownOn w rest count below) := by
  cases rest with
  | cons e rest => exact .of_work hw hbelow (noViolation_singleton rfl) (by simp)
  | nil => exact .of_clean (hw.note _) hbelow noViolation_nil

theorem gives_dropOn (hw : w.Clean) (hbelow : below.Clean) (rest : List Entry) :
    Gives D below (dropOn w rest below) := by
  cases rest with
  | cons e rest => exact .of_work hw hbelow (noViolation_singleton rfl) (by simp)
  | nil => exact .of_clean hw hbelow noViolation_nil

theorem isIntegrityViolation_timeoutOf (handle : Option CommandHandle) :
    (BridgeError.timeoutOf handle).isIntegrityViolation = false := by
  cases handle <;> rfl

theorem gives_waitFor (hw : w.Clean) (hbelow : below.Clean) {call : PendingCall}
    (hcall : NoViolation call.errors) (limit : Duration) :
    Gives D below (waitFor w call limit below) := by
  unfold waitFor
  split
  · refine .of_work hw hbelow (NoViolation.append ?_ hcall) (by simp)
    exact noViolation_singleton (isIntegrityViolation_timeoutOf _)
  · exact .of_clean hw hbelow (hw.resultAnswer hcall)

/-! ### The first section of a step -/

/-- What a step answers without a change brings no breach. -/
theorem World.Shows.noViolation {a : Answer} (h : w.Shows a) (hw : w.Clean) :
    NoViolation a.errors := by
  cases h with
  | remark ha => cases a <;> first | exact noViolation_nil | cases ha
  | result hcall => exact hw.resultAnswer (hw.call? hcall)
  | call hcall => exact hw.call? hcall
  | @question c hc self question =>
    have hstatuses : w.statuses = c.statuses := by simp only [World.statuses, hc]
    cases question with
    | errorOf code => exact noViolation_singleton (hstatuses ▸ hw.statuses code)
    | isPending target =>
      simp only [Question.answer]
      split <;> exact noViolation_nil
    | _ => exact noViolation_nil
  | @unconfigured config e he =>
    have hconfig := noViolation_runtimeConfigCall config
    rw [he] at hconfig
    exact hconfig

end Sections

/-- The step delivers something to a handle that is not pending, and the error says so. -/
def Step.Dangles (s : Step) (w : World) (self : Option CommandHandle) (e : BridgeError) : Prop :=
  ∃ handle status payload c, s.delivery? w self = some (handle, status, payload) ∧
    w.correlator = .present c ∧ c.table.find? handle = none ∧ e = .dangling handle status

/-- **The first section of a step** brings a breach only if it delivers something to a handle that
is not pending. -/
theorem Step.Opens.gives {w : World} {below : Stack} {self : Option CommandHandle} {s : Step}
    {m : World × Stack} (h : s.Opens w self below m) (hw : w.Clean) (hbelow : below.Clean) :
    Gives (s.Dangles w self) below m := by
  cases h with
  | answered ha => exact .of_clean hw hbelow (ha.noViolation hw)
  | @rejected cmd _ _ e he =>
    have harguments := noViolation_arguments cmd
    rw [he] at harguments
    refine .of_clean (hw.addCall ?_) hbelow ?_ <;> exact harguments
  | readied _ => exact .of_clean hw.installDefault hbelow noViolation_nil
  | installed _ => exact .of_clean (hw.install _) hbelow noViolation_nil
  | seeded _ => exact .of_clean (hw.setTable _) hbelow noViolation_nil
  | @slept time =>
    have hlater : World.Clean { w with clock := w.clock + time.millis } :=
      ⟨hw.installed, hw.statuses, hw.outcomes, hw.calls⟩
    exact .of_clean hlater hbelow noViolation_nil
  | used hcall =>
    exact .of_clean (hw.useUp _) hbelow ((hw.useUp _).resultAnswer (hw.call? hcall))
  | forgotten hcall ha =>
    refine .of_clean (hw.stopListening _ _) hbelow ?_
    rcases ha with rfl | rfl
    · exact noViolation_nil
    · exact hw.resultAnswer (hw.call? hcall)
  | uncorrelated _ => exact .of_clean (hw.note _) hbelow noViolation_nil
  | registers _ hv _ =>
    refine gives_register ?_ hbelow _ _ _ _ _ _
    rcases hv with rfl | ⟨-, rfl⟩
    · exact hw
    · exact hw.installDefault
  | @completes _ v c handle status payload receipt hd hv hc =>
    have hdangles : c.table.find? handle = none → s.Dangles w self (.dangling handle status) :=
      fun hnone => ⟨_, _, _, _, hd, hc, hnone, rfl⟩
    rcases hv with ⟨rfl, rfl | rfl⟩ | ⟨n, call, hcall, rfl, rfl⟩
    · exact gives_complete hw hbelow hc payload noViolation_nil hdangles
    · exact gives_complete hw hbelow hc payload noViolation_nil hdangles
    · exact gives_complete (hw.useUp n) hbelow hc payload (hw.call? hcall) hdangles
  | expires _ _ _ => exact .of_work hw hbelow (noViolation_singleton rfl) (by simp)
  | sweeps _ _ => exact gives_sweepOn hw hbelow _ _ _
  | shutsDown _ => exact gives_shutdownOn (hw.setTable _) hbelow _ _
  | drops _ _ =>
    refine gives_dropOn ?_ hbelow _
    split
    · exact hw.dropped
    · exact hw.dropped.note _
  | waits _ hcall => exact gives_waitFor (hw.useUp _) hbelow (hw.call? hcall) _
  | configures _ =>
    refine .of_script hw hbelow ?_ (by simp)
    exact noViolation_nil

theorem gives_begin {w : World} {below : Stack} (hw : w.Clean) (hbelow : below.Clean)
    (self : Option CommandHandle) (s : Step) :
    Gives (s.Dangles w self) below (s.begin w self below) :=
  (opens_begin w self below s).gives hw hbelow

/-! ### Later sections -/

section Later

variable {D : BridgeError → Prop} {w : World} {below : Stack}

theorem gives_resolve (hw : w.Clean) (hbelow : below.Clean) {id : OperationId} {outcome : Outcome}
    {cause : Cause} {after : Aftermath}
    (hf : NoViolation (Frame.resolve id outcome cause after).errors) :
    Gives D below (resolve w id outcome cause after below) := by
  obtain ⟨houtcome, hafter⟩ := List.forall_mem_append.mp hf
  unfold resolve World.resolveOnce
  cases hid : w.operations[id]? with
  | none => exact .of_work hw hbelow hafter (by simp)
  | some o =>
    cases hopen : o.outcome with
    | some old =>
      simp only [hopen, Option.isNone_some]
      exact .of_work hw hbelow hafter (by simp)
    | none =>
      have hset := hw.recordOutcome hid houtcome cause
      simp only [hopen, Option.isNone_none, if_true]
      cases o.listener with
      | continuation number steps =>
        refine .of_script hset hbelow ?_ (by simp)
        exact hafter
      | caller shape isListening =>
        refine .of_work ?_ hbelow hafter (by simp)
        split
        · exact hset
        · exact hset.note _

theorem gives_conclude (hw : w.Clean) (hbelow : below.Clean) {after : Aftermath}
    (hafter : NoViolation after.errors) (ran : Bool) :
    Gives D below (conclude w ran below after) := by
  cases after with
  | refuse id ticket error => exact gives_settle hw hbelow ticket id none [] hafter
  | fail id ticket operation handle error during =>
    exact gives_settle (hw.note _) hbelow ticket id _ during hafter
  | deliver entry status receipt =>
    refine .of_answer (hw.note _) hbelow (fun e he hviolation => ?_)
    cases noViolation_receipt (hw.note _) hafter he hviolation
  | expire handle =>
    refine .of_clean ?_ hbelow noViolation_nil
    split
    · exact hw.note _
    · exact hw
  | sweep handle rest expired age => exact gives_sweepOn hw hbelow _ _ _
  | shutdown rest count => exact gives_shutdownOn hw hbelow _ _
  | drop rest => exact gives_dropOn hw hbelow _
  | giveUp call limit =>
    have hlater : World.Clean (if ran then w.note (.gaveUp call.handle limit) else w) := by
      split
      · exact hw.note _
      · exact hw
    exact .of_clean hlater hbelow (hlater.resultAnswer hafter)

theorem gives_configured (hw : w.Clean) (hbelow : below.Clean) (call : NativeCall) (status : Int32)
    (during : List Answer) :
    Gives D below (answer w (.configured (w.statuses.check status) (some call) during) below) := by
  refine .of_clean hw hbelow ?_
  exact noViolation_check (hw.statuses status)

theorem gives_continued (hw : w.Clean) (hbelow : below.Clean) {after : Aftermath}
    (hafter : NoViolation after.errors) (id : OperationId) (answers : List Answer) :
    Gives D below (w.note (.continued id answers), .conclude after true :: below) := by
  refine .of_work (hw.note _) hbelow ?_ (by simp)
  exact hafter

/-- Work above `below` is work above anything that `below` stands above. -/
theorem Gives.under {base : Stack} {m : World × Stack} (h : Gives D below m)
    (hover : Stack.Over base below) : Gives (fun _ => False) base m := by
  refine ⟨h.world, h.stack, .inl ?_⟩
  rcases h.answer with habove | ⟨a, hreply, -⟩
  · exact hover.trans habove
  · rw [hreply]
    exact hover.reply a

/-- What is left of the frame on top gives to the one below it. -/
theorem Gives.over {base : Stack} {f : Frame} {m : World × Stack}
    (h : Gives (fun _ => False) below m) (hover : Stack.Over base (f :: below)) :
    Gives (fun _ => False) base m := by
  cases hover with
  | work _ => exact h
  | push hover => exact h.under hover

end Later

/-- **A later section of the work above a stack brings no breach.** -/
theorem gives_of_over {w : World} {base stack : Stack} {n : World × Stack} (hw : w.Clean)
    (hstack : stack.Clean) (hover : Stack.Over base stack) (hadvance : advance w stack = some n) :
    Gives (fun _ => False) base n := by
  cases stack with
  | nil => cases hover
  | cons f below =>
    obtain ⟨hf, hbelow⟩ := List.forall_mem_cons.mp hstack
    have hbelow : Stack.Clean below := hbelow
    cases f with
    | script self steps answers =>
      have hbase : Stack.Over base below := by
        cases hover with
        | work hf => exact absurd rfl (hf _ _ _)
        | push hover => exact hover
      cases steps with
      | cons s rest =>
        cases hadvance
        have hpushed : Stack.Clean (.script self rest answers :: below) :=
          hbelow.push noViolation_nil
        exact (gives_begin hw hpushed self s).under hbase.push
      | nil =>
        cases below with
        | nil => cases hadvance
        | cons g below =>
          cases hadvance
          obtain ⟨hg, hlower⟩ := List.forall_mem_cons.mp hbelow
          cases g with
          | native id ticket operation handle status =>
            exact (gives_returned hw hlower id ticket operation handle status answers).over hbase
          | configure call status =>
            exact (gives_configured hw hlower call status answers).over hbase
          | continuation id after => exact (gives_continued hw hlower hg id answers).over hbase
          | _ => exact ⟨hw, hbelow, .inl hbase⟩
    | native id ticket operation handle status =>
      cases hadvance
      exact (gives_returned hw hbelow id ticket operation handle status []).over hover
    | configure call status =>
      cases hadvance
      exact (gives_configured hw hbelow call status []).over hover
    | resolve id outcome cause after =>
      cases hadvance
      exact (gives_resolve hw hbelow hf).over hover
    | continuation id after =>
      cases hadvance
      exact (gives_continued hw hbelow hf id []).over hover
    | conclude after ran =>
      cases hadvance
      exact (gives_conclude hw hbelow hf ran).over hover

/-! ### Whole runs -/

/-- **Every section keeps a clean state clean.** -/
theorem clean_of_advance {w : World} {stack : Stack} {n : World × Stack} (hw : w.Clean)
    (hstack : stack.Clean) (hadvance : advance w stack = some n) :
    n.1.Clean ∧ Stack.Clean n.2 := by
  have hwork : ∀ base, Stack.Over base stack → n.1.Clean ∧ Stack.Clean n.2 := by
    intro base hover
    have hgives := gives_of_over hw hstack hover hadvance
    exact ⟨hgives.world, hgives.stack⟩
  cases stack with
  | nil => cases hadvance
  | cons f below =>
    cases f with
    | script self steps answers =>
      have hbelow : Stack.Clean below := (List.forall_mem_cons.mp hstack).2
      cases steps with
      | cons s rest =>
        cases hadvance
        have hpushed : Stack.Clean (.script self rest answers :: below) :=
          hbelow.push noViolation_nil
        have hgives := gives_begin hw hpushed self s
        exact ⟨hgives.world, hgives.stack⟩
      | nil =>
        cases below with
        | nil => cases hadvance
        | cons g below =>
          cases g with
          | script self' steps' answers' =>
            cases hadvance
            exact ⟨hw, hbelow⟩
          | _ => exact hwork below (Stack.Over.work (by simp)).push
    | _ => exact hwork below (.work (by simp))

section Runs

variable {c : Correlator} {steps : List Step} {m n : World × Stack}

/-- **Every state of a session is clean**, if no status of its correlator means a breach. -/
theorem Reaches.clean (hc : ∀ code, c.statuses.kindOf? code ≠ some .danglingCompletion)
    (hm : Reaches (Session.start c steps) m) : m.1.Clean ∧ Stack.Clean m.2 := by
  induction hm with
  | refl =>
    refine ⟨⟨(fun heq => by cases heq), fun code => ?_, fun id outcome ho => ?_, ?_⟩, ?_⟩
    · rw [Bool.eq_false_iff]
      intro hviolation
      exact hc code (StatusTable.isIntegrityViolation_errorOf.mp hviolation)
    · cases ho
    · exact fun call hcall => absurd hcall List.not_mem_nil
    · exact List.forall_mem_singleton.mpr noViolation_nil
  | tail _ hmoves ih => exact clean_of_advance ih.1 ih.2 hmoves

/-- **Only deliveries to handles that are not pending return a breach.** -/
theorem Returns.dangles (hw : m.1.Clean) (hstack : Stack.Clean m.2)
    {self : Option CommandHandle} {s : Step} {rest : List Step} {answers : List Answer}
    {below : Stack} (htop : m.2 = .script self (s :: rest) answers :: below) {a : Answer}
    (hreturns : Returns m n a) {e : BridgeError} (he : e ∈ a.errors)
    (hviolation : e.isIntegrityViolation = true) : s.Dangles m.1 self e := by
  obtain ⟨self', s', rest', answers', below', q, htop', hmoves, hinside, hn⟩ := hreturns
  rw [htop] at htop'
  cases htop'
  -- the last section is the one that answers, and its answer is the one returned
  have hanswered : ∀ D, Gives D (.script self rest answers :: below) n → D e := by
    intro D hgives
    rcases hgives.answer with hover | ⟨b, hreply, hb⟩
    · rw [hn] at hover
      exact absurd hover.length_lt (Nat.lt_irrefl _)
    · rw [hn] at hreply
      have happend := (Frame.script.inj (List.cons.inj hreply).1).2.2
      obtain rfl : a = b := (List.cons.inj (List.append_cancel_left happend)).1
      exact hb e he hviolation
  rw [htop] at hstack
  have hbase : Stack.Clean (.script self rest answers :: below) :=
    (Stack.Clean.push (List.forall_mem_cons.mp hstack).2 noViolation_nil)
  have hbegin := gives_begin hw hbase self s
  rw [hmoves.unique (Moves.begin htop)] at hinside
  rcases Relation.ReflTransGen.cases_tail hinside with hsame | ⟨r, hinside, hover, hlast⟩
  · exact hanswered _ (hsame ▸ hbegin)
  · have hclean : r.1.Clean ∧ Stack.Clean r.2 := by
      clear hlast hover
      induction hinside with
      | refl => exact ⟨hbegin.world, hbegin.stack⟩
      | tail _ hmoves ih => exact clean_of_advance ih.1 ih.2 hmoves.2
    exact (hanswered _ (gives_of_over hclean.1 hclean.2 hover hlast)).elim

end Runs

end CommandBridge

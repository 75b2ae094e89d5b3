import CommandBridge.Proofs.Error.Distinct
import CommandBridge.Proofs.Session.ExactlyOnce
import CommandBridge.Proofs.Session.Ties

/-!
# Where outcomes come from

Handles are given out again, and an attempt to resolve an operation may be suspended while others
run.  Still the outcome of an operation comes from a step that was aimed at it: at its own entry
under its own handle, at its native function while the entry was its own, at a call that waits for
it, or at its registration.

* `Aims` — the next section of a thread is aimed at an operation, for a cause;
* `Frame.attempts` — what a frame is about to resolve, or will resolve later, and why;
* `Stack.Sourced` — every attempt on a stack has a source;
* `Section.sourced` — a section brings in only attempts that it is aimed at;
* `Session.Source` — a section of the session so far was aimed at the operation for the cause;
* `Session.provenance` — every outcome has its source, and which one can be told from the outcome.
-/

namespace CommandBridge

/-! ### Aiming at an operation -/

/-- The next section of the thread is aimed at an operation, for a cause.  The last argument is the
stack above which the operation will be resolved. -/
inductive Aims (w : World) (id : OperationId) : Stack → Cause → Stack → Prop
  /-- A completion is delivered to the operation's own entry. -/
  | delivered {self : Option CommandHandle} {s : Step} {rest : List Step} {answers : List Answer}
      {below : Stack} {h : CommandHandle} {status : Int32} {payload : Payload}
      (hdelivery : s.delivery? w self = some (h, status, payload)) (hholds : w.Holds id h) :
      Aims w id (.script self (s :: rest) answers :: below) (.delivered h status payload)
        (.script self rest answers :: below)
  /-- The operation's own native function fails while the entry is the operation's. -/
  | failed {stack below : Stack} {during : List Answer} {ticket : Ticket} {operation : String}
      {h : CommandHandle} {status : Int32}
      (hdone : Done stack during (.native id ticket operation h status :: below))
      (hstatus : status ≠ successStatus) (hholds : w.Holds id h) :
      Aims w id stack (.failed h status) below
  | expired {self : Option CommandHandle} {target : Target} {rest : List Step}
      {answers : List Answer} {below : Stack} {h : CommandHandle}
      (htarget : target.resolve self = some h) (hholds : w.Holds id h) :
      Aims w id (.script self (.expire target :: rest) answers :: below) (.expired h)
        (.script self rest answers :: below)
  /-- A sweep finds the operation's own entry among those that are too old. -/
  | swept {self : Option CommandHandle} {age : Option Duration} {order : Arrangement}
      {rest : List Step} {answers : List Answer} {below : Stack} {c : Correlator}
      {limit : Duration} {e : Entry} (hc : w.correlator = .present c)
      (hage : age.or c.callTimeout = some limit) (he : e ∈ c.table.stale w.clock limit.millis)
      (howner : e.owner = id) (hholds : w.Holds id e.handle) :
      Aims w id (.script self (.sweep age order :: rest) answers :: below) (.swept e.handle)
        (.script self rest answers :: below)
  /-- A shutdown drains the operation's own entry. -/
  | shutDown {self : Option CommandHandle} {order : Arrangement} {rest : List Step}
      {answers : List Answer} {below : Stack} {h : CommandHandle} (hholds : w.Holds id h) :
      Aims w id (.script self (.shutdown order :: rest) answers :: below) (.shutDown h)
        (.script self rest answers :: below)
  | dropped {self : Option CommandHandle} {order : Arrangement} {rest : List Step}
      {answers : List Answer} {below : Stack} {h : CommandHandle} (hholds : w.Holds id h) :
      Aims w id (.script self (.drop order :: rest) answers :: below) (.dropped h)
        (.script self rest answers :: below)
  /-- Time runs out for the operation's own call. -/
  | gaveUp {self : Option CommandHandle} {s : Step} {rest : List Step} {answers : List Answer}
      {below : Stack} {n : Nat} {limit : Duration} {call : PendingCall} {h : CommandHandle}
      (hs : s = .timeout n limit ∨ s = .defaultTimeout n) (hcall : w.call? n = some call)
      (hsource : call.source = .operation id) (hhandle : call.handle = some h)
      (hgiven : w.handlesGiven id = [h]) :
      Aims w id (.script self (s :: rest) answers :: below) (.gaveUp (some h))
        (.script self rest answers :: below)
  /-- The operation is to be registered with a correlator that is closed. -/
  | refused {self : Option CommandHandle} {s : Step} {rest : List Step} {answers : List Answer}
      {below : Stack} {r : Registration} (hr : s.registration? w = some r) (hid : id = w.nextId)
      (hclosed : w.correlator.isClosed = true) :
      Aims w id (.script self (s :: rest) answers :: below) (.refused r.operation)
        (.script self rest answers :: below)

/-! ### Attempts -/

/-- The attempts that will follow this one. -/
def Aftermath.attempts : Aftermath → List (OperationId × Cause)
  | .sweep _ rest _ _ => rest.map (fun e => (e.owner, .swept e.handle))
  | .shutdown rest _ => rest.map (fun e => (e.owner, .shutDown e.handle))
  | .drop rest => rest.map (fun e => (e.owner, .dropped e.handle))
  | _ => []

/-- What a frame is about to resolve, or will resolve later, and why. -/
def Frame.attempts : Frame → List (OperationId × Cause)
  | .resolve id _ cause after => (id, cause) :: after.attempts
  | .continuation _ after => after.attempts
  | .conclude after _ => after.attempts
  | _ => []

/-- The outcome to come is the one that its cause brings. -/
def Frame.Faithful (statuses : StatusTable) : Frame → Prop
  | .resolve _ outcome cause _ => outcome = cause.outcome statuses
  | _ => True

/-- All attempts on the stack have a source, and bring what their cause brings. -/
def Stack.Sourced (source : OperationId → Cause → Stack → Prop) (statuses : StatusTable) :
    Stack → Prop
  | [] => True
  | f :: below =>
    f.Faithful statuses ∧ (∀ a ∈ f.attempts, source a.1 a.2 below) ∧
      Sourced source statuses below

namespace Stack.Sourced

variable {source : OperationId → Cause → Stack → Prop} {statuses : StatusTable} {below : Stack}

theorem mono {source' : OperationId → Cause → Stack → Prop} {stack : Stack}
    (h : stack.Sourced source statuses)
    (hle : ∀ id cause below, source id cause below → source' id cause below) :
    stack.Sourced source' statuses := by
  induction stack with
  | nil => trivial
  | cons f below ih => exact ⟨h.1, fun a ha => hle _ _ _ (h.2.1 a ha), ih h.2.2⟩

/-- A frame that attempts nothing. -/
theorem push (h : below.Sourced source statuses) {f : Frame} (hfaithful : f.Faithful statuses)
    (hattempts : f.attempts = []) : Stack.Sourced source statuses (f :: below) := by
  refine ⟨hfaithful, fun a ha => ?_, h⟩
  rw [hattempts] at ha
  cases ha

/-- One attempt, and nothing after it. -/
theorem push_resolve (h : below.Sourced source statuses) {id : OperationId} {outcome : Outcome}
    {cause : Cause} {after : Aftermath} (houtcome : outcome = cause.outcome statuses)
    (hsource : source id cause below) (hafter : after.attempts = []) :
    Stack.Sourced source statuses (.resolve id outcome cause after :: below) := by
  refine ⟨houtcome, fun a ha => ?_, h⟩
  rcases List.mem_cons.mp ha with rfl | hlater
  · exact hsource
  · rw [hafter] at hlater
    cases hlater

/-- Attempts for entries, one after the other, all for causes of one kind. -/
theorem push_entries (h : below.Sourced source statuses) {f : Frame} {g : CommandHandle → Cause}
    {entries : List Entry} (hfaithful : f.Faithful statuses)
    (hattempts : f.attempts = entries.map (fun e => (e.owner, g e.handle)))
    (hentries : ∀ e ∈ entries, source e.owner (g e.handle) below) :
    Stack.Sourced source statuses (f :: below) := by
  refine ⟨hfaithful, fun a ha => ?_, h⟩
  rw [hattempts] at ha
  obtain ⟨e, he, rfl⟩ := List.mem_map.mp ha
  exact hentries e he

theorem reply (h : below.Sourced source statuses) (a : Answer) :
    (reply a below).Sourced source statuses := by
  cases below with
  | nil => trivial
  | cons f below =>
    cases f with
    | script self rest answers => exact h.2.2.push trivial rfl
    | _ => exact h

theorem goOn (h : below.Sourced source statuses) (round : Round) (w : World) {entries : List Entry}
    (hentries : ∀ e ∈ entries, source e.owner (round.cause e.handle) below) :
    (round.goOn w entries below).2.Sourced source statuses := by
  refine round.goOn_stack w h.reply (fun e later heq => ?_)
  subst heq
  exact h.push_entries (g := round.cause) (by cases round <;> rfl) (by cases round <;> rfl) hentries

end Stack.Sourced

theorem Done.sourced {source : OperationId → Cause → Stack → Prop} {statuses : StatusTable}
    {stack below : Stack} {answers : List Answer} (hdone : Done stack answers below)
    (h : stack.Sourced source statuses) : below.Sourced source statuses := by
  cases hdone with
  | script => exact h.2.2
  | bare => exact h

/-! ### Sections bring in only attempts that they are aimed at -/

/-- A correlator that refuses an operation was closed before. -/
theorem isClosed_of_register {w v : World} {c : Correlator} (hv : v = w ∨ v = w.installDefault)
    (hc : v.correlator = .present c) {id : OperationId} {operation : String} {now : Nat}
    (ht : c.table.register id operation now = none) : w.correlator.isClosed = true := by
  have hclosed : c.table.isShutDown = true := PendingTable.register_eq_none.mp ht
  rcases hv with rfl | rfl
  · rw [hc]
    exact hclosed
  · unfold World.installDefault at hc
    split at hc
    · cases hc
      cases hclosed
    · rw [hc]
      exact hclosed

section Step

variable {source : OperationId → Cause → Stack → Prop} {statuses : StatusTable}
variable {w v : World} {stack stack' : Stack} {owed : List OperationId}

/-- The first section of a step is aimed at whatever it brings in. -/
theorem Step.Begins.sourced {self : Option CommandHandle} {s : Step} {rest : List Step}
    {answers : List Answer} {below : Stack}
    (hs : s.Begins w self (.script self rest answers :: below) v stack) (hsound : w.Sound owed)
    (hcalls : w.CallsTied) (hstatuses : ∀ c, w.correlator = .present c → c.statuses = statuses)
    (hnew : ∀ id cause under,
      Aims w id (.script self (s :: rest) answers :: below) cause under → source id cause under)
    (h : Stack.Sourced source statuses (.script self rest answers :: below)) :
    stack.Sourced source statuses := by
  cases hs with
  | answered _ _ => exact h.reply _
  | installed _ _ _ _ => exact h.reply _
  | seeded _ => exact h.reply _
  | accepted _ _ _ _ =>
    refine Stack.Sourced.push ?_ trivial rfl
    exact h.push trivial rfl
  | @refused _ r u _ hr hv hc ht =>
    have hid : u.nextId = w.nextId := congrArg List.length (World.operations_of_readied hv)
    have haims := hnew _ _ _ (.refused hr hid (isClosed_of_register hv hc ht))
    exact h.push_resolve rfl haims rfl
  | @completed _ _ c handle status payload entry _ receipt hd hv hc ht =>
    obtain ⟨hfind, -⟩ := PendingTable.remove_eq_some ht
    have haims := hnew _ _ _ (.delivered hd (hsound.holds_of_find? hc hfind))
    refine h.push_resolve ?_ haims rfl
    rw [hstatuses c hc]
  | expired htarget hc he =>
    have haims := hnew _ _ _ (.expired htarget (hsound.holds_of_find? hc he))
    exact h.push_resolve rfl haims rfl
  | @swept age order c limit hc hage =>
    refine h.goOn (.sweep _ _) w (fun e he => hnew _ _ _ ?_)
    have hstale : e ∈ c.table.stale w.clock limit.millis := (order.apply_perm _).mem_iff.mp he
    refine .swept hc hage hstale rfl (hsound.holds_of_mem_entries ?_)
    rw [World.entries_of_present hc]
    exact (List.mem_filter.mp hstale).1
  | @shutDown order c hc =>
    refine h.goOn (.shutdown _) _ (fun e he => hnew _ _ _ (.shutDown ?_))
    refine hsound.holds_of_mem_entries ?_
    rw [World.entries_of_present hc]
    exact (order.apply_perm _).mem_iff.mp he
  | @dropped order c _ hc _ _ _ =>
    refine h.goOn .drop _ (fun e he => hnew _ _ _ (.dropped ?_))
    refine hsound.holds_of_mem_entries ?_
    rw [World.entries_of_present hc]
    exact (order.apply_perm _).mem_iff.mp he
  | @gaveUp _ n call limit id hs hcall hsource hopen =>
    have hmem : some call ∈ w.calls := List.mem_of_getElem? (Option.join_eq_some_iff.mp hcall)
    rcases hcalls call hmem id hsource with ⟨handle, hhandle, -, hgiven⟩ | ⟨-, hresolved⟩
    · rw [hhandle]
      have haims := hnew _ _ _ (.gaveUp hs hcall hsource hhandle hgiven)
      exact h.push_resolve rfl haims rfl
    · exact absurd hopen hresolved
  | configured =>
    refine Stack.Sourced.push ?_ trivial rfl
    exact h.push trivial rfl

/-- **A section brings in only attempts that it is aimed at.** -/
theorem Section.sourced (hs : Section w stack v stack') (hsound : w.Sound owed)
    (hcalls : w.CallsTied) (hstatuses : ∀ c, w.correlator = .present c → c.statuses = statuses)
    (hnew : ∀ id cause under, Aims w id stack cause under → source id cause under)
    (h : stack.Sourced source statuses) : stack'.Sourced source statuses := by
  cases hs with
  | began hbegins => exact hbegins.sourced hsound hcalls hstatuses hnew (h.2.2.push trivial rfl)
  | left _ => exact h.2.2
  | issued hdone => exact (hdone.sourced h).2.2.reply _
  | @failed _ below during id ticket operation handle status c t hdone hstatus hc ht =>
    obtain ⟨e, hfind, rfl, -⟩ := PendingTable.removeOwned_eq_some ht
    have haims := hnew _ _ _ (.failed hdone hstatus (hsound.holds_of_find? hc hfind))
    refine (hdone.sourced h).2.2.push_resolve ?_ haims rfl
    rw [hstatuses c hc]
    rfl
  | failedLate hdone _ _ => exact (hdone.sourced h).2.2.reply _
  | configured hdone => exact (hdone.sourced h).2.2.reply _
  | continued hdone =>
    have hcontinuation := hdone.sourced h
    exact ⟨trivial, hcontinuation.2.1, hcontinuation.2.2⟩
  | passed _ => exact ⟨trivial, fun a ha => h.2.1 a (List.mem_cons_of_mem _ ha), h.2.2⟩
  | ran _ _ _ =>
    refine Stack.Sourced.push ?_ trivial rfl
    exact ⟨trivial, fun a ha => h.2.1 a (List.mem_cons_of_mem _ ha), h.2.2⟩
  | told _ _ _ _ _ => exact ⟨trivial, fun a ha => h.2.1 a (List.mem_cons_of_mem _ ha), h.2.2⟩
  | refused => exact h.2.2.reply _
  | failedNow => exact h.2.2.reply _
  | answered _ _ _ => exact h.2.2.reply _
  | sweptOn =>
    exact h.2.2.goOn (.sweep _ _) w (fun e he => h.2.1 _ (List.mem_map_of_mem he))
  | shutDownOn =>
    exact h.2.2.goOn (.shutdown _) w (fun e he => h.2.1 _ (List.mem_map_of_mem he))
  | droppedOn => exact h.2.2.goOn .drop w (fun e he => h.2.1 _ (List.mem_map_of_mem he))

end Step

/-! ### Sessions -/

/-- Earlier in the session, a section was aimed at the operation for the cause, and what it brought
in is above this stack. -/
def Session.Source (c : Correlator) (steps : List Step) (m : World × Stack) (id : OperationId)
    (cause : Cause) (below : Stack) : Prop :=
  ∃ p, Reaches (start c steps) p ∧ Aims p.1 id p.2 cause below ∧ Reaches p m

/-- The statuses mean throughout a session what they meant at its start. -/
theorem Reaches.statuses {c d : Correlator} {steps : List Step} {m : World × Stack}
    (hm : Reaches (Session.start c steps) m) (hd : m.1.correlator = .present d) :
    d.statuses = c.statuses := by
  have hleads : Presence.Leads (.present c) m.1.correlator := hm.precedes.correlator
  rw [hd] at hleads
  cases hleads with
  | kept hstatuses _ => exact hstatuses

namespace Session

variable {c : Correlator} {steps : List Step} {m : World × Stack}

/-- **In every state of a session all attempts have a source.** -/
theorem sourced (hc : c.IsFresh) (hseeds : ∀ n ∈ Step.seedsIn steps, 0 < n)
    (hfits : ∀ m, Reaches (start c steps) m → m.1.Fits) (hm : Reaches (start c steps) m) :
    m.2.Sourced (Source c steps m) c.statuses := by
  induction hm with
  | refl => exact ⟨trivial, fun a ha => absurd ha List.not_mem_nil, trivial⟩
  | @tail m n hreaches hmoves ih =>
    refine hmoves.section.sourced (Reaches.sound_of_fits hc hseeds hfits hreaches)
      (Reaches.tied_of_fits hc hseeds hfits hreaches).1 (fun d hd => Reaches.statuses hreaches hd) ?_ ?_
    · intro id cause under haims
      exact ⟨m, hreaches, haims, .single hmoves⟩
    · refine ih.mono (fun id cause below hsource => ?_)
      obtain ⟨p, hp, haims, hpm⟩ := hsource
      exact ⟨p, hp, haims, hpm.tail hmoves⟩

/-- The operation was resolved with the outcome, for the cause: in a state where it was still
unresolved, above the stack of a section that was aimed at it. -/
structure ResolvedBy (c : Correlator) (steps : List Step) (m : World × Stack) (id : OperationId)
    (outcome : Outcome) (cause : Cause) : Prop where
  resolved : ∃ r after below, Reaches (start c steps) r ∧ Reaches r m ∧
    r.1.outcome? id = none ∧ r.2 = .resolve id outcome cause after :: below ∧
    Source c steps r id cause below
  noted : .resolved id outcome cause ∈ m.1.journal
  brought : outcome = cause.outcome c.statuses

/-- **Every outcome was brought about by a section that was aimed at the operation**, as long as the
entries fit. -/
theorem exists_resolvedBy_of_fits (hc : c.IsFresh) (hseeds : ∀ n ∈ Step.seedsIn steps, 0 < n)
    (hfits : ∀ m, Reaches (start c steps) m → m.1.Fits) (hm : Reaches (start c steps) m)
    {id : OperationId} {outcome : Outcome} (ho : m.1.outcome? id = some outcome) :
    ∃ cause, ResolvedBy c steps m id outcome cause := by
  induction hm with
  | refl => cases ho
  | @tail m n hreaches hmoves ih =>
    have hlater : ∀ cause, ResolvedBy c steps m id outcome cause →
        ResolvedBy c steps n id outcome cause := by
      rintro cause ⟨⟨r, after, below, hr, hrm, hrest⟩, hnoted, hbrought⟩
      refine ⟨⟨r, after, below, hr, hrm.tail hmoves, hrest⟩, ?_, hbrought⟩
      exact hmoves.section.precedes.journal.subset hnoted
    rcases hmoves.section.effect.outcomes with hsame | ⟨other, outcome', cause, hresolves⟩
    · rw [hsame] at ho
      obtain ⟨cause, hresolved⟩ := ih ho
      exact ⟨cause, hlater cause hresolved⟩
    · rw [hresolves.set] at ho
      by_cases hid : other = id
      · subst hid
        rw [if_pos rfl] at ho
        cases ho
        obtain ⟨after, below, htop⟩ := hresolves.top
        have hsourced := sourced hc hseeds hfits hreaches
        rw [htop] at hsourced
        have hsource := hsourced.2.1 _ List.mem_cons_self
        refine ⟨cause, ⟨m, after, below, hreaches, .single hmoves, hresolves.isOpen, htop,
          hsource⟩, hresolves.noted, hsourced.1⟩
      · rw [if_neg hid] at ho
        obtain ⟨cause', hresolved⟩ := ih ho
        exact ⟨cause', hlater cause' hresolved⟩

theorem exists_resolvedBy (hc : c.IsFresh) (hseeds : ∀ n ∈ Step.seedsIn steps, 0 < n)
    (hroom : ∀ m, Reaches (start c steps) m → m.1.HasRoom) (hm : Reaches (start c steps) m)
    {id : OperationId} {outcome : Outcome} (ho : m.1.outcome? id = some outcome) :
    ∃ cause, ResolvedBy c steps m id outcome cause :=
  exists_resolvedBy_of_fits hc hseeds (fun n hn => (hroom n hn).fits) hm ho

/-- An operation that was refused is never given a handle. -/
theorem handlesGiven_of_refused (hc : c.IsFresh) (hseeds : ∀ n ∈ Step.seedsIn steps, 0 < n)
    (hroom : ∀ m, Reaches (start c steps) m → m.1.HasRoom) {id : OperationId} {outcome : Outcome}
    {operation : String} (h : ResolvedBy c steps m id outcome (.refused operation)) :
    m.1.handlesGiven id = [] := by
  obtain ⟨r, after, below, hr, hrm, -, htop, -⟩ := h.resolved
  obtain ⟨-, htied⟩ := Reaches.tied hc hseeds hroom hr
  rw [htop] at htied
  obtain ⟨hid, hgiven⟩ := htied.1.2 operation rfl
  rw [hrm.precedes.given id hid, hgiven]

end Session

/-! ### Causes can be told from outcomes -/

namespace Cause

variable {statuses : StatusTable} {cause : Cause}

/-- A completion that brings an error brings that of its status. -/
theorem error_of_delivered {h : CommandHandle} {status : Int32} {payload : Payload}
    {e : BridgeError} (heq : (Cause.delivered h status payload).outcome statuses = .error e) :
    statuses.errorOf status = e := by
  simp only [outcome, StatusTable.check] at heq
  split at heq
  · cases heq
  · exact Except.error.inj heq

theorem of_ok {payload : Payload} (heq : cause.outcome statuses = .ok payload) :
    ∃ h, cause = .delivered h successStatus payload := by
  cases cause with
  | delivered h status p =>
    simp only [outcome, StatusTable.check] at heq
    split at heq
    · next hstatus =>
      cases heq
      exact ⟨h, by rw [hstatus]⟩
    · cases heq
  | _ => cases heq

theorem of_errorOf {status : Int32} (hgaveUp : cause ≠ .gaveUp none)
    (heq : cause.outcome statuses = .error (statuses.errorOf status)) :
    (∃ h payload, cause = .delivered h status payload) ∨ ∃ h, cause = .failed h status := by
  cases cause with
  | delivered h other payload =>
    obtain rfl := StatusTable.errorOf_injective (error_of_delivered heq)
    exact .inl ⟨h, payload, rfl⟩
  | failed h other =>
    obtain rfl := StatusTable.errorOf_injective (Except.error.inj heq)
    exact .inr ⟨h, rfl⟩
  | refused operation =>
    exact absurd (Except.error.inj heq).symm (StatusTable.errorOf_ne_refused operation)
  | expired h => exact absurd (Except.error.inj heq).symm (StatusTable.errorOf_ne_timeout h)
  | swept h => exact absurd (Except.error.inj heq).symm (StatusTable.errorOf_ne_timeout h)
  | shutDown h => exact absurd (Except.error.inj heq).symm (StatusTable.errorOf_ne_shutDown h)
  | dropped h => exact absurd (Except.error.inj heq).symm (StatusTable.errorOf_ne_shutDown h)
  | gaveUp handle =>
    cases handle with
    | none => exact absurd rfl hgaveUp
    | some h => exact absurd (Except.error.inj heq).symm (StatusTable.errorOf_ne_timeout h)

theorem of_timeout {h : CommandHandle} (heq : cause.outcome statuses = .error (.timeout h)) :
    cause = .expired h ∨ cause = .swept h ∨ cause = .gaveUp (some h) := by
  cases cause with
  | delivered _ status payload =>
    exact absurd (error_of_delivered heq) (StatusTable.errorOf_ne_timeout h)
  | failed _ status => exact absurd (Except.error.inj heq) (StatusTable.errorOf_ne_timeout h)
  | refused operation =>
    exact absurd (Except.error.inj heq).symm (BridgeError.timeout_ne_refused h operation)
  | expired g =>
    obtain rfl := BridgeError.timeout_injective (Except.error.inj heq)
    exact .inl rfl
  | swept g =>
    obtain rfl := BridgeError.timeout_injective (Except.error.inj heq)
    exact .inr (.inl rfl)
  | shutDown g => exact absurd (Except.error.inj heq).symm (BridgeError.timeout_ne_shutDown h g)
  | dropped g => exact absurd (Except.error.inj heq).symm (BridgeError.timeout_ne_shutDown h g)
  | gaveUp handle =>
    cases handle with
    | none => cases congrArg BridgeError.detail (Except.error.inj heq)
    | some g =>
      obtain rfl := BridgeError.timeout_injective (Except.error.inj heq)
      exact .inr (.inr rfl)

theorem of_shutDown {h : CommandHandle} (heq : cause.outcome statuses = .error (.shutDown h)) :
    cause = .shutDown h ∨ cause = .dropped h := by
  cases cause with
  | delivered _ status payload =>
    exact absurd (error_of_delivered heq) (StatusTable.errorOf_ne_shutDown h)
  | failed _ status => exact absurd (Except.error.inj heq) (StatusTable.errorOf_ne_shutDown h)
  | refused operation =>
    exact absurd (Except.error.inj heq).symm (BridgeError.shutDown_ne_refused h operation)
  | expired g => exact absurd (Except.error.inj heq) (BridgeError.timeout_ne_shutDown g h)
  | swept g => exact absurd (Except.error.inj heq) (BridgeError.timeout_ne_shutDown g h)
  | shutDown g =>
    obtain rfl := BridgeError.shutDown_injective (Except.error.inj heq)
    exact .inl rfl
  | dropped g =>
    obtain rfl := BridgeError.shutDown_injective (Except.error.inj heq)
    exact .inr rfl
  | gaveUp handle =>
    cases handle with
    | none => cases congrArg BridgeError.kind (Except.error.inj heq)
    | some g => exact absurd (Except.error.inj heq) (BridgeError.timeout_ne_shutDown g h)

theorem of_refused {operation : String}
    (heq : cause.outcome statuses = .error (.refused operation)) : cause = .refused operation := by
  cases cause with
  | delivered _ status payload =>
    exact absurd (error_of_delivered heq) (StatusTable.errorOf_ne_refused operation)
  | failed _ status =>
    exact absurd (Except.error.inj heq) (StatusTable.errorOf_ne_refused operation)
  | refused other => rw [BridgeError.refused_injective (Except.error.inj heq)]
  | expired h => exact absurd (Except.error.inj heq) (BridgeError.timeout_ne_refused h operation)
  | swept h => exact absurd (Except.error.inj heq) (BridgeError.timeout_ne_refused h operation)
  | shutDown h => exact absurd (Except.error.inj heq) (BridgeError.shutDown_ne_refused h operation)
  | dropped h => exact absurd (Except.error.inj heq) (BridgeError.shutDown_ne_refused h operation)
  | gaveUp handle =>
    cases handle with
    | none => cases congrArg BridgeError.kind (Except.error.inj heq)
    | some h => exact absurd (Except.error.inj heq) (BridgeError.timeout_ne_refused h operation)

end Cause

/-- No section is aimed at an operation whose call has no handle. -/
theorem Aims.ne_gaveUp {w : World} {id : OperationId} {stack below : Stack} {cause : Cause}
    (h : Aims w id stack cause below) : cause ≠ .gaveUp none := by
  cases h <;> exact fun heq => by cases heq

/-! ### The result -/

namespace Session

/-- **Every outcome comes from the operation's own lifetime.**  Let an operation have an outcome in
some state of a session with a fresh correlator and room.  Then its continuation has started once,
and a section aimed at this operation brought the outcome about.  In particular,

* a payload was delivered with the status of success,
* the error of another status was delivered, or its own native function returned the status,
* a timeout comes from an expiry, a sweep or its own call, all of this handle,
* the error of a shutdown comes from a shutdown or a drop,
* and a refusal from its registration, and then its native function never runs. -/
theorem provenance {c : Correlator} (hc : c.IsFresh) {steps : List Step}
    (hseeds : ∀ n ∈ Step.seedsIn steps, 0 < n)
    (hroom : ∀ m, Reaches (start c steps) m → m.1.HasRoom) {m : World × Stack}
    (hm : Reaches (start c steps) m) {id : OperationId} {outcome : Outcome}
    (ho : m.1.outcome? id = some outcome) :
    m.1.timesRun id = 1 ∧ ∃ cause, ResolvedBy c steps m id outcome cause ∧
      (∀ payload, outcome = .ok payload → ∃ h, cause = .delivered h successStatus payload) ∧
      (∀ status, status ≠ successStatus → outcome = .error (c.statuses.errorOf status) →
        (∃ h payload, cause = .delivered h status payload) ∨ ∃ h, cause = .failed h status) ∧
      (∀ h, outcome = .error (.timeout h) →
        cause = .expired h ∨ cause = .swept h ∨ cause = .gaveUp (some h)) ∧
      (∀ h, outcome = .error (.shutDown h) → cause = .shutDown h ∨ cause = .dropped h) ∧
      (∀ operation, outcome = .error (.refused operation) → cause = .refused operation ∧
        m.1.handlesGiven id = [] ∧
        ∀ ticket name h status, .native id ticket name h status ∉ m.2) := by
  have hsound := hm.sound hc hseeds hroom
  obtain ⟨cause, hresolved⟩ := exists_resolvedBy hc hseeds hroom hm ho
  have hbrought := hresolved.brought
  refine ⟨?_, cause, hresolved, ?_, ?_, ?_, ?_, ?_⟩
  · rw [hsound.runs, ho]
    rfl
  · rintro payload rfl
    exact Cause.of_ok hbrought.symm
  · rintro status - rfl
    obtain ⟨r, after, below, -, -, -, -, p, -, haims, -⟩ := hresolved.resolved
    exact Cause.of_errorOf haims.ne_gaveUp hbrought.symm
  · rintro h rfl
    exact Cause.of_timeout hbrought.symm
  · rintro h rfl
    exact Cause.of_shutDown hbrought.symm
  · rintro operation rfl
    obtain rfl := Cause.of_refused hbrought.symm
    have hgiven := handlesGiven_of_refused hc hseeds hroom hresolved
    refine ⟨rfl, hgiven, fun ticket name h status hmem => ?_⟩
    have hnative := (Reaches.tied hc hseeds hroom hm).2.given_of_mem hmem
    rw [hgiven] at hnative
    cases hnative

/-- While a native function still runs, its command completes, and another command is given the same
handle; then the native function fails. -/
def reuse : List Step :=
  [.submit "open_wallet" (fun _ => 200)
    [.deliver .self 0 (.handle 7), .seed 1, .submit "close_wallet" (fun _ => 0) [] []] [],
   .deliver (.handle ⟨1⟩) 0 (.handle 9)]

/-- Both commands had the handle 1, and each ends with what was delivered to itself. -/
theorem provenance_reuse : ∃ m, Reaches (start {} reuse) m ∧
    (∃ h, ResolvedBy {} reuse m 0 (.ok (.handle 7)) (.delivered h 0 (.handle 7))) ∧
    ∃ h, ResolvedBy {} reuse m 1 (.ok (.handle 9)) (.delivered h 0 (.handle 9)) := by
  have hfresh : Correlator.IsFresh {} := ⟨rfl, by decide⟩
  have hseeds : ∀ n ∈ Step.seedsIn reuse, 0 < n := by
    have hone : Step.seedsIn reuse = [1] := rfl
    rw [hone, List.forall_mem_singleton]
    decide
  have hsize : Step.sizes reuse < Allocator.fullTurn := by decide
  obtain ⟨m, hm, hworld, -⟩ := Reaches.follow (start {} reuse) 20
  have hfirst : m.1.outcome? 0 = some (.ok (.handle 7)) := by
    rw [← hworld]
    rfl
  have hsecond : m.1.outcome? 1 = some (.ok (.handle 9)) := by
    rw [← hworld]
    rfl
  have hroom : ∀ m, Reaches (start {} reuse) m → m.1.HasRoom :=
    fun m hm => hasRoom hfresh hseeds hsize hm
  obtain ⟨-, cause, hresolved, hok, -⟩ := provenance hfresh hseeds hroom hm hfirst
  obtain ⟨-, cause', hresolved', hok', -⟩ := provenance hfresh hseeds hroom hm hsecond
  obtain ⟨h, rfl⟩ := hok _ rfl
  obtain ⟨h', rfl⟩ := hok' _ rfl
  exact ⟨m, hm, ⟨h, hresolved⟩, h', hresolved'⟩

end Session

end CommandBridge

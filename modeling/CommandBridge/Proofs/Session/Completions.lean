import CommandBridge.Proofs.Session.Attempts
import CommandBridge.Proofs.Session.Conservation

/-!
# What comes of a completion

A completion that is delivered to a handle can find three things.  There may be no entry under the
handle; then the completion is dangling.  There may be an entry whose operation is unresolved; then
it completes the operation.  Or the operation of the entry has run out of time before, and then the
completion is absorbed.

* `Event.level?` — how severe the log record of an event is;
* `Cause.IsTimeout` — an operation with this handle has run out of time;
* `Session.exists_timeout` — an operation that is resolved and has an entry has run out of time;
* `Dangles`, `TakesOut`, `Completes`, `Absorbs` — what comes of a completion;
* `Session.delivery_exact` — one of the three, and exactly which one.
-/

namespace CommandBridge

/-- How severe the log record of an event is, if it has one. -/
def Event.level? (e : Event) : Option Level :=
  e.record?.map Record.level

/-! ### Operations that have run out of time -/

/-- The operation that was given this handle was resolved because it had run out of time. -/
def Cause.IsTimeout (h : CommandHandle) (cause : Cause) : Prop :=
  cause = .expired h ∨ cause = .swept h ∨ cause = .gaveUp (some h)

theorem Cause.IsTimeout.outcome {h : CommandHandle} {cause : Cause} (hcause : cause.IsTimeout h)
    (statuses : StatusTable) : cause.outcome statuses = .error (.timeout h) := by
  rcases hcause with rfl | rfl | rfl <;> rfl

/-- Whoever leaves an operation its entry acts on the handle that the operation was given. -/
theorem Aims.exists_timeout {w : World} {id : OperationId} {stack below : Stack} {cause : Cause}
    (h : Aims w id stack cause below) (hleaves : cause.takesEntry = false) :
    ∃ handle, cause.IsTimeout handle ∧ w.handlesGiven id = [handle] := by
  cases h with
  | delivered _ _ => cases hleaves
  | failed _ _ _ => cases hleaves
  | @expired _ _ _ _ _ handle _ hholds => exact ⟨handle, .inl rfl, hholds.1⟩
  | @swept _ _ _ _ _ _ _ _ e _ _ _ _ hholds => exact ⟨e.handle, .inr (.inl rfl), hholds.1⟩
  | shutDown _ => cases hleaves
  | dropped _ => cases hleaves
  | @gaveUp _ _ _ _ _ _ _ _ handle _ _ _ _ hgiven => exact ⟨handle, .inr (.inr rfl), hgiven⟩
  | refused _ _ _ => cases hleaves

section Session

variable {c d : Correlator} {steps : List Step} {m : World × Stack}

/-- **An operation that is resolved and still has its entry has run out of time.** -/
theorem Session.exists_timeout (hc : c.IsFresh) (hseeds : ∀ n ∈ Step.seedsIn steps, 0 < n)
    (hfits : ∀ m, Reaches (start c steps) m → m.1.Fits) (hm : Reaches (start c steps) m)
    {id : OperationId} {h : CommandHandle} (hholds : m.1.Holds id h) {outcome : Outcome}
    (ho : m.1.outcome? id = some outcome) :
    ∃ cause, cause.IsTimeout h ∧ ResolvedBy c steps m id outcome cause := by
  obtain ⟨cause, hresolved⟩ := exists_resolvedBy_of_fits hc hseeds hfits hm ho
  obtain ⟨r, after, below, hr, hrm, -, -, p, hp, haims, hpr⟩ := hresolved.resolved
  have hpm : Reaches p m := hpr.trans hrm
  have hleaves : cause.takesEntry = false := by
    obtain ⟨-, -, hgone⟩ := (Reaches.regular hc hseeds hfits hm).recorded _ _ _ hresolved.noted
    by_contra htakes
    refine hgone (by simpa using htakes) (List.mem_append_left _ ?_)
    exact World.Sound.mem_owners_of_holds hholds
  obtain ⟨handle, htimeout, hgiven⟩ := haims.exists_timeout hleaves
  have hbegun : id < p.1.operations.length := by
    by_contra hle
    rw [(hp.sound_of_fits hc hseeds hfits).ungiven id (Nat.le_of_not_lt hle)] at hgiven
    cases hgiven
  have hsame : m.1.handlesGiven id = [handle] := (hpm.precedes.given id hbegun).trans hgiven
  obtain rfl : handle = h := List.head_eq_of_cons_eq (hsame.symm.trans hholds.1)
  exact ⟨cause, htimeout, hresolved⟩

/-! ### The three ends -/

/-- Nothing has come of a completion but a record that it is dangling, an error. -/
structure Dangles (m n : World × Stack) (h : CommandHandle) (status : Int32) : Prop where
  atOnce : Moves m n
  correlator : n.1.correlator = m.1.correlator
  journal : n.1.journal = .dangling h status :: m.1.journal
  level : (Event.dangling h status).level? = some .error
  outcome : ∀ id, n.1.outcome? id = m.1.outcome? id
  timesRun : ∀ id, n.1.timesRun id = m.1.timesRun id

/-- The first section takes an entry out, this one and no other, and does nothing else. -/
structure TakesOut (m q : World × Stack) (d : Correlator) (e : Entry) : Prop where
  moves : Moves m q
  correlator : q.1.correlator = .present { d with table := d.table.erase e.handle }
  entries : m.1.entries.Perm (e :: q.1.entries)
  gone : e ∉ q.1.entries
  journal : q.1.journal = m.1.journal
  outcome : ∀ id, q.1.outcome? id = m.1.outcome? id

/-- The operation of the entry is unresolved.  The next section resolves it with what the completion
says, its continuation runs this once, and in the end there is a record for debugging. -/
structure Completes (q n : World × Stack) (statuses : StatusTable) (e : Entry) (status : Int32)
    (payload : Payload) : Prop where
  isOpen : q.1.outcome? e.owner = none
  next : ∃ p, Moves q p ∧ p.1.outcome? e.owner ≠ none ∧ Reaches p n
  outcome : n.1.outcome? e.owner =
    some (if status = successStatus then .ok payload else .error (statuses.errorOf status))
  ran : n.1.timesRun e.owner = 1
  journal : ∃ before, n.1.journal = .completed e.owner e.operation e.handle status :: before
  level : (Event.completed e.owner e.operation e.handle status).level? = some .debug

/-- The operation of the entry has run out of time before.  No continuation runs, and there is a
warning. -/
structure Absorbs (q n : World × Stack) (e : Entry) : Prop where
  timedOut : ∃ cause, cause.IsTimeout e.handle ∧
    .resolved e.owner (.error (.timeout e.handle)) cause ∈ q.1.journal
  outcome : ∀ id, n.1.outcome? id = q.1.outcome? id
  timesRun : ∀ id, n.1.timesRun id = q.1.timesRun id
  correlator : n.1.correlator = q.1.correlator
  journal : n.1.journal = .absorbed e.owner e.operation e.handle :: q.1.journal
  level : (Event.absorbed e.owner e.operation e.handle).level? = some .warn

variable {self : Option CommandHandle} {s : Step} {rest : List Step} {answers : List Answer}
  {below : Stack} {h : CommandHandle} {status : Int32} {payload : Payload} {e : Entry}

/-- A completion for a handle without an entry is dangling. -/
theorem exists_dangles (htop : m.2 = .script self (s :: rest) answers :: below)
    (hdelivery : s.delivery? m.1 self = some (h, status, payload))
    (hd : m.1.correlator = .present d) (hnone : d.table.find? h = none) :
    ∃ n, Returns m n ((s.receipt m.1).answer n.1 (.error (.dangling h status))) ∧
      Dangles m n h status := by
  obtain ⟨n, hmoves, hquiet, hjournal, hreturns⟩ := returns_of_not_pending htop hdelivery hd hnone
  exact ⟨n, hreturns, hmoves, hquiet.correlator, hjournal, rfl, hquiet.outcome?, hquiet.timesRun⟩

theorem TakesOut.of_moves {owed : List OperationId} (hsound : m.1.Sound owed)
    (hd : m.1.correlator = .present d) (he : d.table.find? e.handle = some e) {v : World}
    (hquiet : m.1.Quiet v) (hjournal : v.journal = m.1.journal) {stack : Stack}
    (hmoves : Moves m (v.setTable (d.table.erase e.handle), stack)) :
    TakesOut m (v.setTable (d.table.erase e.handle), stack) d e := by
  have hv : v.correlator = .present d := hquiet.correlator.trans hd
  have hcorrelator := World.correlator_setTable hv (d.table.erase e.handle)
  refine ⟨hmoves, hcorrelator, ?_, ?_, ?_, fun id => ?_⟩
  · rw [World.entries_of_present hd, World.entries_of_present hcorrelator]
    exact PendingTable.entries_erase he
  · rw [World.entries_of_present hcorrelator]
    exact (hsound.table d hd).not_mem_erase he
  · rw [World.journal_setTable, hjournal]
  · rw [World.outcome?_congr (World.operations_setTable _ _), hquiet.outcome?]

/-- A completion for a handle with an entry takes it out, and then completes its operation or is
absorbed. -/
theorem Session.exists_completes_or_absorbs (hc : c.IsFresh)
    (hseeds : ∀ n ∈ Step.seedsIn steps, 0 < n)
    (hfits : ∀ m, Reaches (start c steps) m → m.1.Fits) (hm : Reaches (start c steps) m)
    (htop : m.2 = .script self (s :: rest) answers :: below)
    (hdelivery : s.delivery? m.1 self = some (h, status, payload))
    (hd : m.1.correlator = .present d) (he : d.table.find? h = some e) :
    ∃ n q, Returns m n ((s.receipt m.1).answer n.1 (.ok ())) ∧ TakesOut m q d e ∧ Reaches q n ∧
      (Completes q n d.statuses e status payload ∨ Absorbs q n e) := by
  have hsound := hm.sound_of_fits hc hseeds hfits
  obtain ⟨v, p, u, ran, n, hquiet, hjournal, hfirst, hattempt, hreaches, hreturns, hn⟩ :=
    exists_completion htop hdelivery hd he
  obtain ⟨hmem, rfl⟩ := PendingTable.find?_eq_some he
  have htakes := TakesOut.of_moves hsound hd he hquiet hjournal hfirst
  have hentry : e ∈ m.1.entries := by rwa [World.entries_of_present hd]
  refine ⟨n, _, hreturns, htakes, .head hattempt.moves hreaches, ?_⟩
  cases hopen : m.1.outcome? e.owner with
  | none =>
    have hopen' := (htakes.outcome e.owner).trans hopen
    have hbegun := Nat.lt_of_lt_of_le (hsound.owner_lt hentry) hfirst.section.precedes.length
    obtain ⟨rfl, -, hset⟩ := hattempt.of_open hbegun hopen'
    have hlast := hreaches.precedes.outcome _ _ hset
    have hresult : (Cause.delivered e.handle status payload).outcome d.statuses =
        if status = successStatus then .ok payload else .error (d.statuses.errorOf status) := by
      rw [Cause.outcome, StatusTable.check]
      split <;> rfl
    refine .inl ⟨hopen', ⟨p, hattempt.moves, ?_, hreaches⟩, ?_, ?_,
      ⟨u.journal, congrArg World.journal hn⟩, rfl⟩
    · rw [hset]
      exact Option.some_ne_none _
    · rw [hlast, hresult]
    · have hreached : Reaches (start c steps) n := hm.trans hreturns.reaches
      rw [(hreached.sound_of_fits hc hseeds hfits).runs, hlast]
      rfl
  | some outcome =>
    have hresolved := (htakes.outcome e.owner).trans hopen
    obtain ⟨rfl, -, rfl⟩ := hattempt.of_resolved (hresolved ▸ Option.some_ne_none outcome)
    obtain ⟨cause, htimeout, hresolvedBy⟩ :=
      exists_timeout hc hseeds hfits hm (hsound.holds_of_mem_entries hentry) hopen
    have hnoted := hresolvedBy.noted
    rw [hresolvedBy.brought, htimeout.outcome] at hnoted
    have hquiet' : (v.setTable (d.table.erase e.handle)).Quiet n.1 := by
      rw [hn]
      exact World.quiet_note _ rfl
    exact .inr ⟨⟨cause, htimeout, htakes.journal ▸ hnoted⟩, hquiet'.outcome?, hquiet'.timesRun,
      hquiet'.correlator, congrArg World.journal hn, rfl⟩

namespace Session

/-- **A completion has one of three ends.**  In a state of a session with a fresh correlator whose
entries always fit, let a step deliver a status and a payload to a handle.  It comes back with an
error exactly if there is no entry under the handle.

* Then the completion is dangling: the error carries the status, it is on record, and nothing else
  has happened.
* Otherwise it comes back with success, whatever the status.  Its first section takes the entry out
  and does nothing else.  If the operation is unresolved it is resolved next, with the payload or
  the error of the status, and its continuation runs this once; or else the operation has run out of
  time before, by an expiry, a sweep or its own call, and the completion is absorbed. -/
theorem delivery_exact (hc : c.IsFresh) (hseeds : ∀ n ∈ Step.seedsIn steps, 0 < n)
    (hfits : ∀ m, Reaches (start c steps) m → m.1.Fits) (hm : Reaches (start c steps) m)
    (htop : m.2 = .script self (s :: rest) answers :: below)
    (hdelivery : s.delivery? m.1 self = some (h, status, payload))
    (hd : m.1.correlator = .present d) :
    ∃ n result, Returns m n ((s.receipt m.1).answer n.1 result) ∧
      ((∃ error, result = .error error) ↔ d.table.contains h = false) ∧
      (d.table.contains h = false → result = .error (.dangling h status) ∧
        (BridgeError.dangling h status).kind = .danglingCompletion ∧
        (BridgeError.dangling h status).code = status ∧ Dangles m n h status) ∧
      (∀ e, d.table.find? h = some e → result = .ok () ∧
        ∃ q, TakesOut m q d e ∧ Reaches q n ∧
          (Completes q n d.statuses e status payload ∨ Absorbs q n e)) := by
  cases he : d.table.find? h with
  | none =>
    obtain ⟨n, hreturns, hdangles⟩ := exists_dangles htop hdelivery hd he
    have hcontains : d.table.contains h = false := by
      rw [← Bool.not_eq_true, PendingTable.contains_iff]
      exact PendingTable.find?_eq_none.mp he
    refine ⟨n, _, hreturns, ⟨fun _ => hcontains, fun _ => ⟨_, rfl⟩⟩,
      fun _ => ⟨rfl, rfl, rfl, hdangles⟩, fun e hfound => by cases hfound⟩
  | some e =>
    obtain ⟨n, q, hreturns, htakes, hreaches, hends⟩ :=
      exists_completes_or_absorbs hc hseeds hfits hm htop hdelivery hd he
    obtain ⟨hmem, rfl⟩ := PendingTable.find?_eq_some he
    have hcontains : d.table.contains e.handle = true :=
      PendingTable.contains_iff.mpr (List.mem_map_of_mem hmem)
    refine ⟨n, .ok (), hreturns, ⟨?_, fun hfalse => ?_⟩, fun hfalse => ?_, ?_⟩
    · rintro ⟨error, heq⟩
      cases heq
    · cases hfalse.symm.trans hcontains
    · cases hfalse.symm.trans hcontains
    · rintro e' heq
      cases heq
      exact ⟨rfl, q, htakes, hreaches, hends⟩

/-- The continuation of a command that expires delivers the completion of this very command. -/
def late : List Step :=
  [.submit "open_wallet" (fun _ => 0) [] [.deliver (.handle ⟨1⟩) 0 (.handle 7)],
   .expire (.handle ⟨1⟩)]

/-- The delivery comes back with success while the continuation of the expired command still runs,
and it is absorbed. -/
theorem delivery_exact_late : ∃ m n, Reaches (start {} late) m ∧
    Returns m n (.delivered (.ok ())) ∧ n.1.outcome? 0 = some (.error (.timeout ⟨1⟩)) ∧
    n.1.journal = .absorbed 0 "open_wallet" ⟨1⟩ :: m.1.journal := by
  have hfresh : Correlator.IsFresh {} := ⟨rfl, by decide⟩
  have hseeds : ∀ n ∈ Step.seedsIn late, 0 < n := Step.seeds_pos_of_nil rfl
  have hsize : Step.sizes late < Allocator.fullTurn := by decide
  -- four sections later, the continuation of the expired command begins
  obtain ⟨m, hm, hworld, hrunning⟩ := Reaches.follow (start {} late) 4
  obtain ⟨d, hd, he⟩ : ∃ d, m.1.correlator = .present d ∧
      d.table.find? ⟨1⟩ = some ⟨⟨1⟩, 0, "open_wallet", 0⟩ := by
    rw [← hworld]
    exact ⟨_, rfl, by decide⟩
  obtain ⟨self, rest, answers, below, htop⟩ : ∃ self rest answers below,
      m.2 = .script self (.deliver (.handle ⟨1⟩) 0 (.handle 7) :: rest) answers :: below := by
    rw [← (List.cons.inj hrunning).1]
    exact ⟨_, _, _, _, rfl⟩
  have hexpired : m.1.outcome? 0 = some (.error (.timeout ⟨1⟩)) := by
    rw [← hworld]
    decide
  obtain ⟨n, result, hreturns, -, -, hends⟩ := delivery_exact hfresh hseeds
    (fun m hm => (hasRoom hfresh hseeds hsize hm).fits) hm htop rfl hd
  obtain ⟨rfl, q, htakes, -, hcompletes | habsorbs⟩ := hends _ he
  · cases (htakes.outcome 0).symm.trans hcompletes.isOpen |>.symm.trans hexpired
  · refine ⟨m, n, hm, hreturns, ?_, ?_⟩
    · rw [habsorbs.outcome, htakes.outcome, hexpired]
    · rw [habsorbs.journal, htakes.journal]

end Session

end Session

end CommandBridge

import CommandBridge.Proofs.Session.Closed
import CommandBridge.Proofs.Session.Completions
import CommandBridge.Proofs.Session.Enrolment

/-!
# Native functions that fail

Whatever runs inside a native function runs before its status is looked at.  By then its operation
may have been completed, drained or expired, and its handle may have been given to another one.  A
failure goes by the operation and not by the handle, so it never touches the other one.

* `Inside.exists_present` — inside a step the correlator stays;
* `Answer.Fails` — the answer to a registration whose native function has failed;
* `FailsOpen`, `FailsExpired`, `FailsLate` — what a failure comes upon, and what it does;
* `Session.failure_is_local` — one of the three, and exactly which one.
-/

namespace CommandBridge

/-! ### The correlator stays -/

/-- Only a thread that does nothing else gives the correlator up. -/
theorem Step.Begins.exists_present {w v : World} {self : Option CommandHandle} {below stack : Stack}
    {s : Step} (h : s.Begins w self below v stack) (hbelow : isOutermost below = false)
    {d : Correlator} (hd : w.correlator = .present d) :
    ∃ d', v.correlator = .present d' := by
  cases h with
  | answered hv _ => exact ⟨d, hv.correlator.trans hd⟩
  | installed hnone _ _ _ => cases hnone.symm.trans hd
  | seeded hc => exact ⟨_, World.correlator_setTable hc _⟩
  | accepted _ hu hc _ =>
    exact ⟨_, (World.quiet_handOver ..).correlator.trans (World.correlator_enter hc)⟩
  | refused _ _ hc _ => exact ⟨_, hc⟩
  | completed _ hv hc _ =>
    rcases hv with rfl | ⟨n, rfl⟩
    · exact ⟨_, World.correlator_setTable hc _⟩
    · exact ⟨_, World.correlator_setTable (w := w.useUp n) hc _⟩
  | expired _ _ _ => exact ⟨d, hd⟩
  | swept _ _ => exact ⟨d, (World.quiet_sweepOn ..).correlator.trans hd⟩
  | shutDown hc =>
    exact ⟨_, (World.quiet_shutdownOn ..).correlator.trans (World.correlator_setTable hc _)⟩
  | dropped _ houtermost _ _ => cases hbelow.symm.trans houtermost
  | gaveUp _ _ _ _ => exact ⟨d, hd⟩
  | configured => exact ⟨d, hd⟩

/-- A section of work above a stack leaves the correlator there. -/
theorem Section.exists_present {w v : World} {base stack stack' : Stack}
    (h : Section w stack v stack') (hbase : base ≠ []) (hover : Stack.Over base stack)
    {d : Correlator} (hd : w.correlator = .present d) : ∃ d', v.correlator = .present d' := by
  cases h.touches with
  | spared hv => exact ⟨d, hv.trans hd⟩
  | @began self s rest answers below hstack hbegins =>
    subst hstack
    refine hbegins.exists_present ?_ hd
    have hbelow : below ≠ [] := by
      rintro rfl
      cases hover with
      | work hf => exact hf _ _ _ rfl
      | push h => cases h
    obtain ⟨f, rest', rfl⟩ := List.exists_cons_of_ne_nil hbelow
    simp [isOutermost]
  | failed _ hc _ hv =>
    subst hv
    exact ⟨_, World.correlator_setTable hc _⟩

/-- **Inside a step the correlator stays.** -/
theorem Inside.exists_present {base : Stack} {m n : World × Stack} (h : Inside base m n)
    (hbase : base ≠ []) {d : Correlator} (hd : m.1.correlator = .present d) :
    ∃ d', n.1.correlator = .present d' := by
  induction h with
  | refl => exact ⟨d, hd⟩
  | tail _ hmoves ih =>
    obtain ⟨d', hd'⟩ := ih
    exact hmoves.2.section.exists_present hbase hmoves.1 hd'

/-! ### Answers -/

/-- The answer says that the native function of an operation was given this handle and failed with
this error, after the steps inside it had returned `during`.  Whoever wants a pending call gets one
that shows the outcome of the operation. -/
def Answer.Fails (id : OperationId) (h : CommandHandle) (error : BridgeError)
    (during : List Answer) : Answer → Prop
  | .submitted _ given native inside =>
    given = .error error ∧ native = some h ∧ inside = during
  | .issued _ pending native inside =>
    pending.source = .operation id ∧ pending.handle = none ∧ native = some h ∧ inside = during
  | .called _ pending native inside =>
    pending.source = .operation id ∧ pending.handle = none ∧
      native.map NativeCall.handle = some (some h) ∧ inside = during
  | _ => False

theorem Ticket.fails_settle (ticket : Ticket) (w : World) (id : OperationId) (h : CommandHandle)
    (error : BridgeError) (during : List Answer) :
    (ticket.settle w id (some h) during (.error error)).2.Fails id h error during := by
  cases ticket with
  | submit number => exact ⟨rfl, rfl, rfl⟩
  | issue shape => exact ⟨rfl, rfl, rfl, rfl⟩
  | command cmd arguments => exact ⟨rfl, rfl, rfl, rfl⟩

theorem Ticket.journal_settle (ticket : Ticket) (w : World) (id : OperationId)
    (native : Option CommandHandle) (during : List Answer)
    (result : Except BridgeError CommandHandle) :
    (ticket.settle w id native during result).1.journal = w.journal := by
  cases ticket <;> rfl

/-! ### What a failure comes upon -/

/-- The operation is unresolved.  The next section resolves it with the error of the failure, and
its continuation runs this once. -/
structure FailsOpen (q n : World × Stack) (id : OperationId) (operation : String)
    (error : BridgeError) : Prop where
  isOpen : q.1.outcome? id = none
  next : ∃ z, Moves q z ∧ z.1.outcome? id = some (.error error) ∧ Reaches z n
  outcome : n.1.outcome? id = some (.error error)
  journal : ∃ before, n.1.journal = .failed id operation error :: before

/-- The operation has expired before.  No continuation runs. -/
structure FailsExpired (q n : World × Stack) (id : OperationId) (operation : String)
    (h : CommandHandle) (error : BridgeError) : Prop where
  expired : ∃ cause, (cause = .expired h ∨ cause = .swept h) ∧
    .resolved id (.error (.timeout h)) cause ∈ q.1.journal
  outcome : ∀ other, n.1.outcome? other = q.1.outcome? other
  timesRun : ∀ other, n.1.timesRun other = q.1.timesRun other
  correlator : n.1.correlator = q.1.correlator
  journal : n.1.journal = .failed id operation error :: q.1.journal

/-- The entry of the operation is gone, and so the operation is resolved already.  Nothing happens
but a record: whoever has the handle now keeps it. -/
structure FailsLate (p n : World × Stack) (id : OperationId) (operation : String)
    (h : CommandHandle) (status : Int32) : Prop where
  resolved : p.1.outcome? id ≠ none
  atOnce : Moves p n
  correlator : n.1.correlator = p.1.correlator
  outcome : ∀ other, n.1.outcome? other = p.1.outcome? other
  timesRun : ∀ other, n.1.timesRun other = p.1.timesRun other
  journal : n.1.journal = .failedLate id operation h status :: p.1.journal

/-- The native function has failed in `p`.  It comes back in `n` with the error, and then its
operation has no entry and is resolved. -/
structure FailsWith (base : Stack) (p n : World × Stack) (id : OperationId) (h : CommandHandle)
    (error : BridgeError) (during : List Answer) (a : Answer) : Prop where
  inside : Inside base p n
  answered : n.2 = reply a base
  answer : a.Fails id h error during
  gone : id ∉ n.1.owners
  resolved : n.1.outcome? id ≠ none

theorem Aims.exists_call {w : World} {id : OperationId} {stack below : Stack}
    {handle : Option CommandHandle} (h : Aims w id stack (.gaveUp handle) below) :
    ∃ call, some call ∈ w.calls ∧ call.source = .operation id := by
  cases h with
  | gaveUp _ hcall hsource _ _ =>
    exact ⟨_, List.mem_of_getElem? (Option.join_eq_some_iff.mp hcall), hsource⟩

section Failures

variable {c d : Correlator} {steps : List Step} {m p : World × Stack}
  {self : Option CommandHandle} {s : Step} {rest : List Step} {answers during : List Answer}
  {below base : Stack} {r : Registration} {h : CommandHandle} {t : PendingTable}
  {id : OperationId} {ticket : Ticket} {operation : String} {status : Int32}

/-- The steps inside a native function come to their end. -/
theorem exists_native_end (hr : s.registration? m.1 = some r) (hd : m.1.correlator = .present d)
    (hregister : d.table.register m.1.nextId r.operation m.1.clock = some (h, t))
    (self : Option CommandHandle) (rest : List Step) (answers : List Answer) (below : Stack) :
    ∃ p d' during, Inside (.script self rest answers :: below)
        (s.begin m.1 self (.script self rest answers :: below)) p ∧
      p.1.correlator = .present d' ∧
      p.2 = .script (some h) [] during ::
        .native m.1.nextId r.ticket r.operation h (r.reply h) ::
          .script self rest answers :: below := by
  have hbegin := s.begin_of_registration hr hd self (.script self rest answers :: below)
  simp only [register, hregister] at hbegin
  rw [hbegin]
  have hover : Stack.Over (.script self rest answers :: below)
      (.native m.1.nextId r.ticket r.operation h (r.reply h) ::
        .script self rest answers :: below) := .work (by simp)
  obtain ⟨v, during, hinside⟩ := Inside.exists_steps hover
    (r.ticket.handOver h (m.1.enter r.operation r.listener h t)) (some h) r.during []
  obtain ⟨d', hd'⟩ := hinside.exists_present (List.cons_ne_nil _ _)
    ((World.quiet_handOver ..).correlator.trans (World.correlator_enter hd))
  exact ⟨_, d', during, hinside, hd', rfl⟩

/-- What the failure of a native function leads to, by what is found in the table. -/
theorem Moves.of_failure (htop : p.2 = .script (some h) [] during ::
      .native id ticket operation h status :: base) (hstatus : status ≠ successStatus)
    (hd : p.1.correlator = .present d) :
    (∀ t, d.table.removeOwned h id = some t → Moves p (p.1.setTable t,
        .resolve id (.error (d.statuses.errorOf status)) (.failed h status)
          (.fail id ticket operation h (d.statuses.errorOf status) during) :: base)) ∧
      (d.table.removeOwned h id = none → Moves p
        (answer (ticket.settle (p.1.note (.failedLate id operation h status)) id (some h) during
            (.error (d.statuses.errorOf status))).1
          (ticket.settle (p.1.note (.failedLate id operation h status)) id (some h) during
            (.error (d.statuses.errorOf status))).2 base)) := by
  have hmoves : Moves p (returned p.1 id ticket operation h status during base) := by
    show advance p.1 p.2 = _
    rw [htop]
    rfl
  have hstatuses : p.1.statuses = d.statuses := by simp only [World.statuses, hd]
  refine ⟨fun t ht => ?_, fun hnone => ?_⟩
  · simp only [returned, if_neg hstatus, hd, ht, hstatuses] at hmoves
    exact hmoves
  · simp only [returned, if_neg hstatus, hd, hnone, hstatuses] at hmoves
    exact hmoves

/-- **An operation that is resolved while its native function runs, and has its entry, has
expired.**  Its call has not been handed out, so nobody can have given up on it. -/
theorem Session.exists_expired (hc : c.IsFresh) (hseeds : ∀ n ∈ Step.seedsIn steps, 0 < n)
    (hfits : ∀ m, Reaches (start c steps) m → m.1.Fits) (hp : Reaches (start c steps) p)
    (hregistering : id ∈ p.2.registering) (hholds : p.1.Holds id h) {outcome : Outcome}
    (ho : p.1.outcome? id = some outcome) :
    ∃ cause, (cause = .expired h ∨ cause = .swept h) ∧ ResolvedBy c steps p id outcome cause := by
  obtain ⟨cause, rfl | rfl | rfl, hresolved⟩ := exists_timeout hc hseeds hfits hp hholds ho
  · exact ⟨_, .inl rfl, hresolved⟩
  · exact ⟨_, .inr rfl, hresolved⟩
  · obtain ⟨z, after, under, hz, hzp, -, -, y, hy, haims, hyz⟩ := hresolved.resolved
    -- whoever holds the call comes after the registration
    obtain ⟨call, hcall, hsource⟩ := haims.exists_call
    have hregistered := (Reaches.enrolled hc hseeds hfits hy).registered hcall hsource
    obtain ⟨-, hout⟩ := Reaches.registered hc hseeds hfits hy (hyz.trans hzp) hregistered
    exact absurd (List.mem_append_left _ hregistering) hout

/-- A failure that comes upon an unresolved operation resolves it. -/
theorem Attempted.failsOpen {u v : World} {q : World × Stack} {error : BridgeError}
    {cause : Cause} {ran : Bool}
    (hattempt : Attempted u id (.error error) cause (.fail id ticket operation h error during) base
      q v ran) (hbegun : id < u.operations.length) (hopen : u.outcome? id = none) :
    FailsOpen
      (u, .resolve id (.error error) cause (.fail id ticket operation h error during) :: base)
      (conclude v ran base (.fail id ticket operation h error during)) id operation error := by
  obtain ⟨-, -, hset⟩ := hattempt.of_open hbegun hopen
  have hreaches := hattempt.goesOn.reaches
  exact ⟨hopen, ⟨q, hattempt.moves, hset, hreaches⟩, hreaches.precedes.outcome _ _ hset, v.journal,
    ticket.journal_settle ..⟩

/-- A failure that comes upon an expired operation leaves all outcomes as they are. -/
theorem Attempted.failsExpired {u v : World} {q : World × Stack} {error : BridgeError}
    {cause : Cause} {ran : Bool}
    (hattempt : Attempted u id (.error error) cause (.fail id ticket operation h error during) base
      q v ran) (hresolved : u.outcome? id ≠ none)
    (hexpired : ∃ cause, (cause = .expired h ∨ cause = .swept h) ∧
      .resolved id (.error (.timeout h)) cause ∈ u.journal) :
    FailsExpired
      (u, .resolve id (.error error) cause (.fail id ticket operation h error during) :: base)
      (conclude v ran base (.fail id ticket operation h error during)) id operation h error := by
  obtain ⟨-, -, rfl⟩ := hattempt.of_resolved hresolved
  have hquiet : v.Quiet
      (conclude v ran base (.fail id ticket operation h error during)).1 :=
    World.quiet_settle_note rfl
  exact ⟨hexpired, hquiet.outcome?, hquiet.timesRun, hquiet.correlator, ticket.journal_settle ..⟩

/-- **A failure that finds the operation's own entry** takes it out, this one and no other, and
resolves the operation unless it has expired. -/
theorem Session.exists_fails_of_holds (hc : c.IsFresh) (hseeds : ∀ n ∈ Step.seedsIn steps, 0 < n)
    (hfits : ∀ m, Reaches (start c steps) m → m.1.Fits) (hp : Reaches (start c steps) p)
    (htop : p.2 = .script (some h) [] during :: .native id ticket operation h status :: base)
    (hstatus : status ≠ successStatus) (hd : p.1.correlator = .present d)
    (hholds : p.1.Holds id h) :
    ∃ q n a e, FailsWith base p n id h (c.statuses.errorOf status) during a ∧ e.owner = id ∧
      e.handle = h ∧ TakesOut p q d e ∧ Reaches q n ∧
      (FailsOpen q n id operation (c.statuses.errorOf status) ∨
        FailsExpired q n id operation h (c.statuses.errorOf status)) := by
  have hsound := hp.sound_of_fits hc hseeds hfits
  have hregistering : id ∈ p.2.registering := by
    rw [htop]
    exact List.mem_cons_self
  rw [← hp.statuses hd]
  have hentry := hholds.2
  obtain ⟨d', e, hd', hfind, howner⟩ := hentry
  cases hd.symm.trans hd'
  subst howner
  obtain ⟨hmem, rfl⟩ := PendingTable.find?_eq_some hfind
  have hfirst := (Moves.of_failure htop hstatus hd).1 _ (PendingTable.removeOwned_of_find? hfind)
  have htakes := TakesOut.of_moves hsound hd hfind (.refl _) rfl hfirst
  let u := p.1.setTable (d.table.erase e.handle)
  let after : Aftermath :=
    .fail e.owner ticket operation e.handle (d.statuses.errorOf status) during
  obtain ⟨q, v, ran, hattempt⟩ := exists_attempt u e.owner
    (.error (d.statuses.errorOf status)) (.failed e.handle status) after base
  have hover : Stack.Over base p.2 := by
    rw [htop]
    exact .push (.work (by simp))
  have hbegun : e.owner < u.operations.length := by
    rw [World.operations_setTable]
    exact hsound.begun e.owner (List.mem_append_left _
      (World.Sound.mem_owners_of_holds hholds))
  have hout : e.owner ∉ u.owners :=
    (hsound.takenOut hd hfind).not_mem_owners_of_owed List.mem_cons_self
  have hwith : (conclude v ran base after).1.outcome? e.owner ≠ none →
      FailsWith base p (conclude v ran base after) e.owner e.handle
        (d.statuses.errorOf status) during
        (ticket.settle (v.note (.failed e.owner operation (d.statuses.errorOf status))) e.owner
          (some e.handle) during (.error (d.statuses.errorOf status))).2 := by
    intro hresolved
    exact ⟨hattempt.concluded.head ⟨hover, hfirst⟩, rfl, ticket.fails_settle ..,
      Reaches.not_mem_owners hattempt.concluded.reaches hbegun hout, hresolved⟩
  have hreaches : Reaches (u, _) (conclude v ran base after) := hattempt.concluded.reaches
  cases hopen : u.outcome? e.owner with
  | none =>
    have hopens := hattempt.failsOpen hbegun hopen
    exact ⟨_, _, _, e, hwith (hopens.outcome ▸ Option.some_ne_none _), rfl, rfl, htakes, hreaches,
      .inl hopens⟩
  | some outcome =>
    obtain ⟨cause, hcause, hresolvedBy⟩ := exists_expired hc hseeds hfits hp hregistering hholds
      ((htakes.outcome e.owner).symm.trans hopen)
    have hnoted := hresolvedBy.noted
    have hbrought : outcome = .error (.timeout e.handle) := by
      rw [hresolvedBy.brought]
      rcases hcause with rfl | rfl <;> rfl
    rw [hbrought, ← htakes.journal] at hnoted
    have hexpires := hattempt.failsExpired (hopen ▸ Option.some_ne_none outcome)
      ⟨cause, hcause, hnoted⟩
    have hstays := (hexpires.outcome e.owner).trans hopen
    exact ⟨_, _, _, e, hwith (hstays ▸ Option.some_ne_none outcome), rfl, rfl, htakes, hreaches,
      .inr hexpires⟩

/-- **A failure that finds the operation's own entry gone** comes back with the error at once, and
leaves everything as it is. -/
theorem Session.exists_fails_of_gone (hc : c.IsFresh) (hseeds : ∀ n ∈ Step.seedsIn steps, 0 < n)
    (hfits : ∀ m, Reaches (start c steps) m → m.1.Fits) (hp : Reaches (start c steps) p)
    (htop : p.2 = .script (some h) [] during :: .native id ticket operation h status :: base)
    (hstatus : status ≠ successStatus) (hd : p.1.correlator = .present d)
    (hgone : ¬ p.1.Holds id h) :
    ∃ n a, FailsWith base p n id h (c.statuses.errorOf status) during a ∧
      FailsLate p n id operation h status := by
  have hsound : p.1.Sound base.owed := by
    have hsound := hp.sound_of_fits hc hseeds hfits
    rwa [htop] at hsound
  obtain ⟨-, htied⟩ := Reaches.tied_of_fits hc hseeds hfits hp
  rw [htop] at htied
  obtain ⟨hbegun, hgiven, howed⟩ := htied.2.1
  rw [← hp.statuses hd]
  have hnone : d.table.removeOwned h id = none := by
    refine Option.eq_none_iff_forall_ne_some.mpr (fun t ht => hgone ?_)
    obtain ⟨e, hfind, howner, -⟩ := PendingTable.removeOwned_eq_some ht
    exact ⟨hgiven, d, e, hd, hfind, howner⟩
  have hmoves := (Moves.of_failure htop hstatus hd).2 hnone
  have hquiet : p.1.Quiet (ticket.settle (p.1.note (.failedLate id operation h status)) id (some h)
      during (.error (d.statuses.errorOf status))).1 := World.quiet_settle_note rfl
  have hresolved : p.1.outcome? id ≠ none := by
    refine World.Sound.resolved_of_gone hsound hbegun hgiven howed (fun d' hd' => ?_)
    cases hd.symm.trans hd'
    exact hnone
  have hout : ∀ v, p.1.Quiet v → id ∉ v.owners := by
    intro v hv hmem
    rw [World.owners, hv.entries] at hmem
    obtain ⟨handle, hholds⟩ := hsound.holds_of_mem_owners hmem
    obtain rfl : h = handle := List.head_eq_of_cons_eq (hgiven.symm.trans hholds.1)
    exact hgone hholds
  have hover : Stack.Over base p.2 := by
    rw [htop]
    exact .push (.work (by simp))
  refine ⟨_, _, ⟨.single ⟨hover, hmoves⟩, rfl, ticket.fails_settle .., ?_, ?_⟩, hresolved, hmoves,
    hquiet.correlator, hquiet.outcome?, hquiet.timesRun, ticket.journal_settle ..⟩
  · exact hout _ hquiet
  · exact (hquiet.outcome? id).symm ▸ hresolved

end Failures

namespace Session

variable {c d : Correlator} {steps : List Step} {m : World × Stack} {self : Option CommandHandle}
  {s : Step} {rest : List Step} {answers : List Answer} {below : Stack} {r : Registration}
  {h : CommandHandle} {t : PendingTable}

/-- **The failure of a native function only touches its own operation.**  In a state of a session
with a fresh correlator whose entries always fit, let a step register an operation, and let its
native function be given a handle and return another status than success.  Whatever steps are taken
inside the native function, they come to their end; then the step comes back with the error of the
status, the operation has no entry and its continuation has run once.

* If at the end of those steps the operation still has its own entry under the handle, then this
  entry is taken out and no other.  Unless the operation has expired, the next section resolves it
  with the error.
* Otherwise the operation is resolved already, and nothing happens but that this is on record.  The
  table and all outcomes are what they were, also for whoever has been given the handle since. -/
theorem failure_is_local (hc : c.IsFresh) (hseeds : ∀ n ∈ Step.seedsIn steps, 0 < n)
    (hfits : ∀ m, Reaches (start c steps) m → m.1.Fits) (hm : Reaches (start c steps) m)
    (htop : m.2 = .script self (s :: rest) answers :: below)
    (hr : s.registration? m.1 = some r) (hd : m.1.correlator = .present d)
    (hregister : d.table.register m.1.nextId r.operation m.1.clock = some (h, t))
    (hstatus : r.reply h ≠ successStatus) :
    ∃ p d' during n a, Reaches m p ∧ p.1.correlator = .present d' ∧
      p.2 = .script (some h) [] during :: .native m.1.nextId r.ticket r.operation h (r.reply h) ::
        .script self rest answers :: below ∧
      Reaches p n ∧ Returns m n a ∧ a.Fails m.1.nextId h (c.statuses.errorOf (r.reply h)) during ∧
      m.1.nextId ∉ n.1.owners ∧ n.1.timesRun m.1.nextId = 1 ∧
      (p.1.Holds m.1.nextId h → ∃ q e, e.owner = m.1.nextId ∧ e.handle = h ∧
        TakesOut p q d' e ∧ Reaches q n ∧
        (FailsOpen q n m.1.nextId r.operation (c.statuses.errorOf (r.reply h)) ∨
          FailsExpired q n m.1.nextId r.operation h (c.statuses.errorOf (r.reply h)))) ∧
      (¬ p.1.Holds m.1.nextId h → FailsLate p n m.1.nextId r.operation h (r.reply h)) := by
  obtain ⟨p, d', during, hinside, hd', hp⟩ :=
    exists_native_end hr hd hregister self rest answers below
  have hmp : Reaches m p := .head (Moves.begin htop) hinside.reaches
  have hback : ∀ n a, FailsWith (.script self rest answers :: below) p n m.1.nextId h
      (c.statuses.errorOf (r.reply h)) during a →
        Reaches p n ∧ Returns m n a ∧ n.1.timesRun m.1.nextId = 1 := by
    rintro ⟨v, stack⟩ a hfails
    obtain rfl : stack = reply a (.script self rest answers :: below) := hfails.answered
    have hreached : Reaches (start c steps) (v, reply a (.script self rest answers :: below)) :=
      (hm.trans hmp).trans hfails.inside.reaches
    refine ⟨hfails.inside.reaches, returns_of_inside htop (hinside.trans hfails.inside), ?_⟩
    rw [(hreached.sound_of_fits hc hseeds hfits).runs, if_pos]
    exact Option.isSome_iff_ne_none.mpr hfails.resolved
  by_cases hholds : p.1.Holds m.1.nextId h
  · obtain ⟨q, n, a, e, hfails, hends⟩ := exists_fails_of_holds hc hseeds hfits (hm.trans hmp) hp
      hstatus hd' hholds
    obtain ⟨hreaches, hreturns, hran⟩ := hback n a hfails
    exact ⟨p, d', during, n, a, hmp, hd', hp, hreaches, hreturns, hfails.answer, hfails.gone, hran,
      fun _ => ⟨q, e, hends⟩, fun hgone => absurd hholds hgone⟩
  · obtain ⟨n, a, hfails, hlate⟩ := exists_fails_of_gone hc hseeds hfits (hm.trans hmp) hp hstatus
      hd' hholds
    obtain ⟨hreaches, hreturns, hran⟩ := hback n a hfails
    exact ⟨p, d', during, n, a, hmp, hd', hp, hreaches, hreturns, hfails.answer, hfails.gone, hran,
      fun hthere => absurd hthere hholds, fun _ => hlate⟩

/-- While the native function of the first command runs, this command completes, and another one is
given its handle.  When the native function fails then, nothing comes of it but the error. -/
theorem failure_is_local_reuse : ∃ n during a, Returns (start {} reuse) n a ∧
    a.Fails 0 ⟨1⟩ (StatusTable.published.errorOf 200) during ∧ 0 ∉ n.1.owners ∧
    n.1.timesRun 0 = 1 := by
  have hfresh : Correlator.IsFresh {} := ⟨rfl, by decide⟩
  have hseeds : ∀ n ∈ Step.seedsIn reuse, 0 < n := by
    have hone : Step.seedsIn reuse = [1] := rfl
    rw [hone, List.forall_mem_singleton]
    decide
  have hsize : Step.sizes reuse < Allocator.fullTurn := by decide
  obtain ⟨-, -, during, n, a, -, -, -, -, hreturns, hfails, hgone, hran, -⟩ :=
    failure_is_local (d := {}) (h := ⟨1⟩) hfresh hseeds
      (fun m hm => (hasRoom hfresh hseeds hsize hm).fits) .refl rfl rfl rfl rfl (by decide)
  exact ⟨n, during, a, hreturns, hfails, hgone, hran⟩

end Session

end CommandBridge

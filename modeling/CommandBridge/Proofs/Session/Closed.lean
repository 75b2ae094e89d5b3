import CommandBridge.Proofs.Session.Deliveries
import CommandBridge.Proofs.Session.ExactlyOnce

/-!
# Closed correlators

Once a correlator was shut down its table is empty and stays so, whatever still runs at that moment.
This file says what the steps that are begun later do.

* `Stack.next?` — the step that a thread begins next;
* `Section.correlator_of_isClosed` — nothing but seeding and dropping changes a closed correlator;
* `Answer.Refuses` — the answer to a registration that was refused;
* `returns_of_refused` — a registration is refused, and its operation is resolved with the error
  that is returned;
* `returns_of_expire`, `returns_of_sweep`, `returns_of_shutdown` — there is nothing to give up and
  nothing to drain.
-/

namespace CommandBridge

/-! ### What can change -/

/-- The step that a thread begins next, if it begins one. -/
def Stack.next? : Stack → Option Step
  | .script _ (s :: _) _ :: _ => some s
  | _ => none

section Change

variable {w v : World} {self : Option CommandHandle} {s : Step} {below stack stack' : Stack}

/-- A closed table without entries is what a shutdown leaves. -/
theorem PendingTable.drain_of_isShutDown {t : PendingTable} (hclosed : t.isShutDown = true)
    (hempty : t.entries = []) : t.drain = ([], t) := by
  cases t
  cases hclosed
  cases hempty
  rfl

theorem PendingTable.find?_of_empty {t : PendingTable} (hempty : t.entries = [])
    (h : CommandHandle) : t.find? h = none := by
  rw [find?, hempty]
  rfl

theorem World.setTable_self {c : Correlator} (hc : w.correlator = .present c) :
    w.setTable c.table = w := by
  cases w
  cases hc
  rfl

theorem Step.Begins.correlator_of_isClosed (h : s.Begins w self below v stack)
    (hclosed : w.correlator.isClosed = true) (hempty : w.entries = [])
    (hseed : ∀ next, s ≠ .seed next) (hdrop : ∀ order, s ≠ .drop order) :
    v.correlator = w.correlator := by
  have hopen : w.correlator ≠ .absent .notInstalled := by
    intro hw
    rw [hw] at hclosed
    cases hclosed
  have hnotable : ∀ c, w.correlator = .present c → ∀ handle, c.table.find? handle = none := by
    intro c hc handle
    rw [World.entries_of_present hc] at hempty
    exact PendingTable.find?_of_empty hempty handle
  cases h with
  | answered hv _ => exact hv.correlator
  | installed hw _ _ _ => exact absurd hw hopen
  | seeded _ => exact absurd rfl (hseed _)
  | accepted _ hu hc ht =>
    obtain rfl := World.eq_of_readied_of_isClosed hu hclosed
    obtain ⟨hstillOpen, -⟩ := PendingTable.register_eq_some ht
    rw [hc] at hclosed
    cases hstillOpen.symm.trans hclosed
  | refused _ hu _ _ =>
    obtain rfl := World.eq_of_readied_of_isClosed hu hclosed
    rfl
  | completed _ _ hc ht =>
    obtain ⟨hfind, -⟩ := PendingTable.remove_eq_some ht
    rw [hnotable _ hc] at hfind
    cases hfind
  | expired _ _ _ => rfl
  | swept _ _ => exact (World.quiet_sweepOn ..).correlator
  | @shutDown order c hc =>
    rw [World.entries_of_present hc] at hempty
    rw [hc] at hclosed
    rw [(World.quiet_shutdownOn ..).correlator, PendingTable.drain_of_isShutDown hclosed hempty,
      World.setTable_self hc]
  | dropped _ _ _ _ => exact absurd rfl (hdrop _)
  | gaveUp _ _ _ _ => rfl
  | configured => rfl

/-- **Nothing but seeding and dropping changes a closed correlator.** -/
theorem Section.correlator_of_isClosed (h : Section w stack v stack')
    (hclosed : w.correlator.isClosed = true) (hempty : w.entries = [])
    (hseed : ∀ next, stack.next? ≠ some (.seed next))
    (hdrop : ∀ order, stack.next? ≠ some (.drop order)) : v.correlator = w.correlator := by
  cases h.touches with
  | spared hv => exact hv
  | began hstack hbegins =>
    subst hstack
    refine hbegins.correlator_of_isClosed hclosed hempty ?_ ?_
    · rintro next rfl
      exact hseed next rfl
    · rintro order rfl
      exact hdrop order rfl
  | failed _ hc ht _ =>
    obtain ⟨e, hfind, -, -⟩ := PendingTable.removeOwned_eq_some ht
    rw [World.entries_of_present hc] at hempty
    rw [PendingTable.find?_of_empty hempty] at hfind
    cases hfind

end Change

/-! ### Registrations -/

/-- The answer says that the registration of an operation was refused with this error, and that its
native function was not called.  Whoever wants a pending call gets one that the operation, with the
same error, has resolved. -/
def Answer.Refuses (id : OperationId) (error : BridgeError) : Answer → Prop
  | .submitted _ given native during => given = .error error ∧ native = none ∧ during = []
  | .issued _ pending native during =>
    pending.source = .operation id ∧ pending.handle = none ∧ native = none ∧ during = []
  | .called _ pending native during =>
    pending.source = .operation id ∧ pending.handle = none ∧ native = none ∧ during = []
  | _ => False

theorem Ticket.refuses_settle (ticket : Ticket) (w : World) (id : OperationId)
    (error : BridgeError) : (ticket.settle w id none [] (.error error)).2.Refuses id error := by
  cases ticket with
  | submit number => exact ⟨rfl, rfl, rfl⟩
  | issue shape => exact ⟨rfl, rfl, rfl, rfl⟩
  | command cmd arguments => exact ⟨rfl, rfl, rfl, rfl⟩

section Steps

variable {w : World} {self : Option CommandHandle} {s : Step} {below : Stack} {c : Correlator}

/-- **Every step that registers an operation goes through the table.** -/
theorem Step.begin_of_registration {r : Registration} (hr : s.registration? w = some r)
    (hc : w.correlator = .present c) (self : Option CommandHandle) (below : Stack) :
    s.begin w self below =
      register w c r.operation r.listener r.ticket r.reply r.during below := by
  cases s with
  | submit operation reply during onward =>
    cases hr
    simp only [begin, withCorrelator, hc]
  | issue shape operation reply during =>
    cases hr
    simp only [begin, withCorrelator, hc]
  | command cmd reply during =>
    cases harguments : cmd.arguments with
    | error e =>
      simp only [registration?, harguments] at hr
      cases hr
    | ok arguments =>
      simp only [registration?, harguments] at hr
      cases hr
      have hinstalled : w.installDefault = w := by simp only [World.installDefault, hc]
      simp only [begin, harguments, hinstalled, withCorrelator, hc]
  | _ => cases hr

variable {m : World × Stack} {rest : List Step} {answers : List Answer} {owed : List OperationId}

/-- A step that is answered in its first section. -/
theorem returns_at_once (hm : m.2 = .script self (s :: rest) answers :: below) {v : World}
    {a : Answer}
    (hbegin : s.begin m.1 self (.script self rest answers :: below) =
      answer v a (.script self rest answers :: below)) :
    ∃ n, Moves m n ∧ n.1 = v ∧ Returns m n a := by
  have hmoves := Moves.begin hm
  rw [hbegin] at hmoves
  refine ⟨_, hmoves, rfl, returns_of_inside hm ?_⟩
  rw [hbegin]
  exact .refl

/-- **A registration with a closed correlator is refused.**  The operation is resolved with the
error that is returned, and its native function is given no handle. -/
theorem returns_of_refused (hm : m.2 = .script self (s :: rest) answers :: below)
    {r : Registration} (hr : s.registration? m.1 = some r) (hc : m.1.correlator = .present c)
    (hclosed : c.table.isShutDown = true) (hsound : m.1.Sound owed) :
    ∃ n a, Returns m n a ∧ a.Refuses m.1.nextId (.refused r.operation) ∧
      n.1.outcome? m.1.nextId = some (.error (.refused r.operation)) ∧
      n.1.handlesGiven m.1.nextId = [] := by
  have hbegin := s.begin_of_registration hr hc self (.script self rest answers :: below)
  have hregister : c.table.register m.1.nextId r.operation m.1.clock = none :=
    PendingTable.register_eq_none.mpr hclosed
  simp only [register, hregister] at hbegin
  let u := m.1.begin r.operation r.listener
  obtain ⟨q, v, ran, hattempt⟩ := exists_attempt u m.1.nextId
    (.error (.refused r.operation)) (.refused r.operation)
    (.refuse m.1.nextId r.ticket (.refused r.operation)) (.script self rest answers :: below)
  have hbegun : m.1.nextId < u.operations.length := by
    show m.1.operations.length < (m.1.operations ++ _).length
    rw [List.length_append]
    exact Nat.lt_succ_self _
  have hopen : u.outcome? m.1.nextId = none := by
    rw [World.outcome?_begin]
    exact World.outcome?_eq_none_of_le (Nat.le_refl _)
  obtain ⟨-, hq, hset⟩ := hattempt.of_open hbegun hopen
  have hwork := hattempt.concluded
  rw [← hbegin] at hwork
  have hlater := hattempt.goesOn.reaches.precedes
  refine ⟨_, _, returns_of_inside hm hwork, r.ticket.refuses_settle v m.1.nextId _, ?_, ?_⟩
  · exact hlater.outcome _ _ hset
  · have hungiven := hsound.ungiven m.1.nextId (Nat.le_refl _)
    have hlength : m.1.nextId < q.1.operations.length := by
      rw [hq.length, World.length_recordOutcome]
      exact hbegun
    exact (hlater.given _ hlength).trans ((hq.handlesGiven _).trans hungiven)

/-! ### Steps that find nothing -/

theorem Arrangement.apply_nil {α : Type} (order : Arrangement) :
    order.apply ([] : List α) = [] :=
  (order.apply_perm []).eq_nil

theorem returns_of_expire {target : Target} {handle : CommandHandle}
    (hm : m.2 = .script self (.expire target :: rest) answers :: below)
    (htarget : target.resolve self = some handle) (hc : m.1.correlator = .present c)
    (hnone : c.table.find? handle = none) :
    ∃ n, Moves m n ∧ n.1 = m.1 ∧ Returns m n (.flag false) := by
  refine returns_at_once hm ?_
  simp only [Step.begin, withCorrelator, hc, withTarget, htarget, hnone]

/-- Without an age and a timeout, nobody is looked for at all. -/
theorem returns_of_sweep {age : Option Duration} {order : Arrangement}
    (hm : m.2 = .script self (.sweep age order :: rest) answers :: below)
    (hc : m.1.correlator = .present c) (hempty : c.table.entries = []) :
    ∃ n, Moves m n ∧ n.1 = m.1 ∧
      Returns m n (.swept ((age.or c.callTimeout).map (fun _ => []))) := by
  refine returns_at_once hm ?_
  cases hage : age.or c.callTimeout with
  | none => simp only [Step.begin, withCorrelator, hc, hage, Option.map_none]
  | some limit =>
    have hstale : c.table.stale m.1.clock limit.millis = [] := by
      rw [PendingTable.stale, hempty]
      rfl
    simp only [Step.begin, withCorrelator, hc, hage, hstale, Arrangement.apply_nil, sweepOn,
      List.isEmpty_nil, if_true, List.mergeSort_nil, Option.map_some]

theorem returns_of_shutdown {order : Arrangement}
    (hm : m.2 = .script self (.shutdown order :: rest) answers :: below)
    (hc : m.1.correlator = .present c) (hclosed : c.table.isShutDown = true)
    (hempty : c.table.entries = []) :
    ∃ n, Moves m n ∧ n.1 = m.1.note (.shutDown 0) ∧ Returns m n (.count 0) := by
  refine returns_at_once hm ?_
  simp only [Step.begin, withCorrelator, hc, PendingTable.drain_of_isShutDown hclosed hempty,
    Arrangement.apply_nil, World.setTable_self hc, shutdownOn]
  rfl

end Steps

end CommandBridge

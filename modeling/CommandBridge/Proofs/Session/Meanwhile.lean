import CommandBridge.Proofs.Session.Deliveries
import CommandBridge.Proofs.Session.Enrolment

/-!
# One thread among the others

A thread that has made a section waits for its next turn, and other threads move meanwhile.  They
may resolve operations and take entries out, but they leave the thread's own stack alone.

* `Threads.InOrder` — all invariants of threads, for good;
* `Threads.Meanwhile` — other threads have moved;
* `Threads.late_of_resolved` — an attempt that comes too late, and what is done after it;
* `Threads.PassedOver` — no expiry, no sweep and no completion resolves the operation any more;
* `Threads.passedOver_of_resolved` — this holds of every operation that is resolved.
-/

namespace CommandBridge

namespace Threads

/-- All invariants hold, and the entries will always fit. -/
structure InOrder (c : Correlator) (t : Threads) : Prop where
  regular : t.Regular c
  enrolled : t.Enrolled
  fits : ∀ schedule, (t.follow schedule).world.Fits

/-- Other threads than this one have moved. -/
def Meanwhile (i : Nat) (t u : Threads) : Prop :=
  ∃ others, i ∉ others ∧ t.follow others = u

variable {c : Correlator} {t u : Threads} {i j : Nat} {stack stack' below : Stack} {v : World}

/-! ### Schedules one after the other -/

theorem InOrder.follow (h : t.InOrder c) (schedule : List Nat) : (t.follow schedule).InOrder c := by
  refine ⟨h.regular.follow h.fits schedule, h.regular.enrolled_follow h.enrolled h.fits schedule,
    fun later => ?_⟩
  rw [← follow_append]
  exact h.fits _

theorem InOrder.move (h : t.InOrder c) (i : Nat) : (t.move i).InOrder c :=
  h.follow [i]

/-- Threads that start on a fresh correlator are in order. -/
theorem inOrder_start (hc : c.IsFresh) {scripts : List (List Step)}
    (hseeds : ∀ steps ∈ scripts, ∀ n ∈ Step.seedsIn steps, 0 < n)
    (hfits : ∀ schedule, ((start c scripts).follow schedule).world.Fits) :
    (start c scripts).InOrder c :=
  ⟨regular_start hc hseeds, enrolled_start c scripts, hfits⟩

theorem precedes_move (t : Threads) (i : Nat) : t.world.Precedes (t.move i).world := by
  rcases move_cases t i with hsame | ⟨stack, v, stack', -, hadvance, hmove⟩
  · rw [hsame]
    exact .refl _
  · rw [hmove]
    exact (section_of_advance hadvance).precedes

theorem precedes_follow (t : Threads) (schedule : List Nat) :
    t.world.Precedes (t.follow schedule).world := by
  induction schedule generalizing t with
  | nil => exact .refl _
  | cons i schedule ih => exact (precedes_move t i).trans (ih (t.move i))

/-! ### The others leave a thread alone -/

theorem running_move_of_ne (hne : j ≠ i) : (t.move j).running[i]? = t.running[i]? := by
  rcases move_cases t j with hsame | ⟨stack, v, stack', -, -, hmove⟩
  · rw [hsame]
  · rw [hmove]
    exact List.getElem?_set_ne hne

namespace Meanwhile

theorem precedes (h : Meanwhile i t u) : t.world.Precedes u.world := by
  obtain ⟨others, -, rfl⟩ := h
  exact precedes_follow t others

theorem inOrder (h : Meanwhile i t u) (ht : t.InOrder c) : u.InOrder c := by
  obtain ⟨others, -, rfl⟩ := h
  exact ht.follow others

/-- **The others leave the thread's stack alone.** -/
theorem running (h : Meanwhile i t u) : u.running[i]? = t.running[i]? := by
  obtain ⟨others, hi, rfl⟩ := h
  induction others generalizing t with
  | nil => rfl
  | cons j others ih =>
    have hne : j ≠ i := fun heq => hi (heq ▸ List.mem_cons_self)
    rw [follow_cons, ih (fun hmem => hi (List.mem_cons_of_mem j hmem)), running_move_of_ne hne]

end Meanwhile

/-! ### The thread's own sections -/

theorem move_eq (hi : t.running[i]? = some stack)
    (hadvance : advance t.world stack = some (v, stack')) :
    t.move i = ⟨v, t.running.set i stack'⟩ := by
  simp only [move, hi, hadvance]

/-- The next section of a thread. -/
theorem move_of_advance (hi : t.running[i]? = some stack)
    (hadvance : advance t.world stack = some (v, stack')) :
    (t.move i).world = v ∧ (t.move i).running[i]? = some stack' := by
  obtain ⟨hlt, -⟩ := List.getElem?_eq_some_iff.mp hi
  rw [move_eq hi hadvance]
  exact ⟨rfl, List.getElem?_set_self hlt⟩

/-- A step is begun. -/
theorem move_of_script {self : Option CommandHandle} {s : Step} {rest : List Step}
    {answers : List Answer}
    (hi : t.running[i]? = some (.script self (s :: rest) answers :: below)) :
    (t.move i).world = (s.begin t.world self (.script self rest answers :: below)).1 ∧
      (t.move i).running[i]? =
        some (s.begin t.world self (.script self rest answers :: below)).2 :=
  move_of_advance hi rfl

/-- An attempt to resolve an operation. -/
theorem move_of_resolve {id : OperationId} {outcome : Outcome} {cause : Cause} {after : Aftermath}
    (hi : t.running[i]? = some (.resolve id outcome cause after :: below)) :
    (t.move i).world = (resolve t.world id outcome cause after below).1 ∧
      (t.move i).running[i]? = some (resolve t.world id outcome cause after below).2 :=
  move_of_advance hi rfl

/-- What is done after an attempt. -/
theorem move_of_conclude {after : Aftermath} {ran : Bool}
    (hi : t.running[i]? = some (.conclude after ran :: below)) :
    (t.move i).world = (conclude t.world ran below after).1 ∧
      (t.move i).running[i]? = some (conclude t.world ran below after).2 :=
  move_of_advance hi rfl

/-! ### Attempts that come too late -/

/-- An attempt to resolve an operation that is resolved already changes nothing. -/
theorem resolve_of_resolved {w : World} {id : OperationId} (hresolved : w.outcome? id ≠ none)
    (outcome : Outcome) (cause : Cause) (after : Aftermath) (below : Stack) :
    resolve w id outcome cause after below = (w, .conclude after false :: below) := by
  have hlate : w.resolveOnce id outcome cause = none := by
    unfold World.resolveOnce
    split
    · next o ho =>
      have hset : o.outcome ≠ none := by
        simpa only [World.outcome?, ho, Option.bind_some] using hresolved
      rw [if_neg (fun hopen => hset (Option.isNone_iff_eq_none.mp hopen))]
    · rfl
  simp only [resolve, hlate]

theorem move_of_resolved {id : OperationId} (hresolved : t.world.outcome? id ≠ none)
    {outcome : Outcome} {cause : Cause} {after : Aftermath}
    (hi : t.running[i]? = some (.resolve id outcome cause after :: below)) :
    (t.move i).world = t.world ∧
      (t.move i).running[i]? = some (.conclude after false :: below) := by
  obtain ⟨hworld, hrunning⟩ := move_of_resolve hi
  rw [resolve_of_resolved hresolved] at hworld hrunning
  exact ⟨hworld, hrunning⟩

/-- **Whoever attempts to resolve an operation that is resolved only goes on**, whatever the others
do around the attempt. -/
theorem late_of_resolved {id : OperationId} (hresolved : t.world.outcome? id ≠ none)
    {outcome : Outcome} {cause : Cause} {after : Aftermath}
    (hi : t.running[i]? = some (.resolve id outcome cause after :: below)) :
    (t.move i).world = t.world ∧ ∀ v, Meanwhile i (t.move i) v →
      (v.move i).world = (conclude v.world false below after).1 ∧
        (v.move i).running[i]? = some (conclude v.world false below after).2 := by
  obtain ⟨hworld, hrunning⟩ := move_of_resolved hresolved hi
  exact ⟨hworld, fun v hv => move_of_conclude (hv.running.trans hrunning)⟩

/-- A thread is about to give up on whatever has this entry. -/
structure ExpiresNext (t : Threads) (j : Nat) (e : Entry) (base : Stack) : Prop where
  script : ∃ self target rest answers below, base = .script self rest answers :: below ∧
    t.running[j]? = some (.script self (.expire target :: rest) answers :: below) ∧
    target.resolve self = some e.handle
  found : ∃ d, t.world.correlator = .present d ∧ d.table.find? e.handle = some e

/-- A thread is about to report the completion of whatever has this entry, to `receipt`. -/
structure CompletesNext (t : Threads) (j : Nat) (d : Correlator) (e : Entry) (receipt : Receipt)
    (base : Stack) : Prop where
  script : ∃ self s rest answers below status payload,
    base = .script self rest answers :: below ∧
    t.running[j]? = some (.script self (s :: rest) answers :: below) ∧
    s.delivery? t.world self = some (e.handle, status, payload) ∧ s.receipt t.world = receipt
  found : t.world.correlator = .present d ∧ d.table.find? e.handle = some e

/-- The section that reports a completion takes the entry out, and goes on to resolve the operation
that owned it. -/
theorem CompletesNext.takesOut {d : Correlator} {e : Entry} {receipt : Receipt} {base : Stack}
    (h : t.CompletesNext j d e receipt base) :
    (t.move j).world.correlator = .present { d with table := d.table.erase e.handle } ∧
      ∃ outcome cause status, (t.move j).running[j]? =
        some (.resolve e.owner outcome cause (.deliver e status receipt) :: base) := by
  obtain ⟨⟨self, s, rest, answers, below, status, payload, rfl, hj, hdelivery, rfl⟩, hd, he⟩ := h
  obtain ⟨hworld, hrunning⟩ := move_of_script hj
  obtain ⟨w, hquiet, -, hbegin⟩ :=
    s.begin_of_delivery hdelivery hd (.script self rest answers :: below)
  have hremove : d.table.remove e.handle = some (e, d.table.erase e.handle) := by
    rw [PendingTable.remove, he, Option.map_some]
  simp only [complete, hremove] at hbegin
  rw [hbegin] at hworld hrunning
  refine ⟨?_, _, _, status, hrunning⟩
  rw [hworld]
  exact World.correlator_setTable (hquiet.correlator.trans hd) _

/-- The operation is resolved and passed over: expiries and sweeps do not touch it, and its
completion is absorbed. -/
structure PassedOver (t : Threads) (id : OperationId) : Prop where
  /-- An expiry says that it did nothing, and it did nothing. -/
  expiry : ∀ j e base, e.owner = id → t.ExpiresNext j e base →
    (t.move j).world = t.world ∧ ∀ u, Meanwhile j (t.move j) u →
      (u.move j).world = u.world ∧ ∀ v, Meanwhile j (u.move j) v →
        (v.move j).world = v.world ∧ (v.move j).running[j]? = some (reply (.flag false) base)
  /-- A sweep goes on with the next entry, and does not report this one. -/
  sweep : ∀ j outcome cause h rest expired age below,
    t.running[j]? = some (.resolve id outcome cause (.sweep h rest expired age) :: below) →
    (t.move j).world = t.world ∧ ∀ v, Meanwhile j (t.move j) v →
      (v.move j).world = (sweepOn v.world rest expired age below).1 ∧
        (v.move j).running[j]? = some (sweepOn v.world rest expired age below).2
  /-- A completion comes back with success once the entry is taken out and the completion is on
  record as absorbed. -/
  completion : ∀ j d e receipt base, e.owner = id → t.CompletesNext j d e receipt base →
    (t.move j).world.correlator = .present { d with table := d.table.erase e.handle } ∧
      ∀ u, Meanwhile j (t.move j) u →
        (u.move j).world = u.world ∧ ∀ v, Meanwhile j (u.move j) v →
          (v.move j).world = v.world.note (.absorbed id e.operation e.handle) ∧
            (v.move j).running[j]? =
              some (reply (receipt.answer (v.move j).world (.ok ())) base)

/-- **An operation that is resolved is passed over.** -/
theorem passedOver_of_resolved {id : OperationId} (hresolved : t.world.outcome? id ≠ none) :
    t.PassedOver id := by
  refine ⟨?_, ?_, ?_⟩
  · rintro j e base rfl ⟨⟨self, target, rest, answers, below, rfl, hj, htarget⟩, d, hd, he⟩
    obtain ⟨hworld, hrunning⟩ := move_of_script hj
    have hbegin : Step.begin t.world self (.script self rest answers :: below) (.expire target) =
        (t.world, .resolve e.owner (.error (.timeout e.handle)) (.expired e.handle)
          (.expire e.handle) :: .script self rest answers :: below) := by
      simp only [Step.begin, withCorrelator, hd, withTarget, htarget, he]
    rw [hbegin] at hworld hrunning
    refine ⟨hworld, fun u hu => ?_⟩
    refine late_of_resolved ?_ (hu.running.trans hrunning)
    refine hu.precedes.outcome?_ne_none ?_
    rw [hworld]
    exact hresolved
  · intro j outcome cause h rest expired age below hj
    exact late_of_resolved hresolved hj
  · rintro j d e receipt base rfl hcompletes
    obtain ⟨htaken, outcome, cause, status, hrunning⟩ := hcompletes.takesOut
    refine ⟨htaken, fun u hu => ?_⟩
    have hstill : u.world.outcome? e.owner ≠ none := by
      apply hu.precedes.outcome?_ne_none
      exact (precedes_move t j).outcome?_ne_none hresolved
    obtain ⟨hsame, hconcluded⟩ := late_of_resolved hstill (hu.running.trans hrunning)
    refine ⟨hsame, fun v hv => ?_⟩
    obtain ⟨hnoted, htold⟩ := hconcluded v hv
    refine ⟨hnoted, ?_⟩
    rw [htold, hnoted]
    rfl

end Threads

end CommandBridge

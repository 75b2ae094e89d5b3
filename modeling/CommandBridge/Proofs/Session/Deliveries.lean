import CommandBridge.Proofs.Session.Returns

/-!
# Deliveries

A completion may be reported by the native side, by one of its callbacks, or while a caller waits.
All of them do the same with the table.

* `Step.receipt` — who is told about what a step delivers;
* `Step.begin_of_delivery` — every step that delivers something completes the handle;
* `exists_completion`, `returns_of_pending` — for a handle that is pending, it comes back with
  success;
* `returns_of_not_pending` — for any other it comes back at once, and nothing else has happened.
-/

namespace CommandBridge

/-- Who is told about what a step delivers. -/
def Step.receipt (w : World) : Step → Receipt
  | .deliver _ _ _ => .sender
  | .wait n _ =>
    match w.call? n with
    | some call => .waiter call
    | none => .nobody
  | _ => .nobody

variable {w : World} {self : Option CommandHandle} {s : Step} {handle : CommandHandle}
  {status : Int32} {payload : Payload} {c : Correlator}

/-- **Every step that delivers something completes the handle.** -/
theorem Step.begin_of_delivery (hd : s.delivery? w self = some (handle, status, payload))
    (hc : w.correlator = .present c) (below : Stack) :
    ∃ v, w.Quiet v ∧ v.journal = w.journal ∧
      s.begin w self below = complete v c handle status payload (s.receipt w) below := by
  cases s with
  | deliver target status payload =>
    obtain ⟨h, htarget, heq⟩ := Option.map_eq_some_iff.mp hd
    cases heq
    exact ⟨w, .refl w, rfl, by simp only [begin, withCorrelator, hc, withTarget, htarget, receipt]⟩
  | callback target status arguments =>
    obtain ⟨h, htarget, heq⟩ := Option.map_eq_some_iff.mp hd
    cases heq
    exact ⟨w, .refl w, rfl, by simp only [begin, withTarget, htarget, callBack, hc, receipt]⟩
  | fire target status argument =>
    obtain ⟨h, htarget, hlookup⟩ := Option.bind_eq_some_iff.mp hd
    obtain ⟨shape, hshape, heq⟩ := Option.map_eq_some_iff.mp hlookup
    cases heq
    exact ⟨w, .refl w, rfl, by simp only [begin, withTarget, htarget, hshape, callBack, hc, receipt]⟩
  | wait n completion =>
    cases completion with
    | none => cases hd
    | some completion =>
      obtain ⟨call, hcall, hhandle⟩ := Option.bind_eq_some_iff.mp hd
      obtain ⟨h, hh, heq⟩ := Option.map_eq_some_iff.mp hhandle
      cases heq
      refine ⟨w.useUp n, w.quiet_useUp n, rfl, ?_⟩
      simp only [begin, withCorrelator, hc, withCall, hcall, hh, receipt]
  | _ => cases hd

/-- What a delivery that found its entry puts on record. -/
def Event.reportsDelivery (entry : Entry) (status : Int32) (e : Event) : Prop :=
  e = .completed entry.owner entry.operation entry.handle status ∨
    e = .absorbed entry.owner entry.operation entry.handle

section Returns

variable {m : World × Stack} {rest : List Step} {answers : List Answer} {below : Stack}

/-- **A delivery to a pending handle** takes the entry out, attempts to resolve its operation, and
comes back with success, once it is on record whether this was the attempt that counted. -/
theorem exists_completion (hm : m.2 = .script self (s :: rest) answers :: below)
    (hd : s.delivery? m.1 self = some (handle, status, payload))
    (hc : m.1.correlator = .present c) {entry : Entry} (he : c.table.find? handle = some entry) :
    ∃ v q u ran n, m.1.Quiet v ∧ v.journal = m.1.journal ∧
      Moves m (v.setTable (c.table.erase handle),
        .resolve entry.owner ((Cause.delivered handle status payload).outcome c.statuses)
          (.delivered handle status payload) (.deliver entry status (s.receipt m.1)) ::
            .script self rest answers :: below) ∧
      Attempted (v.setTable (c.table.erase handle)) entry.owner
        ((Cause.delivered handle status payload).outcome c.statuses)
        (.delivered handle status payload) (.deliver entry status (s.receipt m.1))
        (.script self rest answers :: below) q u ran ∧
      Reaches q n ∧ Returns m n ((s.receipt m.1).answer n.1 (.ok ())) ∧
      n.1 = u.note (if ran then .completed entry.owner entry.operation entry.handle status
        else .absorbed entry.owner entry.operation entry.handle) := by
  obtain ⟨v, hquiet, hjournal, hbegin⟩ :=
    s.begin_of_delivery hd hc (.script self rest answers :: below)
  have hremove : c.table.remove handle = some (entry, c.table.erase handle) := by
    rw [PendingTable.remove, he, Option.map_some]
  simp only [complete, hremove] at hbegin
  obtain ⟨q, u, ran, hattempt⟩ := exists_attempt (v.setTable (c.table.erase handle))
    entry.owner ((Cause.delivered handle status payload).outcome c.statuses)
    (.delivered handle status payload) (.deliver entry status (s.receipt m.1))
    (.script self rest answers :: below)
  have hfirst := Moves.begin hm
  have hwork := hattempt.concluded
  rw [← hbegin] at hwork
  rw [hbegin] at hfirst
  exact ⟨v, q, u, ran, _, hquiet, hjournal, hfirst, hattempt, hattempt.goesOn.reaches,
    returns_of_inside hm hwork, rfl⟩

/-- **A delivery to a pending handle comes back with success**, once it is on record. -/
theorem returns_of_pending (hm : m.2 = .script self (s :: rest) answers :: below)
    (hd : s.delivery? m.1 self = some (handle, status, payload))
    (hc : m.1.correlator = .present c) {entry : Entry} (he : c.table.find? handle = some entry) :
    ∃ n, Returns m n ((s.receipt m.1).answer n.1 (.ok ())) ∧
      ∃ e before, n.1.journal = e :: before ∧ e.reportsDelivery entry status := by
  obtain ⟨-, -, u, ran, n, -, -, -, -, -, hreturns, hn⟩ := exists_completion hm hd hc he
  refine ⟨n, hreturns, _, u.journal, congrArg World.journal hn, ?_⟩
  cases ran
  · exact .inr rfl
  · exact .inl rfl

/-- **A delivery to any other handle comes back at once**, with the error of a dangling completion,
and nothing has happened but that this is on record. -/
theorem returns_of_not_pending (hm : m.2 = .script self (s :: rest) answers :: below)
    (hd : s.delivery? m.1 self = some (handle, status, payload))
    (hc : m.1.correlator = .present c) (hnone : c.table.find? handle = none) :
    ∃ n, Moves m n ∧ m.1.Quiet n.1 ∧ n.1.journal = .dangling handle status :: m.1.journal ∧
      Returns m n ((s.receipt m.1).answer n.1 (.error (.dangling handle status))) := by
  obtain ⟨v, hquiet, hjournal, hbegin⟩ :=
    s.begin_of_delivery hd hc (.script self rest answers :: below)
  have hremove : c.table.remove handle = none := by
    rw [PendingTable.remove, hnone, Option.map_none]
  simp only [complete, hremove] at hbegin
  have hmoves := Moves.begin hm
  rw [hbegin] at hmoves
  refine ⟨_, hmoves, hquiet.note rfl, congrArg _ hjournal, returns_of_inside hm ?_⟩
  rw [hbegin]
  exact .refl

end Returns

end CommandBridge

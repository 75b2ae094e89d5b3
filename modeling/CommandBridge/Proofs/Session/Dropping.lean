import CommandBridge.Proofs.Session.Installation
import CommandBridge.Proofs.Session.Unheard
import CommandBridge.Proofs.Session.Waiting

/-!
# Dropping a call cancels nothing

From any moment on, two runs are compared: in the one a call is kept and never looked at again, in
the other it is dropped at that moment.  The same threads move in the same order.

* `Threads.Spares` — no thread begins a step that is about the call;
* `Threads.PartsAt` — the moment at which the two runs part;
* `DroppedCall.UnheardOnly` — nothing differs but the record that an outcome was not heard;
* `DroppedCall.Splits.move`, `DroppedCall.Splits.follow` — a section, and a schedule, on both sides;
* `Threads.Accepts` — a completion of the operation takes its entry out and comes back with success;
* `Threads.dropping_cancels_nothing` — **the run without the call is the run with it**, and
  completions are accepted as ever.
-/

namespace CommandBridge

namespace Threads

/-! ### Runs that are not about a call -/

/-- The call that the next section of a thread is about, if it begins a step that is about one. -/
def nextCall? (t : Threads) (i : Nat) : Option Nat :=
  ((t.running[i]?).bind Stack.next?).bind Step.call?

/-- No thread that moves begins a step that is about the call. -/
def Spares (n : Nat) : Threads → List Nat → Prop
  | _, [] => True
  | t, i :: schedule => t.nextCall? i ≠ some n ∧ (t.move i).Spares n schedule

instance decidableSpares (n : Nat) : ∀ (t : Threads) (schedule : List Nat),
    Decidable (t.Spares n schedule)
  | _, [] => .isTrue trivial
  | t, i :: schedule =>
    have : Decidable ((t.move i).Spares n schedule) := decidableSpares n (t.move i) schedule
    inferInstanceAs (Decidable (t.nextCall? i ≠ some n ∧ (t.move i).Spares n schedule))

/-- Two ways to go on from `t`: the call is kept, or it is dropped at this moment. -/
inductive PartsAt (t : Threads) (n : Nat) (call : PendingCall) : Threads → Threads → Prop
  /-- The call is dropped between two sections of the threads. -/
  | between : PartsAt t n call t ⟨(t.world.useUp n).stopListening call, t.running⟩
  /-- A thread takes the step that drops the call.  If the call is kept, the step does nothing. -/
  | step {i : Nat} (hnext : (t.running[i]?).bind Stack.next? = some (.forget n)) :
      PartsAt t n call ⟨t.world, (t.move i).running⟩ (t.move i)

end Threads

/-- Nothing differs but that the call is gone, and that the journal has a record of the outcome that
nobody heard, right after the outcome itself. -/
structure DroppedCall.UnheardOnly (x : DroppedCall) (kept dropped : Threads) : Prop where
  /-- All steps have returned the same, and all threads have the same to do. -/
  running : dropped.running = kept.running
  /-- The table is the same, in the same correlator. -/
  correlator : dropped.world.correlator = kept.world.correlator
  outcomes : ∀ id, dropped.world.outcome? id = kept.world.outcome? id
  others : ∀ id, id ≠ x.id → dropped.world.operations[id]? = kept.world.operations[id]?
  calls : ∀ n, n ≠ x.number → dropped.world.call? n = kept.world.call? n
  held : kept.world.call? x.number = some x.call
  gone : dropped.world.call? x.number = none
  callbacks : dropped.world.callbacks = kept.world.callbacks
  clock : dropped.world.clock = kept.world.clock
  journal : ∃ since, kept.world.journal = since ++ x.before ∧
    dropped.world.journal = since.flatMap x.echo ++ x.before

/-- The same threads, with the call and without it. -/
structure DroppedCall.Splits (x : DroppedCall) (kept dropped : Threads) : Prop where
  running : dropped.running = kept.running
  world : x.Alike kept.world dropped.world

namespace DroppedCall.Splits

variable {x : DroppedCall} {kept dropped : Threads}

theorem unheardOnly (h : x.Splits kept dropped) : x.UnheardOnly kept dropped :=
  ⟨h.running, h.world.correlator, h.world.outcome?, fun _ hid => h.world.getElem?_of_ne hid,
    fun _ hn => h.world.call? hn, h.world.kept, h.world.call?_number, h.world.callbacks,
    h.world.clock, h.world.journal⟩

/-- The operation still has its caller on record, though nobody listens. -/
theorem hears (h : x.Splits kept dropped) (hlistens : kept.world.Listens x.id) :
    dropped.world.Hears x.id := by
  obtain ⟨o, shape, ho, hlistener⟩ := hlistens
  refine ⟨o.deaf, shape, false, h.world.getElem?_id ho, ?_⟩
  unfold Operation.deaf
  rw [hlistener]
  rfl

/-- **A section does the same on both sides.**  Where the call is kept its holder listens, so that
the outcome is heard there. -/
theorem move (h : x.Splits kept dropped) (hattended : kept.Attended)
    (hsource : x.call.source = .operation x.id) {i : Nat}
    (hnext : kept.nextCall? i ≠ some x.number) : x.Splits (kept.move i) (dropped.move i) := by
  have hlistens : kept.world.Listens x.id := hattended.listens h.world.kept hsource
  unfold Threads.move
  rw [h.running]
  cases hi : kept.running[i]? with
  | none => exact h
  | some stack =>
    have hspared : ∀ s, stack.next? = some s → s.call? ≠ some x.number := by
      intro s hs heq
      apply hnext
      simp only [Threads.nextCall?, hi, Option.bind_some, hs, heq]
    rcases DroppedCall.exists_matches h.world hlistens hspared with
      ⟨hkept, hdropped⟩ | ⟨m, m', hkept, hdropped, hmatches⟩
    · simp only [hkept, hdropped]
      exact h
    · simp only [hkept, hdropped]
      refine ⟨?_, hmatches.world⟩
      show kept.running.set i m'.2 = kept.running.set i m.2
      rw [hmatches.stack]

/-- **A schedule that is not about the call does the same on both sides.** -/
theorem follow (h : x.Splits kept dropped) (hattended : kept.Attended)
    (hsource : x.call.source = .operation x.id) {schedule : List Nat}
    (hspares : kept.Spares x.number schedule) :
    x.Splits (kept.follow schedule) (dropped.follow schedule) := by
  induction schedule generalizing kept dropped with
  | nil => exact h
  | cons i schedule ih =>
    obtain ⟨hnext, hlater⟩ := hspares
    exact ih (h.move hattended hsource hnext) (hattended.move i) hlater

end DroppedCall.Splits

namespace Threads

variable {t kept dropped : Threads} {n : Nat} {call : PendingCall} {id : OperationId}

/-! ### The moment of dropping -/

/-- A thread that drops a call says so, and leaves its registrations alone. -/
theorem move_of_forget {i : Nat} (hcall : t.world.call? n = some call)
    (hnext : (t.running[i]?).bind Stack.next? = some (.forget n)) :
    ∃ stack stack', t.running[i]? = some stack ∧
      t.move i = ⟨(t.world.useUp n).stopListening call, t.running.set i stack'⟩ ∧
      stack'.registers = stack.registers := by
  obtain ⟨stack, hi, hstack⟩ := Option.bind_eq_some_iff.mp hnext
  unfold Stack.next? at hstack
  split at hstack
  · next self s rest answers below =>
    obtain rfl := Option.some.inj hstack
    refine ⟨_, reply .forgotten (.script self rest answers :: below), hi, ?_, ?_⟩
    · apply move_eq hi
      simp only [advance, Step.begin, withCall, hcall]
      rfl
    · exact Stack.registers_reply .forgotten (.script self rest answers :: below)
  · cases hstack

/-- **The two runs part with nothing but the call**, and where it is kept its holder listens. -/
theorem PartsAt.splits (h : t.PartsAt n call kept dropped) (hattended : t.Attended)
    (hcall : t.world.call? n = some call) (hsource : call.source = .operation id) {o : Operation}
    (ho : t.world.operations[id]? = some o) :
    kept.Attended ∧ DroppedCall.Splits ⟨n, call, id, o.name, t.world.journal⟩ kept dropped := by
  have halike := World.alike_of_dropped hcall hsource ho
  cases h with
  | between => exact ⟨hattended, rfl, halike⟩
  | step hnext =>
    obtain ⟨stack, stack', hi, hmove, hregisters⟩ := move_of_forget hcall hnext
    rw [hmove]
    refine ⟨?_, rfl, halike⟩
    have hbefore := flatMap_running Stack.registers hi
    have hafter := flatMap_running_set Stack.registers hi stack'
    rw [hregisters] at hafter
    exact hattended.perm (hafter.trans hbefore.symm)

/-! ### Completions -/

/-- A completion of the operation takes its entry out.  Whatever other threads do meanwhile, the
operation is resolved after the next section, and the completion comes back with success after the
one after that. -/
def Accepts (t : Threads) (id : OperationId) : Prop :=
  ∀ j d e receipt base, e.owner = id → t.CompletesNext j d e receipt base →
    (t.move j).world.correlator = .present { d with table := d.table.erase e.handle } ∧
      ∀ u, Meanwhile j (t.move j) u → (u.move j).world.outcome? id ≠ none ∧
        ∀ v, Meanwhile j (u.move j) v →
          (v.move j).running[j]? = some (reply (receipt.answer (v.move j).world (.ok ())) base)

theorem hears_move (h : t.world.Hears id) (i : Nat) : (t.move i).world.Hears id := by
  rcases move_cases t i with hsame | ⟨stack, v, stack', -, hadvance, hmove⟩
  · rw [hsame]
    exact h
  · rw [hmove]
    exact h.effect (section_of_advance hadvance).effect

theorem hears_follow (h : t.world.Hears id) (schedule : List Nat) :
    (t.follow schedule).world.Hears id := by
  induction schedule generalizing t with
  | nil => exact h
  | cons i schedule ih => exact ih (hears_move h i)

/-- An attempt for a caller is concluded at once, and the operation is resolved then. -/
theorem exists_concluded {j : Nat} (h : t.world.Hears id) {outcome : Outcome} {cause : Cause}
    {after : Aftermath} {base : Stack}
    (hj : t.running[j]? = some (.resolve id outcome cause after :: base)) :
    (t.move j).world.outcome? id ≠ none ∧
      ∃ ran, (t.move j).running[j]? = some (.conclude after ran :: base) := by
  by_cases hopen : t.world.outcome? id = none
  · obtain ⟨w, hquiet, hresolve⟩ := resolve_of_hears h hopen outcome cause after base
    obtain ⟨hworld, hrunning⟩ := move_of_resolve hj
    obtain ⟨o, -, -, hid, -⟩ := h
    rw [hresolve] at hworld hrunning
    refine ⟨?_, true, hrunning⟩
    rw [hworld, hquiet.outcome?, World.outcome?_recordOutcome hid, if_pos rfl]
    exact Option.some_ne_none outcome
  · obtain ⟨hworld, hrunning⟩ := move_of_resolved hopen hj
    refine ⟨?_, false, hrunning⟩
    rw [hworld]
    exact hopen

/-- **The completion of an operation with a caller is accepted**, whether the caller listens or
not. -/
theorem accepts_of_hears (h : t.world.Hears id) : t.Accepts id := by
  rintro j d e receipt base rfl hcompletes
  obtain ⟨htaken, outcome, cause, status, hrunning⟩ := hcompletes.takesOut
  refine ⟨htaken, fun u hu => ?_⟩
  have hstill : u.world.Hears e.owner := by
    obtain ⟨others, -, rfl⟩ := hu
    exact hears_follow (hears_move h j) others
  obtain ⟨hset, ran, hconcludes⟩ := exists_concluded hstill (hu.running.trans hrunning)
  refine ⟨hset, fun v hv => ?_⟩
  obtain ⟨hnoted, htold⟩ := move_of_conclude (hv.running.trans hconcludes)
  rw [htold, hnoted]
  rfl

/-! ### Two runs -/

/-- **Dropping a call cancels nothing.**  Take any run, and any call in it whose operation was
begun.  From any moment on, the run in which the call is kept and never looked at, and the run in
which it is dropped at that moment, go through the same states with the same answers, but for the
record that nobody heard the outcome.  A completion of the operation is accepted without the call,
too. -/
theorem dropping_cancels_nothing {c : Correlator} {scripts : List (List Step)} {before : List Nat}
    (ht : (start c scripts).follow before = t ∨ (startVacant scripts).follow before = t)
    (hcall : t.world.call? n = some call)
    (hsource : call.source = .operation id) (hparts : t.PartsAt n call kept dropped) :
    ∃ o, t.world.operations[id]? = some o ∧
      (∀ schedule, kept.Spares n schedule →
        DroppedCall.UnheardOnly ⟨n, call, id, o.name, t.world.journal⟩ (kept.follow schedule)
          (dropped.follow schedule)) ∧
      ∀ schedule, (dropped.follow schedule).Accepts id := by
  have hattended : t.Attended := by
    rcases ht with rfl | rfl
    · exact Attended.follow (attended_of_scripts rfl scripts) before
    · exact Attended.follow (attended_of_scripts rfl scripts) before
  obtain ⟨o, -, ho, -⟩ := hattended.listens hcall hsource
  obtain ⟨hkept, hsplits⟩ := hparts.splits hattended hcall hsource ho
  refine ⟨o, ho, fun schedule hspares => ?_, fun schedule => ?_⟩
  · exact (hsplits.follow hkept hsource hspares).unheardOnly
  · apply accepts_of_hears
    apply hears_follow
    exact hsplits.hears (hkept.listens hsplits.world.kept hsource)

/-- A caller opens a ledger and drops the call at once; another thread reports the completion. -/
def abandoned : List (List Step) :=
  [[.issue .handle "open_pool_ledger" (fun _ => 0) [], .forget 0],
   [.deliver (.handle ⟨1⟩) 0 (.handle 7)]]

/-- The ledger is opened all the same, and the completion comes back with success.  Only the record
that nobody heard of it is new. -/
theorem dropping_cancels_nothing_abandoned :
    ∃ (call : PendingCall) (kept dropped : Threads),
      DroppedCall.UnheardOnly
        ⟨0, call, 0, "open_pool_ledger", ((start {} abandoned).follow [0, 0]).world.journal⟩
        (kept.follow [1, 1, 1]) (dropped.follow [1, 1, 1]) ∧
      kept = ⟨((start {} abandoned).follow [0, 0]).world, dropped.running⟩ ∧
      dropped = (start {} abandoned).follow [0, 0, 0] ∧
      (dropped.follow [1, 1, 1]).world.outcome? 0 = some (.ok (.handle 7)) ∧
      (dropped.follow [1, 1, 1]).running[1]? = some [.script none [] [.delivered (.ok ())]] ∧
      (dropped.follow [1, 1]).world.journal =
        .unheard 0 "open_pool_ledger" ::
          .resolved 0 (.ok (.handle 7)) (.delivered ⟨1⟩ 0 (.handle 7)) ::
          ((start {} abandoned).follow [0, 0]).world.journal := by
  have hnext : ((((start {} abandoned).follow [0, 0]).running[0]?).bind Stack.next?) =
      some (.forget 0) := rfl
  have hrun : (start {} abandoned).follow [0, 0] = (start {} abandoned).follow [0, 0] ∨
      (startVacant abandoned).follow [0, 0] = (start {} abandoned).follow [0, 0] := .inl rfl
  obtain ⟨o, ho, honly, -⟩ := dropping_cancels_nothing hrun rfl rfl (.step hnext)
  obtain rfl : o = ⟨"open_pool_ledger", .caller .handle true, none⟩ := (Option.some.inj ho).symm
  exact ⟨_, _, _, honly [1, 1, 1] (by decide), rfl, rfl, rfl, rfl, rfl⟩

end Threads

end CommandBridge

import CommandBridge.Proofs.Session.Provenance
import CommandBridge.Proofs.Session.Returns

/-!
# Going through the drained entries

A shutdown takes all entries out at once and then goes through them.  While it does, continuations
run, and these may resolve operations whose turn is still to come.

* `Turns` — the entries, one after the other, each in its turn;
* `Turns.precedes`, `Turns.resolved` — in the end all their operations are resolved;
* `exists_turns` — a shutdown is a sequence of turns, and returns what it was told to;
* `correlator_of_shutdown` — what it leaves of the correlator;
* `shutDown_of_drained` — until it returns, only what it has drained is resolved by a shutdown.
-/

namespace CommandBridge

/-! ### Turns -/

/-- A shutdown goes through entries, each in its turn.  An operation that is resolved when its turn
comes is passed over.  Any other is resolved then, and its continuation runs to its end before the
next turn comes. -/
inductive Turns (base : Stack) (count : Nat) : World → List Entry → World → Prop
  | done {w : World} : Turns base count w [] w
  | passed {w v : World} {e : Entry} {rest : List Entry} (hresolved : w.outcome? e.owner ≠ none)
      (hrest : Turns base count w rest v) : Turns base count w (e :: rest) v
  | ran {w u v : World} {q : World × Stack} {e : Entry} {rest : List Entry}
      (hopen : w.outcome? e.owner = none)
      (hmoves : Moves (w, .resolve e.owner (.error (.shutDown e.handle)) (.shutDown e.handle)
        (.shutdown rest count) :: base) q)
      (hset : (w.recordOutcome e.owner (.error (.shutDown e.handle)) (.shutDown e.handle)).Quiet
        q.1)
      (hinside : Inside base q (u, .conclude (.shutdown rest count) true :: base))
      (hrest : Turns base count u rest v) : Turns base count w (e :: rest) v

namespace Turns

variable {base : Stack} {count : Nat} {w v : World} {entries : List Entry}

theorem precedes (h : Turns base count w entries v) : w.Precedes v := by
  induction h with
  | done => exact .refl _
  | passed _ _ ih => exact ih
  | ran _ hmoves _ hinside _ ih =>
    exact (hmoves.section.precedes.trans (Inside.reaches hinside).precedes).trans ih

/-- An operation whose entry is gone through is resolved afterwards. -/
theorem resolved (h : Turns base count w entries v) {e : Entry} (he : e ∈ entries)
    (hbegun : e.owner < w.operations.length) : v.outcome? e.owner ≠ none := by
  induction h with
  | done => cases he
  | @passed w v d rest hresolved hrest ih =>
    rcases List.mem_cons.mp he with rfl | hlater
    · exact hrest.precedes.outcome?_ne_none hresolved
    · exact ih hlater hbegun
  | @ran w u v q d rest hopen hmoves hset hinside hrest ih =>
    have hlater := hmoves.section.precedes.trans (Inside.reaches hinside).precedes
    rcases List.mem_cons.mp he with rfl | hmem
    · have hq : q.1.outcome? e.owner ≠ none := by
        rw [hset.outcome?, World.outcome?_recordOutcome (List.getElem?_eq_getElem hbegun),
          if_pos rfl]
        exact Option.some_ne_none _
      exact hrest.precedes.outcome?_ne_none
        ((Inside.reaches hinside).precedes.outcome?_ne_none hq)
    · exact ih hmem (Nat.lt_of_lt_of_le hbegun hlater.length)

end Turns

/-- **A shutdown goes through its entries in turns, and returns.** -/
theorem exists_turns (base : Stack) (count : Nat) (entries : List Entry) (w : World)
    (hbegun : ∀ e ∈ entries, e.owner < w.operations.length) :
    ∃ v, Turns base count w entries v ∧
      Inside base (shutdownOn w entries count base)
        (v.note (.shutDown count), reply (.count count) base) := by
  induction entries generalizing w with
  | nil => exact ⟨w, .done, .refl⟩
  | cons e rest ih =>
    obtain ⟨q, u, ran, hattempt⟩ := exists_attempt w e.owner (.error (.shutDown e.handle))
      (.shutDown e.handle) (.shutdown rest count) base
    obtain ⟨v, hturns, hrest⟩ := ih u (fun d hd =>
      Nat.lt_of_lt_of_le (hbegun d (List.mem_cons_of_mem _ hd)) hattempt.precedes.length)
    refine ⟨v, ?_, Relation.ReflTransGen.trans hattempt.concluded hrest⟩
    by_cases hopen : w.outcome? e.owner = none
    · obtain ⟨rfl, hset, -⟩ := hattempt.of_open (hbegun e List.mem_cons_self) hopen
      exact .ran hopen hattempt.moves hset hattempt.inside hturns
    · obtain ⟨-, -, rfl⟩ := hattempt.of_resolved hopen
      exact .passed hopen hturns

/-! ### A shutdown in a session -/

section Session

variable {c d : Correlator} {steps : List Step} {p q r : World × Stack}
  {self : Option CommandHandle} {order : Arrangement} {rest : List Step} {answers : List Answer}
  {below : Stack}

theorem begin_shutdown {w : World} (hd : w.correlator = .present d) (base : Stack) :
    Step.begin w self base (.shutdown order) =
      shutdownOn (w.setTable d.table.drain.2) (order.apply d.table.entries)
        d.table.entries.length base := by
  simp only [Step.begin, withCorrelator, hd]
  rfl

/-- A shutdown closes the correlator and takes out all entries, and nothing else about it. -/
theorem correlator_of_shutdown (hd : p.1.correlator = .present d)
    (htop : p.2 = .script self (.shutdown order :: rest) answers :: below) (hmoves : Moves p q) :
    q.1.correlator = .present { d with table := d.table.drain.2 } := by
  have hbegin := Moves.begin htop
  rw [begin_shutdown hd] at hbegin
  rw [hmoves.unique hbegin, (World.quiet_shutdownOn ..).correlator]
  exact World.correlator_setTable hd _

/-- A shutdown is only aimed at operations that hold their entry. -/
theorem Aims.holds_of_shutDown {w : World} {id : OperationId} {stack under : Stack}
    {h : CommandHandle} (haims : Aims w id stack (.shutDown h) under) : w.Holds id h := by
  cases haims with
  | shutDown hholds => exact hholds

/-- Frames that stand too low to matter. -/
theorem Stack.Sourced.of_length {source source' : OperationId → Cause → Stack → Prop}
    {statuses : StatusTable} {stack : Stack} (h : stack.Sourced source statuses) {k : Nat}
    (hlength : stack.length ≤ k)
    (hlow : ∀ id cause under, under.length < k → source' id cause under) :
    stack.Sourced source' statuses := by
  induction stack with
  | nil => trivial
  | cons f below ih =>
    have hbelow : below.length < k := hlength
    exact ⟨h.1, fun a _ => hlow _ _ _ hbelow, ih h.2.2 (Nat.le_of_lt hbelow)⟩

/-- An attempt above a stack, if it is for a shutdown, is for one of the entries. -/
def Drained (entries : List Entry) (k : Nat) (id : OperationId) (cause : Cause) (under : Stack) :
    Prop :=
  k ≤ under.length → ∀ h, cause = .shutDown h → ∃ e ∈ entries, e.owner = id ∧ e.handle = h

theorem Inside.sourced_drained (hc : c.IsFresh) (hseeds : ∀ n ∈ Step.seedsIn steps, 0 < n)
    (hfits : ∀ m, Reaches (Session.start c steps) m → m.1.Fits)
    (hp : Reaches (Session.start c steps) p) (hd : p.1.correlator = .present d)
    (htop : p.2 = .script self (.shutdown order :: rest) answers :: below) (hmoves : Moves p q)
    (hr : Inside (.script self rest answers :: below) q r) :
    r.2.Sourced (Drained d.table.entries (below.length + 1)) c.statuses := by
  have hq : Reaches (Session.start c steps) q := hp.tail hmoves
  have hclosed : q.1.correlator.isClosed = true := by
    rw [correlator_of_shutdown hd htop hmoves]
    rfl
  induction hr with
  | refl =>
    have hsourced := Session.sourced hc hseeds hfits hp
    rw [htop] at hsourced
    have hlow : ∀ id cause under, under.length < below.length + 1 →
        Drained d.table.entries (below.length + 1) id cause under :=
      fun _ _ _ hlt hle => absurd hle (Nat.not_le.mpr hlt)
    have hbelow := hsourced.2.2.of_length (Nat.le_succ _) hlow
    have hbase : Stack.Sourced (Drained d.table.entries (below.length + 1)) c.statuses
        (.script self rest answers :: below) := hbelow.push trivial rfl
    have hbegin := Moves.begin htop
    rw [begin_shutdown hd] at hbegin
    rw [hmoves.unique hbegin]
    refine hbase.goOn (.shutdown _) _ (fun e he _ h hcause => ?_)
    exact ⟨e, (order.apply_perm _).mem_iff.mp he, rfl, Cause.shutDown.inj hcause⟩
  | @tail r r' hinside hstep ih =>
    have hqr := Inside.reaches hinside
    have hr : Reaches (Session.start c steps) r := Relation.ReflTransGen.trans hq hqr
    have hsound := Reaches.sound_of_fits hc hseeds hfits hr
    have hempty := hsound.entries_of_isClosed (hqr.precedes.correlator.isClosed hclosed)
    refine hstep.2.section.sourced hsound (Reaches.tied_of_fits hc hseeds hfits hr).1
      (fun d hd => Reaches.statuses hr hd) ?_ ih
    -- a shutdown that is begun now finds nothing to drain
    rintro id cause under haims - h rfl
    have hmem := World.Sound.mem_owners_of_holds haims.holds_of_shutDown
    rw [World.owners, hempty] at hmem
    cases hmem

/-- **Until a shutdown returns, only what it has drained is resolved by a shutdown.** -/
theorem shutDown_of_drained (hc : c.IsFresh) (hseeds : ∀ n ∈ Step.seedsIn steps, 0 < n)
    (hfits : ∀ m, Reaches (Session.start c steps) m → m.1.Fits)
    (hp : Reaches (Session.start c steps) p) (hd : p.1.correlator = .present d)
    (htop : p.2 = .script self (.shutdown order :: rest) answers :: below) (hmoves : Moves p q)
    (hr : Inside (.script self rest answers :: below) q r)
    (hover : Stack.Over (.script self rest answers :: below) r.2) {id : OperationId}
    {outcome : Outcome} {h : CommandHandle} {after : Aftermath} {under : Stack}
    (hstack : r.2 = .resolve id outcome (.shutDown h) after :: under) :
    ∃ e ∈ d.table.entries, e.owner = id ∧ e.handle = h := by
  have hsourced := Inside.sourced_drained hc hseeds hfits hp hd htop hmoves hr
  rw [hstack] at hsourced hover
  exact hsourced.2.1 _ List.mem_cons_self (Nat.le_of_lt_succ hover.length_lt) h rfl

end Session

end CommandBridge

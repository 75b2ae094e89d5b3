import CommandBridge.Proofs.Session.Ages
import CommandBridge.Proofs.Session.Attempts
import CommandBridge.Proofs.Session.Closed
import CommandBridge.Proofs.Session.Passive

/-!
# Going through entries that are too old

A sweep looks up the entries that are too old and then goes through them.  While it does,
continuations run, and these may resolve operations whose turn is still to come, or take their
entries out and have the handles given out again.  What a sweep reports is what it has resolved
itself.

* `SweepTurn` — an entry in its turn; `SweepTurn.reported` — the handles of those resolved;
* `SweepTurns`, `exists_sweepTurns` — a sweep is a sequence of turns;
* `NeverAgain` — no expiry and no sweep reports the operation any more;
* `SweepTurn.Taken` — all that is done in a turn;
* `exists_passive_sweep` — a sweep among passive continuations;
* `Session.sweep_exact` — which entries have a turn, and what is reported, in every state of a
  session.
-/

namespace CommandBridge

/-! ### Turns -/

/-- An entry in its turn. -/
structure SweepTurn where
  /-- The state in which the turn comes. -/
  state : World
  entry : Entry
  /-- The attempt of the sweep was the one that counted. -/
  ran : Bool

/-- The handles that the sweep has resolved, in the order of their turns. -/
def SweepTurn.reported (turns : List SweepTurn) : List CommandHandle :=
  (turns.filter SweepTurn.ran).map (fun t => t.entry.handle)

/-- What is left to do after the attempt that is made in a turn. -/
def SweepTurn.after (t : SweepTurn) (rest : List Entry) (expired : List CommandHandle)
    (limit : Duration) : Aftermath :=
  .sweep t.entry.handle rest expired limit

/-- The attempt that is made in a turn. -/
def SweepTurn.frame (t : SweepTurn) (rest : List Entry) (expired : List CommandHandle)
    (limit : Duration) : Frame :=
  .resolve t.entry.owner (.error (.timeout t.entry.handle)) (.swept t.entry.handle)
    (t.after rest expired limit)

/-- A sweep goes through entries, each in its turn.  `expired` are the handles that it has resolved
before the first of these turns. -/
inductive SweepTurns (base : Stack) (limit : Duration) :
    World → List Entry → List CommandHandle → List SweepTurn → World → Prop
  | done {w : World} {expired : List CommandHandle} : SweepTurns base limit w [] expired [] w
  | turn {w u v : World} {q : World × Stack} {e : Entry} {ran : Bool} {rest : List Entry}
      {expired : List CommandHandle} {turns : List SweepTurn}
      (hattempt : Attempted w e.owner (.error (.timeout e.handle)) (.swept e.handle)
        (.sweep e.handle rest expired limit) base q u ran)
      (hrest : SweepTurns base limit u rest (if ran then expired ++ [e.handle] else expired) turns
        v) :
      SweepTurns base limit w (e :: rest) expired (⟨w, e, ran⟩ :: turns) v

theorem SweepTurn.append_reported (t : SweepTurn) (turns : List SweepTurn)
    (expired : List CommandHandle) :
    (if t.ran then expired ++ [t.entry.handle] else expired) ++ reported turns =
      expired ++ reported (t :: turns) := by
  cases hran : t.ran with
  | false => simp [reported, hran]
  | true => simp [reported, hran]

theorem SweepTurn.mem_reported {turns : List SweepTurn} {h : CommandHandle} :
    h ∈ reported turns ↔ ∃ t ∈ turns, t.ran = true ∧ t.entry.handle = h := by
  simp [reported, and_assoc]

/-- **A sweep goes through its entries in turns.** -/
theorem exists_sweepTurns (base : Stack) (limit : Duration) (entries : List Entry) (w : World)
    (expired : List CommandHandle) :
    ∃ turns v, SweepTurns base limit w entries expired turns v := by
  induction entries generalizing w expired with
  | nil => exact ⟨[], w, .done⟩
  | cons e rest ih =>
    obtain ⟨q, u, ran, hattempt⟩ := exists_attempt w e.owner (.error (.timeout e.handle))
      (.swept e.handle) (.sweep e.handle rest expired limit) base
    obtain ⟨turns, v, hturns⟩ := ih u (if ran then expired ++ [e.handle] else expired)
    exact ⟨⟨w, e, ran⟩ :: turns, v, .turn hattempt hturns⟩

namespace SweepTurns

variable {base : Stack} {limit : Duration} {w v : World} {entries : List Entry}
  {expired : List CommandHandle} {turns : List SweepTurn}

/-- Every entry has its turn. -/
theorem map_entry (h : SweepTurns base limit w entries expired turns v) :
    turns.map SweepTurn.entry = entries := by
  induction h with
  | done => rfl
  | turn _ _ ih => rw [List.map_cons, ih]

/-- After the last turn, the sweep is at its end. -/
theorem inside (h : SweepTurns base limit w entries expired turns v) :
    Inside base (sweepOn w entries expired limit base)
      (sweepOn v [] (expired ++ SweepTurn.reported turns) limit base) := by
  induction h with
  | @done w expired =>
    rw [SweepTurn.reported, List.filter_nil, List.map_nil, List.append_nil]
  | @turn w u v q e ran rest expired turns hattempt _ ih =>
    rw [SweepTurn.append_reported ⟨w, e, ran⟩ turns expired] at ih
    exact Relation.ReflTransGen.trans hattempt.concluded ih

/-- No turn comes before the first one. -/
theorem precedes_state (h : SweepTurns base limit w entries expired turns v) {t : SweepTurn}
    (ht : t ∈ turns) : w.Precedes t.state := by
  induction h with
  | done => cases ht
  | turn hattempt _ ih =>
    rcases List.mem_cons.mp ht with rfl | hlater
    · exact .refl _
    · exact hattempt.precedes.trans (ih hlater)

/-- **Every turn is an attempt**, on the way from the first turn to the end. -/
theorem exists_attempted (h : SweepTurns base limit w entries expired turns v) {t : SweepTurn}
    (ht : t ∈ turns) :
    ∃ rest expired' q u,
      Inside base (sweepOn w entries expired limit base)
        (t.state, t.frame rest expired' limit :: base) ∧
      Attempted t.state t.entry.owner (.error (.timeout t.entry.handle)) (.swept t.entry.handle)
        (t.after rest expired' limit) base q u t.ran ∧
      Inside base (conclude u t.ran base (t.after rest expired' limit))
        (sweepOn v [] (expired ++ SweepTurn.reported turns) limit base) := by
  induction h with
  | done => cases ht
  | @turn w u v q e ran rest expired turns hattempt hrest ih =>
    have happend := SweepTurn.append_reported ⟨w, e, ran⟩ turns expired
    rcases List.mem_cons.mp ht with rfl | hlater
    · refine ⟨rest, expired, q, u, .refl, hattempt, ?_⟩
      rw [← happend]
      exact hrest.inside
    · obtain ⟨rest', expired', q', u', hbefore, hattempt', hafter⟩ := ih hlater
      rw [happend] at hafter
      exact ⟨rest', expired', q', u', Relation.ReflTransGen.trans hattempt.concluded hbefore,
        hattempt', hafter⟩

end SweepTurns

/-! ### Operations that are resolved for good -/

/-- No expiry and no sweep that comes after `q` reports the operation. -/
structure NeverAgain (q : World × Stack) (id : OperationId) : Prop where
  expire : ∀ p self target rest answers below d h e, Reaches q p →
    p.2 = .script self (.expire target :: rest) answers :: below → target.resolve self = some h →
    p.1.correlator = .present d → d.table.find? h = some e → e.owner = id →
    ∃ n, n.1 = p.1 ∧ Returns p n (.flag false)
  sweep : ∀ p base limit entries turns v, Reaches q p →
    SweepTurns base limit p.1 entries [] turns v → ∀ t ∈ turns, t.entry.owner = id → t.ran = false

/-- An expiry that finds the operation resolved has done nothing when it comes back. -/
theorem returns_of_expire_resolved {p : World × Stack} {self : Option CommandHandle}
    {target : Target} {rest : List Step} {answers : List Answer} {below : Stack} {d : Correlator}
    {h : CommandHandle} {e : Entry}
    (htop : p.2 = .script self (.expire target :: rest) answers :: below)
    (htarget : target.resolve self = some h) (hd : p.1.correlator = .present d)
    (he : d.table.find? h = some e) (hresolved : p.1.outcome? e.owner ≠ none) :
    ∃ n, n.1 = p.1 ∧ Returns p n (.flag false) := by
  obtain ⟨q, v, ran, hattempt⟩ := exists_attempt p.1 e.owner (.error (.timeout h)) (.expired h)
    (.expire h) (.script self rest answers :: below)
  have hwork := hattempt.concluded
  obtain ⟨rfl, -, rfl⟩ := hattempt.of_resolved hresolved
  refine ⟨(p.1, reply (.flag false) (.script self rest answers :: below)), rfl,
    returns_of_inside htop ?_⟩
  simp only [Step.begin, withCorrelator, hd, withTarget, htarget, he]
  exact hwork

/-- **Whoever is resolved is never reported again.** -/
theorem neverAgain_of_resolved {q : World × Stack} {id : OperationId}
    (hresolved : q.1.outcome? id ≠ none) : NeverAgain q id := by
  refine ⟨?_, ?_⟩
  · rintro p self target rest answers below d h e hqp htop htarget hd he rfl
    exact returns_of_expire_resolved htop htarget hd he (hqp.precedes.outcome?_ne_none hresolved)
  · rintro p base limit entries turns v hqp hturns t ht rfl
    obtain ⟨rest, expired, z, u, -, hattempt, -⟩ := hturns.exists_attempted ht
    have hlater := hqp.precedes.trans (hturns.precedes_state ht)
    exact (hattempt.of_resolved (hlater.outcome?_ne_none hresolved)).1

/-! ### A turn in full -/

/-- A turn of a sweep that was begun in `m` and comes back in `n`.  It leads to `q` with an attempt,
and to `z` with what is done after it; between `q` and `z` only the continuation runs, up to the
state `u`. -/
structure SweepTurn.Taken (t : SweepTurn) (base : Stack) (limit : Duration) (rest : List Entry)
    (expired : List CommandHandle) (m q : World × Stack) (u : World) (z n : World × Stack) :
    Prop where
  /-- The operation was there before the sweep. -/
  begun : t.entry.owner < m.1.nextId
  reached : Reaches m (t.state, t.frame rest expired limit :: base)
  attempt : Moves (t.state, t.frame rest expired limit :: base) q
  ran_iff : t.ran = true ↔ t.state.outcome? t.entry.owner = none
  resolves : t.ran = true → q.1.outcome? t.entry.owner = some (.error (.timeout t.entry.handle))
  passes : t.ran = false → q.1 = t.state ∧ u = t.state
  others : ∀ id, id ≠ t.entry.owner → q.1.outcome? id = t.state.outcome? id
  inside : Inside base q (u, .conclude (t.after rest expired limit) t.ran :: base)
  concludes : Moves (u, .conclude (t.after rest expired limit) t.ran :: base) z
  /-- Neither of the two sections that belong to the sweep changes the correlator. -/
  correlator : q.1.correlator = t.state.correlator ∧ z.1.correlator = u.correlator
  returns : Reaches z n
  once : n.1.timesRun t.entry.owner = 1
  neverAgain : NeverAgain q t.entry.owner

namespace Attempted

variable {w v : World} {id : OperationId} {outcome : Outcome} {cause : Cause} {after : Aftermath}
  {base : Stack} {q : World × Stack} {ran : Bool}

/-- An attempt resolves its own operation and no other. -/
theorem others (h : Attempted w id outcome cause after base q v ran) {other : OperationId}
    (hne : other ≠ id) : q.1.outcome? other = w.outcome? other := by
  rcases h.effect with ⟨-, hq, -⟩ | ⟨-, hset, o, ho, -⟩
  · rw [hq]
  · rw [hset.outcome?, World.outcome?_recordOutcome ho, if_neg hne.symm]

theorem ran_iff (h : Attempted w id outcome cause after base q v ran)
    (hbegun : id < w.operations.length) : ran = true ↔ w.outcome? id = none := by
  cases hopen : w.outcome? id with
  | none => simp [(h.of_open hbegun hopen).1]
  | some outcome' => simp [(h.of_resolved (hopen ▸ Option.some_ne_none outcome')).1]

/-- After an attempt the operation is resolved, by whomever. -/
theorem resolved (h : Attempted w id outcome cause after base q v ran)
    (hbegun : id < w.operations.length) : q.1.outcome? id ≠ none := by
  by_cases hopen : w.outcome? id = none
  · rw [(h.of_open hbegun hopen).2.2]
    exact Option.some_ne_none outcome
  · rw [(h.of_resolved hopen).2.1]
    exact hopen

end Attempted

/-- **What is done in each turn.** -/
theorem SweepTurns.exists_taken {base : Stack} {limit : Duration} {m n : World × Stack} {v : World}
    {entries : List Entry} {turns : List SweepTurn}
    (h : SweepTurns base limit m.1 entries [] turns v)
    (hfirst : Reaches m (sweepOn m.1 entries [] limit base))
    (hlast : n = sweepOn v [] ([] ++ SweepTurn.reported turns) limit base)
    (hbegun : ∀ e ∈ entries, e.owner < m.1.operations.length)
    (hruns : ∀ id, n.1.timesRun id = if (n.1.outcome? id).isSome then 1 else 0) {t : SweepTurn}
    (ht : t ∈ turns) :
    ∃ rest expired q u z, t.Taken base limit rest expired m q u z n := by
  obtain ⟨rest, expired, q, u, hbefore, hattempt, hafter⟩ := h.exists_attempted ht
  have hentry : t.entry ∈ entries := h.map_entry ▸ List.mem_map_of_mem ht
  have hthere : t.entry.owner < t.state.operations.length :=
    Nat.lt_of_lt_of_le (hbegun t.entry hentry) (h.precedes_state ht).length
  have hresolved := hattempt.resolved hthere
  have hqn : Reaches q n := hlast ▸ .trans hattempt.goesOn.reaches hafter.reaches
  refine ⟨rest, expired, q, u, conclude u t.ran base (t.after rest expired limit),
    hbegun t.entry hentry, hfirst.trans hbefore.reaches, hattempt.moves, hattempt.ran_iff hthere,
    fun hran => ?_, fun hran => ?_, fun id hne => hattempt.others hne, hattempt.inside, rfl,
    ⟨hattempt.moves.section.of_resolve.1, (World.quiet_sweepOn ..).correlator⟩,
    hlast ▸ hafter.reaches, ?_, neverAgain_of_resolved hresolved⟩
  · exact (hattempt.of_open hthere ((hattempt.ran_iff hthere).mp hran)).2.2
  · refine (hattempt.of_resolved (fun hopen => ?_)).2
    rw [(hattempt.ran_iff hthere).mpr hopen] at hran
    cases hran
  · rw [hruns, if_pos]
    exact Option.isSome_iff_ne_none.mpr (hqn.precedes.outcome?_ne_none hresolved)

/-! ### Sweeps among passive continuations -/

/-- The handles of the entries whose operations are unresolved. -/
def World.openHandles (w : World) (entries : List Entry) : List CommandHandle :=
  (entries.filter (fun e => (w.outcome? e.owner).isNone)).map Entry.handle

namespace World

variable {w v : World} {e : Entry} {rest : List Entry}

theorem openHandles_cons_of_resolved (h : w.outcome? e.owner ≠ none) :
    w.openHandles (e :: rest) = w.openHandles rest := by
  have hout : (w.outcome? e.owner).isNone = false := by
    rwa [Option.isNone_eq_false_iff, Option.isSome_iff_ne_none]
  rw [openHandles, List.filter_cons_of_neg (by simp [hout]), openHandles]

/-- The handle of an unresolved operation comes before those that are open afterwards. -/
theorem openHandles_cons_of_open (h : w.outcome? e.owner = none)
    (hrest : ∀ d ∈ rest, v.outcome? d.owner = w.outcome? d.owner) :
    w.openHandles (e :: rest) = e.handle :: v.openHandles rest := by
  have hfilter : rest.filter (fun d => (w.outcome? d.owner).isNone) =
      rest.filter (fun d => (v.outcome? d.owner).isNone) :=
    List.filter_congr (fun d hd => by rw [hrest d hd])
  rw [openHandles, List.filter_cons_of_pos (by simp [h]), List.map_cons, hfilter, openHandles]

theorem openHandles_perm (w : World) {entries entries' : List Entry}
    (h : entries.Perm entries') : (w.openHandles entries).Perm (w.openHandles entries') :=
  (h.filter _).map Entry.handle

end World

/-- **A sweep among passive continuations** resolves the operations of its entries that are
unresolved when it begins, and leaves the correlator as it is. -/
theorem exists_passive_sweep (base : Stack) (limit : Duration) (entries : List Entry) (w : World)
    (expired : List CommandHandle) {c : Correlator} (hc : w.correlator = .present c)
    (hbegun : ∀ e ∈ entries, e.owner < w.operations.length)
    (hnodup : (entries.map Entry.owner).Nodup)
    (hpassive : ∀ e ∈ entries, w.outcome? e.owner = none →
      ∀ steps, w.Waits e.owner steps → Step.arePassive steps = true) :
    ∃ v, v.correlator = w.correlator ∧
      Inside base (sweepOn w entries expired limit base)
        (sweepOn v [] (expired ++ w.openHandles entries) limit base) := by
  induction entries generalizing w expired with
  | nil =>
    refine ⟨w, rfl, ?_⟩
    rw [World.openHandles, List.filter_nil, List.map_nil, List.append_nil]
  | cons e rest ih =>
    obtain ⟨hfirst, hnodup⟩ := List.nodup_cons.mp hnodup
    have hmem := fun (d : Entry) (hd : d ∈ rest) => List.mem_cons_of_mem e hd
    cases hopen : w.outcome? e.owner with
    | some outcome =>
      obtain ⟨v, hv, hrest⟩ := ih w expired hc (fun d hd => hbegun d (hmem d hd)) hnodup
        (fun d hd => hpassive d (hmem d hd))
      obtain ⟨q, u, ran, hattempt⟩ := exists_attempt w e.owner (.error (.timeout e.handle))
        (.swept e.handle) (.sweep e.handle rest expired limit) base
      have hturn := hattempt.concluded
      obtain ⟨rfl, -, rfl⟩ := hattempt.of_resolved (hopen ▸ Option.some_ne_none outcome)
      rw [World.openHandles_cons_of_resolved (hopen ▸ Option.some_ne_none outcome)]
      exact ⟨v, hv, Relation.ReflTransGen.trans hturn hrest⟩
    | none =>
      obtain ⟨o, hid⟩ : ∃ o, w.operations[e.owner]? = some o :=
        ⟨_, List.getElem?_eq_getElem (hbegun e List.mem_cons_self)⟩
      have ho : o.outcome = none := by
        rw [World.outcome?, hid] at hopen
        exact hopen
      obtain ⟨u, hinside, hstill⟩ := exists_passive_attempt hc hid ho
        (hpassive e List.mem_cons_self hopen) (.error (.timeout e.handle)) (.swept e.handle)
        (.sweep e.handle rest expired limit) base
      have hlength : u.operations.length = w.operations.length :=
        hstill.length.trans World.length_recordOutcome
      have houtcome : ∀ d ∈ rest, u.outcome? d.owner = w.outcome? d.owner := by
        intro d hd
        rw [hstill.outcome, World.outcome?_recordOutcome hid, if_neg]
        exact fun heq => hfirst (heq ▸ List.mem_map_of_mem hd)
      obtain ⟨v, hv, hrest⟩ := ih u (expired ++ [e.handle]) (hstill.correlator.trans hc)
        (fun d hd => hlength ▸ hbegun d (hmem d hd)) hnodup (fun d hd hunresolved steps hwaits => by
          refine hpassive d (hmem d hd) ((houtcome d hd).symm.trans hunresolved) steps ?_
          exact World.waits_of_recordOutcome (hstill.waits _ _ hwaits))
      rw [World.openHandles_cons_of_open hopen houtcome, List.append_cons]
      have hturn : Inside base _ (sweepOn u rest (expired ++ [e.handle]) limit base) :=
        hinside.tail ⟨.work (by simp), rfl⟩
      exact ⟨v, hv.trans hstill.correlator, Relation.ReflTransGen.trans hturn hrest⟩

/-! ### Sweeps in a session -/

namespace Session

variable {c d : Correlator} {steps : List Step} {m : World × Stack} {self : Option CommandHandle}
  {age : Option Duration} {order : Arrangement} {rest : List Step} {answers : List Answer}
  {below : Stack} {limit : Duration}

/-- The handles that a sweep returns. -/
abbrev listing (turns : List SweepTurn) : List CommandHandle :=
  (SweepTurn.reported turns).mergeSort (fun a b => a.raw ≤ b.raw)

/-- The sweep returns the handles of the turns in which its attempt counted. -/
theorem mem_listing {turns : List SweepTurn} {h : CommandHandle} :
    h ∈ listing turns ↔ ∃ t ∈ turns, t.ran = true ∧ t.entry.handle = h := by
  rw [(List.mergeSort_perm _ _).mem_iff, SweepTurn.mem_reported]

theorem handle_mem_listing {turns : List SweepTurn}
    (hnodup : (turns.map (fun t => t.entry.handle)).Nodup) {t : SweepTurn} (ht : t ∈ turns) :
    t.entry.handle ∈ listing turns ↔ t.ran = true := by
  rw [mem_listing]
  constructor
  · rintro ⟨other, hother, hran, hhandle⟩
    rwa [← List.inj_on_of_nodup_map hnodup hother ht hhandle]
  · intro hran
    exact ⟨t, ht, hran, rfl⟩

theorem listing_ascending {turns : List SweepTurn}
    (hnodup : (turns.map (fun t => t.entry.handle)).Nodup) :
    (listing turns).Pairwise (fun a b => a.raw < b.raw) :=
  CommandHandle.mergeSort_ascending (hnodup.sublist (List.filter_sublist.map _))

/-- The first section of a sweep that has an age to go by. -/
theorem begin_sweep (hc : c.IsFresh) (hseeds : ∀ n ∈ Step.seedsIn steps, 0 < n)
    (hfits : ∀ m, Reaches (start c steps) m → m.1.Fits) (hm : Reaches (start c steps) m)
    (hd : m.1.correlator = .present d) (hage : age.or d.callTimeout = some limit)
    (self : Option CommandHandle) (order : Arrangement) (base : Stack) :
    Step.begin m.1 self base (.sweep age order) =
      sweepOn m.1 (order.apply (m.1.due limit.millis)) [] limit base := by
  simp only [Step.begin, withCorrelator, hd, hage, stale_eq_due hc hseeds hfits hm hd]

/-- A sweep among passive continuations returns the handles of all operations that were unresolved
when it began. -/
theorem returns_of_passive_sweep {owed : List OperationId} (hsound : m.1.Sound owed)
    (htop : m.2 = .script self (.sweep age order :: rest) answers :: below)
    (hbegin : Step.begin m.1 self (.script self rest answers :: below) (.sweep age order) =
      sweepOn m.1 (order.apply (m.1.due limit.millis)) [] limit
        (.script self rest answers :: below))
    (hd : m.1.correlator = .present d)
    (hpassive : ∀ e ∈ m.1.due limit.millis, m.1.outcome? e.owner = none →
      ∀ during, m.1.Waits e.owner during → Step.arePassive during = true) :
    ∃ n, n.1.correlator = m.1.correlator ∧
      Returns m n (.swept (some ((m.1.openHandles (m.1.due limit.millis)).mergeSort
        (fun a b => a.raw ≤ b.raw)))) := by
  let base : Stack := .script self rest answers :: below
  let due := m.1.due limit.millis
  have hperm : (order.apply due).Perm due := order.apply_perm due
  have howners : ((order.apply due).map Entry.owner).Nodup :=
    order.nodup_map_apply Entry.owner (m.1.due_sublist _) hsound.nodup_owners
  obtain ⟨v, hv, hinside⟩ := exists_passive_sweep base limit (order.apply due) m.1 [] hd
    (fun _ => hsound.begun_of_due) howners (fun e he => hpassive e (hperm.subset he))
  rw [← hbegin] at hinside
  refine ⟨sweepOn v [] ([] ++ m.1.openHandles (order.apply due)) limit base, ?_, ?_⟩
  · exact (World.quiet_sweepOn ..).correlator.trans hv
  · rw [← CommandHandle.mergeSort_eq_of_perm (m.1.openHandles_perm hperm)]
    exact returns_of_inside htop hinside

/-- **A sweep returns what it has resolved itself.**  In a state of a session with a fresh
correlator whose entries always fit, let a sweep begin that has an age to go by.

* An entry has a turn if and only if it is in the table and at least of this age.  The time that it
  bears is the one at which it was registered.  The turns come in the given order.
* The sweep returns the handles of those whose turn found their operation unresolved, and strictly
  ascending.  In these turns it has resolved the operation, with the timeout of the handle.
* An operation that is resolved when its turn comes is passed over.
* The operations concerned are older than the sweep, and no expiry and no sweep that comes later
  reports them.
* What belongs to the sweep itself leaves the correlator alone.  If all continuations that it runs
  are passive, it returns the handles of all operations that were unresolved when it began, in
  whatever order it went through them. -/
theorem sweep_exact (hc : c.IsFresh) (hseeds : ∀ n ∈ Step.seedsIn steps, 0 < n)
    (hfits : ∀ m, Reaches (start c steps) m → m.1.Fits) (hm : Reaches (start c steps) m)
    (htop : m.2 = .script self (.sweep age order :: rest) answers :: below)
    (hd : m.1.correlator = .present d) (hage : age.or d.callTimeout = some limit) :
    ∃ n turns, Returns m n (.swept (some (listing turns))) ∧
      (∀ e, (∃ t ∈ turns, t.entry = e) ↔
        e ∈ d.table.entries ∧ e.createdAt + limit.millis ≤ m.1.clock) ∧
      (∀ e ∈ d.table.entries, ∀ time, RegisteredAt (start c steps) m e time ↔ time = e.createdAt) ∧
      turns.map SweepTurn.entry = order.apply (m.1.due limit.millis) ∧
      (listing turns).Pairwise (fun a b => a.raw < b.raw) ∧
      (∀ h ∈ listing turns, ∃ t ∈ turns, t.entry.handle = h) ∧
      (∀ t ∈ turns, t.entry.handle ∈ listing turns ↔ t.state.outcome? t.entry.owner = none) ∧
      (∀ t ∈ turns, ∃ left expired q u z,
        t.Taken (.script self rest answers :: below) limit left expired m q u z n) ∧
      (∀ q, Moves m q → q.1.correlator = m.1.correlator) ∧
      ((∀ e ∈ m.1.due limit.millis, m.1.outcome? e.owner = none →
          ∀ during, m.1.Waits e.owner during → Step.arePassive during = true) →
        listing turns = (m.1.openHandles (m.1.due limit.millis)).mergeSort
            (fun a b => a.raw ≤ b.raw) ∧
          n.1.correlator = m.1.correlator) := by
  have hsound := hm.sound_of_fits hc hseeds hfits
  let base : Stack := .script self rest answers :: below
  let due := m.1.due limit.millis
  have hbegin := begin_sweep hc hseeds hfits hm hd hage self order base
  have hfirst := Moves.begin htop
  rw [hbegin] at hfirst
  obtain ⟨turns, v, hturns⟩ := exists_sweepTurns base limit (order.apply due) m.1 []
  have hreturns : Returns m (sweepOn v [] ([] ++ SweepTurn.reported turns) limit base)
      (.swept (some (listing turns))) := returns_of_inside htop (hbegin ▸ hturns.inside)
  have hreached : Reaches (start c steps)
      (sweepOn v [] ([] ++ SweepTurn.reported turns) limit base) := hm.trans hreturns.reaches
  have htaken := fun (t : SweepTurn) (ht : t ∈ turns) =>
    hturns.exists_taken (.single hfirst) rfl (fun _ => hsound.begun_of_due)
      (hreached.sound_of_fits hc hseeds hfits).runs ht
  have hnodup : (turns.map (fun t => t.entry.handle)).Nodup := by
    have hall := order.nodup_map_apply Entry.handle (m.1.due_sublist limit.millis)
      hsound.nodup_handles
    rwa [← hturns.map_entry, List.map_map] at hall
  rw [← World.entries_of_present hd]
  refine ⟨_, turns, hreturns, fun e => ?_,
    fun e he time => registeredAt_iff hc hseeds hfits hm he, hturns.map_entry,
    listing_ascending hnodup, fun h hmem => ?_, fun t ht => ?_, htaken, fun q hmoves => ?_,
    fun hpassive => ?_⟩
  · rw [← List.mem_map, hturns.map_entry, (order.apply_perm due).mem_iff, World.mem_due]
  · obtain ⟨t, ht, -, hhandle⟩ := mem_listing.mp hmem
    exact ⟨t, ht, hhandle⟩
  · obtain ⟨_, _, _, _, _, htaken⟩ := htaken t ht
    rw [handle_mem_listing hnodup ht]
    exact htaken.ran_iff
  · rw [hmoves.unique hfirst]
    exact (World.quiet_sweepOn ..).correlator
  · obtain ⟨n, hsame, hlisted⟩ := returns_of_passive_sweep hsound htop hbegin hd hpassive
    obtain ⟨rfl, hanswer⟩ := hreturns.unique hlisted
    exact ⟨Option.some.inj (Answer.swept.inj hanswer), hsame⟩

/-- Four commands are registered at the times 0, 10, 10 and 20.  At 30 the third one expires, and
then a sweep over all that are 20 old takes the second one first. -/
def leftovers : List Step :=
  [.submit "open_wallet" (fun _ => 0) [] [], .sleep ⟨10⟩,
   .submit "open_pool" (fun _ => 0) [] [], .submit "create_key" (fun _ => 0) [] [], .sleep ⟨10⟩,
   .submit "list_pools" (fun _ => 0) [] [], .sleep ⟨10⟩, .expire (.handle ⟨3⟩),
   .sweep (some ⟨20⟩) [1]]

/-- The sweep reports the first command and the second one, which is just old enough, in this
order.  The third is resolved, and the fourth is too young. -/
theorem sweep_exact_leftovers : ∃ m n, Reaches (start {} leftovers) m ∧ m.1.clock = 30 ∧
    m.1.entries.map (fun e => (e.handle.raw, e.createdAt)) = [(1, 0), (2, 10), (3, 10), (4, 20)] ∧
    Returns m n (.swept (some [⟨1⟩, ⟨2⟩])) ∧ n.1.correlator = m.1.correlator := by
  have hfresh : Correlator.IsFresh {} := ⟨rfl, by decide⟩
  have hseeds : ∀ n ∈ Step.seedsIn leftovers, 0 < n := Step.seeds_pos_of_nil rfl
  have hsize : Step.sizes leftovers < Allocator.fullTurn := by decide
  -- fifteen sections later, the sweep is to begin
  obtain ⟨m, hm, hworld, hrunning⟩ := Reaches.follow (start {} leftovers) 15
  obtain ⟨answers, htop⟩ : ∃ answers, m.2 = [.script none [.sweep (some ⟨20⟩) [1]] answers] := by
    rw [← (List.cons.inj hrunning).1]
    exact ⟨_, rfl⟩
  obtain ⟨d, hd⟩ : ∃ d, m.1.correlator = .present d := by
    rw [← hworld]
    exact ⟨_, rfl⟩
  have hclock : m.1.clock = 30 := by
    rw [← hworld]
    rfl
  have hopen : m.1.openHandles (m.1.due 20) = [⟨1⟩, ⟨2⟩] := by
    rw [← hworld]
    decide
  have htable : m.1.entries.map (fun e => (e.handle.raw, e.createdAt)) =
      [(1, 0), (2, 10), (3, 10), (4, 20)] := by
    rw [← hworld]
    decide
  have hlisteners : m.1.operations.map Operation.listener =
      [.continuation 0 [], .continuation 1 [], .continuation 2 [], .continuation 3 []] := by
    rw [← hworld]
    rfl
  have hpassive : ∀ id during, m.1.Waits id during → Step.arePassive during = true := by
    rintro id during ⟨o, number, ho, hlistener⟩
    have hmem := List.mem_map_of_mem (f := Operation.listener) (List.mem_of_getElem? ho)
    simp only [hlisteners, hlistener, List.mem_cons, Listener.continuation.injEq] at hmem
    rcases hmem with ⟨-, rfl⟩ | ⟨-, rfl⟩ | ⟨-, rfl⟩ | ⟨-, rfl⟩ | hnone
    · rfl
    · rfl
    · rfl
    · rfl
    · cases hnone
  obtain ⟨n, turns, hreturns, -, -, -, -, -, -, -, -, hlast⟩ := sweep_exact hfresh hseeds
    (fun m hm => (hasRoom hfresh hseeds hsize hm).fits) hm htop hd rfl
  obtain ⟨hlisting, hsame⟩ := hlast (fun e _ _ => hpassive e.owner)
  have hsorted : listing turns = [⟨1⟩, ⟨2⟩] := by
    rw [hlisting, hopen]
    exact List.mergeSort_of_pairwise (by decide)
  exact ⟨m, n, hm, hclock, htable, hsorted ▸ hreturns, hsame⟩

end Session

end CommandBridge

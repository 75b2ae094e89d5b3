import CommandBridge.Proofs.Session.Closed
import CommandBridge.Proofs.Session.Passive

/-!
# Shutdown is terminal

A shutdown may stand anywhere: inside a native function, inside a continuation, inside a sweep or
even inside another shutdown.  From its first section on, nothing is pending any more.

* `World.ShutDownWith.unique` — what a shutdown does in no order does not depend on the order;
* `BridgeError.IsRefusal` — the error for an operation that comes too late;
* `TurnsAway` — what a closed correlator does with the step that comes next;
* `turnsAway_of_isClosed` — it registers nothing, finds nothing and drains nothing;
* `Returns.exists_turns` — a shutdown returns the number of its entries, after their turns;
* `Returns.exists_shutDownWith` — among passive continuations, what it does has no order;
* `Session.shutdown_terminal` — all of this from the moment that the table was drained.
-/

namespace CommandBridge

/-- What a shutdown does to the operations of its entries is the same for the same entries. -/
theorem World.ShutDownWith.unique {w v v' : World} {entries entries' : List Entry}
    (h : w.ShutDownWith entries v) (h' : w.ShutDownWith entries' v')
    (hmem : ∀ e, e ∈ entries' ↔ e ∈ entries) :
    v'.correlator = v.correlator ∧
      ∀ id, v'.outcome? id = v.outcome? id ∧ v'.timesRun id = v.timesRun id := by
  refine ⟨h'.correlator.trans h.correlator.symm, fun id => ?_⟩
  by_cases hdrained : ∃ e ∈ entries, e.owner = id ∧ w.outcome? id = none
  · obtain ⟨e, he, rfl, hopen⟩ := hdrained
    obtain ⟨houtcome, hran⟩ := h.resolved e he hopen
    obtain ⟨houtcome', hran'⟩ := h'.resolved e ((hmem e).mpr he) hopen
    exact ⟨houtcome'.trans houtcome.symm, hran'.trans hran.symm⟩
  · have hother : w.outcome? id ≠ none ∨ ∀ e ∈ entries, e.owner ≠ id := by
      by_cases hopen : w.outcome? id = none
      · exact .inr (fun e he howner => hdrained ⟨e, he, howner, hopen⟩)
      · exact .inl hopen
    obtain ⟨houtcome, hran⟩ := h.others id hother
    obtain ⟨houtcome', hran'⟩ :=
      h'.others id (hother.imp_right (fun hnone e he => hnone e ((hmem e).mp he)))
    exact ⟨houtcome'.trans houtcome.symm, hran'.trans hran.symm⟩

/-! ### After the shutdown -/

/-- The error says that an operation cannot be issued, because of the shutdown. -/
structure BridgeError.IsRefusal (e : BridgeError) (operation : String) : Prop where
  kind : e.kind = .shutDown
  /-- No native status stands behind it. -/
  code : e.code = -1
  detail : e.detail = some s!"cannot issue {operation}: the correlator is shut down"

theorem BridgeError.isRefusal_refused (operation : String) :
    (refused operation).IsRefusal operation :=
  ⟨rfl, rfl, rfl⟩

/-- A closed correlator turns away the step that comes next. -/
structure TurnsAway (m : World × Stack) (c : Correlator) (self : Option CommandHandle) (s : Step) :
    Prop where
  /-- An operation is refused before its native function is called; its continuation runs once, with
  the error that is returned. -/
  registration : ∀ r, s.registration? m.1 = some r →
    ∃ n a e, Returns m n a ∧ a.Refuses m.1.nextId e ∧ e.IsRefusal r.operation ∧
      n.1.outcome? m.1.nextId = some (.error e) ∧
      n.1.timesRun m.1.nextId = 1 ∧ n.1.handlesGiven m.1.nextId = []
  /-- A completion is dangling. -/
  delivery : ∀ h status payload, s.delivery? m.1 self = some (h, status, payload) →
    ∃ n, Returns m n ((s.receipt m.1).answer n.1 (.error (.dangling h status)))
  /-- Nothing can be given up. -/
  expiry : ∀ target h, s = .expire target → target.resolve self = some h →
    ∃ n, Returns m n (.flag false)
  /-- A sweep finds nobody. -/
  sweep : ∀ age order, s = .sweep age order →
    ∃ n, Returns m n (.swept ((age.or c.callTimeout).map (fun _ => [])))
  /-- Another shutdown has nothing to drain. -/
  shutdown : ∀ order, s = .shutdown order → ∃ n, Returns m n (.count 0)

section Session

variable {c d : Correlator} {steps : List Step} {m n p : World × Stack}
  {self : Option CommandHandle} {s : Step} {order : Arrangement} {rest : List Step}
  {answers : List Answer} {below : Stack} {a : Answer}

/-- **A closed correlator turns every step away.** -/
theorem turnsAway_of_isClosed (hc : c.IsFresh) (hseeds : ∀ n ∈ Step.seedsIn steps, 0 < n)
    (hfits : ∀ m, Reaches (Session.start c steps) m → m.1.Fits)
    (hm : Reaches (Session.start c steps) m) (hclosed : m.1.correlator.isClosed = true)
    (hd : m.1.correlator = .present d) (htop : m.2 = .script self (s :: rest) answers :: below) :
    TurnsAway m d self s := by
  have hsound := hm.sound_of_fits hc hseeds hfits
  have hempty : d.table.entries = [] := by
    rw [← World.entries_of_present hd]
    exact hsound.entries_of_isClosed hclosed
  have hshut : d.table.isShutDown = true := by
    rw [hd] at hclosed
    exact hclosed
  have hnone := fun h => PendingTable.find?_of_empty hempty h
  refine ⟨fun r hr => ?_, fun h status payload hdelivery => ?_, ?_, ?_, ?_⟩
  · obtain ⟨n, a, hreturns, hrefuses, houtcome, hgiven⟩ :=
      returns_of_refused htop hr hd hshut hsound
    refine ⟨n, a, _, hreturns, hrefuses, BridgeError.isRefusal_refused _, houtcome, ?_, hgiven⟩
    have hn : Reaches (Session.start c steps) n := hm.trans hreturns.reaches
    rw [(hn.sound_of_fits hc hseeds hfits).runs, houtcome]
    rfl
  · obtain ⟨n, -, -, -, hreturns⟩ := returns_of_not_pending htop hdelivery hd (hnone h)
    exact ⟨n, hreturns⟩
  · rintro target h rfl htarget
    obtain ⟨n, -, -, hreturns⟩ := returns_of_expire htop htarget hd (hnone h)
    exact ⟨n, hreturns⟩
  · rintro age order rfl
    obtain ⟨n, -, -, hreturns⟩ := returns_of_sweep htop hd hempty
    exact ⟨n, hreturns⟩
  · rintro order rfl
    obtain ⟨n, -, -, hreturns⟩ := returns_of_shutdown htop hd hshut hempty
    exact ⟨n, hreturns⟩

/-! ### The shutdown itself -/

/-- The entries that a shutdown goes through belong to operations that have begun. -/
theorem World.Sound.begun_of_drained {w : World} {owed : List OperationId} (hsound : w.Sound owed)
    (hd : w.correlator = .present d) {e : Entry} (he : e ∈ order.apply d.table.entries) :
    e.owner < (w.setTable d.table.drain.2).operations.length := by
  have hmem : e ∈ w.entries := by
    rw [World.entries_of_present hd]
    exact (order.apply_perm _).mem_iff.mp he
  rw [World.operations_setTable]
  exact hsound.begun _ (List.mem_append_left _ (List.mem_map_of_mem hmem))

/-- **A shutdown returns the number of its entries**, once each of them had its turn. -/
theorem Returns.exists_turns {owed : List OperationId} (hsound : p.1.Sound owed)
    (hd : p.1.correlator = .present d)
    (htop : p.2 = .script self (.shutdown order :: rest) answers :: below) :
    ∃ n v, Returns p n (.count d.table.entries.length) ∧
      Turns (.script self rest answers :: below) d.table.entries.length
        (p.1.setTable d.table.drain.2) (order.apply d.table.entries) v ∧
      n.1 = v.note (.shutDown d.table.entries.length) := by
  obtain ⟨v, hturns, hinside⟩ := CommandBridge.exists_turns (.script self rest answers :: below)
    d.table.entries.length (order.apply d.table.entries) (p.1.setTable d.table.drain.2)
    (fun e he => hsound.begun_of_drained hd he)
  rw [← begin_shutdown hd] at hinside
  exact ⟨_, v, returns_of_inside htop hinside, hturns, rfl⟩

/-- **Among passive continuations, what a shutdown does has no order.** -/
theorem Returns.exists_shutDownWith {owed : List OperationId} (hsound : p.1.Sound owed)
    (hd : p.1.correlator = .present d)
    (hpassive : ∀ e ∈ d.table.entries, p.1.outcome? e.owner = none →
      ∀ steps, p.1.Waits e.owner steps → Step.arePassive steps = true)
    (htop : p.2 = .script self (.shutdown order :: rest) answers :: below)
    (hreturns : Returns p n a) :
    a = .count d.table.entries.length ∧
      n.2 = .script self rest (answers ++ [.count d.table.entries.length]) :: below ∧
      ∃ v, n.1 = v.note (.shutDown d.table.entries.length) ∧
        (p.1.setTable d.table.drain.2).ShutDownWith (order.apply d.table.entries) v := by
  have hperm := order.apply_perm d.table.entries
  have hsame : (p.1.setTable d.table.drain.2).operations = p.1.operations :=
    World.operations_setTable _ _
  have hnodup : ((order.apply d.table.entries).map Entry.owner).Nodup := by
    rw [← World.entries_of_present hd]
    exact order.nodup_map_apply Entry.owner (List.Sublist.refl _) hsound.nodup_owners
  obtain ⟨v, hinside, hdone⟩ := CommandBridge.exists_shutDownWith
    (.script self rest answers :: below) d.table.entries.length (order.apply d.table.entries)
    (p.1.setTable d.table.drain.2) (World.correlator_setTable hd _)
    (fun e he => hsound.begun_of_drained hd he) hnodup (fun e he hopen steps hwaits => by
      rw [World.outcome?_congr hsame] at hopen
      rw [World.Waits, hsame] at hwaits
      exact hpassive e (hperm.mem_iff.mp he) hopen steps hwaits)
  rw [← begin_shutdown hd] at hinside
  obtain ⟨rfl, rfl⟩ := hreturns.unique (returns_of_inside htop hinside)
  exact ⟨rfl, rfl, v, rfl, hdone⟩

end Session

namespace Session

variable {c d : Correlator} {steps : List Step} {p q : World × Stack}
  {self : Option CommandHandle} {order : Arrangement} {rest : List Step} {answers : List Answer}
  {below : Stack}

/-- **Shutdown is terminal.**  In a session with a fresh correlator whose entries always fit, let a
thread begin a shutdown in `p`, wherever this stands, and let `q` be the state after its first
section.

* In `q` the correlator is closed and its table drained, and nothing else about it has changed.
* In every later state there are no entries, the correlator is closed, and no continuation has
  started twice.  Only seeding and dropping can still change the correlator, so its counter stays,
  and every other step that is begun is turned away.
* The shutdown returns the number of entries that it has drained.  It goes through them in turns,
  and resolves just those operations whose turn finds them unresolved.  In the end all of them are
  resolved, and nobody else was resolved by a shutdown in between.
* If the continuations that it may run do not use the correlator, then any other order of the
  entries leads to the same answer, the same correlator and the same outcomes. -/
theorem shutdown_terminal (hc : c.IsFresh) (hseeds : ∀ n ∈ Step.seedsIn steps, 0 < n)
    (hfits : ∀ m, Reaches (start c steps) m → m.1.Fits) (hp : Reaches (start c steps) p)
    (hd : p.1.correlator = .present d)
    (htop : p.2 = .script self (.shutdown order :: rest) answers :: below) (hmoves : Moves p q) :
    q.1.correlator = .present { d with table := d.table.drain.2 } ∧
    (∀ m, Reaches q m →
      (m.1.entries = [] ∧ m.1.correlator.isClosed = true ∧ ∀ id, m.1.timesRun id ≤ 1) ∧
      (∀ n, Moves m n → (∀ next, m.2.next? ≠ some (.seed next)) →
        (∀ order, m.2.next? ≠ some (.drop order)) → n.1.correlator = m.1.correlator) ∧
      (∀ d self s rest answers below, m.1.correlator = .present d →
        m.2 = .script self (s :: rest) answers :: below → TurnsAway m d self s)) ∧
    (∃ n v, Returns p n (.count d.table.entries.length) ∧
      Turns (.script self rest answers :: below) d.table.entries.length
        (p.1.setTable d.table.drain.2) (order.apply d.table.entries) v ∧
      n.1 = v.note (.shutDown d.table.entries.length) ∧
      (∀ e ∈ d.table.entries, n.1.outcome? e.owner ≠ none)) ∧
    (∀ r id outcome h after under, Inside (.script self rest answers :: below) q r →
      Stack.Over (.script self rest answers :: below) r.2 →
      r.2 = .resolve id outcome (.shutDown h) after :: under →
        ∃ e ∈ d.table.entries, e.owner = id ∧ e.handle = h) ∧
    ((∀ e ∈ d.table.entries, p.1.outcome? e.owner = none →
        ∀ steps, p.1.Waits e.owner steps → Step.arePassive steps = true) →
      ∀ order' n n' a a', Returns p n a →
        Returns (p.1, .script self (.shutdown order' :: rest) answers :: below) n' a' →
        a' = a ∧ n'.2 = n.2 ∧ n'.1.correlator = n.1.correlator ∧
          ∀ id, n'.1.outcome? id = n.1.outcome? id ∧ n'.1.timesRun id = n.1.timesRun id) := by
  have hsound := hp.sound_of_fits hc hseeds hfits
  have hcorrelator := correlator_of_shutdown hd htop hmoves
  have hclosed : q.1.correlator.isClosed = true := by
    rw [hcorrelator]
    rfl
  refine ⟨hcorrelator, fun m hm => ?_, ?_, ?_, ?_⟩
  · have hreaches : Reaches (start c steps) m := (hp.tail hmoves).trans hm
    have hstill := hm.precedes.correlator.isClosed hclosed
    have hlater := hreaches.sound_of_fits hc hseeds hfits
    have hempty := hlater.entries_of_isClosed hstill
    refine ⟨⟨hempty, hstill, fun id => ?_⟩, fun n hmoves hseed hdrop => ?_, ?_⟩
    · rw [hlater.runs]
      split <;> decide
    · exact hmoves.section.correlator_of_isClosed hstill hempty hseed hdrop
    · intro d self s rest answers below hd htop
      exact turnsAway_of_isClosed hc hseeds hfits hreaches hstill hd htop
  · obtain ⟨n, v, hreturns, hturns, hn⟩ := Returns.exists_turns hsound hd htop
    refine ⟨n, v, hreturns, hturns, hn, fun e he => ?_⟩
    have hmem := (order.apply_perm d.table.entries).mem_iff.mpr he
    rw [hn]
    exact hturns.resolved hmem (hsound.begun_of_drained hd hmem)
  · intro r id outcome h after under hr hover hstack
    exact shutDown_of_drained hc hseeds hfits hp hd htop hmoves hr hover hstack
  · intro hpassive order' n n' a a' hreturns hreturns'
    obtain ⟨rfl, hn, v, hv, hdone⟩ :=
      Returns.exists_shutDownWith hsound hd hpassive htop hreturns
    obtain ⟨rfl, hn', v', hv', hdone'⟩ :=
      Returns.exists_shutDownWith
        (p := (p.1, .script self (.shutdown order' :: rest) answers :: below))
        hsound hd hpassive rfl hreturns'
    have hmem : ∀ e, e ∈ order'.apply d.table.entries ↔ e ∈ order.apply d.table.entries :=
      fun e => (order'.apply_perm _).mem_iff.trans (order.apply_perm _).mem_iff.symm
    obtain ⟨hcorrelator, hoperations⟩ := hdone.unique hdone' hmem
    rw [hv, hv']
    exact ⟨rfl, hn'.trans hn.symm, hcorrelator, hoperations⟩

/-- The continuation of a command that is given up shuts the correlator down, while its own entry
and that of another command are still there, and then tries a third command. -/
def shutdownInside : List Step :=
  [.submit "open_wallet" (fun _ => 0) [] [.shutdown [1], .submit "list_pools" (fun _ => 0) [] []],
   .submit "close_wallet" (fun _ => 0) [] [], .expire (.handle ⟨1⟩)]

/-- Both entries count, although the first command is resolved; and the table is empty while the
continuation of the first command still runs. -/
theorem shutdown_terminal_inside : ∃ p q n, Reaches (start {} shutdownInside) p ∧ Moves p q ∧
    p.1.outcome? 0 = some (.error (.timeout ⟨1⟩)) ∧ p.1.outcome? 1 = none ∧
    q.1.entries = [] ∧ Returns p n (.count 2) ∧ n.1.outcome? 1 ≠ none := by
  have hfresh : Correlator.IsFresh {} := ⟨rfl, by decide⟩
  have hseeds : ∀ n ∈ Step.seedsIn shutdownInside, 0 < n := by
    have hnone : Step.seedsIn shutdownInside = [] := rfl
    rw [hnone]
    exact List.forall_mem_nil _
  have hsize : Step.sizes shutdownInside < Allocator.fullTurn := by decide
  -- six sections later, the continuation of the first command begins
  obtain ⟨p, hp, hworld, hrunning⟩ := Reaches.follow (start {} shutdownInside) 6
  obtain ⟨d, hd, hentries⟩ : ∃ d, p.1.correlator = .present d ∧
      d.table.entries.map Entry.owner = [0, 1] := by
    rw [← hworld]
    exact ⟨_, rfl, by decide⟩
  obtain ⟨self, order, rest, answers, below, htop⟩ : ∃ self order rest answers below,
      p.2 = .script self (.shutdown order :: rest) answers :: below := by
    rw [← (List.cons.inj hrunning).1]
    exact ⟨_, _, _, _, _, rfl⟩
  obtain ⟨-, hlater, ⟨n, v, hreturns, -, -, hresolved⟩, -, -⟩ := shutdown_terminal hfresh hseeds
    (fun m hm => (hasRoom hfresh hseeds hsize hm).fits) hp hd htop (.begin htop)
  have hcount : d.table.entries.length = 2 := by
    rw [← List.length_map Entry.owner, hentries]
    rfl
  rw [hcount] at hreturns
  obtain ⟨e, he, howner⟩ : ∃ e ∈ d.table.entries, e.owner = 1 := by
    rw [← List.mem_map, hentries]
    decide
  refine ⟨p, _, n, hp, .begin htop, ?_, ?_, (hlater _ .refl).1.1, hreturns,
    howner ▸ hresolved e he⟩
  · rw [← hworld]
    decide
  · rw [← hworld]
    decide

end Session

end CommandBridge

import CommandBridge.Proofs.Session.Soundness

/-!
# The tally of operations

As long as the counter of a new correlator has not come round, operations and handles go together
by their number.  The tally says of each operation how far it is, and nothing about the order in
which threads have brought it there.

* `PendingTable.Counted` — an open table that has given out its handles in order;
* `Counted.register`, `Counted.find?_nth` — the next operation gets the next handle, and what is
  found under a handle belongs to the operation of that number;
* `Stage` — how far an operation is: it has its entry, or a thread has taken the entry out, or it
  is resolved;
* `World.Tally` — each operation is at its stage, and whatever is resolved has its verdict;
* `Tally.enter`, `Tally.take`, `Tally.resolve`, `Tally.note` — what the changes of a state do to its
  tally.
-/

namespace CommandBridge

/-! ### Tables that count -/

/-- An open table that has given out `n` handles in order.  Every entry stands under the handle that
has the number of its operation. -/
structure PendingTable.Counted (t : PendingTable) (n : Nat) : Prop where
  isOpen : t.isShutDown = false
  /-- The counter has not come round. -/
  counter : n < Allocator.fullTurn → t.allocator.next = (Allocator.nth n).raw
  numbered : ∀ e ∈ t.entries, e.owner < n ∧ e.handle = Allocator.nth e.owner

namespace PendingTable.Counted

variable {t : PendingTable} {n : Nat}

theorem empty : ({} : PendingTable).Counted 0 :=
  ⟨rfl, fun _ => by decide, fun _ he => absurd he List.not_mem_nil⟩

theorem erase (h : t.Counted n) (handle : CommandHandle) : (t.erase handle).Counted n :=
  ⟨h.isOpen, h.counter, fun e he => h.numbered e ((entries_erase_sublist t handle).subset he)⟩

/-- The handle of the next operation is not in use: every entry has an earlier one. -/
theorem contains_nth (h : t.Counted n) (hn : n < Allocator.fullTurn) :
    t.contains (Allocator.nth n) = false := by
  rw [Bool.eq_false_iff]
  intro hused
  obtain ⟨e, he, hsame⟩ := List.mem_map.mp (contains_iff.mp hused)
  obtain ⟨hearlier, hhandle⟩ := h.numbered e he
  rw [hhandle] at hsame
  exact absurd (Allocator.nth_inj (Nat.lt_trans hearlier hn) hn hsame) (Nat.ne_of_lt hearlier)

/-- **The next operation gets the next handle.** -/
theorem register (h : t.Counted n) (hn : n < Allocator.fullTurn) (operation : String)
    (now : Nat) :
    ∃ u, t.register n operation now = some (Allocator.nth n, u) ∧ u.Counted (n + 1) := by
  have hallocate : t.allocator.allocate t.contains =
      (Allocator.nth n, ⟨Allocator.successor (Allocator.nth n).raw⟩) := by
    unfold Allocator.allocate
    rw [h.counter hn]
    exact Allocator.search_of_free (h.contains_nth hn) _
  refine ⟨{ t with
    entries := t.entries ++ [⟨Allocator.nth n, n, operation, now⟩]
    allocator := ⟨Allocator.successor (Allocator.nth n).raw⟩ }, ?_, h.isOpen, ?_, ?_⟩
  · unfold PendingTable.register
    rw [h.isOpen, hallocate]
    rfl
  · exact Allocator.successor_nth
  · intro e he
    rcases List.mem_append.mp he with hold | hnew
    · obtain ⟨hearlier, hhandle⟩ := h.numbered e hold
      exact ⟨Nat.lt_succ_of_lt hearlier, hhandle⟩
    · obtain rfl := List.mem_singleton.mp hnew
      exact ⟨Nat.lt_succ_self n, rfl⟩

/-- **What is found under a handle belongs to the operation of that number.** -/
theorem find?_nth (h : t.Counted n) (hn : n ≤ Allocator.fullTurn) {id : OperationId}
    (hid : id ∈ t.owners) : ∃ e, t.find? (Allocator.nth id) = some e ∧ e.owner = id := by
  obtain ⟨d, hd, rfl⟩ := List.mem_map.mp hid
  obtain ⟨hlt, hhandle⟩ := h.numbered d hd
  cases hfind : t.find? (Allocator.nth d.owner) with
  | none =>
    rw [← hhandle] at hfind
    exact absurd (List.mem_map_of_mem hd) (find?_eq_none.mp hfind)
  | some e =>
    obtain ⟨he, hsame⟩ := find?_eq_some hfind
    obtain ⟨helt, hown⟩ := h.numbered e he
    rw [hown] at hsame
    exact ⟨e, rfl, Allocator.nth_inj (Nat.lt_of_lt_of_le helt hn) (Nat.lt_of_lt_of_le hlt hn) hsame⟩

end PendingTable.Counted

/-! ### Stages -/

/-- How far an operation is. -/
inductive Stage where
  /-- It has its entry. -/
  | held
  /-- A thread has taken its entry out and is about to resolve it. -/
  | taken
  | settled
  deriving DecidableEq

/-- The operations among these that have their entries. -/
def heldAmong (stages : List (OperationId × Stage)) : List OperationId :=
  (stages.filter (fun p => p.2 = .held)).map Prod.fst

theorem heldAmong_perm {stages stages' : List (OperationId × Stage)} (h : stages.Perm stages') :
    (heldAmong stages).Perm (heldAmong stages') :=
  (h.filter _).map Prod.fst

namespace World

/-- Each operation is at its stage, every resolved one got its verdict and got it once, and the
native function of each was given the handle of its number.  The correlator is `c` with another
table, and nobody's continuation does anything. -/
structure Tally (c : Correlator) (verdict : OperationId → Outcome) (w : World)
    (stages : List (OperationId × Stage)) : Prop where
  correlator : ∃ t, w.correlator = .present { c with table := t } ∧ t.Counted w.operations.length
  /-- Every operation has one stage. -/
  ids : (stages.map Prod.fst).Perm (List.range w.operations.length)
  owners : w.owners.Perm (heldAmong stages)
  outcome : ∀ p ∈ stages, w.outcome? p.1 = if p.2 = .settled then some (verdict p.1) else none
  runs : ∀ id, w.timesRun id = if (w.outcome? id).isSome then 1 else 0
  given : ∀ id, w.handlesGiven id = if id < w.operations.length then [Allocator.nth id] else []
  listeners : ∀ o ∈ w.operations, ∃ number, o.listener = .continuation number []

namespace Tally

variable {c : Correlator} {verdict : OperationId → Outcome} {w : World}
  {stages stages' : List (OperationId × Stage)} {id : OperationId}

theorem perm (h : w.Tally c verdict stages) (hperm : stages.Perm stages') :
    w.Tally c verdict stages' :=
  ⟨h.correlator, (hperm.map _).symm.trans h.ids, h.owners.trans (heldAmong_perm hperm),
    fun p hp => h.outcome p (hperm.mem_iff.mpr hp), h.runs, h.given, h.listeners⟩

theorem statuses (h : w.Tally c verdict stages) : w.statuses = c.statuses := by
  obtain ⟨t, hc, -⟩ := h.correlator
  simp only [World.statuses, hc]

/-- An operation with a stage was begun. -/
theorem begun (h : w.Tally c verdict stages) {p : OperationId × Stage} (hp : p ∈ stages) :
    p.1 < w.operations.length :=
  List.mem_range.mp (h.ids.mem_iff.mp (List.mem_map_of_mem hp))

theorem nodup (h : w.Tally c verdict stages) : (stages.map Prod.fst).Nodup :=
  h.ids.nodup_iff.mpr List.nodup_range

/-- All listeners are continuations, so operations are counted by their identities. -/
theorem submittedCount (h : w.Tally c verdict stages) :
    w.submittedCount = w.operations.length := by
  refine List.countP_eq_length.mpr (fun o ho => ?_)
  obtain ⟨number, hlistener⟩ := h.listeners o ho
  simp only [hlistener]

/-- A new session has a tally without operations. -/
theorem start (hc : c.table = {}) : (World.start c).Tally c verdict [] := by
  refine ⟨⟨{}, ?_, PendingTable.Counted.empty⟩, .refl _, ?_, ?_, fun _ => rfl, fun _ => rfl, ?_⟩
  · show Presence.present c = _
    rw [← hc]
  · have hentries : (World.start c).entries = [] := congrArg PendingTable.entries hc
    rw [World.owners, hentries]
    exact .refl _
  · intro p hp
    cases hp
  · intro o ho
    cases ho

/-! ### What changes do to a tally -/

/-- Events that hand out nothing and resolve nothing leave the tally alone. -/
theorem note (h : w.Tally c verdict stages) {e : Event} (he : e.isNeutral = true) :
    (w.note e).Tally c verdict stages := by
  have hquiet := quiet_note w he
  refine ⟨h.correlator, h.ids, h.owners, h.outcome, fun id => ?_, fun id => ?_, h.listeners⟩
  · rw [hquiet.timesRun, hquiet.outcome?]
    exact h.runs id
  · rw [hquiet.handlesGiven]
    exact h.given id

/-- **The next operation is entered under the next handle.** -/
theorem enter (h : w.Tally c verdict stages) (hroom : w.operations.length < Allocator.fullTurn)
    (operation : String) (number : Nat) :
    ∃ d t, w.correlator = .present d ∧
      d.table.register w.nextId operation w.clock =
        some (Allocator.nth w.operations.length, t) ∧
      (w.enter operation (.continuation number []) (Allocator.nth w.operations.length) t).Tally c
        verdict ((w.operations.length, .held) :: stages) := by
  obtain ⟨t, hc, ht⟩ := h.correlator
  obtain ⟨u, hregister, hu⟩ := ht.register hroom operation w.clock
  refine ⟨_, u, hc, hregister, ?_⟩
  have hlength : (w.enter operation (.continuation number [])
      (Allocator.nth w.operations.length) u).operations.length = w.operations.length + 1 := by
    rw [operations_enter, List.length_append]
    rfl
  refine ⟨⟨u, ?_, ?_⟩, ?_, ?_, ?_, ?_, ?_, ?_⟩
  · rw [correlator_enter hc]
  · rw [hlength]
    exact hu
  · rw [hlength, List.range_succ]
    exact (h.ids.cons _).trans (List.perm_append_singleton _ _).symm
  · rw [World.owners, entries_enter hc hregister, List.map_append]
    exact (List.perm_append_singleton _ _).trans (h.owners.cons _)
  · intro p hp
    rw [outcome?_enter]
    rcases List.mem_cons.mp hp with rfl | hold
    · exact outcome?_eq_none_of_le (Nat.le_refl _)
    · exact h.outcome p hold
  · intro id
    rw [timesRun_enter, outcome?_enter]
    exact h.runs id
  · intro id
    rw [handlesGiven_enter, hlength, h.given, nextId]
    rcases Nat.lt_trichotomy id w.operations.length with hlt | rfl | hgt
    · rw [if_neg (Nat.ne_of_gt hlt), if_pos hlt, if_pos (Nat.lt_succ_of_lt hlt)]
    · rw [if_pos rfl, if_neg (Nat.lt_irrefl _), if_pos (Nat.lt_succ_self _)]
    · rw [if_neg (Nat.ne_of_lt hgt), if_neg (Nat.lt_asymm hgt), if_neg (Nat.not_lt.mpr hgt)]
  · intro o ho
    rw [operations_enter] at ho
    rcases List.mem_append.mp ho with hold | hnew
    · exact h.listeners o hold
    · obtain rfl := List.mem_singleton.mp hnew
      exact ⟨number, rfl⟩

/-- **Whoever takes an entry out takes its own operation's.** -/
theorem take (h : w.Tally c verdict ((id, .held) :: stages))
    (hfits : w.operations.length ≤ Allocator.fullTurn) :
    ∃ d e, w.correlator = .present d ∧ d.table.find? (Allocator.nth id) = some e ∧ e.owner = id ∧
      (w.setTable (d.table.erase (Allocator.nth id))).Tally c verdict ((id, .taken) :: stages) := by
  obtain ⟨t, hc, ht⟩ := h.correlator
  have howners : t.owners = w.owners := by
    rw [World.owners, entries_of_present hc]
    rfl
  have hheld : t.owners.Perm (id :: heldAmong stages) := by
    rw [howners]
    exact h.owners
  obtain ⟨e, hfind, howner⟩ := ht.find?_nth hfits (hheld.mem_iff.mpr List.mem_cons_self)
  refine ⟨_, e, hc, hfind, howner, ?_⟩
  have hcorrelator := correlator_setTable hc (t.erase (Allocator.nth id))
  refine ⟨⟨_, hcorrelator, ?_⟩, ?_, ?_, ?_, ?_, ?_, ?_⟩
  · rw [operations_setTable]
    exact ht.erase _
  · rw [operations_setTable]
    exact h.ids
  · have herased := PendingTable.owners_erase hfind
    rw [howner] at herased
    rw [World.owners, entries_of_present hcorrelator]
    exact List.Perm.cons_inv (herased.symm.trans hheld)
  · intro p hp
    rw [outcome?_congr (operations_setTable w _)]
    rcases List.mem_cons.mp hp with rfl | hother
    · exact h.outcome (id, .held) List.mem_cons_self
    · exact h.outcome p (List.mem_cons_of_mem _ hother)
  · intro other
    rw [timesRun_congr (journal_setTable w _), outcome?_congr (operations_setTable w _)]
    exact h.runs other
  · intro other
    rw [handlesGiven_congr (journal_setTable w _), operations_setTable]
    exact h.given other
  · rw [operations_setTable]
    exact h.listeners

/-- **An operation whose entry is taken out gets its verdict**, and its continuation has nothing to
do. -/
theorem resolve (h : w.Tally c verdict ((id, .taken) :: stages)) (cause : Cause) :
    ∃ o number, w.resolveOnce id (verdict id) cause =
        some (o, w.recordOutcome id (verdict id) cause) ∧
      o.listener = .continuation number [] ∧
      (w.recordOutcome id (verdict id) cause).Tally c verdict ((id, .settled) :: stages) := by
  have hbegun : id < w.operations.length := h.begun List.mem_cons_self
  have hid : w.operations[id]? = some w.operations[id] := List.getElem?_eq_getElem hbegun
  have hopen : w.outcome? id = none := h.outcome (id, .taken) List.mem_cons_self
  have hnone : w.operations[id].outcome = none := by
    rw [outcome?, hid] at hopen
    exact hopen
  obtain ⟨number, hlistener⟩ := h.listeners _ (List.getElem_mem hbegun)
  refine ⟨w.operations[id], number, ?_, hlistener, ?_⟩
  · simp only [resolveOnce, hid, hnone, Option.isNone_none, if_true]
    rfl
  have hothers : ∀ p ∈ stages, id ≠ p.1 := by
    intro p hp heq
    refine (List.nodup_cons.mp h.nodup).1 ?_
    show id ∈ stages.map Prod.fst
    rw [heq]
    exact List.mem_map_of_mem hp
  refine ⟨?_, ?_, h.owners, ?_, ?_, ?_, ?_⟩
  · rw [length_recordOutcome]
    exact h.correlator
  · rw [length_recordOutcome]
    exact h.ids
  · intro p hp
    rw [outcome?_recordOutcome hid]
    rcases List.mem_cons.mp hp with rfl | hother
    · rw [if_pos rfl, if_pos rfl]
    · rw [if_neg (hothers p hother)]
      exact h.outcome p (List.mem_cons_of_mem _ hother)
  · intro other
    rw [timesRun_recordOutcome, outcome?_recordOutcome hid]
    by_cases heq : id = other
    · subst heq
      rw [if_pos rfl, if_pos rfl, h.runs, hopen]
      rfl
    · rw [if_neg heq, if_neg heq]
      exact h.runs other
  · intro other
    rw [length_recordOutcome]
    exact h.given other
  · intro o ho
    obtain ⟨k, hk⟩ := List.mem_iff_getElem?.mp ho
    have hmodify : (w.operations.modify id
        (fun o => { o with outcome := some (verdict id) }))[k]? = some o := hk
    rw [List.getElem?_modify] at hmodify
    obtain ⟨d, hd, rfl⟩ := Option.map_eq_some_iff.mp hmodify
    obtain ⟨n, hn⟩ := h.listeners d (List.mem_of_getElem? hd)
    refine ⟨n, ?_⟩
    split
    · exact hn
    · exact hn

end Tally

end World

end CommandBridge

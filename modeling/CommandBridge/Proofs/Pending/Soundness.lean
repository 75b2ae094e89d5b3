import CommandBridge.Pending.Table
import CommandBridge.Proofs.Handle.Cycle
import Mathlib.Data.List.Nodup
import Mathlib.Data.List.Perm.Basic

/-!
# Sound tables

A table of pending commands is a finite map from handles to entries.  It is kept as a list, so that
"finite map" is a property that every change has to keep.

* `PendingTable.owners` — the operations that have an entry;
* `PendingTable.Sound` — no handle twice, positive handles only, a positive counter, and nothing
  left once the table is closed;
* `find?_eq_some`, `remove_eq_some`, `removeOwned_eq_some`, `register_eq_some` — what each look and
  each change says when it succeeds;
* `Sound.register`, `Sound.erase`, `Sound.drain`, `Sound.seed` — every change keeps a sound table
  sound;
* `Sound.fresh_of_register` — the handle given out is positive and had no entry;
* `CommandHandle.mergeSort_ascending`, `mergeSort_eq_of_perm` — sorting handles;
* `Sound.handles_ascending` — the listing of a sound table is strictly ascending;
* `entries_erase`, `owners_erase` — taking an entry out takes one entry and one owner out.
-/

namespace CommandBridge

/-! ### Handles in order -/

namespace CommandHandle

theorem eq_of_raw {a b : CommandHandle} (h : a.raw = b.raw) : a = b := by
  cases a
  cases b
  exact congrArg mk h

theorem pairwise_mergeSort (l : List CommandHandle) :
    (l.mergeSort (fun a b => a.raw ≤ b.raw)).Pairwise (fun a b => a.raw ≤ b.raw) := by
  have hsorted : (l.mergeSort (fun a b => a.raw ≤ b.raw)).Pairwise
      (fun a b => decide (a.raw ≤ b.raw) = true) := by
    refine List.pairwise_mergeSort ?_ ?_ _
    · intro a b c hab hbc
      exact decide_eq_true (Int32.le_trans (of_decide_eq_true hab) (of_decide_eq_true hbc))
    · intro a b
      simpa using Int32.le_total a.raw b.raw
  exact hsorted.imp of_decide_eq_true

/-- Handles that are all different are strictly ascending once they are sorted. -/
theorem mergeSort_ascending {l : List CommandHandle} (h : l.Nodup) :
    (l.mergeSort (fun a b => a.raw ≤ b.raw)).Pairwise (fun a b => a.raw < b.raw) := by
  have hnodup : (l.mergeSort (fun a b => a.raw ≤ b.raw)).Pairwise (fun a b => a ≠ b) :=
    (List.mergeSort_perm _ _).nodup_iff.mpr h
  refine (pairwise_mergeSort l).imp₂ (fun a b hle hne => ?_) hnodup
  exact Int32.lt_of_le_of_ne hle (fun heq => hne (eq_of_raw heq))

/-- The order in which handles come does not matter once they are sorted. -/
theorem mergeSort_eq_of_perm {l l' : List CommandHandle} (h : l.Perm l') :
    l.mergeSort (fun a b => a.raw ≤ b.raw) = l'.mergeSort (fun a b => a.raw ≤ b.raw) := by
  have hperm : (l.mergeSort (fun a b => a.raw ≤ b.raw)).Perm
      (l'.mergeSort (fun a b => a.raw ≤ b.raw)) :=
    ((List.mergeSort_perm l _).trans h).trans (List.mergeSort_perm l' _).symm
  refine hperm.eq_of_pairwise (fun a b _ _ hab hba => ?_) (pairwise_mergeSort l)
    (pairwise_mergeSort l')
  exact eq_of_raw (Int32.le_antisymm hab hba)

end CommandHandle

namespace PendingTable

/-- The operations that have an entry, oldest first. -/
def owners (t : PendingTable) : List OperationId :=
  t.entries.map Entry.owner

/-- The table is a finite map from positive handles, and closed tables are empty. -/
structure Sound (t : PendingTable) : Prop where
  nodup_handles : (t.entries.map Entry.handle).Nodup
  positive : ∀ e ∈ t.entries, 0 < e.handle.raw
  counter_pos : 0 < t.allocator.next
  closed_empty : t.isShutDown = true → t.entries = []

/-! ### Looking -/

theorem find?_eq_some {t : PendingTable} {h : CommandHandle} {e : Entry}
    (hfind : t.find? h = some e) : e ∈ t.entries ∧ e.handle = h := by
  refine ⟨List.mem_of_find?_eq_some hfind, ?_⟩
  have := List.find?_some hfind
  simpa using this

theorem find?_eq_none {t : PendingTable} {h : CommandHandle} :
    t.find? h = none ↔ h ∉ t.entries.map Entry.handle := by
  simp [find?]

theorem contains_iff {t : PendingTable} {h : CommandHandle} :
    t.contains h = true ↔ h ∈ t.entries.map Entry.handle := by
  simp [contains]

/-- A sound table finds every entry under its handle. -/
theorem Sound.find?_of_mem {t : PendingTable} (ht : t.Sound) {e : Entry} (he : e ∈ t.entries) :
    t.find? e.handle = some e := by
  cases hfind : t.find? e.handle with
  | none => exact absurd (List.mem_map_of_mem he) (find?_eq_none.mp hfind)
  | some d =>
    obtain ⟨hd, hsame⟩ := find?_eq_some hfind
    rw [List.inj_on_of_nodup_map ht.nodup_handles hd he hsame]

/-! ### The listing -/

theorem mem_handles {t : PendingTable} {h : CommandHandle} :
    h ∈ t.handles ↔ h ∈ t.entries.map Entry.handle :=
  (List.mergeSort_perm _ _).mem_iff

theorem length_handles (t : PendingTable) : t.handles.length = t.entries.length := by
  rw [handles, List.length_mergeSort, List.length_map]

/-- The listing of a sound table is strictly ascending. -/
theorem Sound.handles_ascending {t : PendingTable} (ht : t.Sound) :
    t.handles.Pairwise (fun a b => a.raw < b.raw) :=
  CommandHandle.mergeSort_ascending ht.nodup_handles

/-! ### Taking an entry out -/

theorem entries_erase_sublist (t : PendingTable) (h : CommandHandle) :
    (t.erase h).entries.Sublist t.entries :=
  List.eraseP_sublist

theorem entries_erase {t : PendingTable} {h : CommandHandle} {e : Entry}
    (hfind : t.find? h = some e) : t.entries.Perm (e :: (t.erase h).entries) := by
  obtain ⟨hp, before, after, hsplit, hbefore⟩ := List.find?_eq_some_iff_append.mp hfind
  have herase : (t.erase h).entries = before ++ after := by
    have hnone : ∀ a ∈ before, ¬ (a.handle == h) = true := by
      intro a ha
      simpa using hbefore a ha
    show t.entries.eraseP (fun e => e.handle == h) = before ++ after
    rw [hsplit, List.eraseP_append_right _ hnone, List.eraseP_cons, hp, cond_true]
  rw [herase, hsplit]
  exact List.perm_middle

theorem owners_erase {t : PendingTable} {h : CommandHandle} {e : Entry}
    (hfind : t.find? h = some e) : t.owners.Perm (e.owner :: (t.erase h).owners) :=
  (entries_erase hfind).map Entry.owner

/-- What was taken out is not in the table any more. -/
theorem Sound.not_mem_erase {t : PendingTable} (ht : t.Sound) {h : CommandHandle} {e : Entry}
    (hfind : t.find? h = some e) : e ∉ (t.erase h).entries := by
  have hnodup := ((entries_erase hfind).map Entry.handle).nodup_iff.mp ht.nodup_handles
  exact fun hmem => (List.nodup_cons.mp hnodup).1 (List.mem_map_of_mem hmem)

/-- Only what stands under the handle is taken out. -/
theorem handle_of_not_mem_erase {t : PendingTable} {h : CommandHandle} {e : Entry}
    (he : e ∈ t.entries) (hgone : e ∉ (t.erase h).entries) : e.handle = h := by
  by_contra hne
  exact hgone ((List.mem_eraseP_of_neg (by simpa using hne)).mpr he)

theorem Sound.erase {t : PendingTable} (ht : t.Sound) (h : CommandHandle) :
    (t.erase h).Sound := by
  have hsub := entries_erase_sublist t h
  refine ⟨ht.nodup_handles.sublist (hsub.map Entry.handle), ?_, ht.counter_pos, ?_⟩
  · intro e he
    exact ht.positive e (hsub.subset he)
  · intro hclosed
    have hempty := ht.closed_empty hclosed
    rw [hempty] at hsub
    exact List.sublist_nil.mp hsub

theorem remove_eq_some {t u : PendingTable} {h : CommandHandle} {e : Entry}
    (hremove : t.remove h = some (e, u)) : t.find? h = some e ∧ u = t.erase h := by
  unfold remove at hremove
  obtain ⟨d, hfind, hpair⟩ := Option.map_eq_some_iff.mp hremove
  obtain ⟨rfl, rfl⟩ := Prod.mk.inj hpair
  exact ⟨hfind, rfl⟩

theorem removeOwned_eq_some {t u : PendingTable} {h : CommandHandle} {owner : OperationId}
    (hremove : t.removeOwned h owner = some u) :
    ∃ e, t.find? h = some e ∧ e.owner = owner ∧ u = t.erase h := by
  unfold removeOwned at hremove
  split at hremove
  · next e hfind =>
    split at hremove
    · next howner =>
      cases hremove
      exact ⟨e, hfind, howner, rfl⟩
    · cases hremove
  · cases hremove

/-- An entry of the operation itself is always taken out. -/
theorem removeOwned_of_find? {t : PendingTable} {h : CommandHandle} {e : Entry}
    (hfind : t.find? h = some e) : t.removeOwned h e.owner = some (t.erase h) := by
  simp [removeOwned, hfind]

/-! ### Taking everything out -/

theorem Sound.drain {t : PendingTable} (ht : t.Sound) : t.drain.2.Sound :=
  ⟨List.nodup_nil, fun _ he => absurd he List.not_mem_nil, ht.counter_pos, fun _ => rfl⟩

theorem Sound.seed {t : PendingTable} (ht : t.Sound) {next : Int32} (hnext : 0 < next) :
    (t.seed next).Sound :=
  ⟨ht.nodup_handles, ht.positive, hnext, ht.closed_empty⟩

theorem sound_empty : ({} : PendingTable).Sound :=
  ⟨List.nodup_nil, fun _ he => absurd he List.not_mem_nil, by decide, fun _ => rfl⟩

/-! ### Registering -/

theorem register_eq_none {t : PendingTable} {owner : OperationId} {operation : String}
    {now : Nat} : t.register owner operation now = none ↔ t.isShutDown = true := by
  unfold register
  split <;> simp_all

theorem register_eq_some {t u : PendingTable} {owner : OperationId} {operation : String}
    {now : Nat} {h : CommandHandle} (hreg : t.register owner operation now = some (h, u)) :
    t.isShutDown = false ∧ h = (t.allocator.allocate t.contains).1 ∧
      u = { t with
        entries := t.entries ++ [⟨h, owner, operation, now⟩]
        allocator := (t.allocator.allocate t.contains).2 } := by
  unfold register at hreg
  split at hreg
  · cases hreg
  · next hopen =>
    cases hreg
    exact ⟨by simpa using hopen, rfl, rfl⟩

/-- As long as there is room, a sound table has a free positive handle to give out. -/
theorem Sound.allocate {t : PendingTable} (ht : t.Sound)
    (hroom : t.entries.length < Allocator.fullTurn) :
    t.contains (t.allocator.allocate t.contains).1 = false ∧
      0 < (t.allocator.allocate t.contains).1.raw ∧
      0 < (t.allocator.allocate t.contains).2.next := by
  have hlength : (t.entries.map Entry.handle).length < Allocator.fullTurn := by
    rw [List.length_map]
    exact hroom
  exact Allocator.allocate_spec ht.counter_pos hlength (fun h hh => contains_iff.mp hh)

/-- The handle given out is positive and had no entry. -/
theorem Sound.fresh_of_register {t u : PendingTable} (ht : t.Sound)
    (hroom : t.entries.length < Allocator.fullTurn) {owner : OperationId} {operation : String}
    {now : Nat} {h : CommandHandle} (hreg : t.register owner operation now = some (h, u)) :
    t.find? h = none ∧ 0 < h.raw := by
  obtain ⟨-, rfl, -⟩ := register_eq_some hreg
  obtain ⟨hfree, hpos, -⟩ := ht.allocate hroom
  refine ⟨find?_eq_none.mpr (fun hmem => ?_), hpos⟩
  have hused := contains_iff.mpr hmem
  rw [hfree] at hused
  cases hused

theorem Sound.register {t u : PendingTable} (ht : t.Sound)
    (hroom : t.entries.length < Allocator.fullTurn) {owner : OperationId} {operation : String}
    {now : Nat} {h : CommandHandle} (hreg : t.register owner operation now = some (h, u)) :
    u.Sound := by
  obtain ⟨hfree, hpos⟩ := ht.fresh_of_register hroom hreg
  obtain ⟨-, -, hcounter⟩ := ht.allocate hroom
  obtain ⟨hopen, hh, rfl⟩ := register_eq_some hreg
  refine ⟨?_, ?_, hcounter, fun hclosed => absurd hclosed (by simp [hopen])⟩
  · rw [List.map_append, List.nodup_append]
    refine ⟨ht.nodup_handles, List.nodup_singleton _, ?_⟩
    rintro x hx y hy rfl
    obtain rfl : x = h := by simpa using hy
    exact find?_eq_none.mp hfree hx
  · intro e he
    rcases List.mem_append.mp he with hold | hnew
    · exact ht.positive e hold
    · obtain rfl := List.mem_singleton.mp hnew
      exact hpos

end PendingTable

end CommandBridge

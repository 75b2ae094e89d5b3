import CommandBridge.Proofs.Session.Interleaving
import CommandBridge.Proofs.Session.Ties

/-!
# Handles in the course of a session

The counter goes round, and handles come back after their entries were taken out, in any order.
Still a handle is only given out while it is free.

* `Allocator.InRange` — the numbers that are handles;
* `World.GivesOut` — a section enters an operation under a handle that was free;
* `Effect.gives` — a section gives a handle out like this, or none at all;
* `Reaches.held` — an operation that was given a handle has held an entry under it;
* `Session.handles_unique` — in every state of a session handles and counter are in range, and a
  handle is given out again only after its entry was taken out.
-/

namespace CommandBridge

/-- The number is one of the cycle `1, 2, …, 2147483647`. -/
def Allocator.InRange (n : Int32) : Prop :=
  1 ≤ n.toInt ∧ n.toInt ≤ 2147483647

theorem Allocator.inRange_of_pos {n : Int32} (hn : 0 < n) : InRange n :=
  toInt_bounds hn

/-! ### Giving a handle out -/

namespace World

/-- The next operation gets this entry, under a handle that was free, and its native function gets
the handle. -/
structure GivesOut (w v : World) (e : Entry) : Prop where
  owner : e.owner = w.nextId
  positive : 0 < e.handle.raw
  free : ∀ d ∈ w.entries, d.handle ≠ e.handle
  entered : v.entries = w.entries ++ [e]
  given : ∀ id, v.handlesGiven id = if w.nextId = id then [e.handle] else w.handlesGiven id

variable {w v : World} {owed : List OperationId} {e : Entry}

/-- Entering an operation gives a handle out. -/
theorem Sound.givesOut (h : w.Sound owed) (hroom : w.HasRoom) {c : Correlator}
    (hc : w.correlator = .present c) {name : String} (listener : Listener)
    {handle : CommandHandle} {t : PendingTable}
    (ht : c.table.register w.nextId name w.clock = some (handle, t)) :
    w.GivesOut (w.enter name listener handle t) ⟨handle, w.nextId, name, w.clock⟩ := by
  rw [HasRoom, entries_of_present hc] at hroom
  obtain ⟨hfree, hpositive⟩ := (h.table c hc).fresh_of_register hroom ht
  refine ⟨rfl, hpositive, ?_, entries_enter hc ht, fun id => ?_⟩
  · rintro d hd rfl
    rw [entries_of_present hc] at hd
    exact PendingTable.find?_eq_none.mp hfree (List.mem_map_of_mem hd)
  · rw [handlesGiven_enter]
    by_cases hid : w.nextId = id
    · rw [if_pos hid, if_pos hid, ← hid, h.ungiven w.nextId (Nat.le_refl _)]
    · rw [if_neg hid, if_neg hid]

/-- What is given out to the next operation was not given to it before. -/
theorem GivesOut.mem_given (h : w.GivesOut v e) {id : OperationId} {handle : CommandHandle}
    (hgiven : handle ∈ v.handlesGiven id) :
    handle ∈ w.handlesGiven id ∨ id = e.owner ∧ handle = e.handle := by
  rw [h.given] at hgiven
  by_cases hid : w.nextId = id
  · rw [if_pos hid] at hgiven
    exact .inr ⟨hid.symm.trans h.owner.symm, List.mem_singleton.mp hgiven⟩
  · rw [if_neg hid] at hgiven
    exact .inl hgiven

/-- An operation that was given the handle before has no entry any more. -/
theorem GivesOut.not_mem_owners (h : w.GivesOut v e) (hsound : w.Sound owed) {id : OperationId}
    (hgiven : e.handle ∈ w.handlesGiven id) : id ∉ w.owners := by
  intro hmem
  obtain ⟨d, hd, rfl⟩ := List.mem_map.mp hmem
  rw [hsound.given d hd] at hgiven
  exact h.free d hd (List.mem_singleton.mp hgiven).symm

end World

open World in
/-- **A section gives out a handle that was free, or none, and then entries are only taken out.** -/
theorem Effect.gives {w v : World} {stack : Stack} {owed : List OperationId}
    (h : Effect w stack v) (hsound : w.Sound owed) (hroom : w.HasRoom) :
    ((∀ id, v.handlesGiven id = w.handlesGiven id) ∧ v.entries.Sublist w.entries) ∨
      ∃ e, w.GivesOut v e := by
  cases h with
  | quiet hv =>
    refine .inl ⟨hv.handlesGiven, ?_⟩
    rw [hv.entries]
  | @installed c _ hw hc hv =>
    have hentries : World.entries { w with correlator := .present c } = [] := by
      rw [entries_of_present rfl, hc]
    refine .inl ⟨fun id => hv.handlesGiven id, ?_⟩
    rw [hv.entries, hentries]
    exact List.nil_sublist _
  | retabled hu hc ht _ hv =>
    refine .inl ⟨fun id => ?_, ?_⟩
    · rw [hv.handlesGiven, handlesGiven_congr (journal_setTable _ _), hu.handlesGiven]
    · rw [hv.entries, entries_of_present (correlator_setTable hc _), ← hu.entries,
        entries_of_present hc]
      exact ht
  | dropped _ hu hv =>
    refine .inl ⟨fun id => ?_, ?_⟩
    · rw [hv.handlesGiven]
      exact hu.handlesGiven id
    · rw [hv.entries, hu.entries]
      exact List.nil_sublist _
  | @entered _ _ _ _ _ u _ c name listener handle t _ hu hc ht hv =>
    have hgives := (hsound.readied hu).givesOut (hroom.readied hu) hc listener ht
    have hid : u.nextId = w.nextId := congrArg List.length (operations_of_readied hu)
    refine .inr ⟨_, hgives.owner.trans hid, hgives.positive, ?_, ?_, fun id => ?_⟩
    · rw [← entries_of_readied hu]
      exact hgives.free
    · rw [hv.entries, hgives.entered, entries_of_readied hu]
    · rw [hv.handlesGiven, hgives.given, hid, handlesGiven_congr (journal_of_readied hu)]
  | @refused _ _ _ _ _ u _ _ _ hu =>
    refine .inl ⟨fun id => handlesGiven_congr (journal_of_readied hu) id, ?_⟩
    have hentries : u.entries = w.entries := entries_of_readied hu
    rw [← hentries]
    exact List.Sublist.refl _
  | resolved _ _ _ hv =>
    refine .inl ⟨hv.handlesGiven, ?_⟩
    rw [hv.entries]
    exact List.Sublist.refl _

/-! ### Runs -/

section Runs

variable {c : Correlator} {steps : List Step} {m : World × Stack}

/-- Every handle that was given out is positive, and the operation it was given to has held an entry
under it. -/
theorem Reaches.held (hc : c.IsFresh) (hseeds : ∀ n ∈ Step.seedsIn steps, 0 < n)
    (hroom : ∀ m, Reaches (Session.start c steps) m → m.1.HasRoom)
    (hm : Reaches (Session.start c steps) m) {id : OperationId} {h : CommandHandle}
    (hgiven : h ∈ m.1.handlesGiven id) :
    0 < h.raw ∧ ∃ p, Reaches (Session.start c steps) p ∧ Reaches p m ∧ p.1.Holds id h := by
  induction hm with
  | refl => cases hgiven
  | @tail m n hreaches hmoves ih =>
    have hbefore : h ∈ m.1.handlesGiven id → 0 < h.raw ∧
        ∃ p, Reaches (Session.start c steps) p ∧ Reaches p n ∧ p.1.Holds id h := by
      intro hold
      obtain ⟨hpos, p, hp, hpm, hholds⟩ := ih hold
      exact ⟨hpos, p, hp, hpm.tail hmoves, hholds⟩
    have hsound := Reaches.sound hc hseeds hroom hreaches
    rcases hmoves.section.effect.gives hsound (hroom m hreaches) with ⟨hsame, -⟩ | ⟨e, hgives⟩
    · rw [hsame] at hgiven
      exact hbefore hgiven
    · rcases hgives.mem_given hgiven with hold | ⟨rfl, rfl⟩
      · exact hbefore hold
      · have hn : Reaches (Session.start c steps) n := hreaches.tail hmoves
        have hmem : e ∈ n.1.entries := by
          rw [hgives.entered]
          exact List.mem_append_right _ List.mem_cons_self
        have hholds := (Reaches.sound hc hseeds hroom hn).holds_of_mem_entries hmem
        exact ⟨hgives.positive, n, hn, .refl, hholds⟩

end Runs

namespace Session

variable {c : Correlator} {steps : List Step}

/-- **Handles are unique and in range.**  A correlator that a configuration describes starts to
count at 1; a session may start anywhere in the cycle.  In every state that it reaches with room
left,

* the entries stand under different handles, all in range, and so is the counter;
* so is every handle that a native function was given, and a native function that still runs works
  under the handle of its operation.

And every section gives out no handle and enters nothing, or it enters the next operation beside all
other entries, under a handle that was free.  Whoever was given this handle before has held an entry
under it and has lost it. -/
theorem handles_unique (hc : c.IsFresh) (hseeds : ∀ n ∈ Step.seedsIn steps, 0 < n)
    (hroom : ∀ m, Reaches (start c steps) m → m.1.HasRoom) :
    (∀ config d, Correlator.ofText config = .ok d → d.table.allocator.next = 1) ∧
    (∀ m, Reaches (start c steps) m →
      (∀ e ∈ m.1.entries, Allocator.InRange e.handle.raw) ∧
      (m.1.entries.map Entry.handle).Nodup ∧
      (∀ d, m.1.correlator = .present d → Allocator.InRange d.table.allocator.next) ∧
      (∀ id, ∀ h ∈ m.1.handlesGiven id, Allocator.InRange h.raw) ∧
      (∀ id ticket operation h status, .native id ticket operation h status ∈ m.2 →
        m.1.handlesGiven id = [h])) ∧
    (∀ m n, Reaches (start c steps) m → Moves m n →
      ((∀ id, n.1.handlesGiven id = m.1.handlesGiven id) ∧ n.1.entries.Sublist m.1.entries) ∨
      ∃ e, m.1.GivesOut n.1 e ∧ ∀ other, e.handle ∈ m.1.handlesGiven other →
        other ∉ m.1.owners ∧
          ∃ p, Reaches (start c steps) p ∧ Reaches p m ∧ p.1.Holds other e.handle) := by
  refine ⟨?_, fun m hm => ?_, fun m n hm hmoves => ?_⟩
  · intro config d hd
    rw [Correlator.table_of_ofText hd]
  · have hsound := hm.sound hc hseeds hroom
    refine ⟨?_, ?_, ?_, ?_, ?_⟩
    · intro e he
      obtain ⟨-, d, e', hd, hfind, -⟩ := hsound.holds_of_mem_entries he
      obtain ⟨hmem, hhandle⟩ := PendingTable.find?_eq_some hfind
      rw [← hhandle]
      exact Allocator.inRange_of_pos ((hsound.table d hd).positive e' hmem)
    · exact hsound.nodup_handles
    · intro d hd
      exact Allocator.inRange_of_pos (hsound.table d hd).counter_pos
    · intro id h hgiven
      exact Allocator.inRange_of_pos (hm.held hc hseeds hroom hgiven).1
    · intro id ticket operation h status hnative
      exact (hm.tied hc hseeds hroom).2.given_of_mem hnative
  · have hsound := hm.sound hc hseeds hroom
    rcases hmoves.section.effect.gives hsound (hroom m hm) with hnone | ⟨e, hgives⟩
    · exact .inl hnone
    · refine .inr ⟨e, hgives, fun other hgiven => ⟨?_, ?_⟩⟩
      · exact hgives.not_mem_owners hsound hgiven
      · exact (hm.held hc hseeds hroom hgiven).2

/-- A command is pending under 1 when the counter stands at the last handle.  Of the next two
commands, the first completes inside its native function and the other comes round. -/
def wraparound : List Step :=
  [.submit "open_wallet" (fun _ => 0) [] [], .seed 2147483647,
   .submit "close_wallet" (fun _ => 0) [.deliver .self 0 .empty] [],
   .submit "list_pools" (fun _ => 0) [] []]

/-- The third command skips the handle of the first, which is pending. -/
theorem handles_unique_wraparound : ∃ m n e, Reaches (start {} wraparound) m ∧ Moves m n ∧
    m.1.entries.map Entry.handle = [⟨1⟩] ∧ m.1.handlesGiven 1 = [⟨2147483647⟩] ∧
    m.1.GivesOut n.1 e ∧ n.1.handlesGiven 2 = [⟨2⟩] := by
  have hfresh : Correlator.IsFresh {} := ⟨rfl, by decide⟩
  have hseeds : ∀ n ∈ Step.seedsIn wraparound, 0 < n := by
    have hone : Step.seedsIn wraparound = [2147483647] := rfl
    rw [hone, List.forall_mem_singleton]
    decide
  have hsize : Step.sizes wraparound < Allocator.fullTurn := by decide
  obtain ⟨-, -, hmoves⟩ := handles_unique hfresh hseeds
    (fun m hm => hasRoom hfresh hseeds hsize hm)
  -- nine sections later, the last command is to be registered
  obtain ⟨m, hm, hworld, hrunning⟩ := Reaches.follow (start {} wraparound) 9
  have hnext : (advance m.1 m.2).map (fun n => n.1.handlesGiven 2) = some [⟨2⟩] := by
    rw [← hworld, ← (List.cons.inj hrunning).1]
    decide
  obtain ⟨n, hadvance, hgiven⟩ := Option.map_eq_some_iff.mp hnext
  rcases hmoves m n hm hadvance with ⟨hsame, -⟩ | ⟨e, hgives, -⟩
  · have hungiven : m.1.handlesGiven 2 = [] := by
      rw [← hworld]
      decide
    rw [hsame, hungiven] at hgiven
    cases hgiven
  · refine ⟨m, n, e, hm, hadvance, ?_, ?_, hgives, hgiven⟩
    · rw [← hworld]
      decide
    · rw [← hworld]
      decide

end Session

end CommandBridge

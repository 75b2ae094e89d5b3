import CommandBridge.Proofs.Session.Effect
import CommandBridge.Proofs.Session.Soundness
import CommandBridge.Session.Threads
import Mathlib.Data.List.Perm.Subperm

/-!
# Schedules

Threads take their sections in the order of a schedule.  What one section keeps, whatever the other
threads owe, every schedule keeps.

* `Threads.start` — threads with their scripts on a correlator;
* `Correlator.IsFresh` — a correlator without entries whose counter stands at a handle;
* `Threads.Sound` — the state is sound for what all threads owe, and all seeds are handles;
* `Threads.Sound.move`, `Threads.Sound.follow` — a section keeps it as long as the entries fit, and
  so does a schedule with room along it;
* `Threads.RoomAlong` — along a schedule, there are always fewer entries than handles;
* `Threads.Sound.roomAlong` — threads with fewer steps than there are handles always have room.
-/

namespace CommandBridge

/-- A correlator without entries.  The next handle can be any. -/
structure Correlator.IsFresh (c : Correlator) : Prop where
  empty : c.table.entries = []
  counter_pos : 0 < c.table.allocator.next

/-- A new session with a fresh correlator is sound. -/
theorem World.sound_start {c : Correlator} (hc : c.IsFresh) : (World.start c).Sound [] := by
  have hentries : (World.start c).entries = [] := hc.empty
  refine ⟨?_, ?_, ?_, ?_, fun _ => rfl, fun _ _ => rfl, fun _ => Nat.zero_le 1, ?_⟩
  · intro d hd
    cases hd
    refine ⟨?_, ?_, hc.counter_pos, fun _ => hc.empty⟩
    · rw [hc.empty]
      exact List.nodup_nil
    · intro e he
      rw [hc.empty] at he
      cases he
  · rw [owners, hentries]
    exact List.nodup_nil
  · intro id hid
    rw [owners, hentries] at hid
    cases hid
  · intro id hid
    cases hid
  · intro e he
    rw [hentries] at he
    cases he

namespace Threads

/-- Threads with these scripts that share a new session. -/
def start (c : Correlator) (scripts : List (List Step)) : Threads :=
  ⟨World.start c, scripts.map (fun steps => [.script none steps []])⟩

/-- What all threads owe together. -/
def owed (t : Threads) : List OperationId :=
  t.running.flatMap Stack.owed

/-- The counters that can still be set. -/
def seeds (t : Threads) : List Int32 :=
  t.world.seeds ++ t.running.flatMap Stack.seeds

/-- The invariant of threads that share a session. -/
structure Sound (t : Threads) : Prop where
  world : t.world.Sound t.owed
  seeds_pos : ∀ n ∈ t.seeds, 0 < n

/-- Along a schedule, there are always fewer entries than handles. -/
def RoomAlong (t : Threads) (schedule : List Nat) : Prop :=
  ∀ taken, taken <+: schedule → (t.follow taken).world.HasRoom

/-! ### One section -/

/-- A move is a section of one thread, or nothing happens. -/
theorem move_cases (t : Threads) (i : Nat) :
    t.move i = t ∨ ∃ stack v stack', t.running[i]? = some stack ∧
      advance t.world stack = some (v, stack') ∧ t.move i = ⟨v, t.running.set i stack'⟩ := by
  unfold move
  cases hi : t.running[i]? with
  | none => exact .inl rfl
  | some stack =>
    cases hadvance : advance t.world stack with
    | none => exact .inl (by simp only [hadvance])
    | some p =>
      refine .inr ⟨stack, p.1, p.2, rfl, hadvance, ?_⟩
      simp only [hadvance]

/-- What the threads hold is what this one holds and what the others hold. -/
theorem flatMap_running {α β : Type} (f : β → List α) {running : List β} {i : Nat} {stack : β}
    (hi : running[i]? = some stack) :
    (running.flatMap f).Perm (f stack ++ (running.eraseIdx i).flatMap f) := by
  obtain ⟨hlt, rfl⟩ := List.getElem?_eq_some_iff.mp hi
  exact (List.getElem_cons_eraseIdx_perm hlt).symm.flatMap_right f

theorem flatMap_running_set {α β : Type} (f : β → List α) {running : List β} {i : Nat} {stack : β}
    (hi : running[i]? = some stack) (stack' : β) :
    ((running.set i stack').flatMap f).Perm (f stack' ++ (running.eraseIdx i).flatMap f) := by
  obtain ⟨hlt, -⟩ := List.getElem?_eq_some_iff.mp hi
  exact (List.set_perm_cons_eraseIdx hlt stack').flatMap_right f

/-- A section brings in no seed that was not there. -/
theorem seeds_move (t : Threads) (i : Nat) : ∀ n ∈ (t.move i).seeds, n ∈ t.seeds := by
  intro n hn
  rcases move_cases t i with hsame | ⟨stack, v, stack', hi, hadvance, hmove⟩
  · rwa [hsame] at hn
  · have hbefore := (flatMap_running Stack.seeds hi).append_left t.world.seeds
    have hafter := (flatMap_running_set Stack.seeds hi stack').append_left v.seeds
    rw [← List.append_assoc] at hbefore hafter
    rw [hmove] at hn
    refine hbefore.mem_iff.mpr ?_
    rcases List.mem_append.mp (hafter.mem_iff.mp hn) with hown | hothers
    · exact List.mem_append_left _ ((section_of_advance hadvance).seeds_subset n hown)
    · exact List.mem_append_right _ hothers

/-- The next section of a thread takes entries out, or enters the operation that it begins. -/
theorem registers_move (t : Threads) (i : Nat) : t.world.Registers (t.move i).world := by
  rcases move_cases t i with hsame | ⟨stack, v, stack', hi, hadvance, hmove⟩
  · rw [hsame]
    exact .inl (List.Sublist.refl _)
  · rw [hmove]
    exact (section_of_advance hadvance).effect.registers

/-- Where there is room, the next section cannot enter too much. -/
theorem fits_move {t : Threads} (hroom : t.world.HasRoom) (i : Nat) : (t.move i).world.Fits := by
  rcases registers_move t i with hsublist | ⟨e, -, -, hentries⟩
  · exact Nat.le_trans hsublist.length_le hroom.fits
  · rw [World.Fits, hentries, List.length_append]
    exact hroom

/-- **A section of any thread keeps the threads sound**, as long as the entries fit. -/
theorem Sound.move {t : Threads} (h : t.Sound) {i : Nat} (hfits : (t.move i).world.Fits) :
    (t.move i).Sound := by
  refine ⟨?_, fun n hn => h.seeds_pos n (seeds_move t i n hn)⟩
  rcases move_cases t i with hsame | ⟨stack, v, stack', hi, hadvance, hmove⟩
  · rw [hsame]
    exact h.world
  · have hbefore := flatMap_running Stack.owed hi
    have hafter := flatMap_running_set Stack.owed hi stack'
    have hseeds : ∀ n ∈ stack.seeds, 0 < n := by
      intro n hn
      refine h.seeds_pos n (List.mem_append_right _ ?_)
      exact (flatMap_running Stack.seeds hi).mem_iff.mpr (List.mem_append_left _ hn)
    -- the others owe what they owed before
    have hworld := h.world.perm hbefore.symm
    rw [hmove] at hfits ⊢
    exact (World.Sound.step (section_of_advance hadvance) hfits hseeds hworld).perm hafter

/-! ### Schedules -/

theorem follow_cons (t : Threads) (i : Nat) (schedule : List Nat) :
    t.follow (i :: schedule) = (t.move i).follow schedule := rfl

theorem follow_append (t : Threads) (schedule more : List Nat) :
    t.follow (schedule ++ more) = (t.follow schedule).follow more :=
  List.foldl_append

theorem RoomAlong.first {t : Threads} {schedule : List Nat} (h : t.RoomAlong schedule) :
    t.world.HasRoom :=
  h [] (List.nil_prefix)

theorem RoomAlong.last {t : Threads} {schedule : List Nat} (h : t.RoomAlong schedule) :
    (t.follow schedule).world.HasRoom :=
  h schedule (List.prefix_refl schedule)

theorem RoomAlong.tail {t : Threads} {i : Nat} {schedule : List Nat}
    (h : t.RoomAlong (i :: schedule)) : (t.move i).RoomAlong schedule := by
  intro taken htaken
  exact h (i :: taken) ((List.cons_prefix_cons).mpr ⟨rfl, htaken⟩)

/-- **Every schedule keeps the threads sound.** -/
theorem Sound.follow {t : Threads} (h : t.Sound) {schedule : List Nat}
    (hroom : t.RoomAlong schedule) : (t.follow schedule).Sound := by
  induction schedule generalizing t with
  | nil => exact h
  | cons i schedule ih =>
    rw [follow_cons]
    exact ih (h.move (fits_move hroom.first i)) hroom.tail

/-- Threads that start on a fresh correlator are sound. -/
theorem sound_start {c : Correlator} (hc : c.IsFresh) {scripts : List (List Step)}
    (hseeds : ∀ steps ∈ scripts, ∀ n ∈ Step.seedsIn steps, 0 < n) : (start c scripts).Sound := by
  refine ⟨?_, ?_⟩
  · have howed : (start c scripts).owed = [] := by
      refine List.flatMap_eq_nil_iff.mpr (fun stack hstack => ?_)
      obtain ⟨steps, -, rfl⟩ := List.mem_map.mp hstack
      rfl
    rw [howed]
    exact World.sound_start hc
  · intro n hn
    have hrunning : n ∈ (start c scripts).running.flatMap Stack.seeds := hn
    obtain ⟨stack, hstack, hmem⟩ := List.mem_flatMap.mp hrunning
    obtain ⟨steps, hsteps, rfl⟩ := List.mem_map.mp hstack
    refine hseeds steps hsteps n ?_
    rcases List.mem_append.mp hmem with hscript | hnil
    · exact hscript
    · cases hnil

end Threads

/-! ### Room for everyone -/

namespace Stack

theorem load_append (stack below : Stack) : load (stack ++ below) = load stack + load below := by
  induction stack with
  | nil => rw [List.nil_append, load_nil, Nat.zero_add]
  | cons f stack ih => rw [List.cons_append, load_cons, load_cons, ih, Nat.add_assoc]

theorem load_perm {stack other : Stack} (h : stack.Perm other) : load stack = load other := by
  induction h with
  | nil => rfl
  | cons f _ ih => rw [load_cons, load_cons, ih]
  | swap f g stack =>
    simp only [load_cons]
    omega
  | trans _ _ ih ih' => exact ih.trans ih'

end Stack

namespace Threads

/-- The operations begun, and the steps that can still begin one. -/
def budget (t : Threads) : Nat :=
  t.world.operations.length + (t.world.load + Stack.load t.running.flatten)

end Threads

/-- An operation is begun by a step, which is then used up. -/
theorem budget_advance {w v : World} {stack stack' : Stack}
    (h : advance w stack = some (v, stack')) :
    v.operations.length + (v.load + stack'.load) ≤ w.operations.length + (w.load + stack.load) := by
  rcases (section_of_advance h).effect.length with hlength | ⟨hlength, self, s, rest, answers,
    below, rfl⟩
  · rcases advance_lt h with hload | ⟨hload, -⟩
    · omega
    · omega
  · have hload := loadOf_begin w self (.script self rest answers :: below) s
    have hbegin : s.begin w self (.script self rest answers :: below) = (v, stack') :=
      Option.some.inj h
    rw [hbegin] at hload
    simp only [loadOf, Stack.load_cons, Frame.load, Step.sizes] at hload ⊢
    omega

/-- There are no more entries than operations. -/
theorem World.Sound.length_entries_le {w : World} {owed : List OperationId} (h : w.Sound owed) :
    w.entries.length ≤ w.operations.length := by
  have hsubset : w.owners ⊆ List.range w.operations.length := by
    intro id hid
    exact List.mem_range.mpr (h.begun id (List.mem_append_left _ hid))
  have hle := (List.subperm_of_subset h.nodup_owners hsubset).length_le
  rwa [World.owners, List.length_map, List.length_range] at hle

namespace Threads

theorem budget_move (t : Threads) (i : Nat) : (t.move i).budget ≤ t.budget := by
  rcases move_cases t i with hsame | ⟨stack, v, stack', hi, hadvance, hmove⟩
  · exact Nat.le_of_eq (congrArg budget hsame)
  · obtain ⟨hlt, hstack⟩ := List.getElem?_eq_some_iff.mp hi
    have hbudget := budget_advance hadvance
    have hbefore := Stack.load_perm (List.getElem_cons_eraseIdx_perm hlt).symm.flatten
    have hafter := Stack.load_perm (List.set_perm_cons_eraseIdx hlt stack').flatten
    rw [List.flatten_cons, Stack.load_append] at hbefore hafter
    rw [hstack] at hbefore
    rw [hmove, budget, budget]
    show v.operations.length + (v.load + Stack.load (t.running.set i stack').flatten) ≤ _
    omega

theorem Sound.hasRoom {t : Threads} (h : t.Sound) (hbudget : t.budget < Allocator.fullTurn) :
    t.world.HasRoom := by
  have hentries := h.world.length_entries_le
  show t.world.entries.length < Allocator.fullTurn
  rw [budget] at hbudget
  omega

/-- **Threads with fewer steps than there are handles always have room.** -/
theorem Sound.roomAlong {t : Threads} (h : t.Sound) (hbudget : t.budget < Allocator.fullTurn)
    (schedule : List Nat) : t.RoomAlong schedule := by
  intro taken _
  induction taken generalizing t schedule with
  | nil => exact h.hasRoom hbudget
  | cons i taken ih =>
    have hmove := h.move (fits_move (h.hasRoom hbudget) i)
    refine ih hmove (Nat.lt_of_le_of_lt (budget_move t i) hbudget) taken (List.prefix_refl _)

end Threads

end CommandBridge

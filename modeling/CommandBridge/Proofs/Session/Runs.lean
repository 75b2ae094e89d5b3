import CommandBridge.Proofs.Session.Persistence
import CommandBridge.Proofs.Session.Schedules
import Mathlib.Logic.Relation

/-!
# Runs of one thread

A run of a session with one thread takes its sections one after the other.  At the bottom of its
stack stand the steps that the session was given; whatever is above them is the work of the step
that was begun last.

* `Moves`, `Reaches` — one section, and any number of them;
* `Session.start` — a new session with its steps;
* `Reaches.run` — `run` ends in a state that is reached;
* `Reaches.precedes`, `Reaches.sound_of_fits` — what every run keeps;
* `Session.hasRoom` — a session with fewer steps than there are handles always has room;
* `Stack.Rests` — the steps at the bottom of a stack;
* `Session.atTop_runSteps` — every session comes back to the top with no steps left.
-/

namespace CommandBridge

/-- One section of the only thread. -/
def Moves (m n : World × Stack) : Prop :=
  advance m.1 m.2 = some n

/-- Any number of sections. -/
abbrev Reaches : World × Stack → World × Stack → Prop :=
  Relation.ReflTransGen Moves

/-- A new session with one thread that is to take these steps. -/
def Session.start (c : Correlator) (steps : List Step) : World × Stack :=
  (World.start c, [.script none steps []])

theorem Moves.section {m n : World × Stack} (h : Moves m n) : Section m.1 m.2 n.1 n.2 :=
  section_of_advance h

theorem run_of_some {w v : World} {stack stack' : Stack}
    (h : advance w stack = some (v, stack')) : run w stack = run v stack' := by
  rw [run]
  split
  · next v' stack'' hsame =>
    rw [h] at hsame
    cases hsame
    rfl
  · next hnone =>
    rw [h] at hnone
    cases hnone

theorem run_of_none {w : World} {stack : Stack} (h : advance w stack = none) :
    run w stack = (w, stack) := by
  rw [run]
  split
  · next hsome =>
    rw [h] at hsome
    cases hsome
  · rfl

theorem advance_run (w : World) (stack : Stack) :
    advance (run w stack).1 (run w stack).2 = none := by
  induction w, stack using run.induct with
  | case1 w stack v stack' hadvance ih =>
    rw [run_of_some hadvance]
    exact ih
  | case2 w stack hadvance =>
    rw [run_of_none hadvance]
    exact hadvance

namespace Reaches

variable {m n : World × Stack}

/-- What a thread ends with is reached. -/
theorem run (w : World) (stack : Stack) : Reaches (w, stack) (run w stack) := by
  induction w, stack using CommandBridge.run.induct with
  | case1 w stack v stack' hadvance ih =>
    rw [run_of_some hadvance]
    exact Relation.ReflTransGen.head hadvance ih
  | case2 w stack hadvance =>
    rw [run_of_none hadvance]

/-- A state that is reached is a later one. -/
theorem precedes (h : Reaches m n) : m.1.Precedes n.1 := by
  induction h with
  | refl => exact .refl m.1
  | tail _ hmoves ih => exact ih.trans hmoves.section.precedes

end Reaches

/-! ### One thread among threads -/

theorem Threads.move_of_moves {m n : World × Stack} (h : Moves m n) :
    (⟨m.1, [m.2]⟩ : Threads).move 0 = ⟨n.1, [n.2]⟩ := by
  have hadvance : advance m.1 m.2 = some n := h
  simp only [Threads.move, List.getElem?_cons_zero, hadvance, List.set_cons_zero]

/-- The invariant of threads for the only thread. -/
theorem Threads.Sound.moves {m n : World × Stack} (h : (⟨m.1, [m.2]⟩ : Threads).Sound)
    (hfits : n.1.Fits) (hmoves : Moves m n) : (⟨n.1, [n.2]⟩ : Threads).Sound := by
  rw [← Threads.move_of_moves hmoves]
  refine h.move ?_
  rw [Threads.move_of_moves hmoves]
  exact hfits

/-- A schedule that only the one thread is on is a run. -/
theorem Reaches.follow (m : World × Stack) (k : Nat) : ∃ n, Reaches m n ∧
    ((⟨m.1, [m.2]⟩ : Threads).follow (List.replicate k 0)).world = n.1 ∧
    ((⟨m.1, [m.2]⟩ : Threads).follow (List.replicate k 0)).running = [n.2] := by
  induction k generalizing m with
  | zero => exact ⟨m, .refl, rfl, rfl⟩
  | succ k ih =>
    rw [List.replicate_succ, Threads.follow_cons]
    cases hadvance : advance m.1 m.2 with
    | none =>
      have hmove : (⟨m.1, [m.2]⟩ : Threads).move 0 = ⟨m.1, [m.2]⟩ := by
        simp only [Threads.move, List.getElem?_cons_zero, hadvance]
      rw [hmove]
      exact ih m
    | some p =>
      obtain ⟨n, hreaches, hfollow⟩ := ih p
      rw [Threads.move_of_moves hadvance]
      exact ⟨n, Relation.ReflTransGen.head hadvance hreaches, hfollow⟩

theorem Threads.sound_session {c : Correlator} (hc : c.IsFresh) {steps : List Step}
    (hseeds : ∀ n ∈ Step.seedsIn steps, 0 < n) :
    (⟨(Session.start c steps).1, [(Session.start c steps).2]⟩ : Threads).Sound := by
  have hscripts : ∀ script ∈ [steps], ∀ n ∈ Step.seedsIn script, 0 < n := by
    intro script hscript
    obtain rfl := List.mem_singleton.mp hscript
    exact hseeds
  exact Threads.sound_start hc hscripts

/-- **Every state of a session is sound**, as long as the entries fit. -/
theorem Reaches.sound_of_fits {c : Correlator} (hc : c.IsFresh) {steps : List Step}
    (hseeds : ∀ n ∈ Step.seedsIn steps, 0 < n)
    (hfits : ∀ m, Reaches (Session.start c steps) m → m.1.Fits) {m : World × Stack}
    (hm : Reaches (Session.start c steps) m) : m.1.Sound m.2.owed := by
  have hthreads : (⟨m.1, [m.2]⟩ : Threads).Sound := by
    induction hm with
    | refl => exact Threads.sound_session hc hseeds
    | tail hreaches hmoves ih => exact ih.moves (hfits _ (hreaches.tail hmoves)) hmoves
  have howed : (⟨m.1, [m.2]⟩ : Threads).owed = m.2.owed := List.flatMap_singleton _ _
  rw [← howed]
  exact hthreads.world

theorem Reaches.sound {c : Correlator} (hc : c.IsFresh) {steps : List Step}
    (hseeds : ∀ n ∈ Step.seedsIn steps, 0 < n)
    (hroom : ∀ m, Reaches (Session.start c steps) m → m.1.HasRoom) {m : World × Stack}
    (hm : Reaches (Session.start c steps) m) : m.1.Sound m.2.owed :=
  sound_of_fits hc hseeds (fun n hn => (hroom n hn).fits) hm

/-- A session with fewer steps than there are handles always has room. -/
theorem Session.hasRoom {c : Correlator} (hc : c.IsFresh) {steps : List Step}
    (hseeds : ∀ n ∈ Step.seedsIn steps, 0 < n) (hsize : Step.sizes steps < Allocator.fullTurn)
    {m : World × Stack} (hm : Reaches (start c steps) m) : m.1.HasRoom := by
  have hthreads : (⟨m.1, [m.2]⟩ : Threads).Sound ∧
      (⟨m.1, [m.2]⟩ : Threads).budget ≤ Step.sizes steps := by
    induction hm with
    | refl =>
      refine ⟨Threads.sound_session hc hseeds, ?_⟩
      show 0 + (0 + ((Step.sizes steps + 0) + 0)) ≤ Step.sizes steps
      omega
    | tail _ hmoves ih =>
      obtain ⟨hsound, hbudget⟩ := ih
      have hfits := Threads.fits_move (hsound.hasRoom (Nat.lt_of_le_of_lt hbudget hsize)) 0
      rw [Threads.move_of_moves hmoves] at hfits
      refine ⟨hsound.moves hfits hmoves, Nat.le_trans ?_ hbudget⟩
      rw [← Threads.move_of_moves hmoves]
      exact Threads.budget_move _ 0
  exact hthreads.1.hasRoom (Nat.lt_of_le_of_lt hthreads.2 hsize)

/-! ### The bottom of the stack -/

namespace Stack

/-- At the bottom of the stack stand these steps, still to be taken. -/
def Rests (rest : List Step) : Stack → Prop
  | [] => False
  | [f] => ∃ answers, f = .script none rest answers
  | _ :: g :: below => Rests rest (g :: below)

namespace Rests

variable {rest : List Step} {below : Stack}

theorem push (h : below.Rests rest) (f : Frame) : Rests rest (f :: below) := by
  cases below with
  | nil => cases h
  | cons g below => exact h

/-- Below a frame other than steps there is something. -/
theorem pop {f : Frame} (h : Rests rest (f :: below))
    (hf : ∀ self steps answers, f ≠ .script self steps answers) : below.Rests rest := by
  cases below with
  | nil =>
    obtain ⟨answers, rfl⟩ := h
    exact absurd rfl (hf none rest answers)
  | cons g below => exact h

theorem of_ne_nil {f : Frame} (h : Rests rest (f :: below)) (hne : below ≠ []) :
    below.Rests rest := by
  cases below with
  | nil => exact absurd rfl hne
  | cons g below => exact h

theorem reply (h : below.Rests rest) (a : Answer) : (reply a below).Rests rest := by
  cases below with
  | nil => cases h
  | cons f below =>
    cases f with
    | script self steps answers =>
      cases below with
      | nil =>
        obtain ⟨old, heq⟩ := h
        cases heq
        exact ⟨answers ++ [a], rfl⟩
      | cons g below => exact h
    | _ => exact h

theorem goOn (h : below.Rests rest) (round : Round) (w : World) (entries : List Entry) :
    (round.goOn w entries below).2.Rests rest :=
  round.goOn_stack w h.reply (fun _ _ _ => h.push _)

end Rests

end Stack

theorem Done.rests {stack below : Stack} {answers : List Answer} {f : Frame} {rest : List Step}
    (hdone : Done stack answers (f :: below)) (h : stack.Rests rest)
    (hf : ∀ self steps answers, f ≠ .script self steps answers) : below.Rests rest := by
  cases hdone with
  | script => exact Stack.Rests.pop h hf
  | bare => exact h.pop hf

/-- The first section of a step stays above the stack that its answer goes to. -/
theorem Step.Begins.rests {w v : World} {self : Option CommandHandle} {below stack : Stack}
    {s : Step} {rest : List Step} (hs : s.Begins w self below v stack) (h : below.Rests rest) :
    stack.Rests rest := by
  cases hs with
  | answered _ _ => exact h.reply _
  | installed _ _ _ _ => exact h.reply _
  | seeded _ => exact h.reply _
  | accepted _ _ _ _ => exact (h.push _).push _
  | refused _ _ _ _ => exact h.push _
  | completed _ _ _ _ => exact h.push _
  | expired _ _ _ => exact h.push _
  | swept _ _ => exact h.goOn (.sweep _ _) _ _
  | shutDown _ => exact h.goOn (.shutdown _) _ _
  | dropped _ _ _ _ => exact h.goOn .drop _ _
  | gaveUp _ _ _ _ => exact h.push _
  | configured => exact (h.push _).push _

/-- **A section leaves the bottom of the stack alone, or begins the next step there.** -/
theorem Section.rests {w v : World} {stack stack' : Stack} {rest : List Step}
    (hs : Section w stack v stack') (h : stack.Rests rest) :
    stack'.Rests rest ∨ ∃ s rest' answers, rest = s :: rest' ∧
      stack = [.script none (s :: rest') answers] ∧ stack'.Rests rest' := by
  cases hs with
  | @began self s steps answers below _ _ hbegins =>
    cases below with
    | nil =>
      obtain ⟨old, heq⟩ := h
      cases heq
      exact .inr ⟨s, steps, answers, rfl, rfl, hbegins.rests ⟨answers, rfl⟩⟩
    | cons f below =>
      have hbelow : Stack.Rests rest (f :: below) := h
      exact .inl (hbegins.rests (hbelow.push _))
  | left hbelow => exact .inl (h.of_ne_nil hbelow)
  | issued hdone => exact .inl ((hdone.rests h (by simp)).reply _)
  | failed hdone _ _ _ => exact .inl ((hdone.rests h (by simp)).push _)
  | failedLate hdone _ _ => exact .inl ((hdone.rests h (by simp)).reply _)
  | configured hdone => exact .inl ((hdone.rests h (by simp)).reply _)
  | continued hdone => exact .inl ((hdone.rests h (by simp)).push _)
  | passed _ => exact .inl ((h.pop (by simp)).push _)
  | ran _ _ _ => exact .inl (((h.pop (by simp)).push _).push _)
  | told _ _ _ _ _ => exact .inl ((h.pop (by simp)).push _)
  | refused => exact .inl ((h.pop (by simp)).reply _)
  | failedNow => exact .inl ((h.pop (by simp)).reply _)
  | answered _ _ _ => exact .inl ((h.pop (by simp)).reply _)
  | sweptOn => exact .inl ((h.pop (by simp)).goOn (.sweep _ _) _ _)
  | shutDownOn => exact .inl ((h.pop (by simp)).goOn (.shutdown _) _ _)
  | droppedOn => exact .inl ((h.pop (by simp)).goOn .drop _ _)

/-- The steps left are the last ones of those given. -/
theorem Reaches.rests {c : Correlator} {steps : List Step} {m : World × Stack}
    (hm : Reaches (Session.start c steps) m) :
    ∃ done rest, steps = done ++ rest ∧ m.2.Rests rest := by
  induction hm with
  | refl => exact ⟨[], steps, rfl, [], rfl⟩
  | tail _ hmoves ih =>
    obtain ⟨done, rest, hsteps, hrests⟩ := ih
    rcases hmoves.section.rests hrests with hsame | ⟨s, rest', _, rfl, -, hnext⟩
    · exact ⟨done, rest, hsteps, hsame⟩
    · exact ⟨done ++ [s], rest', by rw [hsteps, List.append_assoc]; rfl, hnext⟩

/-- A thread has no more to do only if it has no steps left. -/
theorem eq_of_advance_eq_none {w : World} {stack : Stack} {rest : List Step}
    (hrests : stack.Rests rest) (hnone : advance w stack = none) :
    ∃ answers, stack = [.script none [] answers] := by
  cases stack with
  | nil => cases hrests
  | cons f below =>
    cases f with
    | script self steps answers =>
      cases steps with
      | cons s steps => cases hnone
      | nil =>
        cases below with
        | nil =>
          obtain ⟨old, heq⟩ := hrests
          cases heq
          exact ⟨answers, rfl⟩
        | cons g below => cases hnone
    | _ => cases hnone

/-- **Every session comes back to the top with no steps left.** -/
theorem Session.atTop_runSteps (c : Correlator) (steps : List Step) :
    Reaches (Session.start c steps) ((World.start c).runSteps steps) ∧
      ∃ answers, ((World.start c).runSteps steps).2 = [.script none [] answers] := by
  have hreaches : Reaches (Session.start c steps) ((World.start c).runSteps steps) :=
    Reaches.run (World.start c) [.script none steps []]
  obtain ⟨done, rest, -, hrests⟩ := hreaches.rests
  exact ⟨hreaches, eq_of_advance_eq_none hrests (advance_run _ _)⟩

end CommandBridge

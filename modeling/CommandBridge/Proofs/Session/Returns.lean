import CommandBridge.Proofs.Session.Runs

/-!
# Every step returns

A native function or a continuation may take further steps, and those may call others.  All this
work stands on the stack above the steps that wait for an answer.  It comes to an end, and nothing
below it moves before.

* `Stack.Over` — there is work above a stack;
* `Inside` — sections of the work above a stack, one after the other;
* `Section.over` — a section of that work leaves work above the stack, or answers to it;
* `Inside.exists_answer` — so the work ends with an answer;
* `Inside.exists_steps` — a list of steps comes to its end;
* `Attempted`, `exists_attempt` — an attempt to resolve an operation comes to its conclusion;
* `Returns`, `exists_returns` — a step and its answer; every step returns;
* `Returns.unique` — and it does so once.
-/

namespace CommandBridge

/-! ### Work above a stack -/

/-- There is work above `base`.  The frame right above `base` is no list of steps, so it ends with
an answer to `base`. -/
inductive Stack.Over (base : Stack) : Stack → Prop
  | work {f : Frame} (hf : ∀ self rest answers, f ≠ .script self rest answers) :
      Over base (f :: base)
  | push {f : Frame} {stack : Stack} (h : Over base stack) : Over base (f :: stack)

/-- Sections of the work above `base`. -/
abbrev Inside (base : Stack) : World × Stack → World × Stack → Prop :=
  Relation.ReflTransGen (fun m n => Stack.Over base m.2 ∧ Moves m n)

namespace Stack.Over

variable {base stack below : Stack} {f : Frame}

theorem trans {top : Stack} (h : Over base stack) (htop : Over stack top) : Over base top := by
  induction htop with
  | work _ => exact h.push
  | push _ ih => exact ih.push

theorem reply (h : Over base stack) (a : Answer) : Over base (reply a stack) := by
  cases h with
  | @work f hf =>
    cases f with
    | script self rest answers => exact absurd rfl (hf self rest answers)
    | _ => exact .work hf
  | @push f stack h =>
    cases f with
    | script self rest answers => exact h.push
    | _ => exact h.push

/-- Another frame of work in the place of the one on top. -/
theorem replace (h : Over base (f :: below)) {g : Frame}
    (hg : ∀ self rest answers, g ≠ .script self rest answers) : Over base (g :: below) := by
  cases h with
  | work _ => exact .work hg
  | push h => exact h.push

/-- The frame on top is done and answers to the one below it. -/
theorem answer (h : Over base (f :: below)) (a : Answer) :
    Over base (CommandBridge.reply a below) ∨
      ∃ b, CommandBridge.reply a below = CommandBridge.reply b base := by
  cases h with
  | work _ => exact .inr ⟨a, rfl⟩
  | push h => exact .inl (h.reply a)

theorem goOn (h : Over base (f :: below)) (round : Round) (w : World) (rest : List Entry) :
    Over base (round.goOn w rest below).2 ∨
      ∃ b, (round.goOn w rest below).2 = CommandBridge.reply b base :=
  round.goOn_stack (P := fun stack => Over base stack ∨ ∃ b, stack = CommandBridge.reply b base) w
    h.answer (fun _ _ _ => .inl (h.replace (by simp [Round.attempt])))

end Stack.Over

theorem Done.over {base stack below : Stack} {answers : List Answer} {f : Frame}
    (hdone : Done stack answers (f :: below)) (h : Stack.Over base stack) :
    Stack.Over base (f :: below) := by
  cases hdone with
  | script =>
    cases h with
    | work hf => exact absurd rfl (hf _ _ _)
    | push h => exact h
  | bare => exact h

/-- The first section of a step answers at once, or leaves work above the steps that wait. -/
theorem Step.Begins.over {w v : World} {self : Option CommandHandle} {below stack : Stack}
    {s : Step} (h : s.Begins w self below v stack) :
    Stack.Over below stack ∨ ∃ a, stack = reply a below := by
  cases h with
  | answered _ _ => exact .inr ⟨_, rfl⟩
  | installed _ _ _ _ => exact .inr ⟨_, rfl⟩
  | seeded _ => exact .inr ⟨_, rfl⟩
  | accepted _ _ _ _ => exact .inl (.push (.work (by simp)))
  | refused _ _ _ _ => exact .inl (.work (by simp))
  | completed _ _ _ _ => exact .inl (.work (by simp))
  | expired _ _ _ => exact .inl (.work (by simp))
  | @swept age order c limit _ _ =>
    cases order.apply (c.table.stale w.clock limit.millis) with
    | nil => exact .inr ⟨_, rfl⟩
    | cons e rest => exact .inl (.work (by simp))
  | @shutDown order c _ =>
    cases order.apply c.table.entries with
    | nil => exact .inr ⟨_, rfl⟩
    | cons e rest => exact .inl (.work (by simp))
  | @dropped order c _ _ _ _ _ =>
    cases order.apply c.table.entries with
    | nil => exact .inr ⟨_, rfl⟩
    | cons e rest => exact .inl (.work (by simp))
  | gaveUp _ _ _ _ => exact .inl (.work (by simp))
  | configured => exact .inl (.push (.work (by simp)))

/-- **Work above a stack leads to work above it, or to an answer.** -/
theorem Section.over {w v : World} {base stack stack' : Stack} (hs : Section w stack v stack')
    (h : Stack.Over base stack) : Stack.Over base stack' ∨ ∃ a, stack' = reply a base := by
  cases hs with
  | began hbegins =>
    cases h with
    | work hf => exact absurd rfl (hf _ _ _)
    | push h =>
      refine .inl ?_
      rcases hbegins.over with hover | ⟨a, rfl⟩
      · exact h.push.trans hover
      · exact h.push
  | left _ =>
    cases h with
    | work hf => exact absurd rfl (hf _ _ _)
    | push h => exact .inl h
  | issued hdone => exact (hdone.over h).answer _
  | failed hdone _ _ _ => exact .inl ((hdone.over h).replace (by simp))
  | failedLate hdone _ _ => exact (hdone.over h).answer _
  | configured hdone => exact (hdone.over h).answer _
  | continued hdone => exact .inl ((hdone.over h).replace (by simp))
  | passed _ => exact .inl (h.replace (by simp))
  | ran _ _ _ => exact .inl (h.replace (by simp)).push
  | told _ _ _ _ _ => exact .inl (h.replace (by simp))
  | refused => exact h.answer _
  | failedNow => exact h.answer _
  | answered _ _ _ => exact h.answer _
  | sweptOn => exact h.goOn (.sweep _ _) w _
  | shutDownOn => exact h.goOn (.shutdown _) w _
  | droppedOn => exact h.goOn .drop w _

/-- A thread with work above something has more to do. -/
theorem exists_advance_of_over {base stack : Stack} (hbase : base ≠ [])
    (h : Stack.Over base stack) (w : World) : ∃ n, advance w stack = some n := by
  have hlonger : ∃ f g below, stack = f :: g :: below := by
    cases h with
    | @work f _ =>
      obtain ⟨g, below, rfl⟩ := List.exists_cons_of_ne_nil hbase
      exact ⟨f, g, below, rfl⟩
    | @push f stack h =>
      cases h with
      | @work g _ => exact ⟨f, g, base, rfl⟩
      | @push g stack _ => exact ⟨f, g, stack, rfl⟩
  obtain ⟨f, g, below, rfl⟩ := hlonger
  cases f with
  | script self steps answers =>
    cases steps with
    | nil => exact ⟨_, rfl⟩
    | cons s steps => exact ⟨_, rfl⟩
  | _ => exact ⟨_, rfl⟩

/-! ### The work ends -/

namespace Inside

variable {base : Stack} {m n : World × Stack}

theorem reaches (h : Inside base m n) : Reaches m n :=
  Relation.ReflTransGen.mono (fun _ _ hmoves => hmoves.2) _ _ h

/-- Work above something that stands above `base` is work above `base`. -/
theorem mono {high : Stack} (hhigh : Stack.Over base high) (h : Inside high m n) :
    Inside base m n :=
  Relation.ReflTransGen.mono (fun _ _ hmoves => ⟨hhigh.trans hmoves.1, hmoves.2⟩) _ _ h

/-- **Work above a stack ends with an answer to it.** -/
theorem exists_answer (hbase : base ≠ []) {w : World} {stack : Stack}
    (h : Stack.Over base stack) : ∃ v a, Inside base (w, stack) (v, reply a base) := by
  -- by the order in which `run` takes the sections, which ends
  induction w, stack using run.induct with
  | case1 w stack v stack' hadvance ih =>
    rcases (section_of_advance hadvance).over h with hover | ⟨a, rfl⟩
    · obtain ⟨u, a, hinside⟩ := ih hover
      exact ⟨u, a, .head ⟨h, hadvance⟩ hinside⟩
    · exact ⟨v, a, .single ⟨h, hadvance⟩⟩
  | case2 w stack hadvance =>
    obtain ⟨n, hsome⟩ := exists_advance_of_over hbase h w
    rw [hadvance] at hsome
    cases hsome

end Inside

/-- **A step that is begun comes back**, and until then only work above the steps that wait is
done. -/
theorem exists_step (w : World) (self : Option CommandHandle) (s : Step) (rest : List Step)
    (answers : List Answer) (below : Stack) :
    ∃ v a, Inside (.script self rest answers :: below)
      (s.begin w self (.script self rest answers :: below))
      (v, .script self rest (answers ++ [a]) :: below) := by
  have hbegins := begins_begin w self (.script self rest answers :: below) s
  rcases hbegins.over with hover | ⟨a, hreply⟩
  · exact Inside.exists_answer (List.cons_ne_nil _ _) hover
  · refine ⟨(s.begin w self (.script self rest answers :: below)).1, a, ?_⟩
    have hsame : s.begin w self (.script self rest answers :: below) =
        ((s.begin w self (.script self rest answers :: below)).1,
          .script self rest (answers ++ [a]) :: below) := Prod.ext rfl hreply
    exact hsame ▸ .refl

/-- A list of steps comes to its end. -/
theorem Inside.exists_steps {base below : Stack} (h : Stack.Over base below) (w : World)
    (self : Option CommandHandle) (steps : List Step) (answers : List Answer) :
    ∃ v answers', Inside base (w, .script self steps answers :: below)
      (v, .script self [] answers' :: below) := by
  induction steps generalizing w answers with
  | nil => exact ⟨w, answers, .refl⟩
  | cons s steps ih =>
    obtain ⟨v, a, hstep⟩ := exists_step w self s steps answers below
    obtain ⟨u, answers', hsteps⟩ := ih v (answers ++ [a])
    refine ⟨u, answers', .head ⟨h.push, rfl⟩ ?_⟩
    exact (hstep.mono h.push).trans hsteps

/-! ### Attempts -/

/-- An attempt to resolve an operation leads to `q` with its first section, and comes to its
conclusion in `v`.  If the operation is resolved already, nothing happens; else its outcome is set
before anything else runs. -/
structure Attempted (w : World) (id : OperationId) (outcome : Outcome) (cause : Cause)
    (after : Aftermath) (base : Stack) (q : World × Stack) (v : World) (ran : Bool) : Prop where
  moves : Moves (w, .resolve id outcome cause after :: base) q
  inside : Inside base q (v, .conclude after ran :: base)
  effect : ran = false ∧ q.1 = w ∧ v = w ∧ (∀ o, w.operations[id]? = some o → o.outcome ≠ none) ∨
    ran = true ∧ (w.recordOutcome id outcome cause).Quiet q.1 ∧
      ∃ o, w.operations[id]? = some o ∧ o.outcome = none

/-- **An attempt to resolve an operation comes to its conclusion.** -/
theorem exists_attempt (w : World) (id : OperationId) (outcome : Outcome) (cause : Cause)
    (after : Aftermath) (base : Stack) :
    ∃ q v ran, Attempted w id outcome cause after base q v ran := by
  have hmoves : Moves (w, .resolve id outcome cause after :: base)
      (resolve w id outcome cause after base) := rfl
  unfold resolve World.resolveOnce at hmoves
  cases hid : w.operations[id]? with
  | none =>
    rw [hid] at hmoves
    exact ⟨_, w, false, hmoves, .refl, .inl ⟨rfl, rfl, rfl, fun o ho => by cases hid.symm.trans ho⟩⟩
  | some o =>
    rw [hid] at hmoves
    cases hopen : o.outcome with
    | some old =>
      simp only [hopen, Option.isNone_some] at hmoves
      refine ⟨_, w, false, hmoves, .refl, .inl ⟨rfl, rfl, rfl, fun p hp => ?_⟩⟩
      cases hid.symm.trans hp
      rw [hopen]
      exact Option.some_ne_none old
    | none =>
      simp only [hopen, Option.isNone_none, if_true] at hmoves
      cases hlistener : o.listener with
      | caller shape isListening =>
        simp only [hlistener] at hmoves
        refine ⟨_, _, true, hmoves, .refl, .inr ⟨rfl, ?_, o, hid, hopen⟩⟩
        split
        · exact .refl _
        · exact World.quiet_note _ rfl
      | continuation number steps =>
        simp only [hlistener] at hmoves
        have hover : Stack.Over base (.continuation id after :: base) := .work (by simp)
        obtain ⟨u, answers, hsteps⟩ :=
          Inside.exists_steps hover (w.recordOutcome id outcome cause) none steps []
        refine ⟨_, u.note (.continued id answers), true, hmoves, ?_,
          .inr ⟨rfl, .refl _, o, hid, hopen⟩⟩
        exact hsteps.tail ⟨hover.push, rfl⟩

namespace Attempted

variable {w v : World} {id : OperationId} {outcome : Outcome} {cause : Cause} {after : Aftermath}
  {base : Stack} {q : World × Stack} {ran : Bool}

/-- An operation that is resolved already is passed over. -/
theorem of_resolved (h : Attempted w id outcome cause after base q v ran)
    (hresolved : w.outcome? id ≠ none) : ran = false ∧ q.1 = w ∧ v = w := by
  rcases h.effect with ⟨hran, hq, hv, -⟩ | ⟨-, -, o, ho, hopen⟩
  · exact ⟨hran, hq, hv⟩
  · rw [World.outcome?, ho] at hresolved
    exact absurd hopen hresolved

/-- An operation that is unresolved is resolved now. -/
theorem of_open (h : Attempted w id outcome cause after base q v ran)
    (hbegun : id < w.operations.length) (hopen : w.outcome? id = none) :
    ran = true ∧ (w.recordOutcome id outcome cause).Quiet q.1 ∧
      q.1.outcome? id = some outcome := by
  rcases h.effect with ⟨-, -, -, hresolved⟩ | ⟨hran, hset, o, ho, -⟩
  · have hid := List.getElem?_eq_getElem hbegun
    rw [World.outcome?, hid] at hopen
    exact absurd hopen (hresolved _ hid)
  · refine ⟨hran, hset, ?_⟩
    rw [hset.outcome?, World.outcome?_recordOutcome ho, if_pos rfl]

theorem reaches (h : Attempted w id outcome cause after base q v ran) :
    Reaches q (v, .conclude after ran :: base) :=
  h.inside.reaches

/-- Nothing that holds for good is lost. -/
theorem precedes (h : Attempted w id outcome cause after base q v ran) : w.Precedes v :=
  h.moves.section.precedes.trans h.reaches.precedes

/-- After its conclusion, the work goes on with what is left to do. -/
theorem goesOn (h : Attempted w id outcome cause after base q v ran) :
    Inside base q (conclude v ran base after) :=
  h.inside.tail ⟨.work (by simp), rfl⟩

theorem concluded (h : Attempted w id outcome cause after base q v ran) :
    Inside base (w, .resolve id outcome cause after :: base) (conclude v ran base after) :=
  h.goesOn.head ⟨.work (by simp), h.moves⟩

end Attempted

/-! ### Answers -/

/-- The step that comes next in `m` has returned the answer in `n`. -/
def Returns (m n : World × Stack) (a : Answer) : Prop :=
  ∃ self s rest answers below q, m.2 = .script self (s :: rest) answers :: below ∧ Moves m q ∧
    Inside (.script self rest answers :: below) q n ∧
    n.2 = .script self rest (answers ++ [a]) :: below

theorem Returns.reaches {m n : World × Stack} {a : Answer} (h : Returns m n a) : Reaches m n := by
  obtain ⟨_, _, _, _, _, _, -, hmoves, hinside, -⟩ := h
  exact .head hmoves hinside.reaches

section Begin

variable {m : World × Stack} {self : Option CommandHandle} {s : Step} {rest : List Step}
  {answers : List Answer} {below : Stack}

theorem Moves.begin (hm : m.2 = .script self (s :: rest) answers :: below) :
    Moves m (s.begin m.1 self (.script self rest answers :: below)) := by
  show advance m.1 m.2 = _
  rw [hm]
  rfl

/-- A step returns the answer that the work begun by it ends with. -/
theorem returns_of_inside (hm : m.2 = .script self (s :: rest) answers :: below) {v : World}
    {a : Answer}
    (h : Inside (.script self rest answers :: below)
      (s.begin m.1 self (.script self rest answers :: below))
      (v, reply a (.script self rest answers :: below))) :
    Returns m (v, reply a (.script self rest answers :: below)) a :=
  ⟨self, s, rest, answers, below, _, hm, .begin hm, h, rfl⟩

/-- **Every step returns.** -/
theorem exists_returns (hm : m.2 = .script self (s :: rest) answers :: below) :
    ∃ n a, Returns m n a := by
  obtain ⟨v, a, hstep⟩ := exists_step m.1 self s rest answers below
  exact ⟨_, a, returns_of_inside hm hstep⟩

end Begin

/-! ### Only one answer -/

theorem Moves.unique {m n n' : World × Stack} (h : Moves m n) (h' : Moves m n') : n = n' :=
  Option.some.inj (h.symm.trans h')

theorem Stack.Over.length_lt {base stack : Stack} (h : Stack.Over base stack) :
    base.length < stack.length := by
  induction h with
  | work _ => exact Nat.lt_succ_self _
  | push _ ih => exact Nat.lt_succ_of_lt ih

/-- The work above a stack leads to one state outside of it. -/
theorem Inside.unique {base : Stack} {m n n' : World × Stack} (h : Inside base m n)
    (h' : Inside base m n') (hn : ¬ Stack.Over base n.2) (hn' : ¬ Stack.Over base n'.2) :
    n = n' := by
  induction h using Relation.ReflTransGen.head_induction_on with
  | refl =>
    rcases Relation.ReflTransGen.cases_head h' with rfl | ⟨k, ⟨hover, -⟩, -⟩
    · rfl
    · exact absurd hover hn
  | head hmoves _ ih =>
    rcases Relation.ReflTransGen.cases_head h' with rfl | ⟨k, ⟨-, hmoves'⟩, hrest⟩
    · exact absurd hmoves.1 hn'
    · obtain rfl := hmoves.2.unique hmoves'
      exact ih hrest

/-- **A step returns only once.** -/
theorem Returns.unique {m n n' : World × Stack} {a a' : Answer} (h : Returns m n a)
    (h' : Returns m n' a') : n = n' ∧ a = a' := by
  obtain ⟨self, s, rest, answers, below, q, hm, hmoves, hinside, hn⟩ := h
  obtain ⟨_, _, _, _, _, q', hm', hmoves', hinside', hn'⟩ := h'
  rw [hm] at hm'
  cases hm'
  obtain rfl := hmoves.unique hmoves'
  have hout : ∀ b, ¬ Stack.Over (.script self rest answers :: below)
      (.script self rest (answers ++ [b]) :: below) := by
    intro b hover
    exact Nat.lt_irrefl _ hover.length_lt
  obtain rfl := hinside.unique hinside' (hn ▸ hout a) (hn' ▸ hout a')
  rw [hn] at hn'
  have hanswers := (Frame.script.inj (List.cons.inj hn').1).2.2
  exact ⟨rfl, (List.cons.inj (List.append_cancel_left hanswers)).1⟩

end CommandBridge

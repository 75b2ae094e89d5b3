import CommandBridge.Proofs.Session.Likeness
import CommandBridge.Proofs.Session.Returns

/-!
# Work does not look below itself

A section answers to the stack below it or puts frames on top of it, and which of the two it does
it decides without looking.  So work above one stack and the same work above another go through the
same states, whatever other threads do in between.

* `Stack.Twin` — the same frames, the lowest of them a list of steps, above two stacks;
* `Stack.Twin.advance` — **such stacks go the same way section by section**;
* `Stack.Attempt` — an attempt to resolve an operation, with something else left to do afterwards;
* `Stack.Attempt.advance` — **so do such attempts**.
-/

namespace CommandBridge

/-! ### The same frames above two stacks -/

/-- The same frames above `low` and above `low'`, the lowest of them a list of steps. -/
inductive Stack.Twin (low low' : Stack) : Stack → Stack → Prop
  | steps {self : Option CommandHandle} {rest : List Step} {answers : List Answer} :
      Twin low low' (.script self rest answers :: low) (.script self rest answers :: low')
  | push {f : Frame} {stack stack' : Stack} (h : Twin low low' stack stack') :
      Twin low low' (f :: stack) (f :: stack')

namespace Stack.Twin

variable {low low' stack stack' : Stack}

theorem reply (h : Twin low low' stack stack') (a : Answer) :
    Twin low low' (reply a stack) (CommandBridge.reply a stack') := by
  cases h with
  | steps => exact .steps
  | @push f _ _ h =>
    cases f with
    | script self rest answers => exact .push h
    | _ => exact .push h

theorem one_lt_length (hlow : low ≠ []) (h : Twin low low' stack stack') : 1 < stack.length := by
  have hpos := List.length_pos_of_ne_nil hlow
  induction h with
  | steps => exact Nat.succ_lt_succ hpos
  | push _ ih => exact Nat.lt_succ_of_lt ih

theorem symm (h : Twin low low' stack stack') : Twin low' low stack' stack := by
  induction h with
  | steps => exact .steps
  | push _ ih => exact .push ih

/-- Nobody is alone above another stack. -/
theorem isOutermost (hlow : low ≠ []) (h : Twin low low' stack stack') :
    isOutermost stack = false :=
  decide_eq_false (Nat.not_le.mpr (h.one_lt_length hlow))

/-- The same frames go together in the same state. -/
def likeness (hlow : low ≠ []) (hlow' : low' ≠ []) : Likeness where
  worldRel w w' := w' = w
  stackRel := Twin low low'
  isLoose := False
  shares _ := True
  correlator h := congrArg World.correlator h
  clock h := congrArg World.clock h
  callbacks h := congrArg World.callbacks h
  nextId h := congrArg World.nextId h
  submittedCount h := .inl (congrArg World.submittedCount h)
  callsLength h := congrArg (·.calls.length) h
  call? h n _ := congrArg (·.call? n) h
  result? h call := congrArg (·.result? call) h
  note h e _ := congrArg (·.note e) h
  continued h _ _ _ hsame := by rw [h, hsame.resolve_right not_false]
  setPresence h _ := by rw [h]
  beginCaller h _ _ := by rw [h]
  beginContinuation h _ _ _ _ hsame := by rw [h, hsame.resolve_right not_false]
  addCall h call := congrArg (·.addCall call) h
  useUp h n _ := congrArg (·.useUp n) h
  stopListening h call := congrArg (·.stopListening call) h
  handOver h ticket handle := congrArg (ticket.handOver handle) h
  sleep h _ := by rw [h]
  push h _ _ _ hsame := by
    rw [hsame.resolve_right not_false]
    exact .push h
  reply h _ _ hsame := by
    rw [hsame.resolve_right not_false]
    exact h.reply _
  isOutermost h := by rw [h.isOutermost hlow, h.symm.isOutermost hlow']

/-- **The same frames do the same**, until only the steps at the bottom are left, and they are
done. -/
theorem advance (hlow : low ≠ []) (hlow' : low' ≠ []) (h : Twin low low' stack stack')
    (w : World) :
    (∃ self answers, stack = .script self [] answers :: low ∧
        stack' = .script self [] answers :: low') ∨
      ∃ v t t', CommandBridge.advance w stack = some (v, t) ∧
        CommandBridge.advance w stack' = some (v, t') ∧ Twin low low' t t' := by
  have hw : (likeness hlow hlow').worldRel w w := rfl
  have hmoves : ∀ {p p'}, (likeness hlow hlow').Holds p p' →
      CommandBridge.advance w stack = some p → CommandBridge.advance w stack' = some p' →
      ∃ v t t', CommandBridge.advance w stack = some (v, t) ∧
        CommandBridge.advance w stack' = some (v, t') ∧ Twin low low' t t' := by
    rintro ⟨v, t⟩ ⟨v', t'⟩ ⟨hv, ht⟩ heq heq'
    obtain rfl : v' = v := hv
    exact ⟨v', t, t', heq, heq', ht⟩
  cases h with
  | @steps self rest answers =>
    cases rest with
    | nil => exact .inl ⟨self, answers, rfl, rfl⟩
    | cons s rest =>
      have hsteps : Twin low low' (.script self rest answers :: low)
          (.script self rest answers :: low') := .steps
      exact .inr (hmoves (Likeness.holds_begin hw hsteps self (fun _ _ => trivial)) rfl rfl)
  | @push f below below' h =>
    refine .inr ?_
    cases f with
    | script self rest answers =>
      cases rest with
      | cons s rest =>
        have hpushed : Twin low low' (.script self rest answers :: below)
            (.script self rest answers :: below') := .push h
        exact hmoves (Likeness.holds_begin hw hpushed self (fun _ _ => trivial)) rfl rfl
      | nil =>
        cases h with
        | steps => exact ⟨w, _, _, rfl, rfl, .steps⟩
        | push h =>
          exact hmoves (Likeness.holds_resume hw h (.refl _) (.inl rfl) (.inl rfl)) rfl rfl
    | resolve id outcome cause after =>
      simp only [CommandBridge.advance, CommandBridge.resolve]
      split
      · exact ⟨w, _, _, rfl, rfl, .push h⟩
      · split
        · exact ⟨_, _, _, rfl, rfl, .push (.push h)⟩
        · exact ⟨_, _, _, rfl, rfl, .push h⟩
    | conclude after ran =>
      exact hmoves (Likeness.holds_conclude hw h ran .same (.inl rfl)) rfl rfl
    | native id ticket operation handle status =>
      exact hmoves (Likeness.holds_resume hw h (.refl (.native id ticket operation handle status))
        (.inl rfl) (.inl rfl)) rfl rfl
    | configure call status =>
      exact hmoves (Likeness.holds_resume hw h (.refl (.configure call status)) (.inl rfl)
        (.inl rfl)) rfl rfl
    | continuation id after =>
      exact hmoves (Likeness.holds_resume hw h (.refl (.continuation id after)) (.inl rfl)
        (.inl rfl)) rfl rfl

/-- There is work above what a frame of work stands on. -/
theorem isAbove {f f' : Frame} {base base' : Stack}
    (hf : ∀ self rest answers, f ≠ .script self rest answers)
    (h : Twin (f :: base) (f' :: base') stack stack') : Stack.Over base stack := by
  induction h with
  | steps => exact .push (.work hf)
  | push _ ih => exact .push ih

end Stack.Twin

/-! ### The same attempt -/

/-- The same attempt to resolve an operation above two stacks.  Afterwards there is something else
left to do on either side. -/
inductive Stack.Attempt (after after' : Aftermath) (base base' : Stack) : Stack → Stack → Prop
  | resolve {id : OperationId} {outcome : Outcome} {cause : Cause} :
      Attempt after after' base base' (.resolve id outcome cause after :: base)
        (.resolve id outcome cause after' :: base')
  /-- The continuation runs. -/
  | runs {id : OperationId} {stack stack' : Stack}
      (h : Twin (.continuation id after :: base) (.continuation id after' :: base') stack stack') :
      Attempt after after' base base' stack stack'
  | conclude {ran : Bool} :
      Attempt after after' base base' (.conclude after ran :: base) (.conclude after' ran :: base')

namespace Stack.Attempt

variable {after after' : Aftermath} {base base' stack stack' : Stack}

theorem symm (h : Attempt after after' base base' stack stack') :
    Attempt after' after base' base stack' stack := by
  cases h with
  | resolve => exact .resolve
  | runs h => exact .runs h.symm
  | conclude => exact .conclude

theorem isAbove (h : Attempt after after' base base' stack stack') : Stack.Over base stack := by
  cases h with
  | resolve => exact .work (by simp)
  | runs h => exact h.isAbove (by simp)
  | conclude => exact .work (by simp)

/-- **The same attempt goes the same way, section by section**, until it is over. -/
theorem advance (h : Attempt after after' base base' stack stack') (w : World) :
    (∃ ran, stack = .conclude after ran :: base ∧ stack' = .conclude after' ran :: base') ∨
      ∃ v t t', CommandBridge.advance w stack = some (v, t) ∧
        CommandBridge.advance w stack' = some (v, t') ∧ Attempt after after' base base' t t' := by
  cases h with
  | conclude => exact .inl ⟨_, rfl, rfl⟩
  | @resolve id outcome cause =>
    refine .inr ?_
    simp only [CommandBridge.advance, CommandBridge.resolve]
    cases w.resolveOnce id outcome cause with
    | none => exact ⟨w, _, _, rfl, rfl, .conclude⟩
    | some p =>
      obtain ⟨operation, v⟩ := p
      cases hlistener : operation.listener with
      | continuation number steps =>
        simp only [hlistener]
        exact ⟨v, _, _, rfl, rfl, .runs .steps⟩
      | caller shape isListening =>
        simp only [hlistener]
        exact ⟨_, _, _, rfl, rfl, .conclude⟩
  | @runs id _ _ htwin =>
    rcases htwin.advance (List.cons_ne_nil _ _) (List.cons_ne_nil _ _) w with
      ⟨self, answers, rfl, rfl⟩ | ⟨v, t, t', hadvance, hadvance', htwin'⟩
    · exact .inr ⟨_, _, _, rfl, rfl, .conclude⟩
    · exact .inr ⟨v, t, t', hadvance, hadvance', .runs htwin'⟩

end Stack.Attempt

end CommandBridge

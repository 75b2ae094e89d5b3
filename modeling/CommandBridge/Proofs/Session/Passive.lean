import CommandBridge.Proofs.Session.Drain

/-!
# Shutdowns among passive continuations

A continuation that leaves the correlator and the outcomes of operations alone cannot interfere with
the shutdown that runs it.  If all continuations are like this, what the shutdown does can be said
without an order.

* `Step.isPassive`, `Step.arePassive` — steps that leave the correlator and all outcomes alone;
* `World.Still` — nothing that counts has changed;
* `exists_passive_steps` — passive steps come to their end, and nothing that counts has changed;
* `World.ShutDownWith` — what a shutdown does to the operations of its entries, in no order;
* `exists_shutDownWith` — a shutdown among passive continuations does just this.
-/

namespace CommandBridge

/-! ### Passive steps -/

mutual

/-- The step does not use the table and resolves no operation.  It may look around, let time pass,
take the result of a call or give the call up. -/
def Step.isPassive : Step → Bool
  | .runtimeConfig _ _ during => Step.arePassive during
  | .install _ => true
  | .installDefault => true
  | .isInstalled => true
  | .ask _ => true
  | .sleep _ => true
  | .poll _ => true
  | .wait _ none => true
  | .forget _ => true
  | .view _ => true
  | _ => false

/-- All of the steps are passive. -/
def Step.arePassive : List Step → Bool
  | [] => true
  | s :: rest => s.isPassive && Step.arePassive rest

end

/-! ### Nothing that counts has changed -/

namespace World

/-- The operation has a continuation with these steps. -/
def Waits (w : World) (id : OperationId) (steps : List Step) : Prop :=
  ∃ o number, w.operations[id]? = some o ∧ o.listener = .continuation number steps

/-- The correlator, all outcomes and all continuations are the same. -/
structure Still (w v : World) : Prop where
  correlator : v.correlator = w.correlator
  length : v.operations.length = w.operations.length
  outcome : ∀ id, v.outcome? id = w.outcome? id
  timesRun : ∀ id, v.timesRun id = w.timesRun id
  waits : ∀ id steps, v.Waits id steps → w.Waits id steps

namespace Still

variable {u v w : World}

theorem refl (w : World) : w.Still w :=
  ⟨rfl, rfl, fun _ => rfl, fun _ => rfl, fun _ _ h => h⟩

theorem trans (huv : u.Still v) (hvw : v.Still w) : u.Still w := by
  refine ⟨hvw.correlator.trans huv.correlator, hvw.length.trans huv.length, fun id => ?_,
    fun id => ?_, fun id steps h => huv.waits id steps (hvw.waits id steps h)⟩
  · rw [hvw.outcome, huv.outcome]
  · rw [hvw.timesRun, huv.timesRun]

theorem of_quiet (h : w.Quiet v) : w.Still v := by
  refine ⟨h.correlator, h.length, h.outcome?, h.timesRun, ?_⟩
  rintro id steps ⟨o, number, hid, hlistener⟩
  rcases h.operations with hsame | ⟨other, hmodify⟩
  · exact ⟨o, number, hsame ▸ hid, hlistener⟩
  · rw [hmodify, List.getElem?_modify] at hid
    obtain ⟨d, hd, heq⟩ := Option.map_eq_some_iff.mp hid
    refine ⟨d, number, hd, ?_⟩
    -- whoever stops listening is a caller
    split at heq
    · subst heq
      cases hold : d.listener with
      | continuation n s =>
        simp only [hold, Listener.deaf] at hlistener
        exact hlistener
      | caller shape isListening =>
        simp only [hold, Listener.deaf] at hlistener
        cases hlistener
    · subst heq
      exact hlistener

end Still

theorem waits_of_recordOutcome {w : World} {id other : OperationId} {outcome : Outcome}
    {cause : Cause} {steps : List Step}
    (h : (w.recordOutcome id outcome cause).Waits other steps) : w.Waits other steps := by
  obtain ⟨o, number, ho, hlistener⟩ := h
  have hmodify : (w.operations.modify id (fun o => { o with outcome := some outcome }))[other]? =
      some o := ho
  rw [List.getElem?_modify] at hmodify
  obtain ⟨d, hd, heq⟩ := Option.map_eq_some_iff.mp hmodify
  refine ⟨d, number, hd, ?_⟩
  split at heq
  · subst heq
    exact hlistener
  · subst heq
    exact hlistener

end World

/-! ### Passive steps come to their end -/

section Passive

variable {w : World} {c : Correlator}

/-- A passive step registers nothing and delivers nothing. -/
theorem Step.nothing_of_isPassive {s : Step} (hs : s.isPassive = true)
    (self : Option CommandHandle) :
    s.registration? w = none ∧ s.delivery? w self = none := by
  cases s with
  | wait n completion =>
    cases completion with
    | none => exact ⟨rfl, rfl⟩
    | some _ => cases hs
  | _ => first | exact ⟨rfl, rfl⟩ | cases hs

/-- A passive step is answered at once, unless it calls the native side. -/
theorem Step.Opens.of_isPassive {s : Step} (hs : s.isPassive = true)
    (hnative : ∀ config status during, s ≠ .runtimeConfig config status during)
    (hc : w.correlator = .present c) {self : Option CommandHandle} {below : Stack}
    {m : World × Stack} (h : s.Opens w self below m) :
    ∃ v a, m = answer v a below ∧ w.Quiet v := by
  obtain ⟨hregisters, hdelivers⟩ := Step.nothing_of_isPassive (w := w) hs self
  cases h with
  | answered _ => exact ⟨w, _, rfl, .refl w⟩
  | readied _ =>
    simp only [World.installDefault, hc]
    exact ⟨w, _, rfl, .refl w⟩
  | installed _ =>
    simp only [World.install, hc]
    exact ⟨w, _, rfl, .refl w⟩
  | slept => exact ⟨_, _, rfl, w.quiet_sleep _⟩
  | used _ => exact ⟨_, _, rfl, w.quiet_useUp _⟩
  | forgotten _ _ => exact ⟨_, _, rfl, w.quiet_stopListening _ _⟩
  | uncorrelated hw => cases hc.symm.trans hw
  | registers hr _ _ => cases hregisters.symm.trans hr
  | completes hd _ _ => cases hdelivers.symm.trans hd
  | waits hstep _ => rcases hstep with rfl | rfl <;> cases hs
  | configures _ => exact absurd rfl (hnative _ _ _)
  | _ => cases hs

/-- **Passive steps come to their end, and nothing that counts has changed.** -/
theorem exists_passive_steps {steps : List Step} (hsteps : Step.arePassive steps = true)
    {base below : Stack} (hover : Stack.Over base below) {w : World}
    (hc : w.correlator = .present c) (self : Option CommandHandle) (answers : List Answer) :
    ∃ v answers', Inside base (w, .script self steps answers :: below)
      (v, .script self [] answers' :: below) ∧ w.Still v := by
  match steps, hsteps with
  | [], _ => exact ⟨w, answers, .refl, .refl w⟩
  | s :: rest, hsteps =>
    obtain ⟨hs, hrest⟩ := Bool.and_eq_true_iff.mp hsteps
    -- the first step is answered, and then the others follow
    have hfirst : ∃ u a, Inside base (s.begin w self (.script self rest answers :: below))
        (u, .script self rest (answers ++ [a]) :: below) ∧ w.Still u := by
      by_cases hnative : ∃ config status during, s = .runtimeConfig config status during
      · obtain ⟨config, status, during, heq⟩ := hnative
        have hsmaller : Step.sizes during < s.size := by
          rw [heq, Step.size]
          omega
        rw [heq] at hs ⊢
        simp only [Step.begin]
        split
        · exact ⟨w, _, .refl, .refl w⟩
        · next call _ =>
          have hhigh : Stack.Over base
              (.configure call status :: .script self rest answers :: below) := hover.push.push
          obtain ⟨u, during', hinside, hstill⟩ := exists_passive_steps hs hhigh hc none []
          exact ⟨u, _, hinside.tail ⟨hhigh.push, rfl⟩, hstill⟩
      · have hother : ∀ config status during, s ≠ .runtimeConfig config status during :=
          fun config status during heq => hnative ⟨config, status, during, heq⟩
        obtain ⟨u, a, hbegin, hquiet⟩ :=
          (opens_begin w self (.script self rest answers :: below) s).of_isPassive hs hother hc
        rw [hbegin]
        exact ⟨u, a, .refl, .of_quiet hquiet⟩
    obtain ⟨u, a, hinside, hstill⟩ := hfirst
    obtain ⟨v, answers', hlater, hstill'⟩ :=
      exists_passive_steps hrest hover (hstill.correlator.trans hc) self (answers ++ [a])
    refine ⟨v, answers', ?_, hstill.trans hstill'⟩
    exact Relation.ReflTransGen.head ⟨hover.push, rfl⟩ (hinside.trans hlater)
termination_by Step.sizes steps
decreasing_by
  · simp only [Step.sizes]
    omega
  · have := s.size_pos
    simp only [Step.sizes]
    omega

end Passive

/-! ### Turns without interference -/

/-- A passive continuation changes nothing but that its operation is resolved. -/
theorem exists_passive_attempt {w : World} {c : Correlator} (hc : w.correlator = .present c)
    {id : OperationId} {o : Operation} (hid : w.operations[id]? = some o) (hopen : o.outcome = none)
    (hpassive : ∀ steps, w.Waits id steps → Step.arePassive steps = true) (outcome : Outcome)
    (cause : Cause) (after : Aftermath) (base : Stack) :
    ∃ u, Inside base (w, .resolve id outcome cause after :: base)
        (u, .conclude after true :: base) ∧
      (w.recordOutcome id outcome cause).Still u := by
  have hover : Stack.Over base (.resolve id outcome cause after :: base) := .work (by simp)
  have hmoves : Moves (w, .resolve id outcome cause after :: base)
      (resolve w id outcome cause after base) := rfl
  simp only [resolve, World.resolveOnce, hid, hopen, Option.isNone_none, if_true] at hmoves
  cases hlistener : o.listener with
  | caller shape isListening =>
    simp only [hlistener] at hmoves
    refine ⟨_, .single ⟨hover, hmoves⟩, .of_quiet ?_⟩
    split
    · exact .refl _
    · exact World.quiet_note _ rfl
  | continuation number steps =>
    simp only [hlistener] at hmoves
    have hcontinuation : Stack.Over base (.continuation id after :: base) := .work (by simp)
    obtain ⟨u, answers, hsteps, hstill⟩ :=
      exists_passive_steps (hpassive steps ⟨o, number, hid, hlistener⟩) hcontinuation
        (w := w.recordOutcome id outcome cause) hc none []
    have hended : Inside base _ (u.note (.continued id answers), .conclude after true :: base) :=
      hsteps.tail ⟨hcontinuation.push, rfl⟩
    refine ⟨_, hended.head ⟨hover, hmoves⟩, hstill.trans (.of_quiet (World.quiet_note u rfl))⟩

/-- What a shutdown does to the operations of its entries: those that were not resolved end with its
error, each under its own handle. -/
structure World.ShutDownWith (w : World) (entries : List Entry) (v : World) : Prop where
  correlator : v.correlator = w.correlator
  resolved : ∀ e ∈ entries, w.outcome? e.owner = none →
    v.outcome? e.owner = some (.error (.shutDown e.handle)) ∧
      v.timesRun e.owner = w.timesRun e.owner + 1
  others : ∀ id, (w.outcome? id ≠ none ∨ ∀ e ∈ entries, e.owner ≠ id) →
    v.outcome? id = w.outcome? id ∧ v.timesRun id = w.timesRun id

/-- The first turn, and then the others. -/
theorem World.ShutDownWith.cons {w u v : World} {e : Entry} {rest : List Entry}
    (hbegun : e.owner < w.operations.length) (hopen : w.outcome? e.owner = none)
    (hfresh : ∀ d ∈ rest, d.owner ≠ e.owner) {cause : Cause}
    (hu : (w.recordOutcome e.owner (.error (.shutDown e.handle)) cause).Still u)
    (h : u.ShutDownWith rest v) : w.ShutDownWith (e :: rest) v := by
  have hid := List.getElem?_eq_getElem hbegun
  have houtcome : ∀ id, u.outcome? id =
      if e.owner = id then some (.error (.shutDown e.handle)) else w.outcome? id :=
    fun id => (hu.outcome id).trans (World.outcome?_recordOutcome hid id)
  have htimes : ∀ id, u.timesRun id =
      if e.owner = id then w.timesRun id + 1 else w.timesRun id :=
    fun id => (hu.timesRun id).trans (World.timesRun_recordOutcome id)
  have hkept : ∀ id, e.owner ≠ id → u.outcome? id = w.outcome? id ∧
      u.timesRun id = w.timesRun id := by
    intro id hne
    rw [houtcome, htimes, if_neg hne, if_neg hne]
    exact ⟨rfl, rfl⟩
  refine ⟨h.correlator.trans hu.correlator, fun d hd hunresolved => ?_, fun id hid => ?_⟩
  · rcases List.mem_cons.mp hd with rfl | hlater
    · have hset : u.outcome? d.owner ≠ none := by
        rw [houtcome, if_pos rfl]
        exact Option.some_ne_none _
      obtain ⟨hsame, htime⟩ := h.others d.owner (.inl hset)
      rw [hsame, htime, houtcome, htimes, if_pos rfl, if_pos rfl]
      exact ⟨rfl, rfl⟩
    · obtain ⟨hsame, htime⟩ := hkept d.owner (hfresh d hlater).symm
      obtain ⟨hset, hran⟩ := h.resolved d hlater (hsame.trans hunresolved)
      exact ⟨hset, hran.trans (congrArg (· + 1) htime)⟩
  · have hne : e.owner ≠ id := by
      rintro rfl
      rcases hid with hresolved | hnone
      · exact hresolved hopen
      · exact hnone e List.mem_cons_self rfl
    obtain ⟨hsame, htime⟩ := hkept id hne
    have hlater : u.outcome? id ≠ none ∨ ∀ d ∈ rest, d.owner ≠ id := by
      rw [hsame]
      exact hid.imp_right (fun hnone d hd => hnone d (List.mem_cons_of_mem _ hd))
    obtain ⟨hset, hran⟩ := h.others id hlater
    exact ⟨hset.trans hsame, hran.trans htime⟩

/-- **A shutdown among passive continuations** returns after it has resolved the operations of its
entries, and has done nothing else that counts. -/
theorem exists_shutDownWith (base : Stack) (count : Nat) (entries : List Entry) (w : World)
    {c : Correlator} (hc : w.correlator = .present c)
    (hbegun : ∀ e ∈ entries, e.owner < w.operations.length)
    (hnodup : (entries.map Entry.owner).Nodup)
    (hpassive : ∀ e ∈ entries, w.outcome? e.owner = none →
      ∀ steps, w.Waits e.owner steps → Step.arePassive steps = true) :
    ∃ v, Inside base (shutdownOn w entries count base)
        (v.note (.shutDown count), reply (.count count) base) ∧ w.ShutDownWith entries v := by
  induction entries generalizing w with
  | nil =>
    refine ⟨w, .refl, rfl, fun e he => ?_, fun id _ => ⟨rfl, rfl⟩⟩
    cases he
  | cons e rest ih =>
    obtain ⟨hfirst, hnodup⟩ := List.nodup_cons.mp hnodup
    have hfresh : ∀ d ∈ rest, d.owner ≠ e.owner :=
      fun d hd heq => hfirst (heq ▸ List.mem_map_of_mem hd)
    have hmem := fun (d : Entry) (hd : d ∈ rest) => List.mem_cons_of_mem e hd
    obtain ⟨o, hid⟩ : ∃ o, w.operations[e.owner]? = some o :=
      ⟨_, List.getElem?_eq_getElem (hbegun e List.mem_cons_self)⟩
    by_cases hopen : w.outcome? e.owner = none
    · have ho : o.outcome = none := by
        rw [World.outcome?, hid] at hopen
        exact hopen
      obtain ⟨u, hinside, hstill⟩ := exists_passive_attempt hc hid ho
        (hpassive e List.mem_cons_self hopen) (.error (.shutDown e.handle)) (.shutDown e.handle)
        (.shutdown rest count) base
      have hlength : u.operations.length = w.operations.length :=
        hstill.length.trans World.length_recordOutcome
      obtain ⟨v, hrest, hdone⟩ := ih u (hstill.correlator.trans hc)
        (fun d hd => hlength ▸ hbegun d (hmem d hd)) hnodup (fun d hd hunresolved steps hwaits => by
          refine hpassive d (hmem d hd) ?_ steps
            (World.waits_of_recordOutcome (hstill.waits _ _ hwaits))
          rw [hstill.outcome, World.outcome?_recordOutcome hid,
            if_neg (hfresh d hd).symm] at hunresolved
          exact hunresolved)
      refine ⟨v, ?_, .cons (hbegun e List.mem_cons_self) hopen hfresh hstill hdone⟩
      have hturn : Inside base _ (shutdownOn u rest count base) :=
        hinside.tail ⟨.work (by simp), rfl⟩
      exact Relation.ReflTransGen.trans hturn hrest
    · obtain ⟨v, hrest, hdone⟩ := ih w hc (fun d hd => hbegun d (hmem d hd)) hnodup
        (fun d hd => hpassive d (hmem d hd))
      obtain ⟨q, u, ran, hattempt⟩ := exists_attempt w e.owner (.error (.shutDown e.handle))
        (.shutDown e.handle) (.shutdown rest count) base
      have hturn := hattempt.concluded
      obtain ⟨-, -, hpassed⟩ := hattempt.of_resolved hopen
      rw [hpassed] at hturn
      refine ⟨v, Relation.ReflTransGen.trans hturn hrest, hdone.correlator, ?_, ?_⟩
      · intro d hd hunresolved
        rcases List.mem_cons.mp hd with rfl | hlater
        · exact absurd hunresolved hopen
        · exact hdone.resolved d hlater hunresolved
      · intro id hid
        exact hdone.others id (hid.imp_right (fun hnone d hd => hnone d (hmem d hd)))

end CommandBridge

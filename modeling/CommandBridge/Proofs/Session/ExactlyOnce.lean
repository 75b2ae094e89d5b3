import CommandBridge.Proofs.Session.Interleaving
import CommandBridge.Proofs.Session.Runs

/-!
# Every continuation starts exactly once

Steps may be nested in native functions and in continuations to any depth, and handles may be freed
and given out again in between.  Still no continuation starts twice, and back at the top an
operation whose continuation has not started holds its entry.  Once the correlator is closed, every
continuation has started.

* `Step.closes` — shutting down and dropping;
* `Reaches.isClosed` — once such a step was begun at the top, the correlator is closed for good;
* `Session.exactly_once` — the three statements about every state of a session.
-/

namespace CommandBridge

/-! ### Closed correlators -/

/-- A closed correlator has no entries. -/
theorem World.Sound.entries_of_isClosed {w : World} {owed : List OperationId} (h : w.Sound owed)
    (hclosed : w.correlator.isClosed = true) : w.entries = [] := by
  cases hc : w.correlator with
  | absent absence => rw [World.entries, hc]
  | present c =>
    rw [hc] at hclosed
    rw [World.entries_of_present hc]
    exact (h.table c hc).closed_empty hclosed

/-- The step takes everything out of the table, for good. -/
def Step.closes : Step → Bool
  | .shutdown _ => true
  | .drop _ => true
  | _ => false

/-- Shutting down and dropping close the correlator in their first section. -/
theorem Step.isClosed_begin {w : World} {self : Option CommandHandle} {below : Stack} {s : Step}
    (hs : s.closes = true) (hinstalled : w.correlator ≠ .absent .notInstalled)
    (hbelow : isOutermost below = true) :
    (s.begin w self below).1.correlator.isClosed = true := by
  have habsent : ∀ absence, w.correlator = .absent absence → w.correlator.isClosed = true := by
    intro absence hw
    rw [hw]
    cases absence with
    | notInstalled => exact absurd hw hinstalled
    | dropped => rfl
  cases s with
  | shutdown order =>
    cases hw : w.correlator with
    | absent absence =>
      simp only [Step.begin, withCorrelator, hw]
      exact habsent absence hw
    | present c =>
      simp only [Step.begin, withCorrelator, hw]
      rw [(World.quiet_shutdownOn ..).correlator, World.correlator_setTable hw]
      rfl
  | drop order =>
    cases hw : w.correlator with
    | absent absence =>
      simp only [Step.begin, hbelow, withCorrelator, hw, if_true]
      exact habsent absence hw
    | present c =>
      simp only [Step.begin, hbelow, withCorrelator, hw, if_true]
      rw [(World.quiet_dropOn ..).correlator]
      split <;> rfl
  | _ => cases hs

namespace Reaches

variable {c : Correlator} {steps : List Step} {m : World × Stack}

/-- A session starts with a correlator and never goes back to where none was installed. -/
theorem installed (hm : Reaches (Session.start c steps) m) :
    m.1.correlator ≠ .absent .notInstalled := by
  intro hnone
  have hleads : Presence.Leads (.present c) m.1.correlator := hm.precedes.correlator
  rw [hnone] at hleads
  cases hleads

/-- **Once a closing step was begun at the top, the correlator is closed for good.** -/
theorem isClosed (hm : Reaches (Session.start c steps) m) :
    ∃ done rest, steps = done ++ rest ∧ m.2.Rests rest ∧
      ((∃ s ∈ done, Step.closes s = true) → m.1.correlator.isClosed = true) := by
  induction hm with
  | refl =>
    refine ⟨[], steps, rfl, ⟨[], rfl⟩, ?_⟩
    rintro ⟨s, hs, -⟩
    cases hs
  | @tail m n hreaches hmoves ih =>
    obtain ⟨done, rest, hsteps, hrests, hclosed⟩ := ih
    have hkept : m.1.correlator.isClosed = true → n.1.correlator.isClosed = true :=
      hmoves.section.precedes.correlator.isClosed
    rcases hmoves.section.rests hrests with hsame | ⟨s, rest', answers, rfl, hstack, hnext⟩
    · exact ⟨done, rest, hsteps, hsame, fun hdone => hkept (hclosed hdone)⟩
    · refine ⟨done ++ [s], rest', ?_, hnext, ?_⟩
      · rw [hsteps, List.append_assoc]
        rfl
      · rintro ⟨d, hd, hcloses⟩
        rcases List.mem_append.mp hd with hold | hlast
        · exact hkept (hclosed ⟨d, hold, hcloses⟩)
        · obtain rfl := List.mem_singleton.mp hlast
          have hadvance : advance m.1 m.2 = some n := hmoves
          rw [hstack] at hadvance
          have hbegin := Option.some.inj hadvance
          rw [← hbegin]
          exact Step.isClosed_begin hcloses (Reaches.installed hreaches) rfl

end Reaches

/-! ### The result -/

namespace World.Sound

variable {w : World}

/-- If nobody owes anything, an operation whose continuation has not started holds its entry. -/
theorem holds_of_timesRun_eq_zero (h : w.Sound []) {id : OperationId}
    (hid : id < w.operations.length) (hzero : w.timesRun id = 0) : ∃ handle, w.Holds id handle := by
  have hopen := h.outcome?_eq_none_iff.mpr hzero
  have hmem := h.covered id hid hopen
  rw [List.append_nil] at hmem
  exact h.holds_of_mem_owners hmem

/-- If nobody owes anything and nothing is in the table, every continuation has started. -/
theorem timesRun_eq_one (h : w.Sound []) (hentries : w.entries = []) {id : OperationId}
    (hid : id < w.operations.length) : w.timesRun id = 1 := by
  have hle := h.timesRun_le_one id
  have hne : w.timesRun id ≠ 0 := by
    intro hzero
    obtain ⟨handle, hholds⟩ := h.holds_of_timesRun_eq_zero hid hzero
    have hmem := mem_owners_of_holds hholds
    rw [owners, hentries] at hmem
    cases hmem
  omega

end World.Sound

namespace Session

variable {c : Correlator} {steps : List Step}

/-- At the top, with a shutdown or a drop behind, every continuation has started. -/
theorem timesRun_eq_one_of_closes (hc : c.IsFresh) (hseeds : ∀ n ∈ Step.seedsIn steps, 0 < n)
    (hroom : ∀ m, Reaches (start c steps) m → m.1.HasRoom) {m : World × Stack}
    (hm : Reaches (start c steps) m) {done rest : List Step} {answers : List Answer}
    (hsteps : steps = done ++ rest) (htop : m.2 = [.script none rest answers])
    (hcloses : ∃ s ∈ done, s.closes = true) {id : OperationId}
    (hid : id < m.1.operations.length) : m.1.timesRun id = 1 := by
  have hsound := hm.sound hc hseeds hroom
  obtain ⟨done', rest', hsteps', hrests, hclosed⟩ := hm.isClosed
  have hrest : rest' = rest := by
    rw [htop] at hrests
    obtain ⟨_, heq⟩ := hrests
    cases heq
    rfl
  subst hrest
  have hdone : done' = done := List.append_cancel_right (hsteps'.symm.trans hsteps)
  subst hdone
  have howed : m.2.owed = [] := Stack.AtTop.owed ⟨rest', answers, htop⟩
  rw [howed] at hsound
  exact hsound.timesRun_eq_one (hsound.entries_of_isClosed (hclosed hcloses)) hid

/-- **Every continuation starts exactly once.**  In every state that a session with a fresh
correlator and room reaches:

* no continuation has started twice;
* at the top, every operation whose continuation has not started holds its own entry under the
  handle that its native function was given;
* at the top with a shutdown or a drop behind, every continuation has started once.

And every session comes back to the top, so one with a shutdown or a drop among its steps ends with
every continuation started once. -/
theorem exactly_once (hc : c.IsFresh) (hseeds : ∀ n ∈ Step.seedsIn steps, 0 < n)
    (hroom : ∀ m, Reaches (start c steps) m → m.1.HasRoom) :
    (∀ m, Reaches (start c steps) m →
      (∀ id, m.1.timesRun id ≤ 1) ∧
      (m.2.AtTop → ∀ id, id < m.1.operations.length → m.1.timesRun id = 0 →
        ∃ h, m.1.Holds id h) ∧
      (∀ done rest answers, steps = done ++ rest → m.2 = [.script none rest answers] →
        (∃ s ∈ done, s.closes = true) →
          ∀ id, id < m.1.operations.length → m.1.timesRun id = 1)) ∧
    ((World.start c).runSteps steps).2.AtTop ∧
    ((∃ s ∈ steps, s.closes = true) →
      ∀ id, id < ((World.start c).runSteps steps).1.operations.length →
        ((World.start c).runSteps steps).1.timesRun id = 1) := by
  obtain ⟨hend, answers, htop⟩ := atTop_runSteps c steps
  refine ⟨fun m hm => ⟨?_, ?_, ?_⟩, ⟨[], answers, htop⟩, ?_⟩
  · exact (hm.sound hc hseeds hroom).timesRun_le_one
  · intro hatTop id hid hzero
    have hsound := hm.sound hc hseeds hroom
    rw [hatTop.owed] at hsound
    exact hsound.holds_of_timesRun_eq_zero hid hzero
  · intro done rest answers hsteps htop hcloses id hid
    exact timesRun_eq_one_of_closes hc hseeds hroom hm hsteps htop hcloses hid
  · intro hcloses id hid
    have hsteps : steps = steps ++ [] := (List.append_nil steps).symm
    exact timesRun_eq_one_of_closes hc hseeds hroom hend hsteps htop hcloses hid

/-- A completion comes while the native function still runs, its continuation issues a command that
fails, and the last command is pending when the correlator shuts down. -/
def nested : List Step :=
  [.submit "open_wallet" (fun _ => 0) [.deliver .self 0 (.handle 7)]
    [.submit "close_wallet" (fun _ => 200) [] []],
   .submit "list_pools" (fun _ => 0) [] [],
   .shutdown []]

/-- Before the shutdown, the last of the three commands holds its entry; in the end all
continuations have started once. -/
theorem exactly_once_nested :
    (∃ m, Reaches (start {} nested) m ∧ m.1.timesRun 2 = 0 ∧ ∃ h, m.1.Holds 2 h) ∧
      ∀ id, id < ((World.start {}).runSteps nested).1.operations.length →
        ((World.start {}).runSteps nested).1.timesRun id = 1 := by
  have hfresh : Correlator.IsFresh {} := ⟨rfl, by decide⟩
  have hseeds : ∀ n ∈ Step.seedsIn nested, 0 < n := by
    have hnone : Step.seedsIn nested = [] := rfl
    rw [hnone]
    exact List.forall_mem_nil _
  have hsize : Step.sizes nested < Allocator.fullTurn := by decide
  obtain ⟨hstates, -, hend⟩ := exactly_once hfresh hseeds
    (fun m hm => hasRoom hfresh hseeds hsize hm)
  refine ⟨?_, hend ⟨.shutdown [], by simp [nested], rfl⟩⟩
  -- thirteen sections later, only the shutdown is left
  obtain ⟨m, hm, hworld, hrunning⟩ := Reaches.follow (start {} nested) 13
  have hlength : 2 < m.1.operations.length := by
    rw [← hworld]
    decide
  have hzero : m.1.timesRun 2 = 0 := by
    rw [← hworld]
    decide
  have htop : m.2.AtTop := by
    rw [← (List.cons.inj hrunning).1]
    exact ⟨_, _, rfl⟩
  obtain ⟨-, hholds, -⟩ := hstates m hm
  exact ⟨m, hm, hzero, hholds htop 2 hlength hzero⟩

end Session

end CommandBridge

import CommandBridge.Proofs.Session.Handles

/-!
# How old an entry is

Every entry bears a time.  It is the time at which the operation was registered, and the clock never
goes back.  So what the clock shows more than an entry bears has elapsed since its registration.

* `World.GivesOut.createdAt_eq`, `World.GivesOut.of_new` — an entry that is new after a section was
  given out by this section, and bears the time of it;
* `Session.RegisteredAt` — when, in the course of a session, an entry was registered;
* `Session.registeredAt_iff` — an entry in the table was registered at the time that it bears, and
  at no other;
* `World.due`, `Session.stale_eq_due` — the entries that were registered long enough ago.
-/

namespace CommandBridge

namespace World.GivesOut

variable {w v : World} {stack : Stack} {e : Entry}

/-- A section gives out an entry that bears the time of the section. -/
theorem createdAt_eq (h : w.GivesOut v e) (heffect : Effect w stack v) :
    e.createdAt = w.clock := by
  rcases heffect.registers with hsublist | ⟨d, -, hclock, hentries⟩
  · have hlength := hsublist.length_le
    rw [h.entered, List.length_append, List.length_singleton] at hlength
    omega
  · rw [h.entered] at hentries
    obtain rfl := List.singleton_injective (List.append_cancel_left hentries)
    exact hclock

/-- An entry that a section adds is given out by it. -/
theorem of_new {owed : List OperationId} (heffect : Effect w stack v) (hsound : w.Sound owed)
    (hfits : v.Fits) (hnew : e ∈ v.entries) (hold : e ∉ w.entries) : w.GivesOut v e := by
  rcases heffect.registers with hsublist | ⟨d, -, -, hentries⟩
  · exact absurd (hsublist.subset hnew) hold
  · have hroom : w.HasRoom := by
      rw [Fits, hentries, List.length_append] at hfits
      exact hfits
    rcases heffect.gives hsound hroom with ⟨-, hsublist⟩ | ⟨d, hgives⟩
    · exact absurd (hsublist.subset hnew) hold
    · rw [hgives.entered] at hnew
      rcases List.mem_append.mp hnew with hmem | hmem
      · exact absurd hmem hold
      · rwa [List.mem_singleton.mp hmem]

end World.GivesOut

/-- The entries that were registered at least `age` milliseconds ago. -/
def World.due (w : World) (age : Nat) : List Entry :=
  w.entries.filter (fun e => e.createdAt + age ≤ w.clock)

theorem World.mem_due {w : World} {age : Nat} {e : Entry} :
    e ∈ w.due age ↔ e ∈ w.entries ∧ e.createdAt + age ≤ w.clock := by
  rw [due, List.mem_filter, decide_eq_true_iff]

theorem World.due_sublist (w : World) (age : Nat) : (w.due age).Sublist w.entries :=
  List.filter_sublist

/-- What is due belongs to operations that were begun, in whatever order it is taken. -/
theorem World.Sound.begun_of_due {w : World} {owed : List OperationId} (h : w.Sound owed)
    {order : Arrangement} {age : Nat} {e : Entry} (he : e ∈ order.apply (w.due age)) :
    e.owner < w.operations.length :=
  h.owner_lt ((w.due_sublist age).subset ((order.apply_perm _).mem_iff.mp he))

namespace Session

/-- On the way from `s` to `m` a section gave the entry out, when the clock stood at `time`. -/
def RegisteredAt (s m : World × Stack) (e : Entry) (time : Nat) : Prop :=
  ∃ p q, Reaches s p ∧ Moves p q ∧ Reaches q m ∧ p.1.GivesOut q.1 e ∧ p.1.clock = time

namespace RegisteredAt

variable {s m n : World × Stack} {e : Entry} {time : Nat}

theorem moves (h : RegisteredAt s m e time) (hmoves : Moves m n) : RegisteredAt s n e time := by
  obtain ⟨p, q, hp, hpq, hqm, hgives, htime⟩ := h
  exact ⟨p, q, hp, hpq, hqm.tail hmoves, hgives, htime⟩

/-- What was registered bears the time of its registration. -/
theorem createdAt_eq (h : RegisteredAt s m e time) : e.createdAt = time := by
  obtain ⟨p, q, -, hpq, -, hgives, rfl⟩ := h
  exact hgives.createdAt_eq hpq.section.effect

/-- Nothing is registered in the future. -/
theorem le_clock (h : RegisteredAt s m e time) : time ≤ m.1.clock := by
  obtain ⟨p, q, -, hpq, hqm, -, rfl⟩ := h
  exact Nat.le_trans hpq.section.precedes.clock hqm.precedes.clock

end RegisteredAt

section Reachable

variable {c : Correlator} {steps : List Step} {m : World × Stack} {e : Entry}

/-- **Whatever is in the table was registered on the way**, at the time that it bears. -/
theorem registeredAt_of_mem (hc : c.IsFresh) (hseeds : ∀ n ∈ Step.seedsIn steps, 0 < n)
    (hfits : ∀ m, Reaches (start c steps) m → m.1.Fits) (hm : Reaches (start c steps) m)
    (he : e ∈ m.1.entries) : RegisteredAt (start c steps) m e e.createdAt := by
  induction hm with
  | refl =>
    have hentries : (start c steps).1.entries = [] := hc.empty
    rw [hentries] at he
    cases he
  | @tail p q hp hmoves ih =>
    by_cases hold : e ∈ p.1.entries
    · exact (ih hold).moves hmoves
    · have hsound := Reaches.sound_of_fits hc hseeds hfits hp
      have heffect := hmoves.section.effect
      have hgives := World.GivesOut.of_new heffect hsound (hfits q (hp.tail hmoves)) he hold
      exact ⟨p, q, hp, hmoves, .refl, hgives, (hgives.createdAt_eq heffect).symm⟩

/-- An entry in the table was registered once, at the time that it bears. -/
theorem registeredAt_iff (hc : c.IsFresh) (hseeds : ∀ n ∈ Step.seedsIn steps, 0 < n)
    (hfits : ∀ m, Reaches (start c steps) m → m.1.Fits) (hm : Reaches (start c steps) m)
    (he : e ∈ m.1.entries) {time : Nat} :
    RegisteredAt (start c steps) m e time ↔ time = e.createdAt := by
  constructor
  · intro h
    exact h.createdAt_eq.symm
  · rintro rfl
    exact registeredAt_of_mem hc hseeds hfits hm he

/-- **The entries that a sweep looks up are those that were registered long enough ago.** -/
theorem stale_eq_due (hc : c.IsFresh) (hseeds : ∀ n ∈ Step.seedsIn steps, 0 < n)
    (hfits : ∀ m, Reaches (start c steps) m → m.1.Fits) (hm : Reaches (start c steps) m)
    {d : Correlator} (hd : m.1.correlator = .present d) (age : Nat) :
    d.table.stale m.1.clock age = m.1.due age := by
  rw [World.due, World.entries_of_present hd]
  refine List.filter_congr (fun e he => ?_)
  rw [← World.entries_of_present hd] at he
  have hpast : e.createdAt ≤ m.1.clock := (registeredAt_of_mem hc hseeds hfits hm he).le_clock
  rw [decide_eq_decide]
  omega

end Reachable

end Session

end CommandBridge

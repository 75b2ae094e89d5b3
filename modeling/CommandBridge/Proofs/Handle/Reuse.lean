import CommandBridge.Proofs.Handle.Cycle

/-!
# How late a handle comes back

A freed handle may be handed out again, but a completion that is still under way under it would
then reach the wrong command.  The allocator puts this off for as long as the circle allows: between
two times it hands out one handle, it offers every other one.  This file proves that of a whole
history of allocations, among handles that come into use and become free between one allocation and
the next in any way whatever:

* `Allocator.skipped` — the handles a search passes over;
* `Allocator.history` — a sequence of allocations on one allocator, each with what it passed over;
* `Allocator.Ahead` — that the counter comes to one handle before it comes to another;
* `search_of_ahead` — an allocation either offers the handle that is ahead or leaves it ahead;
* `offered_before_reuse` — between two times one handle is handed out, each of the others is handed
  out or found in use.
-/

namespace CommandBridge

namespace Allocator

/-! ### What a search looks at -/

/-- The handles a search passes over because they are in use, in the order of the search. -/
def skipped (inUse : CommandHandle → Bool) : Nat → Int32 → List CommandHandle
  | 0, _ => []
  | turns + 1, n =>
    if inUse ⟨n⟩ then ⟨n⟩ :: skipped inUse turns (successor n) else []

theorem skipped_of_free {inUse : CommandHandle → Bool} {n : Int32} (h : inUse ⟨n⟩ = false) :
    ∀ turns, skipped inUse turns n = []
  | 0 => rfl
  | _ + 1 => by simp [skipped, h]

theorem skipped_of_inUse {inUse : CommandHandle → Bool} {n : Int32} (h : inUse ⟨n⟩ = true)
    (turns : Nat) :
    skipped inUse (turns + 1) n = ⟨n⟩ :: skipped inUse turns (successor n) := by
  simp [skipped, h]

/-- A search passes over nothing but handles in use. -/
theorem inUse_of_mem_skipped {inUse : CommandHandle → Bool} {h : CommandHandle} {turns : Nat}
    {n : Int32} (hmem : h ∈ skipped inUse turns n) : inUse h = true := by
  induction turns generalizing n with
  | zero => cases hmem
  | succ turns ih =>
    by_cases huse : inUse ⟨n⟩ = true
    · rw [skipped_of_inUse huse] at hmem
      rcases List.mem_cons.mp hmem with rfl | htail
      · exact huse
      · exact ih htail
    · rw [skipped_of_free (by simpa using huse)] at hmem
      cases hmem

/-! ### The way round, once more -/

/-- Two handles as many steps away are the same one. -/
theorem eq_of_distance_eq {n m v : Int32} (hm : 0 < m) (hv : 0 < v)
    (h : distance n m = distance n v) : m = v := by
  obtain ⟨hm', hmle⟩ := toInt_bounds hm
  obtain ⟨hv', hvle⟩ := toInt_bounds hv
  rw [← Int32.toInt_inj]
  unfold distance at h
  omega

/-- Back to a handle just left it is the whole circle but the step already taken. -/
theorem distance_successor_self {n : Int32} (hn : 0 < n) :
    distance (successor n) n + 1 = fullTurn := by
  obtain ⟨hn', hnle⟩ := toInt_bounds hn
  unfold distance fullTurn
  rw [toInt_successor hn]
  split <;> omega

/-- From `n` on, the counter comes to `v` before it comes to `h`. -/
def Ahead (n v h : Int32) : Prop :=
  distance n v < distance n h

/-- Behind a handle, every other one is ahead of it. -/
theorem ahead_successor {h v : Int32} (hh : 0 < h) (hv : 0 < v) (hne : v ≠ h) :
    Ahead (successor h) v h := by
  have hlast := distance_successor_self hh
  have hlt := distance_lt (successor h) v
  have hother : distance (successor h) v ≠ distance (successor h) h :=
    fun e => hne (eq_of_distance_eq hv hh e)
  show distance (successor h) v < distance (successor h) h
  omega

theorem Ahead.ne {n v h : Int32} (hahead : Ahead n v h) : n ≠ h := by
  rintro rfl
  have hzero : distance n n = 0 := by
    unfold distance
    omega
  have hlt : distance n v < distance n n := hahead
  omega

/-- A step that does not stand on `v` leaves it ahead. -/
theorem Ahead.successor {n v h : Int32} (hahead : Ahead n v h) (hn : 0 < n) (hv : 0 < v)
    (hh : 0 < h) (hne : n ≠ v) : Ahead (successor n) v h := by
  have hlt : distance n v < distance n h := hahead
  have hstepv := distance_successor hn hv hne
  have hsteph := distance_successor hn hh hahead.ne
  show distance (Allocator.successor n) v < distance (Allocator.successor n) h
  omega

/-! ### One allocation -/

theorem search_next (inUse : CommandHandle → Bool) (turns : Nat) (n : Int32) :
    (search inUse turns n).2.next = successor (search inUse turns n).1.raw := by
  induction turns generalizing n with
  | zero => rfl
  | succ turns ih =>
    by_cases huse : inUse ⟨n⟩ = true
    · rw [search_of_inUse huse]
      exact ih (successor n)
    · rw [search_of_free (by simpa using huse)]

/-- **The step lemma.**  A search that has `v` ahead of `h` passes over `v`, or ends on it, or ends
before it: then not on `h`, and with `v` still ahead of `h`. -/
theorem search_of_ahead {inUse : CommandHandle → Bool} {v h : Int32} (hv : 0 < v) (hh : 0 < h)
    (turns : Nat) (n : Int32) (hn : 0 < n) (hahead : Ahead n v h) :
    (⟨v⟩ : CommandHandle) ∈ skipped inUse turns n ∨ (search inUse turns n).1 = ⟨v⟩ ∨
      ((search inUse turns n).1 ≠ ⟨h⟩ ∧ Ahead (search inUse turns n).2.next v h) := by
  -- A search that stops where it stands stops on `v` or before it.
  have hstop : ∀ n : Int32, 0 < n → Ahead n v h →
      (⟨n⟩ : CommandHandle) = ⟨v⟩ ∨ ((⟨n⟩ : CommandHandle) ≠ ⟨h⟩ ∧ Ahead (successor n) v h) := by
    intro n hn hahead
    by_cases hnv : n = v
    · exact .inl (by rw [hnv])
    · refine .inr ⟨fun e => hahead.ne (congrArg CommandHandle.raw e), ?_⟩
      exact hahead.successor hn hv hh hnv
  induction turns generalizing n with
  | zero => exact .inr (hstop n hn hahead)
  | succ turns ih =>
    by_cases huse : inUse ⟨n⟩ = true
    · rw [skipped_of_inUse huse, search_of_inUse huse]
      by_cases hnv : n = v
      · exact .inl (by rw [hnv]; exact List.mem_cons_self)
      · rcases ih (successor n) (successor_pos hn) (hahead.successor hn hv hh hnv) with h1 | h2
        · exact .inl (List.mem_cons_of_mem _ h1)
        · exact .inr h2
    · rw [search_of_free (by simpa using huse)]
      exact .inr (hstop n hn hahead)

/-- A handle that is the only free one is handed out, however far it is. -/
theorem allocate_of_only {a : Allocator} {inUse : CommandHandle → Bool} {m : Int32}
    (ha : 0 < a.next) (hm : 0 < m) (hfree : inUse ⟨m⟩ = false)
    (honly : ∀ h, inUse h = false → h = ⟨m⟩) : (a.allocate inUse).1 = ⟨m⟩ :=
  honly _ (search_spec hm hfree fullTurn a.next ha (Nat.le_of_lt (distance_lt a.next m))).1

/-! ### A history of allocations -/

/-- One allocation of a history: the handles in use when it was made, those it passed over, and the
one it handed out. -/
structure Allocation where
  inUse : CommandHandle → Bool
  skipped : List CommandHandle
  handle : CommandHandle

namespace Allocation

/-- The allocation found the handle free and handed it out, or found it in use and passed over
it. -/
def Offers (x : Allocation) (h : CommandHandle) : Prop :=
  (x.handle = h ∧ x.inUse h = false) ∨ (h ∈ x.skipped ∧ x.inUse h = true)

end Allocation

/-- Allocations one after another on one allocator.  The predicates say what is in use at each of
them; nothing ties one of them to the next. -/
def history (a : Allocator) : List (CommandHandle → Bool) → List Allocation
  | [] => []
  | inUse :: later =>
    ⟨inUse, skipped inUse fullTurn a.next, (a.allocate inUse).1⟩ ::
      history (a.allocate inUse).2 later

/-- Every allocation of a history finds some positive handle free. -/
def LeaveFree (requests : List (CommandHandle → Bool)) : Prop :=
  ∀ inUse ∈ requests, ∃ m : Int32, 0 < m ∧ inUse ⟨m⟩ = false

theorem LeaveFree.allocate {a : Allocator} {inUse : CommandHandle → Bool}
    {later : List (CommandHandle → Bool)} (hfree : LeaveFree (inUse :: later)) (ha : 0 < a.next) :
    inUse (a.allocate inUse).1 = false ∧ 0 < (a.allocate inUse).1.raw ∧
      0 < (a.allocate inUse).2.next := by
  obtain ⟨m, hm, hmfree⟩ := hfree inUse List.mem_cons_self
  exact search_spec hm hmfree fullTurn a.next ha (Nat.le_of_lt (distance_lt a.next m))

theorem LeaveFree.later {inUse : CommandHandle → Bool} {later : List (CommandHandle → Bool)}
    (hfree : LeaveFree (inUse :: later)) : LeaveFree later :=
  fun r hr => hfree r (List.mem_cons_of_mem _ hr)

/-- As long as `v` is ahead of `h`, a history does not come to `h` without offering `v`. -/
theorem exists_offers_of_ahead {v h : Int32} (hv : 0 < v) (hh : 0 < h)
    (requests : List (CommandHandle → Bool)) (a : Allocator) (ha : 0 < a.next)
    (hfree : LeaveFree requests) (hahead : Ahead a.next v h) {j : Nat} {y : Allocation}
    (hj : (a.history requests)[j]? = some y) (hy : y.handle = ⟨h⟩) :
    ∃ k z, k ≤ j ∧ (a.history requests)[k]? = some z ∧ z.Offers ⟨v⟩ := by
  induction requests generalizing a j with
  | nil => cases hj
  | cons inUse later ih =>
    obtain ⟨hgiven, -, hnext⟩ := hfree.allocate ha
    rcases @search_of_ahead inUse v h hv hh fullTurn a.next ha hahead with
      hskip | hhand | ⟨hother, hstill⟩
    · exact ⟨0, _, Nat.zero_le j, rfl, .inr ⟨hskip, inUse_of_mem_skipped hskip⟩⟩
    · have hfreev : inUse ⟨v⟩ = false := by
        rw [← hhand]
        exact hgiven
      exact ⟨0, _, Nat.zero_le j, rfl, .inl ⟨hhand, hfreev⟩⟩
    · cases j with
      | zero =>
        have hfirst : y.handle = (a.allocate inUse).1 := by
          rw [← Option.some.inj hj]
        exact absurd (hfirst.symm.trans hy) hother
      | succ j =>
        obtain ⟨k, z, hk, hz, hoffers⟩ := ih (a.allocate inUse).2 hnext hfree.later hstill hj
        exact ⟨k + 1, z, Nat.succ_le_succ hk, hz, hoffers⟩

/-- **Every other handle comes first.**  Between two allocations of one history that hand out the
same handle, each of the other positive handles is handed out or found in use. -/
theorem offered_before_reuse (a : Allocator) (requests : List (CommandHandle → Bool))
    (ha : 0 < a.next) (hfree : LeaveFree requests) {i j : Nat} {x y : Allocation} (hij : i < j)
    (hi : (a.history requests)[i]? = some x) (hj : (a.history requests)[j]? = some y)
    (hxy : x.handle = y.handle) (v : Int32) (hv : 0 < v) (hne : v ≠ x.handle.raw) :
    ∃ k z, i < k ∧ k ≤ j ∧ (a.history requests)[k]? = some z ∧ z.Offers ⟨v⟩ := by
  induction requests generalizing a i j with
  | nil => cases hi
  | cons inUse later ih =>
    obtain ⟨-, hpos, hnext⟩ := hfree.allocate ha
    cases j with
    | zero => exact absurd hij (Nat.not_lt_zero i)
    | succ j =>
      cases i with
      | zero =>
        have hx : x.handle = (a.allocate inUse).1 := by
          rw [← Option.some.inj hi]
        -- The counter stands right behind the handle, so every other one is ahead of it.
        have hahead : Ahead (a.allocate inUse).2.next v x.handle.raw := by
          rw [allocate, search_next, ← allocate, hx]
          exact ahead_successor hpos hv (hx ▸ hne)
        obtain ⟨k, z, hk, hz, hoffers⟩ := exists_offers_of_ahead hv (hx ▸ hpos) later
          (a.allocate inUse).2 hnext hfree.later hahead hj hxy.symm
        exact ⟨k + 1, z, Nat.succ_pos k, Nat.succ_le_succ hk, hz, hoffers⟩
      | succ i =>
        obtain ⟨k, z, hik, hkj, hz, hoffers⟩ :=
          ih (a.allocate inUse).2 hnext hfree.later (Nat.lt_of_succ_lt_succ hij) hi hj
        exact ⟨k + 1, z, Nat.succ_lt_succ hik, Nat.succ_le_succ hkj, hz, hoffers⟩

/-- Handle 5 is handed out, then 6, and then 5 again because all the others are in use by now:
before that, 1 was offered. -/
theorem offered_before_reuse_of_five :
    ∃ k z, 0 < k ∧ k ≤ 2 ∧
      (history ⟨5⟩ [fun _ => false, fun _ => false, fun h => h.raw != 5])[k]? = some z ∧
      z.Offers ⟨1⟩ := by
  have hfree : LeaveFree [fun _ => false, fun _ => false, fun h => h.raw != 5] := by
    intro inUse hmem
    refine ⟨5, by decide, ?_⟩
    rcases List.mem_cons.mp hmem with rfl | hmem
    · rfl
    · rcases List.mem_cons.mp hmem with rfl | hmem
      · rfl
      · rw [List.mem_singleton.mp hmem]
        rfl
  have h0 : allocate ⟨5⟩ (fun _ => false) = (⟨5⟩, ⟨6⟩) := search_of_free rfl fullTurn
  have h1 : allocate ⟨6⟩ (fun _ => false) = (⟨6⟩, ⟨7⟩) := search_of_free rfl fullTurn
  have h2 : (allocate ⟨7⟩ (fun h => h.raw != 5)).1 = ⟨5⟩ :=
    allocate_of_only (by decide) (by decide) rfl (fun h hh => by
      have hraw : h.raw = 5 := by simpa using hh
      exact congrArg CommandHandle.mk hraw)
  have hi : (history ⟨5⟩ [fun _ => false, fun _ => false, fun h => h.raw != 5])[0]? =
      some ⟨fun _ => false, skipped (fun _ => false) fullTurn 5, ⟨5⟩⟩ := by
    rw [history, h0]
    rfl
  have hj : (history ⟨5⟩ [fun _ => false, fun _ => false, fun h => h.raw != 5])[2]? =
      some ⟨fun h => h.raw != 5, skipped (fun h => h.raw != 5) fullTurn 7, ⟨5⟩⟩ := by
    rw [history, h0, history, h1, history, h2]
    rfl
  exact offered_before_reuse ⟨5⟩ _ (by decide) hfree (by decide) hi hj rfl 1 (by decide) (by decide)

end Allocator

end CommandBridge

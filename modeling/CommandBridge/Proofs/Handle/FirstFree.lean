import CommandBridge.Proofs.Handle.Reuse
import Mathlib.Data.Nat.Find
import Mathlib.Data.Nat.ModEq

/-!
# The walk to the first free handle

An allocation walks along the circle of handles until it comes to one that is free.  Nothing tells
it when to give up, so that it ends at all, and after how many looks, is a matter of proof.  Here
the walk is taken one look at a time, without a bound, and with an addition that may fail:

* `Allocator.along`, `Allocator.stretch` — the handles from a given one on, in the cyclic order;
* `Allocator.Walk` — how far a walk has come, `Walk.step` — one look, `Walk.after` — so many looks;
* `Allocator.FirstFree` — so many handles in use in a row, and then a free one;
* `after_of_inUse`, `FirstFree.arrives` — what any number of looks comes to;
* `FirstFree.search_eq` — a search that is allowed so many turns ends where the walk does;
* `allocation_exact` — the looks of an allocation, its handle and the counter it leaves;
* `arrives_iff` — a walk comes to an end only because a handle is free.
-/

namespace CommandBridge

namespace Allocator

/-! ### Along the circle -/

/-- The handle `j` steps behind `n` in the cyclic order. -/
def along (n : Int32) (j : Nat) : CommandHandle :=
  nth ((index ⟨n⟩ + j) % fullTurn)

/-- The `t` handles from `n` on, in the cyclic order. -/
def stretch (n : Int32) (t : Nat) : List CommandHandle :=
  (List.range t).map (along n)

theorem fullTurn_pos : 0 < fullTurn := by
  unfold fullTurn
  omega

theorem index_along (n : Int32) (j : Nat) : index (along n j) = (index ⟨n⟩ + j) % fullTurn :=
  index_nth (Nat.mod_lt _ fullTurn_pos)

theorem index_lt {n : Int32} (hn : 0 < n) : index ⟨n⟩ < fullTurn := by
  obtain ⟨hn', hnle⟩ := toInt_bounds hn
  show (n.toInt - 1).toNat < 2147483647
  omega

theorem nth_index {n : Int32} (hn : 0 < n) : nth (index ⟨n⟩) = ⟨n⟩ := by
  obtain ⟨hn', -⟩ := toInt_bounds hn
  have hraw : (nth (index ⟨n⟩)).raw = n := by
    rw [← Int32.toInt_inj, nth, toInt_ofNat_succ (index_lt hn)]
    show ((n.toInt - 1).toNat : Int) + 1 = n.toInt
    omega
  exact congrArg CommandHandle.mk hraw

theorem along_pos (n : Int32) (j : Nat) : 0 < (along n j).raw :=
  nth_pos (Nat.mod_lt _ fullTurn_pos)

theorem along_zero {n : Int32} (hn : 0 < n) : along n 0 = ⟨n⟩ := by
  rw [along, Nat.add_zero, Nat.mod_eq_of_lt (index_lt hn), nth_index hn]

/-- At the end of the circle, too, the counter goes on to the next place. -/
theorem successor_nth_mod {k : Nat} (h : k < fullTurn) :
    successor (nth k).raw = (nth ((k + 1) % fullTurn)).raw := by
  by_cases hlast : k + 1 = fullTurn
  · rw [hlast, Nat.mod_self, show k = 2147483646 from Nat.succ.inj hlast]
    rfl
  · have hlt : k + 1 < fullTurn := by omega
    rw [Nat.mod_eq_of_lt hlt, successor_nth hlt]

theorem successor_along (n : Int32) (j : Nat) :
    successor (along n j).raw = (along n (j + 1)).raw := by
  rw [along, successor_nth_mod (Nat.mod_lt _ fullTurn_pos), Nat.mod_add_mod]
  rfl

theorem along_successor {n : Int32} (hn : 0 < n) (j : Nat) :
    along (successor n) j = along n (j + 1) := by
  have hone : (⟨successor n⟩ : CommandHandle) = along n 1 := by
    have h := successor_along n 0
    rw [along_zero hn] at h
    exact congrArg CommandHandle.mk h
  rw [along, hone, index_along, Nat.mod_add_mod, Nat.add_assoc, Nat.add_comm 1 j]
  rfl

/-- Every positive handle is on the way. -/
theorem along_distance {n m : Int32} (hn : 0 < n) (hm : 0 < m) : along n (distance n m) = ⟨m⟩ := by
  obtain ⟨hn', -⟩ := toInt_bounds hn
  obtain ⟨hm', hmle⟩ := toInt_bounds hm
  have hplace : (index ⟨n⟩ + distance n m) % fullTurn = index ⟨m⟩ := by
    show ((n.toInt - 1).toNat + ((m.toInt - n.toInt) % 2147483647).toNat) % 2147483647 =
      (m.toInt - 1).toNat
    omega
  rw [along, hplace, nth_index hm]

theorem along_inj {n : Int32} {i j : Nat} (hi : i < fullTurn) (hj : j < fullTurn)
    (h : along n i = along n j) : i = j := by
  have hplace := nth_inj (Nat.mod_lt _ fullTurn_pos) (Nat.mod_lt _ fullTurn_pos) h
  exact (Nat.ModEq.add_left_cancel' _ hplace).eq_of_lt_of_lt hi hj

theorem stretch_succ (n : Int32) (t : Nat) : stretch n (t + 1) = stretch n t ++ [along n t] := by
  rw [stretch, List.range_succ, List.map_append]
  rfl

theorem stretch_cons {n : Int32} (hn : 0 < n) (t : Nat) :
    stretch n (t + 1) = ⟨n⟩ :: stretch (successor n) t := by
  rw [stretch, List.range_succ_eq_map, List.map_cons, along_zero hn, List.map_map]
  exact congrArg _ (List.map_congr_left fun j _ => (along_successor hn j).symm)

theorem length_stretch (n : Int32) (t : Nat) : (stretch n t).length = t := by
  rw [stretch, List.length_map, List.length_range]

/-- Within one turn of the circle no handle comes twice. -/
theorem nodup_stretch {t : Nat} (n : Int32) (h : t ≤ fullTurn) : (stretch n t).Nodup := by
  refine List.Nodup.map_on (fun i hi j hj hij => ?_) List.nodup_range
  have hi' : i < fullTurn := Nat.lt_of_lt_of_le (List.mem_range.mp hi) h
  have hj' : j < fullTurn := Nat.lt_of_lt_of_le (List.mem_range.mp hj) h
  exact along_inj hi' hj' hij

/-! ### One look after the other -/

/-- The number after `n` in the cyclic order, with an addition that fails where the sum is not a
32-bit number. -/
def successor? (n : Int32) : Option Int32 :=
  if n = CommandHandle.largest then some 1
  else if n.toInt + 1 ≤ Int32.maxValue.toInt then some (n + 1) else none

/-- Nothing is ever added to the largest number. -/
theorem successor?_eq (n : Int32) : successor? n = some (successor n) := by
  by_cases hlargest : n = CommandHandle.largest
  · rw [successor?, if_pos hlargest, successor, if_pos hlargest]
  · have hle : n.toInt ≤ 2147483647 := Int32.toInt_le n
    have hne : n.toInt ≠ 2147483647 := fun h => hlargest (Int32.toInt_inj.mp h)
    have hfits : n.toInt + 1 ≤ Int32.maxValue.toInt := by
      show n.toInt + 1 ≤ 2147483647
      omega
    rw [successor?, if_neg hlargest, if_pos hfits, successor, if_neg hlargest]

/-- How far a walk along the circle has come. -/
inductive Walk where
  /-- All handles it looked at are in use, and `next` is the one to look at. -/
  | walking (looked : List CommandHandle) (next : Int32)
  /-- The counter could not be moved on. -/
  | overflowed
  /-- The last handle it looked at is free; `rest` goes on behind it. -/
  | arrived (looked : List CommandHandle) (handle : CommandHandle) (rest : Allocator)
  deriving DecidableEq, Repr

namespace Walk

/-- One look: the counter moves on before anybody asks whether the handle is in use. -/
def step (inUse : CommandHandle → Bool) : Walk → Walk
  | walking looked n =>
    match successor? n with
    | none => overflowed
    | some next =>
      if inUse ⟨n⟩ then walking (looked ++ [⟨n⟩]) next
      else arrived (looked ++ [⟨n⟩]) ⟨n⟩ ⟨next⟩
  | ended => ended

/-- A walk from the counter of an allocator on, after `t` looks.  There may be any number of
them. -/
def after (inUse : CommandHandle → Bool) (a : Allocator) : Nat → Walk
  | 0 => walking [] a.next
  | t + 1 => (after inUse a t).step inUse

variable {inUse : CommandHandle → Bool}

theorem step_of_inUse {h : CommandHandle} (looked : List CommandHandle) (huse : inUse h = true) :
    (walking looked h.raw).step inUse = walking (looked ++ [h]) (successor h.raw) := by
  rw [step, successor?_eq]
  exact if_pos huse

theorem step_of_free {h : CommandHandle} (looked : List CommandHandle) (hfree : inUse h = false) :
    (walking looked h.raw).step inUse = arrived (looked ++ [h]) h ⟨successor h.raw⟩ := by
  rw [step, successor?_eq]
  exact if_neg (by rw [hfree]; exact Bool.false_ne_true)

/-- **The walk goes on** past handles in use, one of them at each look. -/
theorem after_of_inUse {a : Allocator} (ha : 0 < a.next) (t : Nat)
    (hbefore : ∀ j < t, inUse (along a.next j) = true) :
    after inUse a t = walking (stretch a.next t) (along a.next t).raw := by
  induction t with
  | zero => rw [along_zero ha]; rfl
  | succ t ih =>
    have hwalked := ih fun j hj => hbefore j (Nat.lt_succ_of_lt hj)
    rw [after, hwalked, step_of_inUse _ (hbefore t (Nat.lt_succ_self t)), successor_along,
      stretch_succ]

end Walk

/-! ### The first free handle -/

/-- From `n` on, `k` handles in a row are in use, and the one behind them is free. -/
structure FirstFree (inUse : CommandHandle → Bool) (n : Int32) (k : Nat) : Prop where
  inUse_before : ∀ j < k, inUse (along n j) = true
  free : inUse (along n k) = false

variable {inUse : CommandHandle → Bool}

/-- As long as some positive handle is free, there is a first one, and it is less than a whole turn
away. -/
theorem exists_firstFree {n : Int32} (hn : 0 < n) (hfree : ∃ m : Int32, 0 < m ∧ inUse ⟨m⟩ = false) :
    ∃ k < fullTurn, FirstFree inUse n k := by
  obtain ⟨m, hm, hmfree⟩ := hfree
  have hway : inUse (along n (distance n m)) = false := by
    rw [along_distance hn hm]
    exact hmfree
  have hex : ∃ k, inUse (along n k) = false := ⟨distance n m, hway⟩
  refine ⟨Nat.find hex, ?_, fun j hj => ?_, Nat.find_spec hex⟩
  · exact Nat.lt_of_le_of_lt (Nat.find_min' hex hway) (distance_lt n m)
  · simpa using Nat.find_min hex hj

namespace FirstFree

theorem unique {n : Int32} {k l : Nat} (hk : FirstFree inUse n k) (hl : FirstFree inUse n l) :
    k = l := by
  -- The free handle of one would be among those in use of the other.
  have hle : ∀ {i j : Nat}, FirstFree inUse n i → FirstFree inUse n j → i ≤ j := by
    intro i j hi hj
    by_contra hlt
    have huse := hi.inUse_before j (Nat.lt_of_not_le hlt)
    rw [hj.free] at huse
    cases huse
  exact Nat.le_antisymm (hle hk hl) (hle hl hk)

/-- Behind a handle in use, the first free one is one look less away. -/
theorem later {n : Int32} {k : Nat} (hn : 0 < n) (h : FirstFree inUse n (k + 1)) :
    inUse ⟨n⟩ = true ∧ FirstFree inUse (successor n) k := by
  have hfirst := h.inUse_before 0 (Nat.succ_pos k)
  rw [along_zero hn] at hfirst
  refine ⟨hfirst, fun j hj => ?_, ?_⟩
  · rw [along_successor hn]
    exact h.inUse_before (j + 1) (Nat.succ_lt_succ hj)
  · rw [along_successor hn]
    exact h.free

/-- **The walk arrives** at the look behind the handles in use, and stays where it is. -/
theorem arrives {a : Allocator} {k : Nat} (ha : 0 < a.next) (h : FirstFree inUse a.next k) {t : Nat}
    (hlt : k < t) :
    Walk.after inUse a t = .arrived (stretch a.next (k + 1)) (along a.next k)
      ⟨successor (along a.next k).raw⟩ := by
  induction t, hlt using Nat.le_induction with
  | base =>
    rw [Walk.after, Walk.after_of_inUse ha k h.inUse_before, Walk.step_of_free _ h.free,
      stretch_succ]
  | succ t _ ih => rw [Walk.after, ih]; rfl

/-- **A search ends where the walk does,** if only it is allowed as many turns as there are handles
in use in a row.  It passes over these and no others. -/
theorem search_eq {n : Int32} {k turns : Nat} (hn : 0 < n) (h : FirstFree inUse n k)
    (hle : k ≤ turns) :
    search inUse turns n = (along n k, ⟨successor (along n k).raw⟩) ∧
      skipped inUse turns n = stretch n k := by
  -- A search goes on from the next number, so that its looks are taken off at the front here, while
  -- a walk puts them on at the end.
  induction k generalizing n turns with
  | zero =>
    have hfree := h.free
    rw [along_zero hn] at hfree ⊢
    exact ⟨search_of_free hfree turns, skipped_of_free hfree turns⟩
  | succ k ih =>
    obtain ⟨turns, rfl⟩ := Nat.exists_eq_add_of_le' hle
    obtain ⟨huse, hlater⟩ := h.later hn
    obtain ⟨hsearch, hskipped⟩ := ih (successor_pos hn) hlater (Nat.le_add_left k turns)
    rw [← Nat.add_assoc, search_of_inUse huse, skipped_of_inUse huse, hsearch, hskipped,
      along_successor hn, stretch_cons hn]
    exact ⟨rfl, rfl⟩

end FirstFree

/-! ### The looks of an allocation -/

/-- **A walk comes to an end only because a handle is free,** and it does so whenever one is. -/
theorem arrives_iff {a : Allocator} (ha : 0 < a.next) :
    (∃ t looked h rest, Walk.after inUse a t = .arrived looked h rest) ↔
      ∃ m : Int32, 0 < m ∧ inUse ⟨m⟩ = false := by
  constructor
  · rintro ⟨t, looked, h, rest, harrived⟩
    by_contra hnone
    have huse : ∀ j, inUse (along a.next j) = true := by
      intro j
      by_contra hfree
      exact hnone ⟨(along a.next j).raw, along_pos a.next j, by simpa using hfree⟩
    rw [Walk.after_of_inUse ha t fun j _ => huse j] at harrived
    cases harrived
  · intro hfree
    obtain ⟨k, -, hk⟩ := exists_firstFree ha hfree
    exact ⟨k + 1, _, _, _, hk.arrives ha (Nat.lt_succ_self k)⟩

/-- **The first free handle, after as many looks as it takes.**  With `k` handles in use in a row
from the counter on, the walk goes on for `k` looks and arrives with the next one.  By then it has
looked at the `k + 1` handles from the counter on, each of them once, and the last one is the first
that is free.  The counter has never left the 32-bit numbers, and stands behind that handle.  An
allocation comes to the same. -/
theorem allocation_exact (a : Allocator) (inUse : CommandHandle → Bool) (ha : 0 < a.next)
    (hfree : ∃ m : Int32, 0 < m ∧ inUse ⟨m⟩ = false) :
    ∃ k, FirstFree inUse a.next k ∧ k + 1 ≤ fullTurn ∧
      (∀ t ≤ k, Walk.after inUse a t = .walking (stretch a.next t) (along a.next t).raw) ∧
      (∀ t, k < t → Walk.after inUse a t = .arrived (stretch a.next (k + 1)) (along a.next k)
        ⟨successor (along a.next k).raw⟩) ∧
      (stretch a.next (k + 1)).length = k + 1 ∧ (stretch a.next (k + 1)).Nodup ∧
      a.allocate inUse = (along a.next k, ⟨successor (along a.next k).raw⟩) ∧
      skipped inUse fullTurn a.next = stretch a.next k := by
  obtain ⟨k, hlt, hk⟩ := exists_firstFree ha hfree
  obtain ⟨hsearch, hskipped⟩ := hk.search_eq ha (Nat.le_of_lt hlt)
  refine ⟨k, hk, hlt, fun t ht => ?_, fun t ht => hk.arrives ha ht, length_stretch _ _,
    nodup_stretch _ hlt, hsearch, hskipped⟩
  exact Walk.after_of_inUse ha t fun j hj => hk.inUse_before j (Nat.lt_of_lt_of_le hj ht)

/-- The counter stands on the largest handle, which is in use like 1 and 2: the walk goes over the
end of the circle, and its fourth look finds 3. -/
theorem allocation_exact_wraparound :
    (0 < CommandHandle.largest ∧ ∃ m : Int32, 0 < m ∧ [2147483647, 1, 2].contains m = false) ∧
      Walk.after (fun h => [2147483647, 1, 2].contains h.raw) ⟨CommandHandle.largest⟩ 4 =
        .arrived [⟨2147483647⟩, ⟨1⟩, ⟨2⟩, ⟨3⟩] ⟨3⟩ ⟨4⟩ ∧
      allocate ⟨CommandHandle.largest⟩ (fun h => [2147483647, 1, 2].contains h.raw) =
        (⟨3⟩, ⟨4⟩) := by
  have hpos : 0 < CommandHandle.largest := by decide
  have hfree : ∃ m : Int32, 0 < m ∧ [2147483647, 1, 2].contains m = false := ⟨3, by decide⟩
  have hthree : FirstFree (fun h => [2147483647, 1, 2].contains h.raw) CommandHandle.largest 3 :=
    ⟨by decide, by decide⟩
  obtain ⟨k, hk, -, -, harrived, -, -, hallocate, -⟩ :=
    allocation_exact ⟨CommandHandle.largest⟩ (fun h => [2147483647, 1, 2].contains h.raw) hpos hfree
  obtain rfl : k = 3 := hk.unique hthree
  exact ⟨⟨hpos, hfree⟩, harrived 4 (by decide), hallocate⟩

end Allocator

end CommandBridge

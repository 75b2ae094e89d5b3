import CommandBridge.Handle
import Mathlib.Data.List.Nodup

/-!
# The cyclic order of handles

The allocator walks through the positive handles in a circle.  This file measures that circle:

* `Allocator.distance` — how many steps it takes from one handle to another;
* `distance_successor` — a step towards a handle shortens the way to it by one;
* `search_spec` — a search that can get as far as some free handle ends on a free one;
* `exists_free` — fewer entries than handles leave a positive handle free;
* `nth`, `index` — the handles of a new allocator by their number, and back;
* `allocate_spec` — so an allocation gives out a free positive handle and keeps the counter
  positive.
-/

namespace CommandBridge

namespace Allocator

/-! ### The numbers of the circle -/

theorem pos_iff_toInt_pos {n : Int32} : 0 < n ↔ 0 < n.toInt :=
  Int32.lt_iff_toInt_lt

theorem toInt_bounds {n : Int32} (hn : 0 < n) : 1 ≤ n.toInt ∧ n.toInt ≤ 2147483647 :=
  ⟨pos_iff_toInt_pos.mp hn, Int32.toInt_le n⟩

/-! ### One step -/

theorem toInt_successor {n : Int32} (hpos : 0 < n) :
    (successor n).toInt = if n.toInt = 2147483647 then 1 else n.toInt + 1 := by
  obtain ⟨hone, hle⟩ := toInt_bounds hpos
  have hlargest : n = CommandHandle.largest ↔ n.toInt = 2147483647 := by
    rw [← Int32.toInt_inj]
    rfl
  unfold successor
  by_cases h : n.toInt = 2147483647
  · rw [if_pos (hlargest.mpr h), if_pos h]
    rfl
  · rw [if_neg (fun e => h (hlargest.mp e)), if_neg h, Int32.toInt_add]
    show (n.toInt + 1).bmod (2 ^ 32) = n.toInt + 1
    rw [Int.bmod_eq_of_le] <;> omega

theorem successor_pos {n : Int32} (hpos : 0 < n) : 0 < successor n := by
  obtain ⟨hone, -⟩ := toInt_bounds hpos
  rw [pos_iff_toInt_pos, toInt_successor hpos]
  split <;> omega

/-! ### The way round -/

/-- The number of steps from `n` to `m` in the cyclic order. -/
def distance (n m : Int32) : Nat :=
  ((m.toInt - n.toInt) % 2147483647).toNat

theorem distance_lt (n m : Int32) : distance n m < fullTurn := by
  unfold distance fullTurn
  omega

theorem eq_of_distance_eq_zero {n m : Int32} (hn : 0 < n) (hm : 0 < m) (h : distance n m = 0) :
    n = m := by
  obtain ⟨hn', hnle⟩ := toInt_bounds hn
  obtain ⟨hm', hmle⟩ := toInt_bounds hm
  rw [← Int32.toInt_inj]
  unfold distance at h
  omega

theorem distance_successor {n m : Int32} (hn : 0 < n) (hm : 0 < m) (hne : n ≠ m) :
    distance (successor n) m + 1 = distance n m := by
  obtain ⟨hn', hnle⟩ := toInt_bounds hn
  obtain ⟨hm', hmle⟩ := toInt_bounds hm
  have hne' : n.toInt ≠ m.toInt := fun e => hne (Int32.toInt_inj.mp e)
  unfold distance
  rw [toInt_successor hn]
  split <;> omega

/-! ### Searching -/

/-- A search that has as many turns as there are steps to some free handle ends on a free handle,
which is positive, and so is the one it will try next. -/
theorem search_spec {inUse : CommandHandle → Bool} {m : Int32} (hm : 0 < m)
    (hfree : inUse ⟨m⟩ = false) (turns : Nat) (n : Int32) (hn : 0 < n)
    (hreach : distance n m ≤ turns) :
    inUse (search inUse turns n).1 = false ∧ 0 < (search inUse turns n).1.raw ∧
      0 < (search inUse turns n).2.next := by
  induction turns generalizing n with
  | zero =>
    have hnm : n = m := eq_of_distance_eq_zero hn hm (by omega)
    subst hnm
    exact ⟨hfree, hn, successor_pos hn⟩
  | succ turns ih =>
    by_cases huse : inUse ⟨n⟩ = true
    · have hne : n ≠ m := by
        rintro rfl
        rw [hfree] at huse
        cases huse
      have hstep := distance_successor hn hm hne
      rw [search_of_inUse huse]
      exact ih (successor n) (successor_pos hn) (by omega)
    · rw [search_of_free (by simpa using huse)]
      exact ⟨by simpa using huse, hn, successor_pos hn⟩

/-! ### Enough handles -/

/-- The handles from `1` to `n` in ascending order. -/
def firstHandles (n : Nat) : List CommandHandle :=
  (List.range n).map (fun k => ⟨Int32.ofNat (k + 1)⟩)

theorem toInt_ofNat_succ {k : Nat} (h : k < fullTurn) : (Int32.ofNat (k + 1)).toInt = k + 1 := by
  unfold fullTurn at h
  rw [Int32.toInt_ofNat_of_lt (by omega)]
  omega

theorem nodup_firstHandles {n : Nat} (h : n ≤ fullTurn) : (firstHandles n).Nodup := by
  unfold firstHandles
  refine List.Nodup.map_on (fun i hi j hj hij => ?_) List.nodup_range
  have hi' : i < fullTurn := Nat.lt_of_lt_of_le (List.mem_range.mp hi) h
  have hj' : j < fullTurn := Nat.lt_of_lt_of_le (List.mem_range.mp hj) h
  have heq := congrArg (fun h => h.raw.toInt) hij
  simp only [toInt_ofNat_succ hi', toInt_ofNat_succ hj'] at heq
  omega

theorem pos_of_mem_firstHandles {n : Nat} (hn : n ≤ fullTurn) {h : CommandHandle}
    (hmem : h ∈ firstHandles n) : 0 < h.raw := by
  obtain ⟨k, hk, rfl⟩ := List.mem_map.mp hmem
  rw [pos_iff_toInt_pos, toInt_ofNat_succ (Nat.lt_of_lt_of_le (List.mem_range.mp hk) hn)]
  omega

/-- **Pigeonhole.**  A list that is shorter than the circle leaves a positive handle out. -/
theorem exists_free {used : List CommandHandle} (h : used.length < fullTurn) :
    ∃ m : Int32, 0 < m ∧ (⟨m⟩ : CommandHandle) ∉ used := by
  by_contra hall
  have hsub : firstHandles fullTurn ⊆ used := by
    intro x hx
    by_contra hout
    exact hall ⟨x.raw, pos_of_mem_firstHandles (Nat.le_refl _) hx, hout⟩
  have hle := (nodup_firstHandles (Nat.le_refl _)).length_le_of_subset hsub
  rw [firstHandles, List.length_map, List.length_range] at hle
  omega

/-! ### In the order of handing out -/

/-- The handle that a new allocator gives out as number `k`, counted from zero. -/
def nth (k : Nat) : CommandHandle :=
  ⟨Int32.ofNat (k + 1)⟩

/-- The place of a handle in the order of handing out. -/
def index (h : CommandHandle) : Nat :=
  (h.raw.toInt - 1).toNat

theorem index_nth {k : Nat} (h : k < fullTurn) : index (nth k) = k := by
  rw [index, nth, toInt_ofNat_succ h]
  omega

theorem nth_inj {i j : Nat} (hi : i < fullTurn) (hj : j < fullTurn) (h : nth i = nth j) :
    i = j := by
  rw [← index_nth hi, h, index_nth hj]

theorem nth_pos {k : Nat} (h : k < fullTurn) : 0 < (nth k).raw :=
  pos_of_mem_firstHandles (Nat.le_refl fullTurn)
    (List.mem_map.mpr ⟨k, List.mem_range.mpr h, rfl⟩)

/-- Before the circle is closed, the counter goes on to the next number. -/
theorem successor_nth {k : Nat} (h : k + 1 < fullTurn) :
    successor (nth k).raw = (nth (k + 1)).raw := by
  have hk : (nth k).raw.toInt = k + 1 := toInt_ofNat_succ (Nat.lt_of_succ_lt h)
  have hnext : (nth (k + 1)).raw.toInt = (k + 1 : Nat) + 1 := toInt_ofNat_succ h
  rw [← Int32.toInt_inj, toInt_successor (nth_pos (Nat.lt_of_succ_lt h)), hk, hnext, if_neg]
  · omega
  · unfold fullTurn at h
    omega

/-! ### Allocating -/

/-- An allocation among fewer entries than there are handles gives out a positive handle that is
free. -/
theorem allocate_spec {a : Allocator} {used : List CommandHandle} {inUse : CommandHandle → Bool}
    (ha : 0 < a.next) (hroom : used.length < fullTurn) (huse : ∀ h, inUse h = true → h ∈ used) :
    inUse (a.allocate inUse).1 = false ∧ 0 < (a.allocate inUse).1.raw ∧
      0 < (a.allocate inUse).2.next := by
  obtain ⟨m, hm, hout⟩ := exists_free hroom
  have hfree : inUse ⟨m⟩ = false := by
    by_contra h
    exact hout (huse ⟨m⟩ (by simpa using h))
  exact search_spec hm hfree fullTurn a.next ha (Nat.le_of_lt (distance_lt a.next m))

end Allocator

end CommandBridge

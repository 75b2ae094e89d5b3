import CommandBridge.Status.Range
import Mathlib.Data.Int.Basic

/-!
# What parameter ranges contain

Ranges are given and looked up in 32-bit words.  Here the same is said in integers, where nothing
wraps.

* `toNat_toUInt32_sub` — a wrapping difference of words is exact if it is not negative;
* `checkedAdd_eq_some`, `toNat_checkedAdd` — a checked sum is exact if there is one;
* `ParameterRange.contains_iff`, `ParameterRange.mem_codes` — the codes of a range;
* `ParameterRange.isValid_iff` — what makes a range valid;
* `ParameterRange.indexOf?_of_contains` — the codes of a valid range have the positions from its
  first one on;
* `ParameterRange.Disjoint` — two ranges share no code.
-/

namespace CommandBridge

/-! ### Words and integers -/

theorem toInt_eq_toNat_toUInt32 (x : Int32) : x.toInt =
    if x.toUInt32.toNat < 2147483648 then (x.toUInt32.toNat : Int)
    else (x.toUInt32.toNat : Int) - 4294967296 := by
  have hcond := BitVec.toInt_eq_toNat_cond x.toBitVec
  have hword : x.toBitVec.toNat = x.toUInt32.toNat := rfl
  have hint : x.toBitVec.toInt = x.toInt := rfl
  rw [hword, hint] at hcond
  rw [hcond]
  by_cases hlt : x.toUInt32.toNat < 2147483648
  · rw [if_pos hlt, if_pos (by omega)]
  · rw [if_neg hlt, if_neg (by omega)]
    rfl

/-- The wrapping difference is exact if the first number is the larger one. -/
theorem toNat_toUInt32_sub {a b : Int32} (h : b.toInt ≤ a.toInt) :
    ((a.toUInt32 - b.toUInt32).toNat : Int) = a.toInt - b.toInt := by
  have ha := toInt_eq_toNat_toUInt32 a
  have hb := toInt_eq_toNat_toUInt32 b
  have ha' := a.toUInt32.toNat_lt
  have hb' := b.toUInt32.toNat_lt
  rw [UInt32.toNat_sub]
  split at ha <;> split at hb <;> omega

theorem toInt_add_ofNat {a : Int32} {n : Nat} (h : a.toInt + n < 2147483648) :
    (a + Int32.ofNat n).toInt = a.toInt + n := by
  have hle := a.le_toInt
  have hsize : Int32.size = 2 ^ 32 := rfl
  rw [Int32.toInt_add, Int32.toInt_ofNat', hsize, Int.add_bmod_bmod]
  exact Int.bmod_eq_of_le (by omega) (by omega)

theorem checkedAdd_eq_some {a b : UInt32} (h : a.toNat + b.toNat < 4294967296) :
    ∃ sum, checkedAdd a b = some sum ∧ sum.toNat = a.toNat + b.toNat := by
  have hsum : (a + b).toNat = a.toNat + b.toNat := by
    rw [UInt32.toNat_add, Nat.mod_eq_of_lt h]
  refine ⟨a + b, ?_, hsum⟩
  have hle : ¬ a + b < a := by
    rw [UInt32.lt_iff_toNat_lt, hsum]
    omega
  rw [checkedAdd, if_neg hle]

theorem lt_of_checkedAdd {a b : UInt32} (h : (checkedAdd a b).isSome = true) :
    a.toNat + b.toNat < 4294967296 := by
  by_contra hge
  have ha := a.toNat_lt
  have hb := b.toNat_lt
  have hlt : a + b < a := by
    rw [UInt32.lt_iff_toNat_lt, UInt32.toNat_add]
    omega
  rw [checkedAdd, if_pos hlt] at h
  cases h

theorem toNat_checkedAdd {a b sum : UInt32} (h : checkedAdd a b = some sum) :
    sum.toNat = a.toNat + b.toNat := by
  have hfits := lt_of_checkedAdd (a := a) (b := b) (by rw [h]; rfl)
  obtain ⟨other, hother, hnat⟩ := checkedAdd_eq_some hfits
  rw [h] at hother
  obtain rfl := Option.some.inj hother
  exact hnat

/-! ### Ranges -/

namespace ParameterRange

variable {r : ParameterRange} {code : Int32}

theorem contains_iff : r.contains code = true ↔
    r.firstCode.toInt ≤ code.toInt ∧ code.toInt ≤ r.lastCode.toInt := by
  simp only [contains, Bool.and_eq_true, decide_eq_true_eq, Int32.le_iff_toInt_le]

theorem mem_codes : code ∈ r.codes ↔ r.contains code = true := by
  have hlast := r.lastCode.toInt_lt
  rw [contains_iff, codes, List.mem_map]
  constructor
  · rintro ⟨offset, hoffset, rfl⟩
    rw [List.mem_range] at hoffset
    rw [toInt_add_ofNat (by omega)]
    omega
  · rintro ⟨hfirst, hle⟩
    refine ⟨(code.toInt - r.firstCode.toInt).toNat, List.mem_range.mpr (by omega), ?_⟩
    refine Int32.toInt_inj.mp ?_
    rw [toInt_add_ofNat (by omega)]
    omega

theorem indexOf?_of_not_contains (h : r.contains code = false) : r.indexOf? code = none := by
  rw [indexOf?, h]
  rfl

theorem isValid_iff : r.isValid = true ↔
    0 < r.firstCode.toInt ∧ r.firstCode.toInt ≤ r.lastCode.toInt ∧ 1 ≤ r.firstIndex.toNat ∧
      (r.firstIndex.toNat : Int) + (r.lastCode.toInt - r.firstCode.toInt) < 4294967296 := by
  simp only [isValid, Bool.and_eq_true, decide_eq_true_eq, Int32.lt_iff_toInt_lt,
    Int32.le_iff_toInt_le, UInt32.le_iff_toNat_le]
  -- the position of the last code is the largest one
  have hfits : r.firstCode.toInt ≤ r.lastCode.toInt → ((r.indexOf? r.lastCode).isSome = true ↔
      (r.firstIndex.toNat : Int) + (r.lastCode.toInt - r.firstCode.toInt) < 4294967296) := by
    intro hle
    have hoffset := toNat_toUInt32_sub hle
    rw [indexOf?, if_pos (contains_iff.mpr ⟨hle, Int.le_refl _⟩)]
    constructor
    · intro hsome
      have hlt := lt_of_checkedAdd hsome
      omega
    · intro hlt
      obtain ⟨sum, hsum, -⟩ := checkedAdd_eq_some (a := r.firstIndex)
        (b := r.lastCode.toUInt32 - r.firstCode.toUInt32) (by omega)
      rw [hsum]
      rfl
  constructor
  · rintro ⟨⟨⟨hpos, hle⟩, hindex⟩, hsome⟩
    exact ⟨hpos, hle, hindex, (hfits hle).mp hsome⟩
  · rintro ⟨hpos, hle, hindex, hlt⟩
    exact ⟨⟨⟨hpos, hle⟩, hindex⟩, (hfits hle).mpr hlt⟩

/-- The codes of a valid range have the positions from its first one on. -/
theorem indexOf?_of_contains (hvalid : r.isValid = true) (hcontains : r.contains code = true) :
    ∃ index, r.indexOf? code = some index ∧
      (index.toNat : Int) = r.firstIndex.toNat + (code.toInt - r.firstCode.toInt) := by
  obtain ⟨-, -, -, hfits⟩ := isValid_iff.mp hvalid
  obtain ⟨hfirst, hlast⟩ := contains_iff.mp hcontains
  have hoffset := toNat_toUInt32_sub hfirst
  obtain ⟨index, hindex, hnat⟩ :=
    checkedAdd_eq_some (a := r.firstIndex) (b := code.toUInt32 - r.firstCode.toUInt32) (by omega)
  refine ⟨index, ?_, by omega⟩
  rw [indexOf?, if_pos hcontains, hindex]

/-- The two ranges share no code. -/
def Disjoint (a b : ParameterRange) : Prop :=
  ∀ code, ¬ (a.contains code = true ∧ b.contains code = true)

theorem Disjoint.symm {a b : ParameterRange} (h : a.Disjoint b) : b.Disjoint a :=
  fun code hboth => h code hboth.symm

end ParameterRange

end CommandBridge

import CommandBridge.Proofs.Config.Acceptance
import Mathlib.Data.List.Perm.Basic

/-!
# What a configuration is refused for

A configuration can have several faults at once.  One of them is reported, and which one is fixed:
malformed ranges come before ranges that overlap, and both before overrides.

* `ParameterRange.IsWellFormed`, `ParameterRange.Overlaps` — ranges in integers;
* `Config.FirstMalformed`, `Config.Overlap`, `Config.FirstFault` — the faults;
* `StatusTable.ofRanges_eq_invalidRange_iff` — the first malformed range of the list is reported;
* `StatusTable.exists_ofRanges_eq_overlap`, `StatusTable.overlap_of_ofRanges` — neighbours of the
  sorted list are enough to find ranges that overlap anywhere in the list;
* `Config.foldlM_applyOverride_eq_error_iff` — the first override with a fault is reported;
* `StatusTable.ofRanges_perm` — the order of the ranges does not matter to what is accepted;
* `Config.refusal_exact` — all of this for a whole configuration.
-/

namespace CommandBridge

/-! ### Ranges -/

namespace ParameterRange

/-- The range has positive codes, at least one of them, and positions from one on that all fit into
32 bits. -/
structure IsWellFormed (r : ParameterRange) : Prop where
  firstCode_pos : 0 < r.firstCode.toInt
  firstCode_le : r.firstCode.toInt ≤ r.lastCode.toInt
  firstIndex_pos : 1 ≤ r.firstIndex.toNat
  fits : (r.firstIndex.toNat : Int) + (r.lastCode.toInt - r.firstCode.toInt) < 4294967296

/-- The two ranges share a code. -/
def Overlaps (a b : ParameterRange) : Prop :=
  ∃ code, a.contains code = true ∧ b.contains code = true

variable {a b r : ParameterRange}

theorem isWellFormed_iff : r.IsWellFormed ↔ r.isValid = true := by
  rw [isValid_iff]
  constructor
  · intro h
    exact ⟨h.firstCode_pos, h.firstCode_le, h.firstIndex_pos, h.fits⟩
  · intro h
    exact ⟨h.1, h.2.1, h.2.2.1, h.2.2.2⟩

theorem not_disjoint_iff : ¬ a.Disjoint b ↔ a.Overlaps b := by
  rw [Disjoint, not_forall_not, Overlaps]

/-- The range that starts later starts inside the other one. -/
theorem overlaps_of_le (hb : b.isValid = true) (hstart : a.firstCode ≤ b.firstCode)
    (hinside : b.firstCode ≤ a.lastCode) : a.Overlaps b := by
  have hstart := Int32.le_iff_toInt_le.mp hstart
  have hinside := Int32.le_iff_toInt_le.mp hinside
  refine ⟨b.firstCode, contains_iff.mpr ⟨hstart, hinside⟩, contains_iff.mpr ⟨Int.le_refl _, ?_⟩⟩
  exact (isValid_iff.mp hb).2.1

end ParameterRange

/-- Two elements of a list in another order stand at different places of it. -/
theorem exists_places_of_perm {α : Type} {l others : List α} {a b : α}
    (h : l.Perm (a :: b :: others)) : ∃ i j : Nat, i ≠ j ∧ l[i]? = some a ∧ l[j]? = some b := by
  obtain ⟨before, after, rfl⟩ := List.append_of_mem (h.mem_iff.mpr List.mem_cons_self)
  have hrest : (before ++ after).Perm (b :: others) :=
    (List.perm_middle.symm.trans h).cons_inv
  rcases List.mem_append.mp (hrest.mem_iff.mpr List.mem_cons_self) with hb | hb
  · obtain ⟨j, hj, rfl⟩ := List.getElem_of_mem hb
    refine ⟨before.length, j, by omega, by simp, ?_⟩
    rw [List.getElem?_append_left hj, List.getElem?_eq_getElem hj]
  · obtain ⟨j, hj, rfl⟩ := List.getElem_of_mem hb
    refine ⟨before.length, before.length + (j + 1), by omega, by simp, ?_⟩
    rw [List.getElem?_append_right (by omega), Nat.add_sub_cancel_left, List.getElem?_cons_succ,
      List.getElem?_eq_getElem hj]

namespace StatusTable

variable {ranges : List ParameterRange}

/-- A range that is not valid is reported exactly if it is the first one of the list. -/
theorem ofRanges_eq_invalidRange_iff {r : ParameterRange} :
    ofRanges ranges = .error (.invalidRange r) ↔
      ranges.find? (fun r => !r.isValid) = some r := by
  rw [ofRanges]
  cases ranges.find? (fun r => !r.isValid) with
  | some first =>
    constructor
    · intro h
      cases h
      rfl
    · intro h
      cases h
      rfl
  | none =>
    cases firstOverlap? (sortRanges ranges) with
    | none => exact ⟨fun h => (by cases h), fun h => (by cases h)⟩
    | some pair => exact ⟨fun h => (by cases h), fun h => (by cases h)⟩

/-- An overlap is reported exactly if all ranges are valid and the sorted list has one. -/
theorem ofRanges_eq_overlap_iff {a b : ParameterRange} :
    ofRanges ranges = .error (.overlappingRanges a b) ↔
      (∀ r ∈ ranges, r.isValid = true) ∧ firstOverlap? (sortRanges ranges) = some (a, b) := by
  have hvalid : ranges.find? (fun r => !r.isValid) = none ↔ ∀ r ∈ ranges, r.isValid = true := by
    simp only [List.find?_eq_none, Bool.not_eq_true', Bool.not_eq_false]
  rw [ofRanges, ← hvalid]
  cases ranges.find? (fun r => !r.isValid) with
  | some first => exact ⟨fun h => (by cases h), fun h => (by cases h.1)⟩
  | none =>
    cases firstOverlap? (sortRanges ranges) with
    | none => exact ⟨fun h => (by cases h), fun h => (by cases h.2)⟩
    | some pair =>
      obtain ⟨first, second⟩ := pair
      constructor
      · intro h
        cases h
        exact ⟨rfl, rfl⟩
      · intro h
        cases h.2
        rfl

/-- What is reported is a pair of neighbours of which the second starts inside the first. -/
theorem of_firstOverlap? {sorted : List ParameterRange} {a b : ParameterRange}
    (h : firstOverlap? sorted = some (a, b)) :
    (∃ before after, sorted = before ++ a :: b :: after) ∧ b.firstCode ≤ a.lastCode := by
  induction sorted with
  | nil => cases h
  | cons first rest ih =>
    cases rest with
    | nil => cases h
    | cons second rest =>
      rw [firstOverlap?] at h
      split at h
      · next hinside =>
        cases h
        exact ⟨⟨[], rest, rfl⟩, hinside⟩
      · obtain ⟨⟨before, after, hrest⟩, hinside⟩ := ih h
        exact ⟨⟨first :: before, after, congrArg (first :: ·) hrest⟩, hinside⟩

/-- **An overlap that is reported is one**, of two ranges at different places of the list, the one
that starts first in front. -/
theorem overlap_of_ofRanges {a b : ParameterRange}
    (h : ofRanges ranges = .error (.overlappingRanges a b)) :
    (∃ i j : Nat, i ≠ j ∧ ranges[i]? = some a ∧ ranges[j]? = some b) ∧ a.Overlaps b ∧
      a.firstCode ≤ b.firstCode := by
  obtain ⟨hvalid, hfirst⟩ := ofRanges_eq_overlap_iff.mp h
  obtain ⟨⟨before, after, hsorted⟩, hinside⟩ := of_firstOverlap? hfirst
  have hperm : ranges.Perm (a :: b :: (before ++ after)) := by
    refine (sortRanges_perm ranges).symm.trans ?_
    rw [hsorted]
    exact List.perm_middle.trans (List.perm_middle.cons a)
  have hpairs := pairwise_sortRanges ranges
  rw [hsorted, List.pairwise_append] at hpairs
  have hle : a.firstCode ≤ b.firstCode :=
    (List.pairwise_cons.mp hpairs.2.1).1 b List.mem_cons_self
  have hb : b.isValid = true := hvalid b (hperm.mem_iff.mpr (by simp))
  exact ⟨exists_places_of_perm hperm, ParameterRange.overlaps_of_le hb hle hinside, hle⟩

/-- **Valid ranges two of which overlap are refused for that.** -/
theorem exists_ofRanges_eq_overlap (hvalid : ∀ r ∈ ranges, r.isValid = true)
    (hoverlap : ¬ ranges.Pairwise ParameterRange.Disjoint) :
    ∃ a b, ofRanges ranges = .error (.overlappingRanges a b) := by
  cases hfirst : firstOverlap? (sortRanges ranges) with
  | some pair => exact ⟨pair.1, pair.2, ofRanges_eq_overlap_iff.mpr ⟨hvalid, hfirst⟩⟩
  | none =>
    -- without an overlap among neighbours there is none in the list
    have hdisjoint := pairwise_disjoint_of_firstOverlap? (pairwise_sortRanges ranges) hfirst
    exact absurd ((sortRanges_perm ranges).pairwise hdisjoint ParameterRange.Disjoint.symm) hoverlap

/-! ### The order of the ranges -/

theorem kindOf?_build {r : ParameterRange} (hvalid : ∀ r ∈ ranges, r.isValid = true)
    (hdisjoint : ranges.Pairwise ParameterRange.Disjoint) (hr : r ∈ ranges) {code : Int32}
    (hcontains : r.contains code = true) :
    (build ranges).kindOf? code = (r.indexOf? code).map .invalidParameter := by
  obtain ⟨index, hindex, -⟩ := ParameterRange.indexOf?_of_contains (hvalid r hr) hcontains
  rw [hindex]
  exact kindOf?_foldl_of_contains hdisjoint hr hcontains hindex named

/-- Tables that say the same about every status are the same. -/
theorem eq_of_kindOf? {t u : StatusTable} (h : ∀ code, t.kindOf? code = u.kindOf? code) :
    t = u := by
  cases t
  cases u
  exact congrArg StatusTable.mk (Std.ExtTreeMap.ext_getElem? h)

/-- Valid and disjoint ranges make the same table in any order. -/
theorem build_perm {ranges' : List ParameterRange} (hperm : ranges.Perm ranges')
    (hvalid : ∀ r ∈ ranges, r.isValid = true)
    (hdisjoint : ranges.Pairwise ParameterRange.Disjoint) : build ranges = build ranges' := by
  have hvalid' : ∀ r ∈ ranges', r.isValid = true := fun r hr => hvalid r (hperm.mem_iff.mpr hr)
  have hdisjoint' := hperm.pairwise hdisjoint ParameterRange.Disjoint.symm
  refine eq_of_kindOf? (fun code => ?_)
  by_cases hin : ∃ r ∈ ranges, r.contains code = true
  · obtain ⟨r, hr, hcontains⟩ := hin
    rw [kindOf?_build hvalid hdisjoint hr hcontains,
      kindOf?_build hvalid' hdisjoint' (hperm.mem_iff.mp hr) hcontains]
  · have hout : ∀ r ∈ ranges, r.contains code = false := by
      intro r hr
      exact Bool.eq_false_iff.mpr (fun hcontains => hin ⟨r, hr, hcontains⟩)
    have hout' : ∀ r ∈ ranges', r.contains code = false :=
      fun r hr => hout r (hperm.mem_iff.mpr hr)
    rw [build, build, kindOf?_foldl_of_not_contains hout, kindOf?_foldl_of_not_contains hout']

/-- **The order of the ranges does not matter** to whether they are accepted, nor to their table. -/
theorem ofRanges_perm {ranges' : List ParameterRange} (hperm : ranges.Perm ranges')
    {t : StatusTable} (h : ofRanges ranges = .ok t) : ofRanges ranges' = .ok t := by
  obtain ⟨hvalid, hdisjoint⟩ := of_ofRanges_eq_ok h
  have hsame := h.symm.trans (ofRanges_eq_ok hvalid hdisjoint)
  rw [hsame, build_perm hperm hvalid hdisjoint]
  exact ofRanges_eq_ok (fun r hr => hvalid r (hperm.mem_iff.mpr hr))
    (hperm.pairwise hdisjoint ParameterRange.Disjoint.symm)

end StatusTable

/-! ### Overrides -/

namespace Config

/-- What an override is refused for.  An unknown name is reported even if the status is success. -/
inductive OverrideFault : Int32 → String → ConfigError → Prop
  | unknownKind {code : Int32} {name : String} (h : ∀ kind : ErrorKind, kind.name ≠ name) :
      OverrideFault code name (.unknownKind code name)
  | success {name : String} (h : ∃ kind : ErrorKind, kind.name = name) :
      OverrideFault successStatus name .successOverride

theorem applyOverride_eq_error_iff {t : StatusTable} {code : Int32} {name : String}
    {e : ConfigError} : applyOverride t code name = .error e ↔ OverrideFault code name e := by
  by_cases hknown : ∃ kind : ErrorKind, kind.name = name
  · obtain ⟨kind, rfl⟩ := hknown
    by_cases hcode : code = successStatus
    · subst hcode
      rw [applyOverride, ErrorKind.ofName?_name]
      constructor
      · intro h
        cases h
        exact .success ⟨kind, rfl⟩
      · intro h
        cases h with
        | unknownKind hunknown => exact absurd rfl (hunknown kind)
        | success _ => rfl
    · rw [applyOverride_name hcode]
      constructor
      · intro h
        cases h
      · intro h
        cases h with
        | unknownKind hunknown => exact absurd rfl (hunknown kind)
        | success _ => exact absurd rfl hcode
  · have hnone : ErrorKind.ofName? name = none := by
      cases hkind : ErrorKind.ofName? name with
      | none => rfl
      | some kind => exact absurd ⟨kind, ErrorKind.name_ofName? hkind⟩ hknown
    rw [applyOverride, hnone]
    constructor
    · intro h
      cases h
      exact .unknownKind (fun kind hkind => hknown ⟨kind, hkind⟩)
    · intro h
      cases h with
      | unknownKind _ => rfl
      | success hkind => exact absurd hkind hknown

/-- Overrides, one after the other, are refused for the first that has a fault. -/
theorem foldlM_applyOverride_eq_error_iff {entries : List (Int32 × String)} {t : StatusTable}
    {e : ConfigError} :
    entries.foldlM (fun t entry => applyOverride t entry.1 entry.2) t = .error e ↔
      ∃ before code name after, entries = before ++ (code, name) :: after ∧
        (∀ entry ∈ before, ∀ e', ¬ OverrideFault entry.1 entry.2 e') ∧
          OverrideFault code name e := by
  induction entries generalizing t with
  | nil =>
    constructor
    · intro h
      cases h
    · rintro ⟨before, code, name, after, hempty, -⟩
      cases before <;> cases hempty
  | cons first entries ih =>
    rw [List.foldlM_cons]
    cases hfirst : applyOverride t first.1 first.2 with
    | error e' =>
      have hfault := applyOverride_eq_error_iff.mp hfirst
      constructor
      · intro h
        cases h
        exact ⟨[], first.1, first.2, entries, rfl, List.forall_mem_nil _, hfault⟩
      · rintro ⟨before, code, name, after, hsplit, hnone, he⟩
        cases before with
        | nil =>
          cases hsplit
          rw [← applyOverride_eq_error_iff (t := t), hfirst] at he
          exact he
        | cons other before =>
          cases hsplit
          exact absurd hfault (hnone first List.mem_cons_self e')
    | ok u =>
      have hsound : ∀ e', ¬ OverrideFault first.1 first.2 e' := by
        intro e' hfault
        rw [← applyOverride_eq_error_iff (t := t), hfirst] at hfault
        cases hfault
      refine Iff.trans ih ?_
      constructor
      · rintro ⟨before, code, name, after, rfl, hnone, he⟩
        exact ⟨first :: before, code, name, after, rfl,
          List.forall_mem_cons.mpr ⟨hsound, hnone⟩, he⟩
      · rintro ⟨before, code, name, after, hsplit, hnone, he⟩
        cases before with
        | nil =>
          cases hsplit
          exact absurd he (hsound e)
        | cons other before =>
          cases hsplit
          exact ⟨before, code, name, after, rfl, (List.forall_mem_cons.mp hnone).2, he⟩

/-! ### A whole configuration -/

/-- The first range of the list that is not well-formed. -/
def FirstMalformed (config : Config) (r : ParameterRange) : Prop :=
  ∃ before after, config.ranges = before ++ r :: after ∧ (∀ b ∈ before, b.IsWellFormed) ∧
    ¬ r.IsWellFormed

/-- Two ranges at different places of the list that share a code. -/
def Overlap (config : Config) (a b : ParameterRange) : Prop :=
  (∃ i j : Nat, i ≠ j ∧ config.ranges[i]? = some a ∧ config.ranges[j]? = some b) ∧ a.Overlaps b

/-- What the override of the smallest status that has a faulty one is refused for. -/
def FirstFault (config : Config) (e : ConfigError) : Prop :=
  ∃ code name, config.overrides[code]? = some name ∧ OverrideFault code name e ∧
    ∀ code' name' e', config.overrides[code']? = some name' → OverrideFault code' name' e' →
      code ≤ code'

variable {config : Config}

theorem firstMalformed_iff {r : ParameterRange} :
    config.FirstMalformed r ↔ config.ranges.find? (fun r => !r.isValid) = some r := by
  simp only [List.find?_eq_some_iff_append, Bool.not_not, FirstMalformed,
    ParameterRange.isWellFormed_iff, Bool.not_eq_true', Bool.not_eq_true]
  constructor
  · rintro ⟨before, after, hsplit, hbefore, hr⟩
    exact ⟨hr, before, after, hsplit, hbefore⟩
  · rintro ⟨hr, before, after, hsplit, hbefore⟩
    exact ⟨before, after, hsplit, hbefore, hr⟩

theorem not_pairwise_disjoint_iff :
    ¬ config.ranges.Pairwise ParameterRange.Disjoint ↔ ∃ a b, config.Overlap a b := by
  rw [List.pairwise_iff_getElem]
  constructor
  · intro h
    simp only [not_forall] at h
    obtain ⟨i, j, hi, hj, hlt, hshared⟩ := h
    exact ⟨_, _, ⟨i, j, Nat.ne_of_lt hlt, List.getElem?_eq_getElem hi, List.getElem?_eq_getElem hj⟩,
      ParameterRange.not_disjoint_iff.mp hshared⟩
  · rintro ⟨a, b, ⟨i, j, hne, ha, hb⟩, code, hcode⟩ h
    obtain ⟨hi, rfl⟩ := List.getElem?_eq_some_iff.mp ha
    obtain ⟨hj, rfl⟩ := List.getElem?_eq_some_iff.mp hb
    rcases Nat.lt_or_gt_of_ne hne with hlt | hgt
    · exact h i j hi hj hlt code hcode
    · exact h j i hj hi hgt code hcode.symm

/-- The overrides are gone through by ascending status, so the first that has a fault is that of the
smallest status. -/
theorem firstFault_iff {t : StatusTable} {e : ConfigError} :
    config.FirstFault e ↔ config.overrides.toList.foldlM
      (fun t entry => applyOverride t entry.1 entry.2) t = .error e := by
  have hmem : ∀ code name, (code, name) ∈ config.overrides.toList ↔
      config.overrides[code]? = some name :=
    fun _ _ => Std.ExtTreeMap.mem_toList_iff_getElem?_eq_some
  have hsorted : config.overrides.toList.Pairwise (fun a b => a.1 < b.1) :=
    Std.ExtTreeMap.ordered_keys_toList.imp Std.compare_eq_lt.mp
  rw [foldlM_applyOverride_eq_error_iff]
  constructor
  · rintro ⟨code, name, hentry, hfault, hfirst⟩
    obtain ⟨before, after, hsplit⟩ := List.append_of_mem ((hmem code name).mpr hentry)
    refine ⟨before, code, name, after, hsplit, fun entry hbefore e' hfault' => ?_, hfault⟩
    rw [hsplit, List.pairwise_append] at hsorted
    have hlt := hsorted.2.2 entry hbefore (code, name) List.mem_cons_self
    have hin : config.overrides[entry.1]? = some entry.2 := by
      rw [← hmem, hsplit]
      exact List.mem_append_left _ hbefore
    exact Int32.not_lt.mpr (hfirst _ _ e' hin hfault') hlt
  · rintro ⟨before, code, name, after, hsplit, hnone, hfault⟩
    refine ⟨code, name, ?_, hfault, fun code' name' e' hentry hfault' => ?_⟩
    · rw [← hmem, hsplit]
      exact List.mem_append_right _ List.mem_cons_self
    · rw [← hmem, hsplit] at hentry
      rw [hsplit, List.pairwise_append, List.pairwise_cons] at hsorted
      rcases List.mem_append.mp hentry with hbefore | hrest
      · exact absurd hfault' (hnone _ hbefore e')
      · rcases List.mem_cons.mp hrest with heq | hafter
        · cases heq
          exact Int32.le_refl _
        · exact Int32.le_of_lt (hsorted.2.1.1 _ hafter)

/-- A configuration is refused for its ranges, or, if these are accepted, for its overrides. -/
theorem statusTable_eq_error_iff {e : ConfigError} : config.statusTable = .error e ↔
    StatusTable.ofRanges config.ranges = .error e ∨
      (∃ t, StatusTable.ofRanges config.ranges = .ok t) ∧ config.FirstFault e := by
  rw [statusTable_eq]
  cases StatusTable.ofRanges config.ranges with
  | error e' =>
    constructor
    · intro h
      exact .inl h
    · rintro (h | ⟨⟨t, ht⟩, -⟩)
      · exact h
      · cases ht
  | ok t =>
    constructor
    · intro h
      exact .inr ⟨⟨t, rfl⟩, firstFault_iff.mpr h⟩
    · rintro (h | ⟨-, h⟩)
      · cases h
      · exact firstFault_iff.mp h

/-- Ranges without a fault are accepted. -/
theorem exists_ofRanges (hvalid : ∀ r ∈ config.ranges, r.IsWellFormed)
    (hapart : ¬ ∃ a b, config.Overlap a b) :
    ∃ t, StatusTable.ofRanges config.ranges = .ok t := by
  rw [← not_pairwise_disjoint_iff, not_not] at hapart
  exact ⟨_, StatusTable.ofRanges_eq_ok
    (fun r hr => ParameterRange.isWellFormed_iff.mp (hvalid r hr)) hapart⟩

/-- Faults of overrides are not about ranges. -/
theorem FirstFault.ne_range {e : ConfigError} (h : config.FirstFault e) :
    (∀ r, e ≠ .invalidRange r) ∧ ∀ a b, e ≠ .overlappingRanges a b := by
  obtain ⟨code, name, -, hfault, -⟩ := h
  cases hfault with
  | unknownKind _ => exact ⟨nofun, nofun⟩
  | success _ => exact ⟨nofun, nofun⟩

/-- An override without a known name, or of success, makes the configuration refused. -/
theorem exists_firstFault_iff (hranges : ∃ t, StatusTable.ofRanges config.ranges = .ok t) :
    (∃ e, config.statusTable = .error e) ↔ ∃ code name, config.overrides[code]? = some name ∧
      ((∀ kind : ErrorKind, kind.name ≠ name) ∨ code = successStatus) := by
  constructor
  · rintro ⟨e, he⟩
    rcases statusTable_eq_error_iff.mp he with hrefused | ⟨-, code, name, hentry, hfault, -⟩
    · obtain ⟨t, ht⟩ := hranges
      cases hrefused.symm.trans ht
    · refine ⟨code, name, hentry, ?_⟩
      cases hfault with
      | unknownKind hunknown => exact .inl hunknown
      | success _ => exact .inr rfl
  · rintro ⟨code, name, hentry, hbad⟩
    cases htable : config.statusTable with
    | error e => exact ⟨e, rfl⟩
    | ok t =>
      obtain ⟨hcode, kind, hkind⟩ := (IsFaultless.of_statusTable htable).known code name hentry
      rcases hbad with hunknown | hsuccess
      · exact absurd hkind (hunknown kind)
      · exact absurd hsuccess hcode

theorem statusTable_perm {other : Config} (hperm : config.ranges.Perm other.ranges)
    (hoverrides : other.overrides = config.overrides) {t : StatusTable}
    (h : config.statusTable = .ok t) : other.statusTable = .ok t := by
  rw [statusTable_eq] at h ⊢
  cases hranges : StatusTable.ofRanges config.ranges with
  | error e =>
    rw [hranges] at h
    cases h
  | ok table =>
    rw [hranges] at h
    rw [StatusTable.ofRanges_perm hperm hranges, hoverrides]
    exact h

/-- **Which fault of a configuration is reported.**

* A malformed range is reported exactly if there is one, and then it is the first of the list.
* If there is none, an overlap is reported exactly if two ranges at different places of the list
  share a code; the two that are reported do, and the one in front starts no later.
* If there is neither, an error is reported exactly if an override has an unknown name or is one of
  success.  It is the error of the override with the smallest status among these, and a name that is
  unknown comes first.
* Another order of the ranges changes neither what is accepted nor the table. -/
theorem refusal_exact (config : Config) :
    ((∃ r, config.statusTable = .error (.invalidRange r)) ↔
      ∃ r ∈ config.ranges, ¬ r.IsWellFormed) ∧
    (∀ r, config.statusTable = .error (.invalidRange r) ↔ config.FirstMalformed r) ∧
    ((∃ a b, config.statusTable = .error (.overlappingRanges a b)) ↔
      (∀ r ∈ config.ranges, r.IsWellFormed) ∧ ∃ a b, config.Overlap a b) ∧
    (∀ a b, config.statusTable = .error (.overlappingRanges a b) →
      config.Overlap a b ∧ a.firstCode ≤ b.firstCode) ∧
    ((∀ r ∈ config.ranges, r.IsWellFormed) → (¬ ∃ a b, config.Overlap a b) →
      ((∃ e, config.statusTable = .error e) ↔ ∃ code name, config.overrides[code]? = some name ∧
        ((∀ kind : ErrorKind, kind.name ≠ name) ∨ code = successStatus)) ∧
      ∀ e, config.statusTable = .error e ↔ config.FirstFault e) ∧
    (∀ other : Config, config.ranges.Perm other.ranges → other.overrides = config.overrides →
      ∀ t, other.statusTable = .ok t ↔ config.statusTable = .ok t) := by
  have hmalformed : ∀ r, config.statusTable = .error (.invalidRange r) ↔
      config.FirstMalformed r := by
    intro r
    rw [statusTable_eq_error_iff, StatusTable.ofRanges_eq_invalidRange_iff, firstMalformed_iff,
      or_iff_left]
    rintro ⟨-, hfault⟩
    exact hfault.ne_range.1 r rfl
  have hoverlapping : ∀ a b, config.statusTable = .error (.overlappingRanges a b) ↔
      StatusTable.ofRanges config.ranges = .error (.overlappingRanges a b) := by
    intro a b
    rw [statusTable_eq_error_iff, or_iff_left]
    rintro ⟨-, hfault⟩
    exact hfault.ne_range.2 a b rfl
  refine ⟨?_, hmalformed, ?_, ?_, ?_, ?_⟩
  · simp only [hmalformed, firstMalformed_iff, ← Option.isSome_iff_exists, List.find?_isSome,
      ParameterRange.isWellFormed_iff, Bool.not_eq_true', Bool.not_eq_true]
  · simp only [hoverlapping]
    constructor
    · rintro ⟨a, b, h⟩
      have hvalid := (StatusTable.ofRanges_eq_overlap_iff.mp h).1
      obtain ⟨hplaces, hshared, -⟩ := StatusTable.overlap_of_ofRanges h
      exact ⟨fun r hr => ParameterRange.isWellFormed_iff.mpr (hvalid r hr), a, b, hplaces, hshared⟩
    · rintro ⟨hvalid, hoverlap⟩
      exact StatusTable.exists_ofRanges_eq_overlap
        (fun r hr => ParameterRange.isWellFormed_iff.mp (hvalid r hr))
        (not_pairwise_disjoint_iff.mpr hoverlap)
  · intro a b h
    obtain ⟨hplaces, hshared, hle⟩ := StatusTable.overlap_of_ofRanges ((hoverlapping a b).mp h)
    exact ⟨⟨hplaces, hshared⟩, hle⟩
  · intro hvalid hapart
    have hranges := exists_ofRanges hvalid hapart
    refine ⟨exists_firstFault_iff hranges, fun e => ?_⟩
    rw [statusTable_eq_error_iff, and_iff_right hranges, or_iff_right]
    intro hrefused
    obtain ⟨t, ht⟩ := hranges
    cases hrefused.symm.trans ht
  · intro other hperm hoverrides t
    exact ⟨statusTable_perm hperm.symm hoverrides.symm, statusTable_perm hperm hoverrides⟩

/-- A range inside another one, with a third between them in the list, and an unknown name. -/
def nested : Config where
  parameterRanges := some [⟨100, 300, 1⟩, ⟨310, 320, 1⟩, ⟨200, 210, 5⟩]
  overrides := (∅ : Std.ExtTreeMap Int32 String).insert 5 "nothing"

/-- Ranges that touch, an override of a negative status, and two with an unknown name. -/
def misnamed : Config where
  parameterRanges := some [⟨301, 320, 1⟩, ⟨100, 300, 1⟩]
  overrides := (∅ : Std.ExtTreeMap Int32 String).insertMany
    [(5, "nothing"), (0, "nothing"), (-3, "timeout")]

/-- The overlap is reported before the unknown name; and where there is none, the unknown name of
success is reported as one. -/
theorem refusal_exact_both : (∃ a b, nested.statusTable = .error (.overlappingRanges a b)) ∧
    misnamed.statusTable = .error (.unknownKind 0 "nothing") := by
  have hwellFormed : ∀ ranges : List ParameterRange, (∀ r ∈ ranges, r.isValid = true) →
      ∀ r ∈ ranges, r.IsWellFormed :=
    fun ranges h r hr => ParameterRange.isWellFormed_iff.mpr (h r hr)
  have hunknown : ∀ kind : ErrorKind, kind.name ≠ "nothing" := by
    intro kind hkind
    have hfound := ErrorKind.ofName?_name kind
    rw [hkind] at hfound
    cases hfound
  constructor
  · obtain ⟨-, -, hoverlap, -⟩ := refusal_exact nested
    refine hoverlap.mpr ⟨hwellFormed _ (by decide), ⟨100, 300, 1⟩, ⟨200, 210, 5⟩, ?_, 205, ?_⟩
    · exact ⟨0, 2, by decide, rfl, rfl⟩
    · decide
  · obtain ⟨-, -, -, -, hoverrides, -⟩ := refusal_exact misnamed
    have hapart : ¬ ∃ a b, misnamed.Overlap a b := by
      rw [← not_pairwise_disjoint_iff, not_not]
      refine List.pairwise_pair.mpr ?_
      rintro code ⟨hhigh, hlow⟩
      have hle := (ParameterRange.contains_iff.mp hhigh).1
      have hge := (ParameterRange.contains_iff.mp hlow).2
      exact absurd (Int.le_trans hle hge) (by decide)
    refine ((hoverrides (hwellFormed _ (by decide)) hapart).2 _).mpr
      ⟨0, "nothing", by decide, .unknownKind hunknown, fun code name e hentry hfault => ?_⟩
    have hlist : misnamed.overrides.toList = [(-3, "timeout"), (0, "nothing"), (5, "nothing")] := by
      decide
    have hmem : (code, name) ∈ misnamed.overrides.toList :=
      Std.ExtTreeMap.mem_toList_iff_getElem?_eq_some.mpr hentry
    rw [hlist] at hmem
    rcases List.mem_cons.mp hmem with heq | hrest
    · -- the negative status has a known name
      cases heq
      cases hfault with
      | unknownKind h => exact absurd rfl (h .timeout)
    · rcases List.mem_pair.mp hrest with heq | heq
      · cases heq
        exact Int32.le_refl _
      · cases heq
        decide

end Config

end CommandBridge

import CommandBridge.Proofs.Status.Range
import CommandBridge.Status.Table
import Mathlib.Data.List.Nodup

/-!
# What a status table is built to hold

The table is built in layers, and each layer is a fold of insertions.  For each layer a lemma says
what is found under a code afterwards.

* `kindOf?_named` — the named codes: the published kinds;
* `kindOf?_insertRange` — one range: a position where the range has one, else what was there;
* `kindOf?_foldl_of_contains`, `kindOf?_foldl_of_not_contains` — all ranges, if they are disjoint;
* `ofRanges_eq_ok` — valid and disjoint ranges are accepted.
-/

namespace CommandBridge

namespace StatusTable

/-! ### Named codes -/

/-- Registering rows with different statuses: what is found is the kind of the row. -/
theorem kindOf?_foldl_rows {rows : List NamedCode} (hnodup : (rows.map NamedCode.status).Nodup)
    (t : StatusTable) (code : Int32) :
    (rows.foldl (fun t row => match row.kind with
      | some kind => t.insert row.status kind
      | none => t) t).kindOf? code =
      ((rows.find? (fun row => row.status == code)).bind NamedCode.kind).or (t.kindOf? code) := by
  induction rows generalizing t with
  | nil => rfl
  | cons row rows ih =>
    rw [List.map_cons, List.nodup_cons] at hnodup
    rw [List.foldl_cons, ih hnodup.2]
    by_cases hcode : row.status = code
    · have hrest : rows.find? (fun row => row.status == code) = none := by
        rw [List.find?_eq_none]
        intro other hother heq
        refine hnodup.1 (List.mem_map.mpr ⟨other, hother, ?_⟩)
        rw [hcode]
        exact eq_of_beq heq
      rw [hrest, List.find?_cons_of_pos (by simpa using hcode)]
      cases hkind : row.kind with
      | none => simp [hkind]
      | some kind => simp [hkind, hcode]
    · rw [List.find?_cons_of_neg (by simpa using hcode)]
      cases row.kind with
      | none => rfl
      | some kind => simp only [kindOf?_insert, hcode, if_false]

theorem nodup_published : (NamedCode.published.map NamedCode.status).Nodup := by
  decide +kernel

/-- The first layer holds the published kinds and nothing else. -/
theorem kindOf?_named (code : Int32) : named.kindOf? code = publishedKind? code := by
  have hrows := kindOf?_foldl_rows nodup_published ⟨∅⟩ code
  have hempty : (⟨∅⟩ : StatusTable).kindOf? code = none := Std.ExtTreeMap.getElem?_empty
  rw [hempty, Option.or_none] at hrows
  exact hrows

/-! ### Ranges -/

/-- Registering the positions of some codes. -/
theorem kindOf?_foldl_codes (r : ParameterRange) (codes : List Int32) (t : StatusTable)
    (code : Int32) :
    (codes.foldl (fun t code => match r.indexOf? code with
      | some index => t.insert code (.invalidParameter index)
      | none => t) t).kindOf? code =
      if code ∈ codes then ((r.indexOf? code).map .invalidParameter).or (t.kindOf? code)
      else t.kindOf? code := by
  induction codes generalizing t with
  | nil => simp
  | cons first codes ih =>
    rw [List.foldl_cons, ih]
    by_cases hfirst : first = code
    · subst hfirst
      rw [if_pos List.mem_cons_self]
      cases hindex : r.indexOf? first with
      | none => simp
      | some index => simp
    · have hother : ∀ index, (t.insert first (.invalidParameter index)).kindOf? code =
          t.kindOf? code := by
        intro index
        rw [kindOf?_insert, if_neg hfirst]
      have hmem : code ∈ first :: codes ↔ code ∈ codes := by
        rw [List.mem_cons, or_iff_right (Ne.symm hfirst)]
      simp only [hmem]
      cases r.indexOf? first with
      | none => rfl
      | some index => simp only [hother]

/-- A range puts its positions over what was there. -/
theorem kindOf?_insertRange (r : ParameterRange) (t : StatusTable) (code : Int32) :
    (t.insertRange r).kindOf? code =
      ((r.indexOf? code).map .invalidParameter).or (t.kindOf? code) := by
  have hcodes := kindOf?_foldl_codes r r.codes t code
  by_cases hcontains : r.contains code = true
  · rw [if_pos (ParameterRange.mem_codes.mpr hcontains)] at hcodes
    exact hcodes
  · rw [if_neg (fun hmem => hcontains (ParameterRange.mem_codes.mp hmem))] at hcodes
    rw [ParameterRange.indexOf?_of_not_contains (by simpa using hcontains)]
    exact hcodes

/-- A code in none of the ranges keeps what it had. -/
theorem kindOf?_foldl_of_not_contains {ranges : List ParameterRange} {code : Int32}
    (h : ∀ r ∈ ranges, r.contains code = false) (t : StatusTable) :
    (ranges.foldl insertRange t).kindOf? code = t.kindOf? code := by
  induction ranges generalizing t with
  | nil => rfl
  | cons r ranges ih =>
    have hr := ParameterRange.indexOf?_of_not_contains (h r List.mem_cons_self)
    rw [List.foldl_cons, ih (fun other hother => h other (List.mem_cons_of_mem _ hother)),
      kindOf?_insertRange, hr]
    rfl

/-- A code in one of several disjoint ranges has its position there. -/
theorem kindOf?_foldl_of_contains {ranges : List ParameterRange}
    (hdisjoint : ranges.Pairwise ParameterRange.Disjoint) {r : ParameterRange} (hr : r ∈ ranges)
    {code : Int32} (hcontains : r.contains code = true) {index : UInt32}
    (hindex : r.indexOf? code = some index) (t : StatusTable) :
    (ranges.foldl insertRange t).kindOf? code = some (.invalidParameter index) := by
  induction ranges generalizing t with
  | nil => cases hr
  | cons first ranges ih =>
    rw [List.pairwise_cons] at hdisjoint
    rw [List.foldl_cons]
    rcases List.mem_cons.mp hr with rfl | hrest
    · have hothers : ∀ other ∈ ranges, other.contains code = false := by
        intro other hother
        have hshared := hdisjoint.1 other hother code
        simpa [hcontains] using hshared
      rw [kindOf?_foldl_of_not_contains hothers, kindOf?_insertRange, hindex]
      rfl
    · exact ih hdisjoint.2 hrest _

/-! ### Checking ranges -/

/-- Neighbours of a sorted list that do not overlap are not reported. -/
theorem firstOverlap?_eq_none {ranges : List ParameterRange}
    (hsorted : ranges.Pairwise (fun a b => a.firstCode ≤ b.firstCode))
    (hvalid : ∀ r ∈ ranges, r.isValid = true)
    (hdisjoint : ranges.Pairwise ParameterRange.Disjoint) : firstOverlap? ranges = none := by
  induction ranges with
  | nil => rfl
  | cons a rest ih =>
    cases rest with
    | nil => rfl
    | cons b rest =>
      rw [List.pairwise_cons] at hsorted hdisjoint
      have hle := Int32.le_iff_toInt_le.mp (hsorted.1 b List.mem_cons_self)
      have hb := ParameterRange.isValid_iff.mp (hvalid b (by simp))
      have hseparate : ¬ b.firstCode ≤ a.lastCode := by
        intro hoverlap
        refine hdisjoint.1 b List.mem_cons_self b.firstCode ⟨?_, ?_⟩
        · exact ParameterRange.contains_iff.mpr ⟨hle, Int32.le_iff_toInt_le.mp hoverlap⟩
        · exact ParameterRange.contains_iff.mpr ⟨Int.le_refl _, hb.2.1⟩
      rw [firstOverlap?, if_neg hseparate]
      exact ih hsorted.2 (fun r hr => hvalid r (List.mem_cons_of_mem _ hr)) hdisjoint.2

theorem sortRanges_perm (ranges : List ParameterRange) : (sortRanges ranges).Perm ranges :=
  List.mergeSort_perm _ _

theorem pairwise_sortRanges (ranges : List ParameterRange) :
    (sortRanges ranges).Pairwise (fun a b => a.firstCode ≤ b.firstCode) := by
  have hsorted : (sortRanges ranges).Pairwise
      (fun a b => decide (a.firstCode ≤ b.firstCode) = true) := by
    refine List.pairwise_mergeSort ?_ ?_ ranges
    · intro a b c hab hbc
      exact decide_eq_true (Int32.le_trans (of_decide_eq_true hab) (of_decide_eq_true hbc))
    · intro a b
      simpa using Int32.le_total a.firstCode b.firstCode
  exact hsorted.imp (fun h => of_decide_eq_true h)

/-- **Valid and disjoint ranges are accepted.** -/
theorem ofRanges_eq_ok {ranges : List ParameterRange} (hvalid : ∀ r ∈ ranges, r.isValid = true)
    (hdisjoint : ranges.Pairwise ParameterRange.Disjoint) :
    ofRanges ranges = .ok (build ranges) := by
  have hperm := sortRanges_perm ranges
  have hnone : ranges.find? (fun r => !r.isValid) = none := by
    rw [List.find?_eq_none]
    intro r hr hinvalid
    rw [hvalid r hr] at hinvalid
    cases hinvalid
  have hoverlap : firstOverlap? (sortRanges ranges) = none := by
    refine firstOverlap?_eq_none (pairwise_sortRanges ranges) ?_ ?_
    · intro r hr
      exact hvalid r (hperm.mem_iff.mp hr)
    · exact hperm.symm.pairwise hdisjoint ParameterRange.Disjoint.symm
  rw [ofRanges, hnone, hoverlap]

end StatusTable

end CommandBridge

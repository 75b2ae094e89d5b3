import CommandBridge.Pending.Correlator
import CommandBridge.Proofs.Config.StatusTable

/-!
# Accepted configurations

A configuration that is accepted has no fault, so what its statuses mean is known.

* `StatusTable.of_ofRanges_eq_ok` — accepted ranges are valid and share no code;
* `Config.known_of_foldlM_applyOverride` — accepted overrides name kinds for failing statuses;
* `Config.IsFaultless.of_statusTable` — so an accepted configuration has no fault;
* `Correlator.kindOf?_of_ofConfig` — its correlator reads statuses as the configuration says;
* `Config.reference?_eq_danglingCompletion` — only an override makes a status a dangling completion.
-/

namespace CommandBridge

namespace StatusTable

/-- Ranges register positions of arguments and nothing else. -/
theorem kindOf?_foldl_insertRange {ranges : List ParameterRange} {t : StatusTable} {code : Int32}
    {kind : ErrorKind} (h : (ranges.foldl insertRange t).kindOf? code = some kind) :
    (∃ index, kind = .invalidParameter index) ∨ t.kindOf? code = some kind := by
  induction ranges generalizing t with
  | nil => exact .inr h
  | cons r ranges ih =>
    rcases ih h with hindex | hkind
    · exact .inl hindex
    · rw [kindOf?_insertRange] at hkind
      cases hindex : r.indexOf? code with
      | none =>
        rw [hindex] at hkind
        exact .inr hkind
      | some index =>
        rw [hindex] at hkind
        cases hkind
        exact .inl ⟨index, rfl⟩

/-- Sorted ranges without neighbours that overlap share no code. -/
theorem pairwise_disjoint_of_firstOverlap? {ranges : List ParameterRange}
    (hsorted : ranges.Pairwise (fun a b => a.firstCode ≤ b.firstCode))
    (hnone : firstOverlap? ranges = none) : ranges.Pairwise ParameterRange.Disjoint := by
  induction ranges with
  | nil => exact .nil
  | cons a rest ih =>
    cases rest with
    | nil => exact List.pairwise_singleton _ _
    | cons b rest =>
      rw [firstOverlap?] at hnone
      split at hnone
      · cases hnone
      · next hseparate =>
        have hpairs := List.pairwise_cons.mp hsorted
        refine List.pairwise_cons.mpr ⟨fun r hr code hshared => hseparate ?_, ih hpairs.2 hnone⟩
        have hle : b.firstCode ≤ r.firstCode := by
          rcases List.mem_cons.mp hr with rfl | hlater
          · exact Int32.le_refl _
          · exact (List.pairwise_cons.mp hpairs.2).1 r hlater
        -- a code of both lies between the first code of `b` and the last code of `a`
        have hlast := (ParameterRange.contains_iff.mp hshared.1).2
        have hfirst := (ParameterRange.contains_iff.mp hshared.2).1
        have hle := Int32.le_iff_toInt_le.mp hle
        exact Int32.le_iff_toInt_le.mpr (by omega)

/-- **Accepted ranges are valid and share no code.** -/
theorem of_ofRanges_eq_ok {ranges : List ParameterRange} {t : StatusTable}
    (h : ofRanges ranges = .ok t) :
    (∀ r ∈ ranges, r.isValid = true) ∧ ranges.Pairwise ParameterRange.Disjoint := by
  rw [ofRanges] at h
  split at h
  · cases h
  · next hinvalid =>
    split at h
    · cases h
    · next hoverlap =>
      refine ⟨fun r hr => ?_, ?_⟩
      · simpa using List.find?_eq_none.mp hinvalid r hr
      · have hdisjoint := pairwise_disjoint_of_firstOverlap? (pairwise_sortRanges ranges) hoverlap
        exact (sortRanges_perm ranges).pairwise hdisjoint ParameterRange.Disjoint.symm

end StatusTable

namespace Config

/-- Only a failing status can be pinned, and only to a kind with the name given. -/
theorem of_applyOverride_eq_ok {t u : StatusTable} {code : Int32} {name : String}
    (h : applyOverride t code name = .ok u) :
    code ≠ successStatus ∧ ∃ kind : ErrorKind, kind.name = name := by
  rw [applyOverride] at h
  split at h
  · cases h
  · next kind hkind =>
    rw [StatusTable.pin] at h
    split at h
    · cases h
    · next hcode => exact ⟨hcode, kind, ErrorKind.name_ofName? hkind⟩

/-- **Accepted overrides name kinds for failing statuses.** -/
theorem known_of_foldlM_applyOverride {entries : List (Int32 × String)} {t u : StatusTable}
    (h : entries.foldlM (fun t entry => applyOverride t entry.1 entry.2) t = .ok u) :
    ∀ e ∈ entries, e.1 ≠ successStatus ∧ ∃ kind : ErrorKind, kind.name = e.2 := by
  induction entries generalizing t with
  | nil => exact fun e he => absurd he List.not_mem_nil
  | cons first entries ih =>
    rw [List.foldlM_cons] at h
    cases hfirst : applyOverride t first.1 first.2 with
    | error fault =>
      rw [hfirst] at h
      cases h
    | ok s =>
      rw [hfirst] at h
      intro e he
      rcases List.mem_cons.mp he with rfl | hlater
      · exact of_applyOverride_eq_ok hfirst
      · exact ih h e hlater

variable {config : Config}

/-- **An accepted configuration has no fault.** -/
theorem IsFaultless.of_statusTable {t : StatusTable} (h : config.statusTable = .ok t) :
    config.IsFaultless := by
  rw [statusTable_eq] at h
  cases hranges : StatusTable.ofRanges config.ranges with
  | error fault =>
    rw [hranges] at h
    cases h
  | ok table =>
    rw [hranges] at h
    obtain ⟨hvalid, hdisjoint⟩ := StatusTable.of_ofRanges_eq_ok hranges
    refine ⟨hvalid, hdisjoint, fun code name hentry => ?_⟩
    exact known_of_foldlM_applyOverride h (code, name)
      (Std.ExtTreeMap.mem_toList_iff_getElem?_eq_some.mpr hentry)

/-! ### Dangling completions -/

/-- No published status is a dangling completion. -/
theorem publishedKind?_ne_danglingCompletion (code : Int32) :
    publishedKind? code ≠ some .danglingCompletion := by
  have hrows : ∀ row ∈ NamedCode.published, row.kind ≠ some .danglingCompletion := by
    decide +kernel
  intro h
  obtain ⟨row, hrow, hkind⟩ := Option.bind_eq_some_iff.mp h
  exact hrows row (List.mem_of_find?_eq_some hrow) hkind

/-- Nor is any in the published table. -/
theorem kindOf?_published_ne_danglingCompletion (code : Int32) :
    StatusTable.published.kindOf? code ≠ some .danglingCompletion := by
  intro h
  rcases StatusTable.kindOf?_foldl_insertRange h with ⟨index, hkind⟩ | hnamed
  · cases hkind
  · rw [StatusTable.kindOf?_named] at hnamed
    exact publishedKind?_ne_danglingCompletion code hnamed

/-- **Only an override makes a status a dangling completion.** -/
theorem reference?_eq_danglingCompletion {code : Int32} :
    config.reference? code = some .danglingCompletion ↔
      config.overrides[code]? = some ErrorKind.danglingCompletion.name := by
  refine ⟨fun h => ?_, fun h => reference?_of_override h⟩
  cases hoverride : config.overrides[code]? with
  | some name =>
    simp only [reference?, hoverride, Option.map_eq_some_iff] at h
    obtain ⟨kind, hname, hkind⟩ := h
    cases kind <;> cases hkind
    rw [ErrorKind.name_ofName? hname]
  | none =>
    rw [reference?_of_not_override hoverride] at h
    split at h
    · cases h
    · exact absurd h (publishedKind?_ne_danglingCompletion code)

end Config

namespace Correlator

variable {config : Config} {c : Correlator}

/-- **A configured correlator reads statuses as the configuration says.** -/
theorem kindOf?_of_ofConfig (h : ofConfig config = .ok c) (code : Int32) :
    c.statuses.kindOf? code = config.reference? code := by
  obtain ⟨-, htable⟩ := of_ofConfig h
  obtain ⟨t, ht, hkind⟩ := (Config.IsFaultless.of_statusTable htable).exists_statusTable
  obtain rfl : t = c.statuses := Except.ok.inj (ht.symm.trans htable)
  exact hkind code

/-- A configuration without a fault has a correlator. -/
theorem exists_ofConfig (h : config.IsFaultless) : ∃ c, ofConfig config = .ok c := by
  obtain ⟨t, ht, -⟩ := h.exists_statusTable
  exact ⟨_, by rw [ofConfig, ht]; rfl⟩

end Correlator

end CommandBridge

import CommandBridge.Config.Basic
import CommandBridge.Proofs.Status.Table

/-!
# What a configuration makes statuses mean

The table of a configuration is built in three passes.  What it says about one status can be read
off the configuration without building anything: an override decides, else a parameter range, else
the published kind.

* `Config.ranges` — the ranges in force;
* `ErrorKind.inOverride` — the kind that an override of a status means by a name;
* `Config.reference?`, `Config.referenceError` — what a status means, read off the configuration;
* `Config.exists_foldlM_applyOverride` — the overrides, one after the other;
* `Config.IsFaultless` — nothing in the configuration is refused;
* `Config.statusTable_spec` — then the table exists and says just that.
-/

namespace CommandBridge

/-! ### The reference -/

/-- The kind that an override of `code` means.  A name has no parameter: the position of an argument
is not known, and an unmapped status is `code` itself. -/
def ErrorKind.inOverride (code : Int32) : ErrorKind → ErrorKind
  | .invalidParameter _ => .invalidParameter 0
  | .unmapped _ => .unmapped code
  | kind => kind

namespace Config

/-- The parameter ranges in force. -/
def ranges (config : Config) : List ParameterRange :=
  config.parameterRanges.getD ParameterRange.published

/-- What a status means, read off the configuration. -/
def reference? (config : Config) (code : Int32) : Option ErrorKind :=
  match config.overrides[code]? with
  | some name => (ErrorKind.ofName? name).map (ErrorKind.inOverride code)
  | none =>
    match config.ranges.find? (fun r => r.contains code) with
    | some r =>
      some (.invalidParameter
        (.ofNat (r.firstIndex.toNat + (code.toInt - r.firstCode.toInt).toNat)))
    | none => publishedKind? code

/-- The error of a failing status, read off the configuration.  Only an unmapped status has a
message of its own. -/
def referenceError (config : Config) (code : Int32) : BridgeError :=
  let kind := (config.reference? code).getD (.unmapped code)
  if kind = .unmapped code then .unmapped code else { kind := kind, code := code }

/-- No published status is an unmapped one. -/
theorem publishedKind?_ne_unmapped (code other : Int32) :
    publishedKind? code ≠ some (.unmapped other) := by
  have hrows : ∀ row ∈ NamedCode.published, ∀ kind, row.kind = some kind →
      kind.name ≠ ErrorKind.name (.unmapped 0) := by
    decide +kernel
  intro h
  obtain ⟨row, hrow, hkind⟩ := Option.bind_eq_some_iff.mp h
  exact hrows row (List.mem_of_find?_eq_some hrow) _ hkind rfl

/-! ### Overrides -/

theorem pinned_eq_inOverride (code : Int32) (kind : ErrorKind) :
    StatusTable.pinned code kind.withoutParameter = kind.inOverride code := by
  cases kind <;> rfl

/-- What an override means depends on the name only. -/
theorem inOverride_of_name {kind other : ErrorKind} (h : kind.name = other.name) (code : Int32) :
    kind.inOverride code = other.inOverride code := by
  have hkind := ErrorKind.ofName?_name kind
  rw [h, ErrorKind.ofName?_name other] at hkind
  rw [← pinned_eq_inOverride, ← pinned_eq_inOverride, Option.some.inj hkind]

/-- An override with a known name changes its own status and no other. -/
theorem applyOverride_name {code : Int32} (hcode : code ≠ successStatus) (kind : ErrorKind)
    (t : StatusTable) :
    applyOverride t code kind.name = .ok (t.insert code (kind.inOverride code)) := by
  rw [applyOverride, ErrorKind.ofName?_name]
  show t.pin code kind.withoutParameter = _
  rw [StatusTable.pin, if_neg hcode, pinned_eq_inOverride]

/-- Overrides of different statuses with known names: each decides its own status. -/
theorem exists_foldlM_applyOverride {entries : List (Int32 × String)}
    (hdistinct : entries.Pairwise (fun a b => a.1 ≠ b.1))
    (hknown : ∀ e ∈ entries, e.1 ≠ successStatus ∧ ∃ kind : ErrorKind, kind.name = e.2)
    (t : StatusTable) :
    ∃ u, entries.foldlM (fun t entry => applyOverride t entry.1 entry.2) t = .ok u ∧
      (∀ code kind, (code, ErrorKind.name kind) ∈ entries →
        u.kindOf? code = some (kind.inOverride code)) ∧
      ∀ code, (∀ name, (code, name) ∉ entries) → u.kindOf? code = t.kindOf? code := by
  induction entries generalizing t with
  | nil => exact ⟨t, rfl, fun _ _ hmem => absurd hmem List.not_mem_nil, fun _ _ => rfl⟩
  | cons entry entries ih =>
    obtain ⟨first, name⟩ := entry
    obtain ⟨hfirst, kind, rfl⟩ := hknown _ List.mem_cons_self
    rw [List.pairwise_cons] at hdistinct
    have hrest := fun e he => hknown e (List.mem_cons_of_mem _ he)
    obtain ⟨u, hfold, hin, hout⟩ := ih hdistinct.2 hrest (t.insert first (kind.inOverride first))
    refine ⟨u, ?_, ?_, ?_⟩
    · rw [List.foldlM_cons, applyOverride_name hfirst]
      exact hfold
    · intro code other hmem
      rcases List.mem_cons.mp hmem with heq | hmem
      · obtain ⟨rfl, hname⟩ := Prod.mk.inj heq
        -- no later override is about the same status
        have hlast : ∀ name, (code, name) ∉ entries :=
          fun name hlater => hdistinct.1 _ hlater rfl
        rw [hout code hlast, StatusTable.kindOf?_insert, if_pos rfl, inOverride_of_name hname]
      · exact hin code other hmem
    · intro code hnone
      have hne : first ≠ code := by
        rintro rfl
        exact hnone _ List.mem_cons_self
      rw [hout code (fun name hmem => hnone name (List.mem_cons_of_mem _ hmem)),
        StatusTable.kindOf?_insert, if_neg hne]

/-! ### The table and the reference -/

/-- The configuration has no fault: its ranges are valid and share no code, and each override gives
a failing status the name of a kind. -/
structure IsFaultless (config : Config) : Prop where
  valid : ∀ r ∈ config.ranges, r.isValid = true
  disjoint : config.ranges.Pairwise ParameterRange.Disjoint
  known : ∀ code name, config.overrides[code]? = some name →
    code ≠ successStatus ∧ ∃ kind : ErrorKind, kind.name = name

variable {config : Config}

theorem reference?_of_override {code : Int32} {kind : ErrorKind}
    (h : config.overrides[code]? = some kind.name) :
    config.reference? code = some (kind.inOverride code) := by
  have hsame : kind.withoutParameter.inOverride code = kind.inOverride code :=
    inOverride_of_name kind.name_withoutParameter code
  simp only [reference?, h, ErrorKind.ofName?_name, Option.map_some, hsame]

theorem reference?_of_not_override {code : Int32} (h : config.overrides[code]? = none) :
    config.reference? code =
      match config.ranges.find? (fun r => r.contains code) with
      | some r =>
        some (.invalidParameter
          (.ofNat (r.firstIndex.toNat + (code.toInt - r.firstCode.toInt).toNat)))
      | none => publishedKind? code := by
  simp only [reference?, h]

/-- A code of one of the ranges: its position there, whatever the other ranges are. -/
theorem IsFaultless.kindOf?_build (hconfig : config.IsFaultless) {r : ParameterRange}
    (hr : r ∈ config.ranges) {code : Int32} (hcontains : r.contains code = true) :
    ∃ index, (StatusTable.build config.ranges).kindOf? code = some (.invalidParameter index) ∧
      (index.toNat : Int) = r.firstIndex.toNat + (code.toInt - r.firstCode.toInt) := by
  obtain ⟨index, hindex, hnat⟩ :=
    ParameterRange.indexOf?_of_contains (hconfig.valid r hr) hcontains
  exact ⟨index, StatusTable.kindOf?_foldl_of_contains hconfig.disjoint hr hcontains hindex _, hnat⟩

/-- The table before the overrides. -/
theorem IsFaultless.kindOf?_build_eq_reference? (hconfig : config.IsFaultless) {code : Int32}
    (h : config.overrides[code]? = none) :
    (StatusTable.build config.ranges).kindOf? code = config.reference? code := by
  rw [reference?_of_not_override h]
  cases hfind : config.ranges.find? (fun r => r.contains code) with
  | some r =>
    have hcontains : r.contains code = true := by
      simpa using List.find?_some hfind
    obtain ⟨index, hkind, hnat⟩ :=
      hconfig.kindOf?_build (List.mem_of_find?_eq_some hfind) hcontains
    have hfirst := (ParameterRange.contains_iff.mp hcontains).1
    have hsum : r.firstIndex.toNat + (code.toInt - r.firstCode.toInt).toNat = index.toNat := by
      omega
    rw [hkind]
    show _ = some (ErrorKind.invalidParameter
      (.ofNat (r.firstIndex.toNat + (code.toInt - r.firstCode.toInt).toNat)))
    rw [hsum, UInt32.ofNat_toNat]
  | none =>
    have hnone : ∀ r ∈ config.ranges, r.contains code = false := by
      intro r hr
      simpa using List.find?_eq_none.mp hfind r hr
    show (config.ranges.foldl StatusTable.insertRange StatusTable.named).kindOf? code = _
    rw [StatusTable.kindOf?_foldl_of_not_contains hnone, StatusTable.kindOf?_named]

/-- First the ranges are looked at, then the overrides one after the other. -/
theorem statusTable_eq (config : Config) : config.statusTable =
    (StatusTable.ofRanges config.ranges >>= fun table => config.overrides.toList.foldlM
      (fun t entry => applyOverride t entry.1 entry.2) table) := rfl

/-- A configuration without a fault has a table, and the table is the reference. -/
theorem IsFaultless.exists_statusTable (hconfig : config.IsFaultless) :
    ∃ t, config.statusTable = .ok t ∧ ∀ code, t.kindOf? code = config.reference? code := by
  have hdistinct : config.overrides.toList.Pairwise (fun a b => a.1 ≠ b.1) := by
    refine Std.ExtTreeMap.distinct_keys_toList.imp ?_
    intro a b hkeys heq
    exact hkeys (by rw [heq]; exact Std.ReflCmp.compare_self)
  have hentries : ∀ e ∈ config.overrides.toList,
      e.1 ≠ successStatus ∧ ∃ kind : ErrorKind, kind.name = e.2 :=
    fun e he => hconfig.known e.1 e.2 (Std.ExtTreeMap.mem_toList_iff_getElem?_eq_some.mp he)
  obtain ⟨t, hfold, hin, hout⟩ :=
    exists_foldlM_applyOverride hdistinct hentries (StatusTable.build config.ranges)
  refine ⟨t, ?_, ?_⟩
  · rw [statusTable_eq, StatusTable.ofRanges_eq_ok hconfig.valid hconfig.disjoint]
    exact hfold
  · intro code
    cases hoverride : config.overrides[code]? with
    | some name =>
      obtain ⟨-, kind, rfl⟩ := hconfig.known code name hoverride
      rw [reference?_of_override hoverride]
      exact hin code kind (Std.ExtTreeMap.mem_toList_iff_getElem?_eq_some.mpr hoverride)
    | none =>
      have hnone : ∀ name, (code, name) ∉ config.overrides.toList := by
        intro name hmem
        rw [Std.ExtTreeMap.mem_toList_iff_getElem?_eq_some.mp hmem] at hoverride
        cases hoverride
      rw [hout code hnone, hconfig.kindOf?_build_eq_reference? hoverride]

/-- An unmapped status is unmapped under its own number. -/
theorem eq_of_reference?_unmapped {code other : Int32}
    (h : config.reference? code = some (.unmapped other)) : other = code := by
  unfold reference? at h
  cases hoverride : config.overrides[code]? with
  | some name =>
    simp only [hoverride, Option.map_eq_some_iff] at h
    obtain ⟨kind, -, hkind⟩ := h
    cases kind <;> cases hkind
    rfl
  | none =>
    simp only [hoverride] at h
    cases hfind : config.ranges.find? (fun r => r.contains code) with
    | some r =>
      rw [hfind] at h
      cases h
    | none =>
      rw [hfind] at h
      exact absurd h (publishedKind?_ne_unmapped code other)

theorem errorOf_eq_referenceError {t : StatusTable}
    (h : ∀ code, t.kindOf? code = config.reference? code) (code : Int32) :
    t.errorOf code = config.referenceError code := by
  rw [StatusTable.errorOf, referenceError, h]
  cases hkind : config.reference? code with
  | none => simp
  | some kind =>
    by_cases hunmapped : kind = .unmapped code
    · subst hunmapped
      simp
    · have hother : ∀ other, kind ≠ .unmapped other := by
        rintro other rfl
        exact hunmapped (by rw [eq_of_reference?_unmapped hkind])
      rw [Option.getD_some, if_neg hunmapped]
      split
      · next heq => cases heq
      · next other heq => exact absurd (Option.some.inj heq) (hother other)
      · next heq => rw [Option.some.inj heq]

/-! ### The result -/

/-- **What a configuration makes statuses mean.**  A configuration without a fault has a table.  An
override decides what its status means.  Without one, a range that contains the status gives it
its position in the range, counted from the position of the first code, even if the status has a
published kind; and without a range the published kind is left.  Checking a status finds success for
`0` and the error of that look-up for every other status. -/
theorem statusTable_spec (hconfig : config.IsFaultless) :
    ∃ t, config.statusTable = .ok t ∧
      (∀ code kind, config.overrides[code]? = some (ErrorKind.name kind) →
        t.kindOf? code = some (kind.inOverride code)) ∧
      (∀ code, config.overrides[code]? = none → ∀ r ∈ config.ranges, r.contains code = true →
        ∃ index, t.kindOf? code = some (.invalidParameter index) ∧
          (index.toNat : Int) = r.firstIndex.toNat + (code.toInt - r.firstCode.toInt)) ∧
      (∀ code, config.overrides[code]? = none → (∀ r ∈ config.ranges, r.contains code = false) →
        t.kindOf? code = publishedKind? code) ∧
      (∀ code, t.kindOf? code = config.reference? code) ∧
      ∀ code, t.check code =
        if code = successStatus then .ok () else .error (config.referenceError code) := by
  obtain ⟨t, htable, hkind⟩ := hconfig.exists_statusTable
  refine ⟨t, htable, ?_, ?_, ?_, hkind, ?_⟩
  · intro code kind hoverride
    rw [hkind, reference?_of_override hoverride]
  · intro code hoverride r hr hcontains
    rw [hkind, ← hconfig.kindOf?_build_eq_reference? hoverride]
    exact hconfig.kindOf?_build hr hcontains
  · intro code hoverride hnone
    have hfind : config.ranges.find? (fun r => r.contains code) = none := by
      rw [List.find?_eq_none]
      intro r hr hcontains
      rw [hnone r hr] at hcontains
      cases hcontains
    rw [hkind, reference?_of_not_override hoverride, hfind]
  · intro code
    rw [StatusTable.check, errorOf_eq_referenceError hkind]

/-- Replaced ranges, one of them over published kinds and one up to the largest status, and two
overrides. -/
def remapped : Config where
  parameterRanges := some [⟨2147483600, 2147483647, 1⟩, ⟨110, 120, 4⟩]
  overrides := (∅ : Std.ExtTreeMap Int32 String).insertMany
    [(111, "unmapped"), (200, "invalid_parameter")]

theorem isFaultless_remapped : remapped.IsFaultless where
  valid := by decide
  disjoint := by
    refine List.pairwise_pair.mpr ?_
    rintro code ⟨hhigh, hlow⟩
    have hle := (ParameterRange.contains_iff.mp hhigh).1
    have hge := (ParameterRange.contains_iff.mp hlow).2
    exact absurd (Int.le_trans hle hge) (by decide)
  known := by
    intro code name h
    have hentry : (code, name) ∈ remapped.overrides.toList :=
      Std.ExtTreeMap.mem_toList_iff_getElem?_eq_some.mpr h
    have hlist : remapped.overrides.toList = [(111, "unmapped"), (200, "invalid_parameter")] := by
      decide
    rw [hlist] at hentry
    rcases List.mem_pair.mp hentry with heq | heq
    · cases heq
      exact ⟨by decide, .unmapped 0, rfl⟩
    · cases heq
      exact ⟨by decide, .invalidParameter 0, rfl⟩

/-- Status `112` leaves its published kind for a position, and `100` loses the one it had. -/
theorem statusTable_spec_remapped : ∃ t, remapped.statusTable = .ok t ∧
    t.kindOf? 112 = some (.invalidParameter 6) ∧ t.kindOf? 111 = some (.unmapped 111) ∧
    t.kindOf? 200 = some (.invalidParameter 0) ∧ t.kindOf? 100 = none := by
  obtain ⟨t, htable, hover, hrange, helse, -⟩ := statusTable_spec isFaultless_remapped
  refine ⟨t, htable, ?_, ?_, ?_, ?_⟩
  · obtain ⟨index, hkind, hnat⟩ :=
      hrange 112 (by decide) ⟨110, 120, 4⟩ (by decide) (by decide)
    have hsix : index.toNat = 6 := by
      have hint : (index.toNat : Int) = 6 := hnat
      omega
    rw [hkind, show index = 6 from UInt32.toNat_inj.mp hsix]
  · exact hover 111 (.unmapped 0) (by decide)
  · exact hover 200 (.invalidParameter 0) (by decide)
  · exact helse 100 (by decide) (by decide)

end Config

end CommandBridge

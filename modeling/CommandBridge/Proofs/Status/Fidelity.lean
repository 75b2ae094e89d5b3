import CommandBridge.Proofs.Config.Acceptance

/-!
# Status tables stay faithful

A table is published, made for some ranges, or configured; after that, single statuses may be
overridden any number of times.  Whatever is attempted, the table keeps to two rules: success has no
entry, and an unmapped status is stored under its own number.

* `StatusTable.attempt`, `StatusTable.attempts` — overrides that may be refused;
* `StatusTable.Origin` — where a table comes from;
* `StatusTable.IsFaithful` — the two rules;
* `IsFaithful.of_origin`, `IsFaithful.attempts` — every table keeps them;
* `StatusTable.Obeys` — a status has the kind that an override asks for;
* `obeys_attempts_of_last` — the last override of a status decides;
* `StatusTable.translation_faithful` — what this means for the errors of all statuses.
-/

namespace CommandBridge

namespace StatusTable

/-! ### Overrides that may be refused -/

/-- The table after an override was attempted.  One that is refused leaves it as it is. -/
def attempt (t : StatusTable) (code : Int32) (kind : ErrorKind) : StatusTable :=
  match t.pin code kind with
  | .ok u => u
  | .error _ => t

/-- The table after several overrides were attempted, one after the other. -/
def attempts (t : StatusTable) (overrides : List (Int32 × ErrorKind)) : StatusTable :=
  overrides.foldl (fun t o => t.attempt o.1 o.2) t

/-- Where a table comes from before its statuses are overridden. -/
inductive Origin : StatusTable → Prop
  | published : Origin published
  | ranges {ranges : List ParameterRange} {t : StatusTable} (h : ofRanges ranges = .ok t) : Origin t
  | config {config : Config} {t : StatusTable} (h : config.statusTable = .ok t) : Origin t

variable {t : StatusTable} {code other : Int32} {kind : ErrorKind}

/-- Success cannot be overridden. -/
theorem pin_success (t : StatusTable) (kind : ErrorKind) :
    t.pin successStatus kind = .error .successOverride := rfl

/-- Every other status can. -/
theorem pin_of_ne (t : StatusTable) (hcode : code ≠ successStatus) (kind : ErrorKind) :
    t.pin code kind = .ok (t.insert code (pinned code kind)) := by
  rw [pin, if_neg hcode]

@[simp] theorem attempt_success (t : StatusTable) (kind : ErrorKind) :
    t.attempt successStatus kind = t := rfl

theorem attempt_of_ne (t : StatusTable) (hcode : code ≠ successStatus) (kind : ErrorKind) :
    t.attempt code kind = t.insert code (pinned code kind) := by
  rw [attempt, pin_of_ne t hcode]

/-- An override changes no other status. -/
theorem kindOf?_attempt_of_ne (t : StatusTable) (kind : ErrorKind) (hother : code ≠ other) :
    (t.attempt code kind).kindOf? other = t.kindOf? other := by
  by_cases hcode : code = successStatus
  · rw [hcode, attempt_success]
  · rw [attempt_of_ne t hcode, kindOf?_insert, if_neg hother]

/-- A status that no override is about keeps its kind. -/
theorem kindOf?_attempts_of_forall_ne {overrides : List (Int32 × ErrorKind)}
    (h : ∀ o ∈ overrides, o.1 ≠ code) (t : StatusTable) :
    (t.attempts overrides).kindOf? code = t.kindOf? code := by
  induction overrides generalizing t with
  | nil => rfl
  | cons first overrides ih =>
    obtain ⟨hfirst, hrest⟩ := List.forall_mem_cons.mp h
    show ((t.attempt first.1 first.2).attempts overrides).kindOf? code = _
    rw [ih hrest, kindOf?_attempt_of_ne t first.2 hfirst]

/-- What the last override of a status stores stays. -/
theorem kindOf?_attempts_of_last {before after : List (Int32 × ErrorKind)}
    (hcode : code ≠ successStatus) (hlast : ∀ o ∈ after, o.1 ≠ code) (t : StatusTable) :
    (t.attempts (before ++ (code, kind) :: after)).kindOf? code = some (pinned code kind) := by
  have hsplit : t.attempts (before ++ (code, kind) :: after) =
      ((t.attempts before).attempt code kind).attempts after := by
    rw [attempts, List.foldl_append, List.foldl_cons]
    rfl
  rw [hsplit, kindOf?_attempts_of_forall_ne hlast, attempt_of_ne _ hcode, kindOf?_insert,
    if_pos rfl]

/-! ### The two rules -/

/-- Success has no entry, and an unmapped status is stored under its own number. -/
structure IsFaithful (t : StatusTable) : Prop where
  success : t.kindOf? successStatus = none
  unmapped : ∀ code other, t.kindOf? code = some (.unmapped other) → other = code

/-- A kind that is not unmapped is stored as it is. -/
theorem pinned_of_mapped (hmapped : ∀ other, kind ≠ .unmapped other) (code : Int32) :
    pinned code kind = kind := by
  cases kind with
  | unmapped other => exact absurd rfl (hmapped other)
  | _ => rfl

/-- A stored kind is an unmapped one for its own status only. -/
theorem eq_of_pinned_eq_unmapped (h : pinned code kind = .unmapped other) : other = code := by
  cases kind <;> cases h
  rfl

theorem publishedKind?_success : publishedKind? successStatus = none := by
  decide +kernel

namespace IsFaithful

/-- An override keeps the rules, whether it is refused or not. -/
theorem attempt (h : t.IsFaithful) (code : Int32) (kind : ErrorKind) :
    (t.attempt code kind).IsFaithful := by
  by_cases hcode : code = successStatus
  · rw [hcode, attempt_success]
    exact h
  · rw [attempt_of_ne t hcode]
    refine ⟨?_, fun looked other hfound => ?_⟩
    · rw [kindOf?_insert, if_neg hcode, h.success]
    · rw [kindOf?_insert] at hfound
      split at hfound
      · next heq =>
        rw [← heq]
        exact eq_of_pinned_eq_unmapped (Option.some.inj hfound)
      · exact h.unmapped looked other hfound

/-- **Any number of overrides keeps the rules.** -/
theorem attempts (h : t.IsFaithful) (overrides : List (Int32 × ErrorKind)) :
    (t.attempts overrides).IsFaithful := by
  induction overrides generalizing t with
  | nil => exact h
  | cons first overrides ih => exact ih (h.attempt first.1 first.2)

/-- Valid ranges do not contain success, and positions of arguments are not unmapped. -/
theorem build {ranges : List ParameterRange} (hvalid : ∀ r ∈ ranges, r.isValid = true) :
    (StatusTable.build ranges).IsFaithful := by
  refine ⟨?_, fun code other hfound => ?_⟩
  · have hout : ∀ r ∈ ranges, r.contains successStatus = false := by
      intro r hr
      rw [Bool.eq_false_iff]
      intro hcontains
      have hpos := (ParameterRange.isValid_iff.mp (hvalid r hr)).1
      have hle := (ParameterRange.contains_iff.mp hcontains).1
      exact absurd (Int.lt_of_lt_of_le hpos hle) (by decide)
    rw [StatusTable.build, kindOf?_foldl_of_not_contains hout, kindOf?_named,
      publishedKind?_success]
  · rcases kindOf?_foldl_insertRange hfound with ⟨index, hindex⟩ | hnamed
    · cases hindex
    · rw [kindOf?_named] at hnamed
      exact absurd hnamed (Config.publishedKind?_ne_unmapped code other)

/-- A configured table says what the configuration says. -/
theorem of_statusTable {config : Config} (h : config.statusTable = .ok t) : t.IsFaithful := by
  have hfaultless := Config.IsFaultless.of_statusTable h
  obtain ⟨u, hu, hkind⟩ := hfaultless.exists_statusTable
  obtain rfl : u = t := Except.ok.inj (hu.symm.trans h)
  refine ⟨?_, fun code other hfound => ?_⟩
  · have hnone : config.overrides[successStatus]? = none := by
      cases hentry : config.overrides[successStatus]? with
      | none => rfl
      | some name => exact absurd rfl (hfaultless.known _ name hentry).1
    rw [hkind, ← hfaultless.kindOf?_build_eq_reference? hnone]
    exact (IsFaithful.build hfaultless.valid).success
  · rw [hkind] at hfound
    exact Config.eq_of_reference?_unmapped hfound

/-- **Every table keeps the rules from the start.** -/
theorem of_origin (h : t.Origin) : t.IsFaithful := by
  cases h with
  | published => exact .build (by decide)
  | ranges hranges =>
    obtain ⟨hvalid, hdisjoint⟩ := of_ofRanges_eq_ok hranges
    obtain rfl := Except.ok.inj (hranges.symm.trans (ofRanges_eq_ok hvalid hdisjoint))
    exact .build hvalid
  | config hconfig => exact .of_statusTable hconfig

end IsFaithful

/-! ### Errors -/

/-- No error is without words. -/
theorem message_errorOf_ne_empty (t : StatusTable) (code : Int32) :
    (t.errorOf code).message ≠ "" := by
  have hunmapped : (BridgeError.unmapped code).message ≠ "" := by
    intro hempty
    have hparts : "An unmapped error with the code '" ++ toString code ++
        "' was returned by the SDK." = "" := hempty
    exact absurd (String.append_eq_empty_iff.mp hparts).2 (by decide)
  unfold errorOf
  split
  · exact hunmapped
  · exact hunmapped
  · exact ErrorKind.description_ne_empty _

/-- An unmapped error is that of its own status, and its message says so. -/
theorem of_kind_errorOf_eq_unmapped (h : (t.errorOf code).kind = .unmapped other) :
    other = code ∧ t.errorOf code = .unmapped code := by
  unfold errorOf at h ⊢
  split at h
  · cases h
    exact ⟨rfl, rfl⟩
  · cases h
    exact ⟨rfl, rfl⟩
  · next kind hnot _ => exact absurd h (hnot other)

/-- The error of a status has the kind that is stored, if this is not an unmapped one. -/
theorem kind_errorOf_of_mapped (h : t.kindOf? code = some kind)
    (hmapped : ∀ other, kind ≠ .unmapped other) : (t.errorOf code).kind = kind := by
  unfold errorOf
  split
  · next hnone =>
    rw [hnone] at h
    cases h
  · next other hsome => exact absurd (Option.some.inj (h.symm.trans hsome)) (hmapped other)
  · next hsome => exact Option.some.inj (hsome.symm.trans h)

/-- The table says what an override of the status asks for.  An unmapped kind becomes the one of
this status, whatever number it came with; every other kind is stored as it is. -/
structure Obeys (t : StatusTable) (code : Int32) (kind : ErrorKind) : Prop where
  mapped : (∀ other, kind ≠ .unmapped other) →
    t.kindOf? code = some kind ∧ (t.errorOf code).kind = kind
  unmapped : ∀ other, kind = .unmapped other →
    t.kindOf? code = some (.unmapped code) ∧ (t.errorOf code).kind = .unmapped code

theorem Obeys.of_pinned (h : t.kindOf? code = some (pinned code kind)) : t.Obeys code kind := by
  refine ⟨fun hmapped => ?_, ?_⟩
  · rw [pinned_of_mapped hmapped] at h
    exact ⟨h, kind_errorOf_of_mapped h hmapped⟩
  · rintro other rfl
    have hstored : t.kindOf? code = some (.unmapped code) := h
    refine ⟨hstored, ?_⟩
    rw [errorOf, hstored]
    rfl

/-- **The last override of a status decides its kind.** -/
theorem obeys_attempts_of_last {before after : List (Int32 × ErrorKind)}
    (hcode : code ≠ successStatus) (hlast : ∀ o ∈ after, o.1 ≠ code) (t : StatusTable) :
    (t.attempts (before ++ (code, kind) :: after)).Obeys code kind :=
  .of_pinned (kindOf?_attempts_of_last hcode hlast t)

theorem check_of_ne (t : StatusTable) (hcode : code ≠ successStatus) :
    t.check code = .error (t.errorOf code) := by
  rw [check, if_neg hcode]

theorem check_eq_ok_iff : t.check code = .ok () ↔ code = successStatus := by
  unfold check
  split
  · next hcode => exact ⟨fun _ => hcode, fun _ => rfl⟩
  · next hcode => exact ⟨nofun, fun heq => absurd heq hcode⟩

theorem eq_errorOf_of_check {e : BridgeError} (h : t.check code = .error e) :
    e = t.errorOf code := by
  unfold check at h
  split at h
  · cases h
  · cases h
    rfl

/-- **Whatever is overridden, statuses are told faithfully.**  Let a table be published, made for
ranges or configured, and let any overrides be attempted.  Then

* success has no entry, and a status passes the check exactly if it is success;
* every error has the status as its code and a message; if it is an unmapped error it is that of
  this status and its message quotes it;
* an unmapped kind is stored under its own status only;
* the last override of a failing status decides: its kind is that of the status and of the error,
  except that an unmapped one always means this status; statuses that no override is about keep
  their kinds;
* a further override of a failing status is accepted and changes this status only, while one of
  success is refused and changes nothing. -/
theorem translation_faithful (h : t.Origin) (overrides : List (Int32 × ErrorKind)) :
    (t.attempts overrides).kindOf? successStatus = none ∧
    (∀ code, (t.attempts overrides).check code = .ok () ↔ code = successStatus) ∧
    (∀ code e, (t.attempts overrides).check code = .error e ∨
        (t.attempts overrides).errorOf code = e →
      e.code = code ∧ e.message ≠ "" ∧ ∀ other, e.kind = .unmapped other → other = code ∧
        e.message = s!"An unmapped error with the code '{code}' was returned by the SDK.") ∧
    (∀ code other, (t.attempts overrides).kindOf? code = some (.unmapped other) → other = code) ∧
    (∀ before code kind after, overrides = before ++ (code, kind) :: after →
      code ≠ successStatus → (∀ o ∈ after, o.1 ≠ code) →
        (t.attempts overrides).Obeys code kind) ∧
    (∀ code, (∀ o ∈ overrides, o.1 ≠ code) →
      (t.attempts overrides).kindOf? code = t.kindOf? code) ∧
    (∀ code kind, code ≠ successStatus → ∃ u, (t.attempts overrides).pin code kind = .ok u ∧
      u.Obeys code kind ∧
        ∀ other, other ≠ code → u.kindOf? other = (t.attempts overrides).kindOf? other) ∧
    (∀ kind, (t.attempts overrides).pin successStatus kind = .error .successOverride ∧
      (t.attempts overrides).attempt successStatus kind = t.attempts overrides) := by
  have hfaithful := (IsFaithful.of_origin h).attempts overrides
  refine ⟨hfaithful.success, fun _ => check_eq_ok_iff, ?_, hfaithful.unmapped, ?_, ?_, ?_, ?_⟩
  · intro code e he
    have herror : e = (t.attempts overrides).errorOf code := by
      rcases he with hcheck | heq
      · exact eq_errorOf_of_check hcheck
      · exact heq.symm
    rw [herror]
    refine ⟨errorOf_code _ _, message_errorOf_ne_empty _ _, fun other hkind => ?_⟩
    obtain ⟨hother, hunmapped⟩ := of_kind_errorOf_eq_unmapped hkind
    exact ⟨hother, congrArg BridgeError.message hunmapped⟩
  · rintro before code kind after rfl hcode hlast
    exact obeys_attempts_of_last hcode hlast t
  · intro code hnone
    exact kindOf?_attempts_of_forall_ne hnone t
  · intro code kind hcode
    refine ⟨_, pin_of_ne _ hcode kind, .of_pinned ?_, fun other hother => ?_⟩
    · rw [kindOf?_insert, if_pos rfl]
    · rw [kindOf?_insert, if_neg hother.symm]
  · intro kind
    exact ⟨pin_success _ kind, attempt_success _ kind⟩

/-- Status `112` is overridden twice, the second time with the number of another status, and success
in between. -/
theorem translation_faithful_foreign :
    (published.attempts [(112, .timeout), (0, .timeout), (112, .unmapped 9)]).kindOf? 112 =
        some (.unmapped 112) ∧
      (published.attempts [(112, .timeout), (0, .timeout), (112, .unmapped 9)]).check 0 = .ok () ∧
      (published.attempts [(112, .timeout), (0, .timeout), (112, .unmapped 9)]).kindOf? 113 =
        some .invalidStructure := by
  obtain ⟨-, hcheck, -, -, hlast, hkept, -⟩ := translation_faithful .published
    [(112, .timeout), (0, .timeout), (112, .unmapped 9)]
  refine ⟨?_, (hcheck 0).mpr rfl, ?_⟩
  · have hobeys := hlast [(112, .timeout), (0, .timeout)] 112 (.unmapped 9) [] rfl (by decide)
      (List.forall_mem_nil _)
    exact (hobeys.unmapped 9 rfl).1
  · rw [hkept 113 (by decide)]
    exact (kindOf?_foldl_of_not_contains (by decide) named).trans
      ((kindOf?_named 113).trans (by decide +kernel))

end StatusTable

end CommandBridge

import CommandBridge.Host
import CommandBridge.Proofs.Error.Rendering
import CommandBridge.Proofs.Status.Fidelity
import CommandBridge.Proofs.Status.Positions

/-!
# What host applications are told

A host application asks for everything known about a status, or for the error alone.  Both answers
are texts and numbers, made apart from each other.  They agree, and no two errors that differ in
kind, status or message look the same.

* `StatusTable.lt_of_kindOf?_published` — no published status is its own position;
* `ErrorKind.parameterIndex?_eq_some_iff`, `name_eq_unmapped_iff`, `suffix_eq_empty_iff` — what a
  kind shows behind its name;
* `StatusSummary.ofStatus_of_ne`, `requireSuccess_of_ne` — the two answers for a failing status;
* `StatusSummary.Agrees` — what it means that they agree;
* `HostError.ofError_eq_iff` — when two errors look the same;
* `HostError.surface_exact` — all of it, for every status and every error.
-/

namespace CommandBridge

/-! ### Published positions -/

namespace StatusTable

/-- The two published ranges lie over the published kinds. -/
theorem kindOf?_published (code : Int32) : published.kindOf? code =
    (((⟨115, 129, 13⟩ : ParameterRange).indexOf? code).map .invalidParameter).or
      ((((⟨100, 111, 1⟩ : ParameterRange).indexOf? code).map .invalidParameter).or
        (publishedKind? code)) := by
  rw [published, build, ParameterRange.published, List.foldl_cons, List.foldl_cons, List.foldl_nil,
    kindOf?_insertRange, kindOf?_insertRange, kindOf?_named]

/-- No published status has a kind of its own that is a position. -/
theorem publishedKind?_ne_invalidParameter (code : Int32) (index : UInt32) :
    publishedKind? code ≠ some (.invalidParameter index) := by
  have hrows : ∀ row ∈ NamedCode.published, ∀ kind, row.kind = some kind →
      kind.name ≠ ErrorKind.name (.invalidParameter 0) := by
    decide +kernel
  intro h
  obtain ⟨row, hrow, hkind⟩ := Option.bind_eq_some_iff.mp h
  exact hrows row (List.mem_of_find?_eq_some hrow) _ hkind rfl

/-- **A published position is less than its status.** -/
theorem lt_of_kindOf?_published {code : Int32} {index : UInt32}
    (h : published.kindOf? code = some (.invalidParameter index)) :
    (index.toNat : Int) < code.toInt := by
  have hfirst : ∀ r ∈ ParameterRange.published,
      (r.firstIndex.toNat : Int) < r.firstCode.toInt := by
    decide
  have hless : ∀ r ∈ ParameterRange.published, r.indexOf? code = some index →
      (index.toNat : Int) < code.toInt := by
    intro r hr hindex
    have hposition := (ParameterRange.indexOf?_eq_some_iff.mp hindex).2
    have hpublished := hfirst r hr
    rw [ParameterRange.position] at hposition
    omega
  rw [kindOf?_published] at h
  cases hlow : (⟨115, 129, 13⟩ : ParameterRange).indexOf? code with
  | some other =>
    rw [hlow] at h
    cases h
    exact hless _ (by decide) hlow
  | none =>
    rw [hlow] at h
    cases hhigh : (⟨100, 111, 1⟩ : ParameterRange).indexOf? code with
    | some other =>
      rw [hhigh] at h
      cases h
      exact hless _ (by decide) hhigh
    | none =>
      rw [hhigh] at h
      exact absurd h (publishedKind?_ne_invalidParameter code index)

/-- An error of a status that names a position has it from the table. -/
theorem kindOf?_of_kind_errorOf {t : StatusTable} {code : Int32} {index : UInt32}
    (h : (t.errorOf code).kind = .invalidParameter index) :
    t.kindOf? code = some (.invalidParameter index) := by
  unfold errorOf at h
  split at h
  · cases h
  · cases h
  · next kind _ hfound =>
    rw [hfound]
    exact congrArg some h

end StatusTable

/-! ### Kinds and what stands behind their names -/

namespace ErrorKind

variable {kind : ErrorKind}

/-- A kind with a position shows it behind its name, and of the other kinds only an unmapped one
could look like that. -/
theorem parameterIndex?_eq_some_iff {index : UInt32} : kind.parameterIndex? = some index ↔
    kind.name ≠ "unmapped" ∧ kind.suffix = "(" ++ toString index ++ ")" := by
  cases kind.form with
  | position other =>
    constructor
    · intro h
      cases h
      exact ⟨name_ne_unmapped_of_position index, rfl⟩
    · rintro ⟨-, hsuffix⟩
      exact congrArg some (toString_position_inj (parenthesized_inj hsuffix))
  | status other =>
    constructor
    · intro h
      cases h
    · rintro ⟨hname, -⟩
      exact absurd rfl hname
  | bare _ hnone _ hindex =>
    constructor
    · intro h
      cases kind <;> cases h
      exact absurd rfl (hindex _)
    · rintro ⟨-, hsuffix⟩
      exact absurd (hsuffix.symm.trans hnone) (parenthesized_ne_empty _)

/-- An unmapped kind shows its status behind its name, and no other kind does if the status is not
its position. -/
theorem name_eq_unmapped_iff {code : Int32} (hown : ∀ other, kind = .unmapped other → other = code)
    (hposition : ∀ index, kind = .invalidParameter index → (index.toNat : Int) ≠ code.toInt) :
    kind.name = "unmapped" ↔ kind.suffix = "(" ++ toString code ++ ")" := by
  cases kind.form with
  | position index =>
    constructor
    · intro hname
      exact absurd hname (name_ne_unmapped_of_position index)
    · intro hsuffix
      exact absurd (toInt_eq_of_toString (parenthesized_inj hsuffix)) (hposition index rfl)
  | status other =>
    obtain rfl := hown other rfl
    exact ⟨fun _ => rfl, fun _ => rfl⟩
  | bare _ hnone hname _ =>
    constructor
    · intro h
      exact absurd h hname
    · intro hsuffix
      exact absurd (hsuffix.symm.trans hnone) (parenthesized_ne_empty _)

/-- All other kinds are shown by their name alone. -/
theorem suffix_eq_empty_iff :
    kind.suffix = "" ↔ kind.parameterIndex? = none ∧ kind.name ≠ "unmapped" := by
  cases kind.form with
  | position index =>
    constructor
    · intro hsuffix
      exact absurd hsuffix (parenthesized_ne_empty _)
    · rintro ⟨h, -⟩
      cases h
  | status code =>
    constructor
    · intro hsuffix
      exact absurd hsuffix (parenthesized_ne_empty _)
    · rintro ⟨-, hname⟩
      exact absurd rfl hname
  | bare _ hnone hname hindex =>
    refine ⟨fun _ => ⟨?_, hname⟩, fun _ => hnone⟩
    cases kind with
    | invalidParameter index => exact absurd rfl (hindex index)
    | _ => rfl

end ErrorKind

/-! ### The two answers -/

section Answers

variable {code : Int32}

theorem HostError.kind_ofError (e : BridgeError) : (HostError.ofError e).kind = e.kind.render := rfl

theorem requireSuccess_of_ne (hcode : code ≠ successStatus) :
    requireSuccess code = .error (.ofError (StatusTable.published.errorOf code)) := by
  rw [requireSuccess, StatusTable.check_of_ne _ hcode]
  rfl

theorem requireSuccess_eq_ok_iff : requireSuccess code = .ok () ↔ code = successStatus := by
  constructor
  · intro h
    by_contra hcode
    rw [requireSuccess_of_ne hcode] at h
    cases h
  · rintro rfl
    rfl

namespace StatusSummary

theorem ofStatus_success : (ofStatus successStatus).kind = "success" := rfl

theorem ofStatus_of_ne (hcode : code ≠ successStatus) : ofStatus code =
    { code
      kind := (StatusTable.published.errorOf code).kind.name
      subsystem := (Subsystem.ofStatus code).name
      nativeName := (NamedCode.ofStatus? code).map NamedCode.name
      parameterIndex := (StatusTable.published.errorOf code).kind.parameterIndex?
      message := (StatusTable.published.errorOf code).message } := by
  simp only [ofStatus, StatusTable.check_of_ne _ hcode]

/-- No kind of error is called success. -/
theorem name_ne_success (kind : ErrorKind) : kind.name ≠ "success" := by
  intro h
  have hfound := kind.ofName?_name
  rw [h, show ErrorKind.ofName? "success" = none by decide +kernel] at hfound
  cases hfound

theorem kind_eq_success_iff : (ofStatus code).kind = "success" ↔ code = successStatus := by
  constructor
  · intro h
    by_contra hcode
    rw [ofStatus_of_ne hcode] at h
    exact name_ne_success _ h
  · rintro rfl
    exact ofStatus_success

/-- What is known about a failing status agrees with its error.  Status and message are the same,
and the kind of the error is the kind of the summary with the position in parentheses if there is
one, with the status if it is unmapped, and with nothing behind it otherwise.  Behind the name a
position and a status look alike, and the name tells which of them it is. -/
structure Agrees (s : StatusSummary) (e : HostError) (code : Int32) : Prop where
  summary : s.code = code
  error : e.code = code
  message : e.message = s.message
  position : ∀ index, s.parameterIndex = some index ↔
    s.kind ≠ "unmapped" ∧ e.kind = s.kind ++ ("(" ++ toString index ++ ")")
  unmapped : s.kind = "unmapped" ↔ e.kind = s.kind ++ ("(" ++ toString code ++ ")")
  bare : s.parameterIndex = none ∧ s.kind ≠ "unmapped" ↔ e.kind = s.kind

/-- **The two answers agree** for every failing status. -/
theorem agrees (hcode : code ≠ successStatus) :
    (ofStatus code).Agrees (.ofError (StatusTable.published.errorOf code)) code := by
  have hstatus := StatusTable.published.errorOf_code code
  rw [ofStatus_of_ne hcode]
  generalize hkind : (StatusTable.published.errorOf code).kind = kind
  have hshown : ∀ s, (HostError.ofError (StatusTable.published.errorOf code)).kind =
      kind.name ++ s ↔ kind.suffix = s := by
    intro s
    rw [HostError.kind_ofError, hkind, ErrorKind.render_eq, String.append_right_inj]
  have hbare := hshown ""
  rw [String.append_empty] at hbare
  refine ⟨rfl, hstatus, rfl, fun index => ?_, ?_, ?_⟩
  · rw [hshown]
    exact ErrorKind.parameterIndex?_eq_some_iff
  · rw [hshown]
    refine ErrorKind.name_eq_unmapped_iff (fun other hother => ?_) (fun index hindex => ?_)
    · exact (StatusTable.of_kind_errorOf_eq_unmapped (hkind.trans hother)).1
    · have hfound := StatusTable.kindOf?_of_kind_errorOf (hkind.trans hindex)
      exact Int.ne_of_lt (StatusTable.lt_of_kindOf?_published hfound)
  · rw [hbare]
    exact ErrorKind.suffix_eq_empty_iff.symm

end StatusSummary

end Answers

namespace HostError

/-- **Two errors look the same just if they agree in kind, status and message.** -/
theorem ofError_eq_iff (e f : BridgeError) :
    ofError e = ofError f ↔ e.kind = f.kind ∧ e.code = f.code ∧ e.message = f.message := by
  constructor
  · intro h
    obtain ⟨hkind, hcode, hmessage⟩ := HostError.mk.inj h
    exact ⟨ErrorKind.render_injective hkind, hcode, hmessage⟩
  · rintro ⟨hkind, hcode, hmessage⟩
    rw [ofError, ofError, hkind, hcode, hmessage]

/-- **What host applications are told is consistent and complete.**

* A status passes the check exactly if its summary says success, exactly if it is success.
* For every other status, summary and error both carry the status and the same message.  The kind of
  the error is the kind of the summary, followed by the position exactly if the summary has one, by
  the status exactly if it is unmapped, and by nothing exactly otherwise.
* Two errors of the bridge look the same to a host just if they agree in kind, status and message,
  and a host shows an error as the bridge does. -/
theorem surface_exact :
    (∀ code, (requireSuccess code = .ok () ↔ (StatusSummary.ofStatus code).kind = "success") ∧
      (requireSuccess code = .ok () ↔ code = successStatus) ∧
      (code ≠ successStatus → ∃ e, requireSuccess code = .error e ∧
        (StatusSummary.ofStatus code).Agrees e code)) ∧
    (∀ e f : BridgeError,
      ofError e = ofError f ↔ e.kind = f.kind ∧ e.code = f.code ∧ e.message = f.message) ∧
    ∀ e : BridgeError, (ofError e).render = e.render := by
  refine ⟨fun code => ⟨?_, requireSuccess_eq_ok_iff, fun hcode => ?_⟩, ofError_eq_iff,
    fun e => rfl⟩
  · rw [requireSuccess_eq_ok_iff, StatusSummary.kind_eq_success_iff]
  · exact ⟨_, requireSuccess_of_ne hcode, StatusSummary.agrees hcode⟩

/-- An unmapped status is told with its own number, below zero too, and positions are told apart. -/
theorem surface_exact_negative :
    (∃ e, requireSuccess (-7) = .error e ∧ e.code = -7 ∧
      e.kind = (StatusSummary.ofStatus (-7)).kind ++ "(-7)") ∧
    ofError { kind := .invalidParameter 1, code := 7 } ≠
      ofError { kind := .invalidParameter 12, code := 7 } := by
  obtain ⟨hstatus, herrors, -⟩ := surface_exact
  refine ⟨?_, fun h => ?_⟩
  · obtain ⟨e, he, hagrees⟩ := (hstatus (-7)).2.2 (by decide)
    have hnone : StatusTable.published.kindOf? (-7) = none := by
      rw [StatusTable.kindOf?_published]
      decide +kernel
    have hunmapped : (StatusSummary.ofStatus (-7)).kind = "unmapped" := by
      have hcode : (-7 : Int32) ≠ successStatus := by decide
      simp only [StatusSummary.ofStatus_of_ne hcode, StatusTable.errorOf, hnone]
      rfl
    exact ⟨e, he, hagrees.error, hagrees.unmapped.mp hunmapped⟩
  · exact absurd ((herrors _ _).mp h).1 (by decide)

end HostError

end CommandBridge

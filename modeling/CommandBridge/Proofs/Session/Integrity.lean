import CommandBridge.Proofs.Config.Acceptance
import CommandBridge.Proofs.Session.Clean

/-!
# Breaches of the calling convention

A dangling completion is the native side's fault, and it is the delivery that reports it.  It is no
outcome of an operation, unless a configuration makes a status mean one.

* `Session.exists_outcome_of_failed` — a native function that fails sets the error of its status;
* `Session.violations_only_dangle` — outcomes are free of breaches exactly if no override names one;
  and then only deliveries to handles that are not pending return one;
* `Session.exists_violation_pinned` — with an override that does, a continuation is handed a breach.
-/

namespace CommandBridge

namespace Session

/-- The outcome of a first operation whose native function fails at once. -/
theorem exists_outcome_of_failed {c : Correlator} (hc : c.table = {}) {status : Int32}
    (hstatus : status ≠ successStatus) (operation : String) :
    ∃ m, Reaches (start c [.submit operation (fun _ => status) [] []]) m ∧
      m.1.outcome? 0 = some (.error (c.statuses.errorOf status)) := by
  obtain ⟨table, statuses, timeout⟩ := c
  cases hc
  let t : PendingTable := { entries := [⟨⟨1⟩, 0, operation, 0⟩], allocator := ⟨2⟩ }
  let w := (World.start ⟨{}, statuses, timeout⟩).enter operation (.continuation 0 []) ⟨1⟩ t
  let within : Stack := [.script (some ⟨1⟩) [] [], .native 0 (.submit 0) operation ⟨1⟩ status,
    .script none [] []]
  have hentered : Moves (start ⟨{}, statuses, timeout⟩
      [.submit operation (fun _ => status) [] []]) (w, within) := rfl
  have hfailed : Moves (w, within)
      (w.setTable { t with entries := [] }, [.resolve 0 (.error (statuses.errorOf status))
        (.failed ⟨1⟩ status) (.fail 0 (.submit 0) operation ⟨1⟩ (statuses.errorOf status) []),
        .script none [] []]) := by
    show some (returned w 0 (.submit 0) operation ⟨1⟩ status [] [.script none [] []]) = _
    rw [returned, if_neg hstatus]
    rfl
  exact ⟨_, ((Relation.ReflTransGen.single hentered).tail hfailed).tail rfl, rfl⟩

variable {config : Config} {c : Correlator}

/-- A correlator that no override gives a breach knows no status that means one. -/
theorem kindOf?_ne_danglingCompletion (hc : Correlator.ofConfig config = .ok c)
    (hnone : ∀ code : Int32, config.overrides[code]? ≠ some ErrorKind.danglingCompletion.name)
    (code : Int32) : c.statuses.kindOf? code ≠ some .danglingCompletion := by
  rw [Correlator.kindOf?_of_ofConfig hc]
  exact fun h => hnone code (Config.reference?_eq_danglingCompletion.mp h)

/-- A status that an override makes a breach brings one to the continuation that it fails. -/
theorem exists_violation (hc : Correlator.ofConfig config = .ok c) {code : Int32}
    (hcode : config.overrides[code]? = some ErrorKind.danglingCompletion.name)
    (operation : String) :
    ∃ m e, Reaches (start c [.submit operation (fun _ => code) [] []]) m ∧
      m.1.outcome? 0 = some (.error e) ∧ e.isIntegrityViolation = true := by
  obtain ⟨htable, hstatuses⟩ := Correlator.of_ofConfig hc
  have hfails := ((Config.IsFaultless.of_statusTable hstatuses).known code _ hcode).1
  obtain ⟨m, hm, houtcome⟩ := exists_outcome_of_failed htable hfails operation
  refine ⟨m, _, hm, houtcome, StatusTable.isIntegrityViolation_errorOf.mpr ?_⟩
  rw [Correlator.kindOf?_of_ofConfig hc]
  exact Config.reference?_eq_danglingCompletion.mpr hcode

/-- **Breaches of the calling convention are reported by deliveries only**, as long as no override
names one.

* An accepted configuration has no override that names a dangling completion exactly if in no run of
  its correlator an operation ends with a breach.
* If it has none, then whatever step returns a breach, in whatever run, delivers something to a
  handle that is not pending, and the error is that of this delivery. -/
theorem violations_only_dangle (hc : Correlator.ofConfig config = .ok c) :
    ((∀ code : Int32, config.overrides[code]? ≠ some ErrorKind.danglingCompletion.name) ↔
      ∀ steps m, Reaches (start c steps) m → ∀ id e, m.1.outcome? id = some (.error e) →
        e.isIntegrityViolation = false) ∧
    ((∀ code : Int32, config.overrides[code]? ≠ some ErrorKind.danglingCompletion.name) →
      ∀ steps m n self s rest answers below a, Reaches (start c steps) m →
        m.2 = .script self (s :: rest) answers :: below → Returns m n a →
        ∀ e ∈ a.errors, e.isIntegrityViolation = true → s.Dangles m.1 self e) := by
  refine ⟨⟨fun hnone steps m hm id e houtcome => ?_, fun hclean code hcode => ?_⟩, ?_⟩
  · obtain ⟨hworld, -⟩ := hm.clean (kindOf?_ne_danglingCompletion hc hnone)
    exact hworld.outcomes id _ houtcome e List.mem_cons_self
  · obtain ⟨m, e, hm, houtcome, hviolation⟩ := exists_violation hc hcode "operation"
    rw [hclean _ m hm 0 e houtcome] at hviolation
    cases hviolation
  · intro hnone steps m n self s rest answers below a hm htop hreturns e he hviolation
    obtain ⟨hworld, hstack⟩ := hm.clean (kindOf?_ne_danglingCompletion hc hnone)
    exact hreturns.dangles hworld hstack htop he hviolation

/-- The configuration that pins status `112` to a kind and leaves all else as published. -/
def pinning (kind : ErrorKind) : Config where
  overrides := (∅ : Std.ExtTreeMap Int32 String).insert 112 kind.name

theorem overrides_pinning (kind : ErrorKind) (code : Int32) :
    (pinning kind).overrides[code]? = if 112 = code then some kind.name else none := by
  simp [pinning, Std.ExtTreeMap.getElem?_insert]

/-- Any kind can be pinned. -/
theorem isFaultless_pinning (kind : ErrorKind) : (pinning kind).IsFaultless where
  valid := by
    show ∀ r ∈ ParameterRange.published, r.isValid = true
    decide
  disjoint := by
    refine List.pairwise_pair.mpr ?_
    rintro code ⟨hlow, hhigh⟩
    have hle := (ParameterRange.contains_iff.mp hlow).2
    have hge := (ParameterRange.contains_iff.mp hhigh).1
    exact absurd (Int.le_trans hge hle) (by decide)
  known := by
    intro code name hcode
    rw [overrides_pinning] at hcode
    split at hcode
    · next heq =>
      cases hcode
      exact ⟨heq ▸ by decide, kind, rfl⟩
    · cases hcode

/-- A status pinned to an ordinary kind brings no breach. -/
theorem violations_only_dangle_pinned :
    ∃ c, Correlator.ofConfig (pinning .walletAlreadyOpened) = .ok c ∧
      ∀ steps m, Reaches (start c steps) m → ∀ id e, m.1.outcome? id = some (.error e) →
        e.isIntegrityViolation = false := by
  obtain ⟨c, hc⟩ := Correlator.exists_ofConfig (isFaultless_pinning .walletAlreadyOpened)
  refine ⟨c, hc, (violations_only_dangle hc).1.mp (fun code hcode => ?_)⟩
  rw [overrides_pinning] at hcode
  split at hcode
  · exact absurd (Option.some.inj hcode) (by decide)
  · cases hcode

/-- **An override can hand a breach to a continuation.**  The configuration is accepted, and the
native function of the only operation fails with the status pinned; nothing is delivered. -/
theorem exists_violation_pinned :
    ∃ c m e, Correlator.ofConfig (pinning .danglingCompletion) = .ok c ∧
      Reaches (start c [.submit "open_wallet" (fun _ => 112) [] []]) m ∧
      m.1.outcome? 0 = some (.error e) ∧ e.kind = .danglingCompletion := by
  obtain ⟨c, hc⟩ := Correlator.exists_ofConfig (isFaultless_pinning .danglingCompletion)
  have hpinned : (pinning .danglingCompletion).overrides[(112 : Int32)]? =
      some ErrorKind.danglingCompletion.name := by
    rw [overrides_pinning, if_pos rfl]
  obtain ⟨m, e, hm, houtcome, hviolation⟩ := exists_violation hc hpinned "open_wallet"
  exact ⟨c, m, e, hc, hm, houtcome, ErrorKind.isIntegrityViolation_iff.mp hviolation⟩

end Session

end CommandBridge

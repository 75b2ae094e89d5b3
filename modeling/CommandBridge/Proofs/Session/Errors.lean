import CommandBridge.Proofs.Config.Acceptance
import CommandBridge.Session.Frame

/-!
# The errors that steps bring

Errors reach whoever takes a step in its answer.  They come from the status table, from the bridge
itself, and from outcomes that were set before.  One kind among them, the breach of the calling
convention, must not be taken for the failure of an operation.

* `Answer.errors` — the errors that an answer brings itself;
* `NoViolation` — none of some errors is a breach of the calling convention;
* `StatusTable.isIntegrityViolation_errorOf` — the error of a status is a breach exactly if the
  table says so;
* `noViolation_arguments`, `noViolation_result` — neither arguments nor payloads that do not fit
  bring one.
-/

namespace CommandBridge

/-! ### Errors -/

/-- The error that a result is, if it is one. -/
def errorsOf {α : Type} : Except BridgeError α → List BridgeError
  | .ok _ => []
  | .error e => [e]

/-- The error of a call that had failed before anything was begun. -/
def PendingCall.errors (call : PendingCall) : List BridgeError :=
  match call.source with
  | .operation _ => []
  | .failed e => [e]

/-- The errors that an answer brings itself.  What the steps inside a native function returned was
returned to them. -/
def Answer.errors : Answer → List BridgeError
  | .submitted _ given _ _ => errorsOf given
  | .issued _ held _ _ => held.errors
  | .called _ held _ _ => held.errors
  | .configured given _ _ => errorsOf given
  | .delivered given => errorsOf given
  | .error e => [e]
  | .result _ given => errorsOf given
  | .waited _ given completion => errorsOf given ++ errorsOf completion
  | .call held => held.errors
  | _ => []

/-- None of the errors is a breach of the calling convention. -/
def NoViolation (errors : List BridgeError) : Prop :=
  ∀ e ∈ errors, e.isIntegrityViolation = false

theorem noViolation_nil : NoViolation [] :=
  fun _ he => absurd he List.not_mem_nil

theorem noViolation_singleton {e : BridgeError} (h : e.isIntegrityViolation = false) :
    NoViolation [e] :=
  List.forall_mem_singleton.mpr h

theorem NoViolation.append {errors errors' : List BridgeError} (h : NoViolation errors)
    (h' : NoViolation errors') : NoViolation (errors ++ errors') :=
  List.forall_mem_append.mpr ⟨h, h'⟩

theorem noViolation_bind {α β : Type} {x : Except BridgeError α} {f : α → Except BridgeError β}
    (hx : NoViolation (errorsOf x)) (hf : ∀ a, NoViolation (errorsOf (f a))) :
    NoViolation (errorsOf (x >>= f)) := by
  cases x with
  | error e => exact hx
  | ok a => exact hf a

/-! ### Where errors come from -/

/-- One kind is a breach of the convention, and no other. -/
theorem ErrorKind.isIntegrityViolation_iff {kind : ErrorKind} :
    kind.isIntegrityViolation = true ↔ kind = .danglingCompletion := by
  refine ⟨fun h => ?_, fun h => by rw [h]; rfl⟩
  cases kind <;> first | rfl | cases h

/-- The error of a status is a breach exactly if the table says so. -/
theorem StatusTable.isIntegrityViolation_errorOf {t : StatusTable} {code : Int32} :
    (t.errorOf code).isIntegrityViolation = true ↔ t.kindOf? code = some .danglingCompletion := by
  have hunmapped : (BridgeError.unmapped code).isIntegrityViolation ≠ true := Bool.false_ne_true
  unfold errorOf
  split
  · next hkind => simp [hkind, hunmapped]
  · next other hkind => simp [hkind, hunmapped]
  · next kind _ hkind =>
    rw [hkind, Option.some_inj]
    exact ErrorKind.isIntegrityViolation_iff

theorem noViolation_published (code : Int32) :
    (StatusTable.published.errorOf code).isIntegrityViolation = false := by
  rw [Bool.eq_false_iff]
  intro h
  exact Config.kindOf?_published_ne_danglingCompletion code
    (StatusTable.isIntegrityViolation_errorOf.mp h)

theorem noViolation_check {t : StatusTable} {status : Int32}
    (h : (t.errorOf status).isIntegrityViolation = false) :
    NoViolation (errorsOf (t.check status)) := by
  unfold StatusTable.check
  split
  · exact noViolation_nil
  · exact noViolation_singleton h

theorem noViolation_textArgument (index : UInt32) (s : String) :
    NoViolation (errorsOf (textArgument index s)) := by
  unfold textArgument CText.ofArgument
  cases CText.ofString? s with
  | ok t => exact noViolation_nil
  | error offset => exact noViolation_singleton rfl

theorem noViolation_optionalArgument (index : UInt32) (s : Option String) :
    NoViolation (errorsOf (optionalArgument index s)) := by
  cases s with
  | none => exact noViolation_nil
  | some s => exact noViolation_textArgument index s

/-- Arguments are rejected for their positions. -/
theorem noViolation_arguments (cmd : Command) : NoViolation (errorsOf cmd.arguments) := by
  cases cmd with
  | closeWallet wallet => exact noViolation_nil
  | closePool pool => exact noViolation_nil
  | createKey wallet key =>
    exact noViolation_bind (noViolation_textArgument 3 key) (fun _ => noViolation_nil)
  | createPoolConfig name config =>
    exact noViolation_bind (noViolation_textArgument 2 name) (fun _ =>
      noViolation_bind (noViolation_optionalArgument 3 config) (fun _ => noViolation_nil))
  | openPool name config =>
    exact noViolation_bind (noViolation_textArgument 2 name) (fun _ =>
      noViolation_bind (noViolation_optionalArgument 3 config) (fun _ => noViolation_nil))
  | _ =>
    exact noViolation_bind (noViolation_textArgument 2 _) (fun _ =>
      noViolation_bind (noViolation_textArgument 3 _) (fun _ => noViolation_nil))

theorem noViolation_runtimeConfigCall (config : String) :
    NoViolation (errorsOf (runtimeConfigCall config)) :=
  noViolation_bind (noViolation_textArgument 1 config) (fun _ => noViolation_nil)

/-- A payload of another form is an error, but no breach of the convention. -/
theorem noViolation_result {shape : Shape} {outcome : Outcome}
    (h : NoViolation (errorsOf outcome)) : NoViolation (errorsOf (shape.result outcome)) := by
  cases outcome with
  | error e => exact h
  | ok p =>
    cases shape <;> cases p <;>
      first | exact noViolation_nil | exact noViolation_singleton rfl

end CommandBridge

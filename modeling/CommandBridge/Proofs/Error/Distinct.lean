import CommandBridge.Status.Table
import Std.Data.String.ToInt

/-!
# Telling errors apart

The error that an operation ends with says what ended it.  The bridge's own errors carry a message
of their own, which no error of a status does unless it is unmapped, and the handle or the operation
can be read off the message.

* `errorOf_injective` — the error of a status is that of no other status;
* `timeout_injective`, `shutDown_injective` — a timeout or a shutdown names its handle;
* `refused_injective` — a refusal names its operation;
* `shutDown_ne_refused`, `errorOf_ne_timeout`, `errorOf_ne_shutDown`, `errorOf_ne_refused` — and
  none of these is another one.
-/

namespace CommandBridge

theorem CommandHandle.render_injective {h g : CommandHandle} (heq : h.render = g.render) :
    h = g := by
  have hrepr : Int.repr h.raw.toInt = Int.repr g.raw.toInt := heq
  have hraw : h.raw = g.raw := Int32.toInt_inj.mp (Int.repr_injective hrepr)
  cases h
  cases g
  exact congrArg CommandHandle.mk hraw

namespace BridgeError

/-! ### The bridge's own errors -/

theorem timeout_injective {h g : CommandHandle} (heq : timeout h = timeout g) : h = g := by
  have hdetail := Option.some.inj (congrArg detail heq)
  have hprefix := (String.append_left_inj _).mp hdetail
  exact CommandHandle.render_injective ((String.append_right_inj _).mp hprefix)

theorem shutDown_injective {h g : CommandHandle} (heq : shutDown h = shutDown g) : h = g := by
  have hdetail := Option.some.inj (congrArg detail heq)
  have hprefix := (String.append_left_inj _).mp hdetail
  exact CommandHandle.render_injective ((String.append_right_inj _).mp hprefix)

theorem refused_injective {a b : String} (heq : refused a = refused b) : a = b := by
  have hdetail := Option.some.inj (congrArg detail heq)
  have hprefix := (String.append_left_inj _).mp hdetail
  exact (String.append_right_inj _).mp hprefix

/-- Their messages already differ in the second letter. -/
theorem shutDown_ne_refused (h : CommandHandle) (operation : String) :
    shutDown h ≠ refused operation := by
  intro heq
  have hmessage : "command " ++ h.render ++ " was pending when the correlator shut down" =
      "cannot issue " ++ operation ++ ": the correlator is shut down" :=
    Option.some.inj (congrArg detail heq)
  have hletter := congrArg (fun message => message.toList[1]?) hmessage
  simp at hletter

theorem timeout_ne_shutDown (h g : CommandHandle) : timeout h ≠ shutDown g := by
  intro heq
  cases congrArg kind heq

theorem timeout_ne_refused (h : CommandHandle) (operation : String) :
    timeout h ≠ refused operation := by
  intro heq
  cases congrArg kind heq

end BridgeError

/-! ### Errors of statuses -/

namespace StatusTable

variable {t : StatusTable} {code : Int32}

theorem errorOf_injective {other : Int32} (heq : t.errorOf code = t.errorOf other) :
    code = other := by
  have hcode := congrArg BridgeError.code heq
  rwa [errorOf_code, errorOf_code] at hcode

/-- An error of a status has a message of its own only if the status is unmapped. -/
theorem kind_errorOf (hdetail : (t.errorOf code).detail ≠ none) :
    (t.errorOf code).kind = .unmapped code := by
  unfold errorOf at hdetail ⊢
  split at hdetail
  · rfl
  · rfl
  · exact absurd rfl hdetail

/-- An error with a message of its own and an ordinary kind is not that of a status. -/
theorem errorOf_ne {e : BridgeError} (hdetail : e.detail ≠ none)
    (hkind : ∀ other, e.kind ≠ .unmapped other) : t.errorOf code ≠ e := by
  rintro rfl
  exact hkind code (kind_errorOf hdetail)

theorem errorOf_ne_timeout (h : CommandHandle) : t.errorOf code ≠ .timeout h :=
  errorOf_ne (Option.some_ne_none _) (fun _ heq => by cases heq)

theorem errorOf_ne_shutDown (h : CommandHandle) : t.errorOf code ≠ .shutDown h :=
  errorOf_ne (Option.some_ne_none _) (fun _ heq => by cases heq)

theorem errorOf_ne_refused (operation : String) : t.errorOf code ≠ .refused operation :=
  errorOf_ne (Option.some_ne_none _) (fun _ heq => by cases heq)

end StatusTable

end CommandBridge

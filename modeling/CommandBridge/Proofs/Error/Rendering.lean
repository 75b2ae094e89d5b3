import CommandBridge.Error.Kind
import Std.Data.String.ToInt

/-!
# Kinds of error as text

A kind is shown by its name, and the two kinds with a parameter show it in parentheses behind the
name.  No name has a parenthesis in it, so the name can be read off the text, and then the
parameter.

* `ErrorKind.suffix`, `ErrorKind.render_eq` — what stands behind the name;
* `ErrorKind.Form` — a kind has a position, or a status, or no parameter;
* `ErrorKind.eq_of_withoutParameter` — name and parameter are all there is to a kind;
* `ErrorKind.render_injective` — **no two kinds are shown by the same text**.
-/

namespace CommandBridge

namespace ErrorKind

/-- What stands behind the name of a kind. -/
def suffix : ErrorKind → String
  | .invalidParameter index => "(" ++ toString index ++ ")"
  | .unmapped code => "(" ++ toString code ++ ")"
  | _ => ""

/-- A kind is shown by its name and its parameter. -/
theorem render_eq (kind : ErrorKind) : kind.render = kind.name ++ kind.suffix := by
  cases kind with
  | invalidParameter index =>
    show "invalid_parameter(" ++ toString index ++ ")" =
      "invalid_parameter" ++ ("(" ++ toString index ++ ")")
    rw [← String.append_assoc, ← String.append_assoc]
    rfl
  | unmapped code =>
    show "unmapped(" ++ toString code ++ ")" = "unmapped" ++ ("(" ++ toString code ++ ")")
    rw [← String.append_assoc, ← String.append_assoc]
    rfl
  | _ => exact String.append_empty.symm

/-! ### Parameters -/

/-- The three forms of kinds: with a position, with a status, and without a parameter. -/
inductive Form : ErrorKind → Prop
  | position (index : UInt32) : Form (.invalidParameter index)
  | status (code : Int32) : Form (.unmapped code)
  | bare {kind : ErrorKind} (hkind : kind.withoutParameter = kind) (hsuffix : kind.suffix = "")
      (hname : kind.name ≠ "unmapped") (hindex : ∀ index, kind ≠ .invalidParameter index) :
      Form kind

theorem form (kind : ErrorKind) : kind.Form := by
  cases kind with
  | invalidParameter index => exact .position index
  | unmapped code => exact .status code
  | _ => exact .bare rfl rfl (by decide) nofun

theorem name_ne_unmapped_of_position (index : UInt32) :
    (ErrorKind.invalidParameter index).name ≠ "unmapped" := by
  show "invalid_parameter" ≠ "unmapped"
  decide

/-- A parameter stands between parentheses, so something does. -/
theorem parenthesized_ne_empty (s : String) : "(" ++ s ++ ")" ≠ "" := by
  intro h
  exact absurd (String.append_eq_empty_iff.mp h).2 (by decide)

theorem parenthesized_inj {s t : String} (h : "(" ++ s ++ ")" = "(" ++ t ++ ")") : s = t :=
  (String.append_right_inj _).mp ((String.append_left_inj _).mp h)

theorem toString_position_inj {index other : UInt32} (h : toString index = toString other) :
    index = other := by
  have hrepr : Nat.repr index.toNat = Nat.repr other.toNat := h
  exact UInt32.toNat_inj.mp (Nat.repr_inj.mp hrepr)

theorem toString_status_inj {code other : Int32} (h : toString code = toString other) :
    code = other := by
  have hrepr : Int.repr code.toInt = Int.repr other.toInt := h
  exact Int32.toInt_inj.mp (Int.repr_injective hrepr)

/-- A position and a status are shown alike only if they are the same number. -/
theorem toInt_eq_of_toString {index : UInt32} {code : Int32} (h : toString index = toString code) :
    (index.toNat : Int) = code.toInt := by
  have hrepr : Int.repr (index.toNat : Int) = Int.repr code.toInt := h
  exact Int.repr_injective hrepr

/-- Kinds with the same name and the same parameter are the same. -/
theorem eq_of_withoutParameter {kind other : ErrorKind}
    (hkind : kind.withoutParameter = other.withoutParameter)
    (hsuffix : kind.suffix = other.suffix) : kind = other := by
  cases kind.form with
  | position index =>
    cases other.form with
    | position later =>
      rw [toString_position_inj (parenthesized_inj hsuffix)]
    | status code => cases hkind
    | bare _ hnone _ _ => exact absurd (hsuffix.trans hnone) (parenthesized_ne_empty _)
  | status code =>
    cases other.form with
    | position index => cases hkind
    | status later =>
      rw [toString_status_inj (parenthesized_inj hsuffix)]
    | bare _ hnone _ _ => exact absurd (hsuffix.trans hnone) (parenthesized_ne_empty _)
  | bare hbare hnone _ _ =>
    cases other.form with
    | position index => exact absurd (hsuffix.symm.trans hnone) (parenthesized_ne_empty _)
    | status code => exact absurd (hsuffix.symm.trans hnone) (parenthesized_ne_empty _)
    | bare hother _ _ _ => rw [← hbare, hkind, hother]

/-! ### Names -/

/-- A name is written with letters among which there is no parenthesis. -/
theorem exists_letters (kind : ErrorKind) :
    ∃ letters, kind.name = .ofList letters ∧ '(' ∉ letters := by
  -- a literal is the list of its letters; reading it as a text would have it decoded
  cases kind <;> exact ⟨_, rfl, by decide +kernel⟩

theorem ne_paren_of_mem_name (kind : ErrorKind) : ∀ c ∈ kind.name.toList, (c != '(') = true := by
  obtain ⟨letters, hname, hparen⟩ := kind.exists_letters
  rw [hname, String.toList_ofList]
  intro c hc
  refine bne_iff_ne.mpr ?_
  rintro rfl
  exact hparen hc

/-- What stands behind a name begins with a parenthesis. -/
theorem takeWhile_suffix (kind : ErrorKind) : kind.suffix.toList.takeWhile (· != '(') = [] := by
  cases kind.form with
  | position index =>
    rw [suffix, String.toList_append, String.toList_append]
    rfl
  | status code =>
    rw [suffix, String.toList_append, String.toList_append]
    rfl
  | bare _ hnone _ _ =>
    rw [hnone]
    rfl

/-- The name is what stands before the first parenthesis. -/
theorem takeWhile_render (kind : ErrorKind) :
    kind.render.toList.takeWhile (· != '(') = kind.name.toList := by
  rw [render_eq, String.toList_append, List.takeWhile_append_of_pos kind.ne_paren_of_mem_name,
    takeWhile_suffix, List.append_nil]

/-- **No two kinds are shown by the same text.** -/
theorem render_injective {kind other : ErrorKind} (h : kind.render = other.render) :
    kind = other := by
  have hname : kind.name = other.name := by
    have hread := congrArg (fun s => s.toList.takeWhile (· != '(')) h
    rw [takeWhile_render, takeWhile_render] at hread
    exact String.toList_inj.mp hread
  have hkind : kind.withoutParameter = other.withoutParameter := by
    have hfound := ofName?_name kind
    rw [hname, ofName?_name other] at hfound
    exact (Option.some.inj hfound).symm
  have hsuffix : kind.suffix = other.suffix := by
    rw [render_eq, render_eq, hname] at h
    exact (String.append_right_inj _).mp h
  exact eq_of_withoutParameter hkind hsuffix

end ErrorKind

end CommandBridge

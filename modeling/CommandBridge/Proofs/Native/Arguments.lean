import CommandBridge.Native.Command
import CommandBridge.Proofs.Text.CText

/-!
# The arguments of a native function

The native functions take their arguments in the order of their signatures.  Each text among them is
checked before anything is called, the first one first, and the error says at which position of the
signature the first one stands that cannot be passed on.

* `GivenArgument` — an argument as the caller gives it, and `Command.given` those of each command;
* `GivenArgument.Passes` — what the native side sees of an argument;
* `passAll` — arguments passed on from a position of the signature on;
* `FirstZero` — the first argument that has a zero character inside;
* `passAll_of_firstZero`, `exists_passAll` — its position is in the error, and without such an
  argument all are passed on;
* `Command.arguments_eq`, `runtimeConfigCall_eq` — this is how every wrapped function treats its
  arguments.
-/

namespace CommandBridge

/-! ### One argument -/

/-- An argument as the caller gives it. -/
inductive GivenArgument where
  | text (text : String)
  /-- A text that may be left out. -/
  | optional (text : Option String)
  | number (value : Int32)

namespace GivenArgument

/-- The text that the argument brings along. -/
def text? : GivenArgument → Option String
  | .text s => some s
  | .optional s => s
  | .number _ => none

/-- There is a zero character inside. -/
def HasZero (g : GivenArgument) : Prop :=
  ∃ s, g.text? = some s ∧ '\x00' ∈ s.toList

/-- What the native side sees of an argument: the bytes of a text, a number as it is, and a null
pointer in place of a text that was left out. -/
inductive Passes : GivenArgument → NativeArgument → Prop
  | text {s : String} {t : CText} (ht : t.bytes = Utf8.encode s) : Passes (.text s) (.text t)
  | present {s : String} {t : CText} (ht : t.bytes = Utf8.encode s) :
      Passes (.optional (some s)) (.text t)
  | left : Passes (.optional none) .null
  | number {value : Int32} : Passes (.number value) (.number value)

/-- The argument at a position of the signature, in native form. -/
def pass (index : UInt32) : GivenArgument → Except BridgeError NativeArgument
  | .text s => textArgument index s
  | .optional s => optionalArgument index s
  | .number value => .ok (.number value)

end GivenArgument

variable {index : UInt32} {g : GivenArgument} {s : String}

theorem textArgument_of_mem (h : '\x00' ∈ s.toList) : textArgument index s =
    .error (CText.interiorZero index (CText.bytesBeforeZero s)) := by
  rw [textArgument, CText.ofArgument_of_mem h]
  rfl

theorem exists_textArgument (h : '\x00' ∉ s.toList) :
    ∃ t, textArgument index s = .ok (.text t) ∧ t.bytes = Utf8.encode s := by
  rw [textArgument, CText.ofArgument_of_not_mem h]
  exact ⟨_, rfl, rfl⟩

theorem GivenArgument.pass_of_zero (hs : g.text? = some s) (hzero : '\x00' ∈ s.toList) :
    g.pass index = .error (CText.interiorZero index (CText.bytesBeforeZero s)) := by
  cases g with
  | text text =>
    cases hs
    exact textArgument_of_mem hzero
  | optional text =>
    obtain rfl : text = some s := hs
    exact textArgument_of_mem hzero
  | number value => cases hs

theorem GivenArgument.exists_pass (index : UInt32) (h : ¬ g.HasZero) :
    ∃ a, g.pass index = .ok a ∧ g.Passes a := by
  cases g with
  | text text =>
    have hzero : '\x00' ∉ text.toList := fun hmem => h ⟨text, rfl, hmem⟩
    obtain ⟨t, ht, hbytes⟩ := exists_textArgument hzero
    exact ⟨_, ht, .text hbytes⟩
  | optional text =>
    cases text with
    | none => exact ⟨_, rfl, .left⟩
    | some text =>
      have hzero : '\x00' ∉ text.toList := fun hmem => h ⟨text, rfl, hmem⟩
      obtain ⟨t, ht, hbytes⟩ := exists_textArgument hzero
      exact ⟨_, ht, .present hbytes⟩
  | number value => exact ⟨_, rfl, .number⟩

/-! ### All of them -/

/-- Arguments in native form, the first of them at a position of the signature. -/
def passAll (index : UInt32) : List GivenArgument → Except BridgeError (List NativeArgument)
  | [] => .ok []
  | g :: rest => do
    let a ← g.pass index
    let others ← passAll (index + 1) rest
    .ok (a :: others)

/-- The argument after `k` others is the first one that has a zero character inside, and `s` is its
text. -/
def FirstZero (given : List GivenArgument) (k : Nat) (s : String) : Prop :=
  ∃ before g after, given = before ++ g :: after ∧ before.length = k ∧
    (∀ b ∈ before, ¬ b.HasZero) ∧ g.text? = some s ∧ '\x00' ∈ s.toList

theorem exists_firstZero {given : List GivenArgument} (h : ∃ g ∈ given, g.HasZero) :
    ∃ k s, FirstZero given k s := by
  induction given with
  | nil =>
    obtain ⟨g, hg, -⟩ := h
    cases hg
  | cons first rest ih =>
    by_cases hfirst : first.HasZero
    · obtain ⟨s, hs, hzero⟩ := hfirst
      exact ⟨0, s, [], first, rest, rfl, rfl, fun _ hb => absurd hb List.not_mem_nil, hs, hzero⟩
    · have hrest : ∃ g ∈ rest, g.HasZero := by
        obtain ⟨g, hg, hzero⟩ := h
        rcases List.mem_cons.mp hg with rfl | hg
        · exact absurd hzero hfirst
        · exact ⟨g, hg, hzero⟩
      obtain ⟨k, s, before, g, after, rfl, hk, hbefore, hs⟩ := ih hrest
      refine ⟨k + 1, s, first :: before, g, after, rfl, congrArg (· + 1) hk, ?_, hs⟩
      exact List.forall_mem_cons.mpr ⟨hfirst, hbefore⟩

/-- **The error has the position of the first argument that cannot be passed on.** -/
theorem passAll_of_firstZero {given : List GivenArgument} {k : Nat} (h : FirstZero given k s) :
    passAll index given =
      .error (CText.interiorZero (index + UInt32.ofNat k) (CText.bytesBeforeZero s)) := by
  obtain ⟨before, g, after, rfl, rfl, hbefore, hs, hzero⟩ := h
  induction before generalizing index with
  | nil =>
    have hindex : index + UInt32.ofNat 0 = index := UInt32.add_zero index
    show passAll index (g :: after) = _
    rw [passAll, GivenArgument.pass_of_zero hs hzero, List.length_nil, hindex]
    rfl
  | cons b before ih =>
    obtain ⟨hb, hothers⟩ := List.forall_mem_cons.mp hbefore
    obtain ⟨a, ha, -⟩ := GivenArgument.exists_pass index hb
    have hindex : index + 1 + UInt32.ofNat before.length =
        index + UInt32.ofNat (b :: before).length := by
      rw [List.length_cons, UInt32.ofNat_add, UInt32.add_assoc,
        UInt32.add_comm (UInt32.ofNat before.length)]
      rfl
    rw [List.cons_append, passAll, ha, ← hindex]
    show (passAll (index + 1) (before ++ g :: after) >>= _) = _
    rw [ih hothers]
    rfl

/-- **Without such an argument all are passed on**, each as the native side is to see it. -/
theorem exists_passAll (index : UInt32) {given : List GivenArgument}
    (h : ∀ g ∈ given, ¬ g.HasZero) :
    ∃ arguments, passAll index given = .ok arguments ∧
      List.Forall₂ GivenArgument.Passes given arguments := by
  induction given generalizing index with
  | nil => exact ⟨[], rfl, .nil⟩
  | cons g rest ih =>
    obtain ⟨hg, hrest⟩ := List.forall_mem_cons.mp h
    obtain ⟨a, ha, hpasses⟩ := GivenArgument.exists_pass index hg
    obtain ⟨others, hothers, hall⟩ := ih (index + 1) hrest
    refine ⟨a :: others, ?_, .cons hpasses hall⟩
    rw [passAll, ha]
    show (passAll (index + 1) rest >>= _) = _
    rw [hothers]
    rfl

/-! ### The wrapped functions -/

/-- The arguments of a command in the order of the native signature, those between the handle and
the callback. -/
def Command.given : Command → List GivenArgument
  | .createWallet config credentials => [.text config, .text credentials]
  | .openWallet config credentials => [.text config, .text credentials]
  | .closeWallet wallet => [.number wallet]
  | .deleteWallet config credentials => [.text config, .text credentials]
  | .createKey wallet key => [.number wallet, .text key]
  | .createPoolConfig name config => [.text name, .optional config]
  | .openPool name config => [.text name, .optional config]
  | .closePool pool => [.number pool]

theorem passAll_single (index : UInt32) (g : GivenArgument) :
    passAll index [g] = (do .ok [← g.pass index]) := by
  simp only [passAll, bind, Except.bind]

theorem passAll_pair (index : UInt32) (first second : GivenArgument) :
    passAll index [first, second] =
      (do .ok [← first.pass index, ← second.pass (index + 1)]) := by
  simp only [passAll, bind, Except.bind]
  cases first.pass index with
  | error e => rfl
  | ok a => cases second.pass (index + 1) <;> rfl

/-- Before the arguments stands the handle, so they begin at the second position. -/
theorem Command.arguments_eq (cmd : Command) : cmd.arguments = passAll 2 cmd.given := by
  cases cmd with
  | createWallet config credentials => exact (passAll_pair 2 (.text config) (.text credentials)).symm
  | openWallet config credentials => exact (passAll_pair 2 (.text config) (.text credentials)).symm
  | closeWallet wallet => exact (passAll_single 2 (.number wallet)).symm
  | deleteWallet config credentials => exact (passAll_pair 2 (.text config) (.text credentials)).symm
  | createKey wallet key => exact (passAll_pair 2 (.number wallet) (.text key)).symm
  | createPoolConfig name config => exact (passAll_pair 2 (.text name) (.optional config)).symm
  | openPool name config => exact (passAll_pair 2 (.text name) (.optional config)).symm
  | closePool pool => exact (passAll_single 2 (.number pool)).symm

/-- The function that sets the configuration of the running library has no handle. -/
theorem runtimeConfigCall_eq (config : String) : runtimeConfigCall config =
    (passAll 1 [.text config]).map (fun arguments =>
      ⟨"indy_set_runtime_config", none, arguments⟩) := by
  rw [passAll_single, runtimeConfigCall]
  show (textArgument 1 config >>= _) = Except.map _ (textArgument 1 config >>= _)
  cases textArgument 1 config <;> rfl

end CommandBridge

import CommandBridge.Proofs.Native.Arguments
import CommandBridge.Proofs.Native.Copies
import CommandBridge.Proofs.Session.Callbacks
import CommandBridge.Proofs.Session.Installation

/-!
# What a wrapped function does

A wrapped function checks all its text arguments before it does anything else.  If one of them
cannot be passed on, then that is all that has happened: there is a call that shows the error, or the
error itself, and the process is what it was before.  Otherwise the native function is entered, and
this once.

* `BridgeError.IsInteriorZero` — the error for an argument that cannot be passed on;
* `Place.Rejects`, `Place.rejects`, `Place.rejects_configuration` — it is returned at once, and
  nothing else has happened;
* `World.Offers` — the correlator that a wrapped function goes to;
* `Place.Enters`, `Place.enters` — a wrapped function enters its native function once, with its own
  arguments, under a fresh handle and with the callback of its result type;
* `Place.TurnedAway`, `Place.turnedAway` — or not at all, if the correlator has been shut down;
* `Place.configures` — the configuration of the running library is set by one call without a handle;
* `wrappers_atomic` — all of it, for every wrapped function in every state of a process.
-/

namespace CommandBridge

/-! ### Arguments that cannot be passed on -/

/-- The error says that the argument at this position has a zero byte inside, and where. -/
structure BridgeError.IsInteriorZero (e : BridgeError) (index : UInt32) (s : String) : Prop where
  kind : e.kind = .invalidParameter index
  code : e.code = -1
  message : e.message =
    s!"argument {index} contains an interior NUL byte at {CText.bytesBeforeZero s}"

theorem CText.isInteriorZero (index : UInt32) (s : String) :
    (interiorZero index (bytesBeforeZero s)).IsInteriorZero index s :=
  ⟨rfl, rfl, rfl⟩

namespace Place

variable {p : Place} {w : World} {cmd : Command} {replies : CommandHandle → Int32}
  {during : List Step} {config : String} {status : Int32}

/-- A wrapped function is over with its first section, which adds a call that is resolved already
with the error for an argument, and does nothing else. -/
structure Rejects (p : Place) (w : World) (cmd : Command) (replies : CommandHandle → Int32)
    (during : List Step) (index : UInt32) (s : String) (e : BridgeError) (n : World × Stack) :
    Prop where
  error : e.IsInteriorZero index s
  first : Moves (p.taking w (.command cmd replies during)) n
  state : n.1 = w.addCall ⟨cmd.shape, .failed e, none, none⟩
  result : n.1.result? ⟨cmd.shape, .failed e, none, none⟩ = some (.error e)
  returns : Returns (p.taking w (.command cmd replies during)) n
    (.called w.calls.length ⟨cmd.shape, .failed e, none, none⟩ none [])

/-- **A wrapped function rejects its arguments before anything else happens.** -/
theorem rejects {k : Nat} {s : String} (h : FirstZero cmd.given k s) (p : Place) (w : World)
    (replies : CommandHandle → Int32) (during : List Step) :
    ∃ e n, p.Rejects w cmd replies during (2 + UInt32.ofNat k) s e n := by
  have harguments : cmd.arguments =
      .error (CText.interiorZero (2 + UInt32.ofNat k) (CText.bytesBeforeZero s)) := by
    rw [cmd.arguments_eq, passAll_of_firstZero h]
  obtain ⟨n, hmoves, hworld, hreturns⟩ := returns_at_once
    (m := p.taking w (.command cmd replies during)) (s := .command cmd replies during) rfl (by
      simp only [Step.begin, harguments]
      rfl)
  exact ⟨_, n, CText.isInteriorZero _ s, hmoves, hworld, rfl, hreturns⟩

/-- The configuration is rejected before anything happens at all. -/
theorem rejects_configuration (h : '\x00' ∈ config.toList) (p : Place) (w : World)
    (status : Int32) (during : List Step) :
    ∃ e n, e.IsInteriorZero 1 config ∧
      Moves (p.taking w (.runtimeConfig config status during)) n ∧ n.1 = w ∧
      Returns (p.taking w (.runtimeConfig config status during)) n
        (.configured (.error e) none []) := by
  have hcall : runtimeConfigCall config =
      .error (CText.interiorZero 1 (CText.bytesBeforeZero config)) := by
    have hfirst : FirstZero [.text config] 0 config :=
      ⟨[], _, [], rfl, rfl, fun _ hb => absurd hb List.not_mem_nil, rfl, h⟩
    rw [runtimeConfigCall_eq, passAll_of_firstZero hfirst]
    rfl
  obtain ⟨n, hmoves, hworld, hreturns⟩ := returns_at_once
    (m := p.taking w (.runtimeConfig config status during))
    (s := .runtimeConfig config status during) rfl (by
      simp only [Step.begin, hcall]
      rfl)
  exact ⟨_, n, CText.isInteriorZero _ config, hmoves, hworld, hreturns⟩

end Place

/-! ### The correlator that a wrapped function goes to -/

/-- The correlator is installed, or none is and this is the default one. -/
def World.Offers (w : World) (c : Correlator) : Prop :=
  w.correlator = .present c ∨ w.correlator = .absent .notInstalled ∧ c = {}

/-- The first section of a wrapped function registers its operation with that correlator. -/
theorem Step.begin_command {w : World} {c : Correlator} (hc : w.Offers c) {cmd : Command}
    {arguments : List NativeArgument} (harguments : cmd.arguments = .ok arguments)
    (replies : CommandHandle → Int32) (during : List Step) (self : Option CommandHandle)
    (below : Stack) :
    (Step.command cmd replies during).begin w self below =
      register { w with correlator := .present c } c cmd.operation (.caller cmd.shape true)
        (.command cmd arguments) replies during below := by
  have hready : w.installDefault = { w with correlator := .present c } := by
    rcases hc with hc | ⟨hnone, rfl⟩
    · rw [World.installDefault_of_present hc, ← hc]
    · exact World.installDefault_of_vacant hnone
  simp only [begin, harguments, hready, withCorrelator]

/-- The state once a wrapped function has entered its native function under the handle `h`: the
correlator has the table `t`, and the native side holds a callback for the handle. -/
def World.called (w : World) (c : Correlator) (cmd : Command) (h : CommandHandle)
    (t : PendingTable) : World :=
  { w with
    correlator := .present { c with table := t }
    operations := w.operations ++ [⟨cmd.operation, .caller cmd.shape true, none⟩]
    callbacks := (h, cmd.callback) :: w.callbacks
    journal := .allocated w.nextId cmd.operation h :: w.journal }

theorem World.handlesGiven_called (w : World) {c : Correlator} {cmd : Command} {h : CommandHandle}
    {t : PendingTable} :
    (w.called c cmd h t).handlesGiven w.nextId = h :: w.handlesGiven w.nextId := by
  simp [handlesGiven, called]

/-- If the table takes the operation, then the native function is entered at once. -/
theorem Step.begin_command_open {w : World} {c : Correlator} (hc : w.Offers c) {cmd : Command}
    {arguments : List NativeArgument} (harguments : cmd.arguments = .ok arguments)
    {h : CommandHandle} {t : PendingTable}
    (ht : c.table.register w.nextId cmd.operation w.clock = some (h, t))
    (replies : CommandHandle → Int32) (during : List Step) (self : Option CommandHandle)
    (below : Stack) :
    (Step.command cmd replies during).begin w self below =
      (w.called c cmd h t, .script (some h) during [] ::
        .native w.nextId (.command cmd arguments) cmd.operation h (replies h) :: below) := by
  rw [begin_command hc harguments]
  have ht' : c.table.register (World.nextId { w with correlator := .present c }) cmd.operation
      w.clock = some (h, t) := ht
  simp only [register, ht']
  rfl

/-- The operation of a wrapped function, once it is begun. -/
theorem World.begun_command (w : World) (cmd : Command) :
    (w.begin cmd.operation (.caller cmd.shape true)).operations[w.nextId]? =
      some ⟨cmd.operation, .caller cmd.shape true, none⟩ :=
  List.getElem?_concat_length

/-- The state once the operation of a wrapped function is refused and resolved. -/
def World.refusing (w : World) (cmd : Command) : World :=
  (w.begin cmd.operation (.caller cmd.shape true)).recordOutcome w.nextId
    (.error (.refused cmd.operation)) (.refused cmd.operation)

/-- If the table is closed, then the operation is refused. -/
theorem Step.begin_command_closed {w : World} {c : Correlator} (hc : w.correlator = .present c)
    {cmd : Command} {arguments : List NativeArgument} (harguments : cmd.arguments = .ok arguments)
    (hclosed : c.table.isShutDown = true) (replies : CommandHandle → Int32) (during : List Step)
    (self : Option CommandHandle) (below : Stack) :
    (Step.command cmd replies during).begin w self below =
      (w.begin cmd.operation (.caller cmd.shape true),
        .resolve w.nextId (.error (.refused cmd.operation)) (.refused cmd.operation)
          (.refuse w.nextId (.command cmd arguments) (.refused cmd.operation)) :: below) := by
  have hregister : c.table.register w.nextId cmd.operation w.clock = none :=
    PendingTable.register_eq_none.mpr hclosed
  have hr : (Step.command cmd replies during).registration? w = some ⟨cmd.operation,
      .caller cmd.shape true, .command cmd arguments, replies, during⟩ := by
    simp only [registration?, harguments]
  rw [begin_of_registration hr hc]
  simp only [register, hregister]

/-! ### The native function is entered -/

/-- The callback of a command always brings a payload of its form. -/
theorem Command.shape_arguments (cmd : Command) (argument : FireArgument) :
    (argument.arguments cmd.callback).shape = cmd.callback := by
  cases cmd <;> rfl

namespace Place

variable {p : Place} {w : World} {cmd : Command} {arguments : List NativeArgument}
  {replies : CommandHandle → Int32} {during : List Step} {config : String} {status : Int32}
  {c : Correlator} {h : CommandHandle} {t : PendingTable}

/-- A wrapped function enters its native function.  In its first section, its operation gets an
entry in the table under the handle, and the native side gets the handle, the arguments and a
callback.  Its later sections enter no native function for the operation; it comes back in `n` and
says what was called. -/
structure Enters (p : Place) (w : World) (c : Correlator) (cmd : Command)
    (arguments : List NativeArgument) (replies : CommandHandle → Int32) (during : List Step)
    (h : CommandHandle) (t : PendingTable) (n : World × Stack) : Prop where
  registered : c.table.register w.nextId cmd.operation w.clock = some (h, t)
  entry : t.entries = c.table.entries ++ [⟨h, w.nextId, cmd.operation, w.clock⟩]
  /-- Where handles are left, the one given is positive and had no entry. -/
  fresh : 0 < c.table.allocator.next → c.table.entries.length < Allocator.fullTurn →
    0 < h.raw ∧ c.table.contains h = false
  first : Moves (p.taking w (.command cmd replies during))
    (w.called c cmd h t, .script (some h) during [] ::
      .native w.nextId (.command cmd arguments) cmd.operation h (replies h) :: p.base)
  /-- The callback brings what the caller wants, whatever it is fired with. -/
  decodes : ∀ argument : FireArgument, ∃ value,
    cmd.shape.decode ((argument.arguments cmd.callback).completion successStatus) = .ok value
  returns : ∃ k call inside, Returns (p.taking w (.command cmd replies during)) n
    (.called k call (some ⟨"indy_" ++ cmd.operation, some h, arguments⟩) inside) ∧
      call.shape = cmd.shape ∧ call.source = .operation w.nextId
  givenOnce : n.1.handlesGiven w.nextId = h :: w.handlesGiven w.nextId

/-- The native function of a command comes back with a call, whatever it returns. -/
theorem exists_called (u : World) (id : OperationId) (cmd : Command)
    (arguments : List NativeArgument) (operation : String) (h : CommandHandle) (status : Int32)
    (inside : List Answer) (base : Stack) :
    ∃ v k call, Inside base
        (u, .script (some h) [] inside ::
          .native id (.command cmd arguments) operation h status :: base)
        (v, reply (.called k call (some ⟨cmd.function, some h, arguments⟩) inside)
          base) ∧
      call.shape = cmd.shape ∧ call.source = .operation id := by
  have hover : Stack.Over base (.script (some h) [] inside ::
      .native id (.command cmd arguments) operation h status :: base) := .push (.work (by simp))
  have hmoves : Moves (u, .script (some h) [] inside ::
      .native id (.command cmd arguments) operation h status :: base)
      (returned u id (.command cmd arguments) operation h status inside base) := rfl
  unfold returned at hmoves
  split at hmoves
  · exact ⟨_, _, _, .single ⟨hover, hmoves⟩, rfl, rfl⟩
  · -- the entry is still there, or somebody has taken it out
    dsimp only at hmoves
    split at hmoves
    · next t _ =>
      obtain ⟨q, v, ran, hattempt⟩ := exists_attempt (u.setTable t) id
        (.error (u.statuses.errorOf status)) (.failed h status)
        (.fail id (.command cmd arguments) operation h (u.statuses.errorOf status) inside) base
      exact ⟨_, _, _, hattempt.concluded.head ⟨hover, hmoves⟩, rfl, rfl⟩
    · exact ⟨_, _, _, .single ⟨hover, hmoves⟩, rfl, rfl⟩

/-- **A wrapped function enters its native function once.** -/
theorem enters (hc : w.Offers c) (harguments : cmd.arguments = .ok arguments)
    (hopen : c.table.isShutDown = false) (p : Place) (replies : CommandHandle → Int32)
    (during : List Step) :
    ∃ h t n, p.Enters w c cmd arguments replies during h t n := by
  have hregister : ∃ h t, c.table.register w.nextId cmd.operation w.clock = some (h, t) := by
    cases hnone : c.table.register w.nextId cmd.operation w.clock with
    | none =>
      rw [PendingTable.register_eq_none.mp hnone] at hopen
      cases hopen
    | some entered => exact ⟨entered.1, entered.2, rfl⟩
  obtain ⟨h, t, hregister⟩ := hregister
  obtain ⟨-, hh, ht⟩ := PendingTable.register_eq_some hregister
  have hbegin := Step.begin_command_open hc harguments hregister replies during p.self p.base
  have hfirst := p.moves_taking w (.command cmd replies during)
  rw [hbegin] at hfirst
  -- the steps inside the native function, and then its return
  have hover : Stack.Over p.base
      (.native w.nextId (.command cmd arguments) cmd.operation h (replies h) :: p.base) :=
    .work (by simp)
  obtain ⟨x, inside, hsteps⟩ := Inside.exists_steps hover (w.called c cmd h t) (some h) during []
  obtain ⟨y, k, call, hback, hshape, hsource⟩ :=
    exists_called x w.nextId cmd arguments cmd.operation h (replies h) inside p.base
  rw [cmd.function_eq] at hback
  have hwork : Inside p.base (w.called c cmd h t, _) (y, _) := hsteps.trans hback
  refine ⟨h, t, (y, _), hregister, congrArg PendingTable.entries ht, ?_, hfirst, ?_,
    ⟨k, call, inside, returns_of_inside rfl (hbegin ▸ hwork), hshape, hsource⟩, ?_⟩
  · intro hcounter hroom
    have hlength : (c.table.entries.map Entry.handle).length < Allocator.fullTurn := by
      rw [List.length_map]
      exact hroom
    obtain ⟨hfree, hpos, -⟩ := Allocator.allocate_spec hcounter hlength
      (fun g hg => PendingTable.contains_iff.mp hg)
    rw [hh]
    exact ⟨hpos, hfree⟩
  · intro argument
    have hshape := (cmd.shape_arguments argument).trans cmd.callback_eq_shape
    rw [CallbackArguments.completion_of_success]
    exact CallbackArguments.exists_decode_iff.mpr (.inl hshape.symm)
  · have hbegun : w.nextId < (w.called c cmd h t).operations.length := by
      show w.operations.length < (w.operations ++ [_]).length
      rw [List.length_append]
      exact Nat.lt_succ_self _
    rw [hwork.reaches.precedes.given _ hbegun]
    exact w.handlesGiven_called

/-! ### The correlator has been shut down -/

/-- A command whose operation is refused comes back with a call in two more sections: a caller
listens, so that no steps run when the operation is resolved. -/
theorem inside_refused (hc : w.correlator = .present c) (cmd : Command)
    (arguments : List NativeArgument) (base : Stack) :
    Inside base
      (w.begin cmd.operation (.caller cmd.shape true),
        .resolve w.nextId (.error (.refused cmd.operation)) (.refused cmd.operation)
          (.refuse w.nextId (.command cmd arguments) (.refused cmd.operation)) :: base)
      ((w.refusing cmd).addCall ⟨cmd.shape, .operation w.nextId, none, c.callTimeout⟩,
        reply (.called w.calls.length ⟨cmd.shape, .operation w.nextId, none, c.callTimeout⟩ none [])
          base) := by
  have hresolve : Moves
      (w.begin cmd.operation (.caller cmd.shape true),
        .resolve w.nextId (.error (.refused cmd.operation)) (.refused cmd.operation)
          (.refuse w.nextId (.command cmd arguments) (.refused cmd.operation)) :: base)
      (w.refusing cmd,
        .conclude (.refuse w.nextId (.command cmd arguments) (.refused cmd.operation)) true ::
          base) := by
    show some (resolve _ _ _ _ _ base) = some _
    simp only [resolve, World.resolveOnce, w.begun_command cmd]
    rfl
  have hconclude : Moves
      (w.refusing cmd,
        .conclude (.refuse w.nextId (.command cmd arguments) (.refused cmd.operation)) true :: base)
      ((w.refusing cmd).addCall ⟨cmd.shape, .operation w.nextId, none, c.callTimeout⟩,
        reply (.called w.calls.length ⟨cmd.shape, .operation w.nextId, none, c.callTimeout⟩ none [])
          base) := by
    have hpresent : (w.refusing cmd).correlator = .present c := hc
    show some (conclude (w.refusing cmd) true base _) = some _
    simp only [conclude, Ticket.settle, hpresent]
    rfl
  exact .head ⟨.work (by simp), hresolve⟩ (.single ⟨.work (by simp), hconclude⟩)

/-- A wrapped function is turned away: its call is resolved with an error of shutdown, no native
function is called, and correlator, callbacks and handles are what they were. -/
structure TurnedAway (p : Place) (w : World) (cmd : Command) (replies : CommandHandle → Int32)
    (during : List Step) (call : PendingCall) (n : World × Stack) : Prop where
  returns : Returns (p.taking w (.command cmd replies during)) n
    (.called w.calls.length call none [])
  shape : call.shape = cmd.shape
  handle : call.handle = none
  result : ∃ e, n.1.result? call = some (.error e) ∧ e.kind = .shutDown
  correlator : n.1.correlator = w.correlator
  callbacks : n.1.callbacks = w.callbacks
  given : ∀ id, n.1.handlesGiven id = w.handlesGiven id

/-- **A wrapped function is turned away** once its correlator has been shut down. -/
theorem turnedAway (hc : w.correlator = .present c) (harguments : cmd.arguments = .ok arguments)
    (hclosed : c.table.isShutDown = true) (p : Place) (replies : CommandHandle → Int32)
    (during : List Step) :
    ∃ call n, p.TurnedAway w cmd replies during call n := by
  let error := BridgeError.refused cmd.operation
  let call : PendingCall := ⟨cmd.shape, .operation w.nextId, none, c.callTimeout⟩
  have hwork := inside_refused hc cmd arguments p.base
  rw [← Step.begin_command_closed hc harguments hclosed replies during p.self p.base] at hwork
  refine ⟨call, _, returns_of_inside rfl hwork, rfl, rfl, ⟨error, ?_, rfl⟩, rfl, rfl, fun id => ?_⟩
  · have houtcome : ((w.refusing cmd).addCall call).outcome? w.nextId = some (.error error) := by
      have hset : (w.refusing cmd).outcome? w.nextId = _ :=
        World.outcome?_recordOutcome (w.begun_command cmd) w.nextId
      exact hset.trans (if_pos rfl)
    show (((w.refusing cmd).addCall call).outcome? w.nextId).map cmd.shape.result = _
    rw [houtcome]
    rfl
  · show List.filterMap _ (_ :: w.journal) = List.filterMap _ w.journal
    rfl

/-! ### The configuration of the running library -/

/-- The call that sets the configuration of the running library. -/
def configurationCall (text : CText) : NativeCall :=
  ⟨"indy_set_runtime_config", none, [.text text]⟩

/-- The configuration is set by one call with the text alone.  It is made in the first section,
which leaves the state as it is.  Whatever the steps `inside` the native function lead to, the answer
says what its status means by then, and nothing else happens. -/
structure Configures (p : Place) (w : World) (config : String) (status : Int32)
    (during : List Step) (text : CText) (u : World) (inside : List Answer) : Prop where
  bytes : text.bytes = Utf8.encode config
  first : Moves (p.taking w (.runtimeConfig config status during))
    (w, .script none during [] :: .configure (configurationCall text) status :: p.base)
  work : Inside p.base
    (w, .script none during [] :: .configure (configurationCall text) status :: p.base)
    (u, .script none [] inside :: .configure (configurationCall text) status :: p.base)
  returns : Returns (p.taking w (.runtimeConfig config status during))
    (u, reply (.configured (u.statuses.check status) (some (configurationCall text)) inside) p.base)
    (.configured (u.statuses.check status) (some (configurationCall text)) inside)

/-- **The configuration is set by one call.** -/
theorem configures (h : '\x00' ∉ config.toList) (p : Place) (w : World) (status : Int32)
    (during : List Step) :
    ∃ text u inside, p.Configures w config status during text u inside := by
  obtain ⟨text, htext, hbytes⟩ := @exists_textArgument 1 config h
  let call := configurationCall text
  have hcall : runtimeConfigCall config = .ok call := by
    rw [runtimeConfigCall, htext]
    rfl
  have hbegin : (Step.runtimeConfig config status during).begin w p.self p.base =
      (w, .script none during [] :: .configure call status :: p.base) := by
    simp only [Step.begin, hcall]
  have hfirst := p.moves_taking w (.runtimeConfig config status during)
  rw [hbegin] at hfirst
  have hover : Stack.Over p.base (.configure call status :: p.base) := .work (by simp)
  obtain ⟨u, inside, hsteps⟩ := Inside.exists_steps hover w none during []
  have hback : Moves (u, .script none [] inside :: .configure call status :: p.base)
      (u, reply (.configured (u.statuses.check status) (some call) inside) p.base) :=
    rfl
  have hwork := hsteps.tail ⟨hover.push, hback⟩
  exact ⟨text, u, inside, hbytes, hfirst, hsteps, returns_of_inside rfl (hbegin ▸ hwork)⟩

end Place

/-! ### Every wrapped function -/

/-- **Wrapped functions are atomic in their arguments.**  Let a thread be anywhere, in a process in
any state.

* If some text argument of a command has a zero character inside, then its first section adds a call
  and does nothing else: the call is resolved with the error for the first such argument, whose
  position counts the handle.
* Otherwise the command goes to the installed correlator, or to the default one if none is
  installed.  Unless that has been shut down, its native function is entered once, with the bytes of
  its arguments; if it has, no native function is called.
* The same holds of the configuration of the running library, but that it has no handle, and neither
  needs a correlator nor installs one. -/
theorem wrappers_atomic (p : Place) (w : World) :
    (∀ cmd replies during, (∃ g ∈ Command.given cmd, g.HasZero) →
      ∃ k s e n, FirstZero cmd.given k s ∧
        p.Rejects w cmd replies during (2 + UInt32.ofNat k) s e n) ∧
    (∀ cmd replies during c, (∀ g ∈ Command.given cmd, ¬ g.HasZero) → w.Offers c →
      ∃ arguments, List.Forall₂ GivenArgument.Passes cmd.given arguments ∧
        (c.table.isShutDown = false →
          ∃ h t n, p.Enters w c cmd arguments replies during h t n) ∧
        (c.table.isShutDown = true →
          ∃ call n, p.TurnedAway w cmd replies during call n)) ∧
    (∀ config status during, '\x00' ∈ String.toList config →
      ∃ e n, e.IsInteriorZero 1 config ∧
        Moves (p.taking w (.runtimeConfig config status during)) n ∧ n.1 = w ∧
        Returns (p.taking w (.runtimeConfig config status during)) n
          (.configured (.error e) none [])) ∧
    (∀ config status during, '\x00' ∉ String.toList config →
      ∃ text u inside, p.Configures w config status during text u inside) := by
  refine ⟨?_, ?_, ?_, ?_⟩
  · intro cmd replies during hzero
    obtain ⟨k, s, hfirst⟩ := exists_firstZero hzero
    obtain ⟨e, n, hrejects⟩ := Place.rejects hfirst p w replies during
    exact ⟨k, s, e, n, hfirst, hrejects⟩
  · intro cmd replies during c hgiven hc
    obtain ⟨arguments, hpass, hpasses⟩ := exists_passAll 2 hgiven
    have harguments : cmd.arguments = .ok arguments := by
      rw [cmd.arguments_eq, hpass]
    refine ⟨arguments, hpasses, fun hopen => ?_, fun hclosed => ?_⟩
    · exact Place.enters hc harguments hopen p replies during
    · -- the default correlator is open
      rcases hc with hc | ⟨-, rfl⟩
      · exact Place.turnedAway hc harguments hclosed p replies during
      · cases hclosed
  · intro config status during hzero
    exact Place.rejects_configuration hzero p w status during
  · intro config status during hzero
    exact Place.configures hzero p w status during

/-- In a process without a correlator, a pool cannot be opened with a zero byte in its
configuration, which is the third argument of the native function, and a key can be created. -/
theorem wrappers_atomic_vacant :
    (∃ e n, Place.Rejects ⟨none, [], [], []⟩ {} (.openPool "main" (some "a\x00b")) (fun _ => 0) [] 3
      "a\x00b" e n) ∧
    ∃ arguments h t n, Place.Enters ⟨none, [], [], []⟩ {} {} (.createKey 7 "key") arguments
      (fun _ => 0) [] h t n := by
  obtain ⟨hrejects, haccepts, -⟩ := wrappers_atomic ⟨none, [], [], []⟩ {}
  constructor
  · obtain ⟨k, s, e, n, hfirst, hpool⟩ := hrejects (.openPool "main" (some "a\x00b"))
      (fun _ => 0) [] ⟨.optional (some "a\x00b"), by simp [Command.given], _, rfl, by decide⟩
    have hsecond : k = 1 ∧ s = "a\x00b" := by
      obtain ⟨before, g, after, hgiven, rfl, hbefore, hs, hzero⟩ := hfirst
      cases before with
      | nil =>
        cases hgiven
        cases hs
        exact absurd hzero (by decide)
      | cons b before =>
        cases before with
        | nil =>
          cases hgiven
          cases hs
          exact ⟨rfl, rfl⟩
        | cons b' before => cases before <;> cases hgiven
    obtain ⟨rfl, rfl⟩ := hsecond
    exact ⟨e, n, hpool⟩
  · have hgiven : ∀ g ∈ Command.given (.createKey 7 "key"), ¬ g.HasZero := by
      intro g hg
      rcases List.mem_cons.mp hg with rfl | hg
      · rintro ⟨s, hs, -⟩
        cases hs
      · rw [List.mem_singleton.mp hg]
        rintro ⟨s, hs, hzero⟩
        cases hs
        exact absurd hzero (by decide)
    obtain ⟨arguments, -, henters, -⟩ := haccepts (.createKey 7 "key") (fun _ => 0) [] {} hgiven
      (.inr ⟨rfl, rfl⟩)
    exact ⟨arguments, henters rfl⟩

end CommandBridge

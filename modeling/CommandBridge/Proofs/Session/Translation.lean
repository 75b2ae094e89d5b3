import CommandBridge.Plugin
import CommandBridge.Proofs.Session.Failures
import CommandBridge.Proofs.Session.Integrity
import CommandBridge.Proofs.Session.Issue
import CommandBridge.Proofs.Session.Wrappers
import CommandBridge.Proofs.Status.Fidelity

/-!
# One status, one error

A status reaches the bridge from many sides: a native function returns it, a completion brings it,
the entry point of a plugin returns it, or setting the configuration of the running library does.
Each side looks at it for itself.  They all make the same of it.

* `Answer.Succeeds`, `Answer.Tells` — the answer to a registration, by what its status means;
* `World.Received` — what a continuation has received;
* `ComesBack` — a native function has come back;
* `Place.exists_comesBack` — whoever registered is told, and so is the continuation;
* `Place.exists_delivered` — so is the continuation that a completion is for;
* `StoragePlugin.register_fst`, `Place.exists_configured` — a plugin, and the configuration;
* `Session.Translates`, `translates` — all of it for one status;
* `Session.translations_agree` — **every side makes the same of every status**.
-/

namespace CommandBridge

/-! ### Answers -/

/-- The answer says that the native function of an operation was given this handle and succeeded,
after the steps inside it had returned `during`. -/
def Answer.Succeeds (id : OperationId) (h : CommandHandle) (during : List Answer) : Answer → Prop
  | .submitted _ given native inside => given = .ok h ∧ native = some h ∧ inside = during
  | .issued _ pending native inside =>
    pending.source = .operation id ∧ pending.handle = some h ∧ native = some h ∧ inside = during
  | .called _ pending native inside =>
    pending.source = .operation id ∧ pending.handle = some h ∧
      native.map NativeCall.handle = some (some h) ∧ inside = during
  | _ => False

theorem Ticket.succeeds_settle (ticket : Ticket) (w : World) (id : OperationId) (h : CommandHandle)
    (during : List Answer) :
    (ticket.settle w id (some h) during (.ok h)).2.Succeeds id h during := by
  cases ticket with
  | submit number => exact ⟨rfl, rfl, rfl⟩
  | issue shape => exact ⟨rfl, rfl, rfl, rfl⟩
  | command cmd arguments => exact ⟨rfl, rfl, rfl, rfl⟩

/-- The answer to a registration whose native function returned a status with this meaning. -/
def Answer.Tells (id : OperationId) (h : CommandHandle) (during : List Answer) (a : Answer) :
    Except BridgeError Unit → Prop
  | .ok _ => a.Succeeds id h during
  | .error e => a.Fails id h e during

/-- The continuation of an operation has run, once, and it was this that it received. -/
structure World.Received (w : World) (id : OperationId) (outcome : Outcome) : Prop where
  isSet : w.outcome? id = some outcome
  noted : ∃ cause, .resolved id outcome cause ∈ w.journal
  once : w.timesRun id = 1

/-- What the status of a native function is to the continuation of its operation.  If the function
succeeds, the continuation still waits. -/
def World.Learns (w : World) (id : OperationId) : Except BridgeError Unit → Prop
  | .ok _ => w.outcome? id = none
  | .error e => w.Received id (.error e)

/-- A native function was given the handle `h` and is about to return in `q`, and its step has come
back in `n` with what the status means.  If the operation was unresolved, then its continuation
learns the same. -/
structure ComesBack (m q n : World × Stack) (id : OperationId) (h : CommandHandle)
    (during : List Answer) (meaning : Except BridgeError Unit) : Prop where
  reached : Reaches m q
  returns : ∃ a, Returns m n a ∧ a.Tells id h during meaning
  learns : q.1.outcome? id = none → n.1.Learns id meaning

/-- An outcome is what the continuation received, and this once. -/
theorem Session.received_of_outcome {c : Correlator} {steps : List Step} {m : World × Stack}
    (hc : c.IsFresh) (hseeds : ∀ n ∈ Step.seedsIn steps, 0 < n)
    (hfits : ∀ m, Reaches (start c steps) m → m.1.Fits) (hm : Reaches (start c steps) m)
    {id : OperationId} {outcome : Outcome} (houtcome : m.1.outcome? id = some outcome) :
    m.1.Received id outcome := by
  obtain ⟨cause, hresolved⟩ := exists_resolvedBy_of_fits hc hseeds hfits hm houtcome
  refine ⟨houtcome, ⟨cause, hresolved.noted⟩, ?_⟩
  rw [(hm.sound_of_fits hc hseeds hfits).runs, houtcome]
  rfl

/-! ### Statuses of native functions -/

/-- A native function that succeeds comes back at once. -/
theorem Moves.of_success {p : World × Stack} {h : CommandHandle} {id : OperationId}
    {ticket : Ticket} {operation : String} {during : List Answer} {base : Stack}
    (htop : p.2 = .script (some h) [] during ::
      .native id ticket operation h successStatus :: base) :
    Moves p (answer
      (ticket.settle (p.1.note (.issued id operation h)) id (some h) during (.ok h)).1
      (ticket.settle (p.1.note (.issued id operation h)) id (some h) during (.ok h)).2 base) := by
  show advance p.1 p.2 = _
  rw [htop]
  rfl

namespace Place

variable {c d : Correlator} {steps : List Step} {p : Place} {w : World} {s : Step}
  {r : Registration} {h : CommandHandle} {t : PendingTable}

/-- The end of the steps inside a native function, seen from the step that called it. -/
theorem comesBack_of_inside {q n : World × Stack} {during : List Answer} {a : Answer}
    {meaning : Except BridgeError Unit} {id : OperationId}
    (hq : Inside p.base (s.begin w p.self p.base) q) (hn : Inside p.base q n)
    (hanswered : n.2 = reply a p.base) (htells : a.Tells id h during meaning)
    (hlearns : q.1.outcome? id = none → n.1.Learns id meaning) :
    ComesBack (p.taking w s) q n id h during meaning := by
  obtain ⟨v, stack⟩ := n
  obtain rfl : stack = reply a p.base := hanswered
  exact ⟨.head (p.moves_taking w s) hq.reaches,
    ⟨a, returns_of_inside rfl (hq.trans hn), htells⟩, hlearns⟩

/-- **Whoever registers an operation is told what the status of its native function means**, and so
is its continuation if the operation is unresolved by then. -/
theorem exists_comesBack (hc : c.IsFresh) (hseeds : ∀ n ∈ Step.seedsIn steps, 0 < n)
    (hfits : ∀ m, Reaches (Session.start c steps) m → m.1.Fits)
    (hm : Reaches (Session.start c steps) (p.taking w s)) (hr : s.registration? w = some r)
    (hd : w.correlator = .present d)
    (hregister : d.table.register w.nextId r.operation w.clock = some (h, t)) :
    ∃ q n during, q.2 = .script (some h) [] during ::
        .native w.nextId r.ticket r.operation h (r.reply h) :: p.base ∧
      ComesBack (p.taking w s) q n w.nextId h during (c.statuses.check (r.reply h)) := by
  obtain ⟨q, d', during, hinside, hd', hq⟩ :=
    exists_native_end (m := p.taking w s) hr hd hregister p.self p.rest p.answers p.below
  have hreached : Reaches (Session.start c steps) q :=
    hm.trans (.head (p.moves_taking w s) hinside.reaches)
  by_cases hstatus : r.reply h = successStatus
  · rw [hstatus] at hq ⊢
    have hover : Stack.Over p.base q.2 := by
      rw [hq]
      exact .push (.work (by simp))
    have hquiet : q.1.Quiet (r.ticket.settle (q.1.note (.issued w.nextId r.operation h)) w.nextId
        (some h) during (.ok h)).1 := World.quiet_settle_note rfl
    refine ⟨q, _, during, hq, comesBack_of_inside hinside (.single ⟨hover, .of_success hq⟩) rfl
      (r.ticket.succeeds_settle ..) fun hopen => ?_⟩
    exact (hquiet.outcome? _).trans hopen
  · rw [StatusTable.check_of_ne _ hstatus]
    -- the entry is there, or somebody has taken it out and the operation is resolved
    by_cases hholds : q.1.Holds w.nextId h
    · obtain ⟨q', n, a, e, hfails, -, -, htakes, -, hends⟩ :=
        Session.exists_fails_of_holds hc hseeds hfits hreached hq hstatus hd' hholds
      refine ⟨q, n, during, hq, comesBack_of_inside hinside hfails.inside hfails.answered
        hfails.answer fun hopen => ?_⟩
      rcases hends with hopens | hexpires
      · exact Session.received_of_outcome hc hseeds hfits (hreached.trans hfails.inside.reaches)
          hopens.outcome
      · have hstays := (hexpires.outcome w.nextId).trans (htakes.outcome w.nextId)
        exact absurd (hstays.trans hopen) hfails.resolved
    · obtain ⟨n, a, hfails, hlate⟩ :=
        Session.exists_fails_of_gone hc hseeds hfits hreached hq hstatus hd' hholds
      exact ⟨q, n, during, hq, comesBack_of_inside hinside hfails.inside hfails.answered
        hfails.answer fun hopen => absurd hopen hlate.resolved⟩

/-! ### Statuses of completions -/

/-- **A completion resolves its operation with what its status means**, whatever its payload. -/
theorem exists_delivered (hc : c.IsFresh) (hseeds : ∀ n ∈ Step.seedsIn steps, 0 < n)
    (hfits : ∀ m, Reaches (Session.start c steps) m → m.1.Fits)
    (hm : Reaches (Session.start c steps) (p.taking w s)) (hd : w.correlator = .present d)
    {status : Int32} {payload : Payload} {e : Entry}
    (hdelivery : s.delivery? w p.self = some (h, status, payload))
    (he : d.table.find? h = some e) (hopen : w.outcome? e.owner = none) :
    ∃ n, Returns (p.taking w s) n ((s.receipt w).answer n.1 (.ok ())) ∧
      n.1.Received e.owner ((c.statuses.check status).map fun _ => payload) := by
  have hsound := hm.sound_of_fits hc hseeds hfits
  obtain ⟨n, hreturns, -, hset⟩ :=
    Session.returns_of_completion (m := p.taking w s) hsound hd rfl hdelivery he
  refine ⟨n, hreturns, ?_⟩
  rw [← hm.statuses hd]
  exact Session.received_of_outcome hc hseeds hfits (hm.trans hreturns.reaches) (hset hopen)

/-! ### Statuses of other calls -/

/-- **Setting the configuration of the running library** reports what its status means to the
correlator installed. -/
theorem exists_configured {text : String} (htext : '\x00' ∉ text.toList)
    (hd : w.correlator = .present d) (p : Place) (status : Int32) (during : List Step) :
    ∃ call inside n, Returns (p.taking w (.runtimeConfig text status during)) n
      (.configured (d.statuses.check status) (some call) inside) := by
  obtain ⟨bytes, u, inside, hconfigures⟩ := p.configures htext w status during
  -- the steps inside cannot give the correlator up, and no correlator changes its table of statuses
  obtain ⟨d', hd'⟩ : ∃ d', u.correlator = .present d' :=
    hconfigures.work.exists_present (List.cons_ne_nil _ _) hd
  have hleads : Presence.Leads w.correlator u.correlator :=
    hconfigures.work.reaches.precedes.correlator
  have hstatuses : u.statuses = d.statuses := by
    rw [hd, hd'] at hleads
    cases hleads with
    | kept hsame _ => simp only [World.statuses, hd', hsame]
  have hreturns := hconfigures.returns
  rw [hstatuses] at hreturns
  exact ⟨_, inside, _, hreturns⟩

end Place

/-- **A plugin reports what the status of its entry point means.** -/
theorem StoragePlugin.register_fst (plugin : StoragePlugin) (statuses : StatusTable)
    (status : Int32) : (plugin.register statuses status).1 = statuses.check status := by
  unfold register
  split
  · next h => exact h.symm
  · next h => exact h.symm

/-! ### All sides -/

namespace Session

/-- A status has this meaning on every side of the sessions of a correlator.

* A native function returns it: whoever registered the operation is told the meaning, and if the
  operation is unresolved, then its continuation receives an error, or goes on waiting.
* A completion brings it for an operation that is pending and unresolved: the continuation receives
  the meaning, whatever the payload.
* The entry point of a plugin returns it, with the correlator's table.
* The native function that sets the configuration of the running library returns it, in any process
  with a correlator that has this table. -/
structure Translates (c : Correlator) (steps : List Step) (status : Int32)
    (meaning : Except BridgeError Unit) : Prop where
  registration : ∀ (p : Place) w s r d h t, Reaches (start c steps) (p.taking w s) →
    s.registration? w = some r → w.correlator = .present d →
    d.table.register w.nextId r.operation w.clock = some (h, t) → r.reply h = status →
      ∃ q n during, q.2 = .script (some h) [] during ::
          .native w.nextId r.ticket r.operation h status :: p.base ∧
        ComesBack (p.taking w s) q n w.nextId h during meaning
  delivery : ∀ (p : Place) w s d h payload e, Reaches (start c steps) (p.taking w s) →
    s.delivery? w p.self = some (h, status, payload) → w.correlator = .present d →
    d.table.find? h = some e → w.outcome? e.owner = none →
      ∃ n, Returns (p.taking w s) n ((s.receipt w).answer n.1 (.ok ())) ∧
        n.1.Received e.owner (meaning.map fun _ => payload)
  plugin : ∀ plugin : StoragePlugin, (plugin.register c.statuses status).1 = meaning
  configuration : ∀ (p : Place) (w : World) d (text : String) during,
    w.correlator = .present d → d.statuses = c.statuses → '\x00' ∉ text.toList →
      ∃ call inside n, Returns (p.taking w (.runtimeConfig text status during)) n
        (.configured meaning (some call) inside)

variable {config : Config} {c : Correlator} {steps : List Step}

/-- The correlator of a configuration starts without entries. -/
theorem isFresh_of_ofConfig (hconfig : Correlator.ofConfig config = .ok c) : c.IsFresh := by
  obtain ⟨htable, -⟩ := Correlator.of_ofConfig hconfig
  refine ⟨?_, ?_⟩
  · rw [htable]
  · rw [htable]
    decide

/-- Every side goes by the table. -/
theorem translates (hc : c.IsFresh) (hseeds : ∀ n ∈ Step.seedsIn steps, 0 < n)
    (hfits : ∀ m, Reaches (start c steps) m → m.1.Fits) (status : Int32) :
    Translates c steps status (c.statuses.check status) where
  registration := by
    intro p w s r d h t hm hr hd hregister hreply
    rw [← hreply]
    exact Place.exists_comesBack hc hseeds hfits hm hr hd hregister
  delivery := by
    intro p w s d h payload e hm hdelivery hd he hopen
    exact Place.exists_delivered hc hseeds hfits hm hd hdelivery he hopen
  plugin := fun plugin => plugin.register_fst c.statuses status
  configuration := by
    intro p w d text during hd hstatuses htext
    rw [← hstatuses]
    exact Place.exists_configured htext hd p status during

/-- **Every side makes the same of every status.**  Let a configuration be accepted, and take any
session of its correlator whose entries always fit.

* Whatever the table says, success is success on every side.
* Every other status is one error on every side: the error that the table has for it, which carries
  the status. -/
theorem translations_agree (hconfig : Correlator.ofConfig config = .ok c)
    (hseeds : ∀ n ∈ Step.seedsIn steps, 0 < n)
    (hfits : ∀ m, Reaches (start c steps) m → m.1.Fits) :
    Translates c steps successStatus (.ok ()) ∧
      ∀ status, status ≠ successStatus → (c.statuses.errorOf status).code = status ∧
        Translates c steps status (.error (c.statuses.errorOf status)) := by
  have hfresh := isFresh_of_ofConfig hconfig
  refine ⟨translates hfresh hseeds hfits successStatus, fun status hstatus => ?_⟩
  have htranslates := translates hfresh hseeds hfits status
  rw [StatusTable.check_of_ne _ hstatus] at htranslates
  exact ⟨c.statuses.errorOf_code status, htranslates⟩

/-- A wallet is opened, and the native function returns a status that a configuration may pin. -/
def openPinned : List Step :=
  [.submit "open_wallet" (fun _ => 112) [] []]

/-- With this status pinned to a kind, opening the wallet and registering a plugin bring the same
error, of that kind. -/
theorem translations_agree_pinned :
    ∃ c e, Correlator.ofConfig (pinning .walletAlreadyOpened) = .ok c ∧
      e.kind = .walletAlreadyOpened ∧ e.code = 112 ∧
      (∃ n during a, Returns (start c openPinned) n a ∧ a.Fails 0 ⟨1⟩ e during) ∧
      ∀ plugin : StoragePlugin, (plugin.register c.statuses 112).1 = .error e := by
  obtain ⟨c, hc⟩ := Correlator.exists_ofConfig (isFaultless_pinning .walletAlreadyOpened)
  have hkind : c.statuses.kindOf? 112 = some .walletAlreadyOpened := by
    rw [Correlator.kindOf?_of_ofConfig hc, Config.reference?, overrides_pinning, if_pos rfl]
    decide +kernel
  have hseeds : ∀ n ∈ Step.seedsIn openPinned, 0 < n := by
    have hnone : Step.seedsIn openPinned = [] := rfl
    rw [hnone]
    exact List.forall_mem_nil _
  have hsize : Step.sizes openPinned < Allocator.fullTurn := by decide
  obtain ⟨-, hall⟩ := translations_agree hc hseeds
    (fun m hm => (hasRoom (isFresh_of_ofConfig hc) hseeds hsize hm).fits)
  obtain ⟨hcode, htranslates⟩ := hall 112 (by decide)
  refine ⟨c, _, hc, ?_, hcode, ?_, htranslates.plugin⟩
  · rw [StatusTable.errorOf, hkind]
  · obtain ⟨htable, -⟩ := Correlator.of_ofConfig hc
    obtain ⟨table, statuses, timeout⟩ := c
    cases htable
    obtain ⟨q, n, during, -, hback⟩ := htranslates.registration ⟨none, [], [], []⟩
      (World.start ⟨{}, statuses, timeout⟩) _ _ _ ⟨1⟩ _ .refl rfl rfl rfl rfl
    obtain ⟨a, hreturns, hfails⟩ := hback.returns
    exact ⟨n, during, a, hreturns, hfails⟩

end Session

end CommandBridge

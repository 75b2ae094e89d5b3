import CommandBridge.Proofs.Session.Interleaving
import CommandBridge.Proofs.Session.Runs
import Mathlib.Algebra.GroupWithZero.Nat
import Mathlib.Algebra.Ring.Int.Defs

/-!
# The ledger of entries

The journal has an event for every entry that is made, and one for every entry that is taken out.
The latter comes late: only when the continuation is done, and whatever it led to.  Until then the
entry is in the hands of the thread that took it out.  Counted like this the books balance in every
state.

* `Event.weight`, `World.ledger` — what an event adds to the entries that are accounted for, and
  what the whole journal adds up to;
* `Aftermath.inHand`, `Stack.inHand` — the entries that a thread has taken out and not yet reported;
* `surplus` — entries in the table and in hand, and what the ledger says;
* `surplus_advance` — no section changes the surplus;
* `World.nativeCalls`, `World.okDeliveries`, `World.ownFailures`, `World.drained` — the columns of
  the ledger;
* `Reaches.balance` — at the top the table holds what the native calls brought and the rest did not
  take.
-/

namespace CommandBridge

/-! ### Definitions -/

/-- What an event adds to the entries that are accounted for. -/
def Event.weight : Event → Int
  | .allocated _ _ _ => -1
  | .failed _ _ _ => 1
  | .completed _ _ _ _ => 1
  | .absorbed _ _ _ => 1
  | .shutDown count => count
  | .dropped count => count
  | _ => 0

/-- What the journal adds up to: entries reported as taken out, less those made. -/
def World.ledger (w : World) : Int :=
  (w.journal.map Event.weight).sum

/-- The entries that the step has taken out and not yet reported. -/
def Aftermath.inHand : Aftermath → Int
  | .fail _ _ _ _ _ _ => 1
  | .deliver _ _ _ => 1
  | .shutdown _ count => count
  | _ => 0

/-- The entries that the step behind a frame has taken out and not yet reported. -/
def Frame.inHand : Frame → Int
  | .resolve _ _ _ after => after.inHand
  | .continuation _ after => after.inHand
  | .conclude after _ => after.inHand
  | _ => 0

/-- The entries that the steps of a thread have taken out and not yet reported. -/
def Stack.inHand (stack : Stack) : Int :=
  (stack.map Frame.inHand).sum

/-- The entries in the table and what the ledger says about the others. -/
def World.standing (w : World) : Int :=
  w.pendingCount + w.ledger

/-- The entries in the table and in hand, and what the ledger says about the others. -/
def surplus (m : World × Stack) : Int :=
  m.1.standing + m.2.inHand

/-! ### Stacks -/

namespace Stack

@[simp] theorem inHand_nil : inHand [] = 0 := rfl

@[simp] theorem inHand_cons (f : Frame) (stack : Stack) :
    inHand (f :: stack) = f.inHand + inHand stack :=
  List.sum_cons

@[simp] theorem inHand_reply (a : Answer) (stack : Stack) :
    inHand (reply a stack) = inHand stack := by
  cases stack with
  | nil => rfl
  | cons f below => cases f <;> rfl

end Stack

/-! ### Changes of a state that leave its standing alone -/

namespace World

theorem pendingCount_of_present {w : World} {c : Correlator} (hc : w.correlator = .present c) :
    w.pendingCount = c.table.entries.length := by
  simp only [pendingCount, hc, PendingTable.size]

@[simp] theorem standing_note (w : World) (e : Event) :
    (w.note e).standing = w.standing + e.weight := by
  have hledger : (w.note e).ledger = e.weight + w.ledger := List.sum_cons
  have hcount : (w.note e).pendingCount = w.pendingCount := rfl
  rw [standing, standing, hledger, hcount]
  omega

@[simp] theorem standing_begin (w : World) (name : String) (listener : Listener) :
    (w.begin name listener).standing = w.standing := rfl

@[simp] theorem standing_addCall (w : World) (call : PendingCall) :
    (w.addCall call).standing = w.standing := rfl

@[simp] theorem standing_useUp (w : World) (n : Nat) : (w.useUp n).standing = w.standing := rfl

@[simp] theorem standing_setOutcome (w : World) (id : OperationId) (outcome : Outcome) :
    (w.setOutcome id outcome).standing = w.standing := rfl

@[simp] theorem standing_stopListening (w : World) (call : PendingCall) :
    (w.stopListening call).standing = w.standing := by
  unfold stopListening
  split <;> rfl

@[simp] theorem standing_installDefault (w : World) : w.installDefault.standing = w.standing := by
  unfold installDefault
  split
  · next hw => simp only [standing, ledger, pendingCount, hw]; rfl
  · rfl

/-- Another table counts for what it holds. -/
theorem standing_setTable {w : World} {c : Correlator} (hc : w.correlator = .present c)
    (t : PendingTable) :
    (w.setTable t).standing = w.standing + t.entries.length - c.table.entries.length := by
  have hledger : (w.setTable t).ledger = w.ledger := by
    rw [ledger, journal_setTable, ledger]
  rw [standing, standing, hledger, pendingCount_of_present hc,
    pendingCount_of_present (correlator_setTable hc t)]
  show (t.entries.length : Int) + w.ledger = _
  omega

@[simp] theorem standing_handOver (ticket : Ticket) (handle : CommandHandle) (w : World) :
    (ticket.handOver handle w).standing = w.standing := by
  cases ticket <;> rfl

@[simp] theorem standing_settle (ticket : Ticket) (w : World) (id : OperationId)
    (native : Option CommandHandle) (during : List Answer)
    (result : Except BridgeError CommandHandle) :
    (ticket.settle w id native during result).1.standing = w.standing := by
  cases ticket <;> rfl

/-- Taking an entry out takes one out. -/
theorem standing_erase {w : World} {c : Correlator} (hc : w.correlator = .present c)
    {h : CommandHandle} {e : Entry} (he : c.table.find? h = some e) :
    (w.setTable (c.table.erase h)).standing = w.standing - 1 := by
  have hlength := (PendingTable.entries_erase he).length_eq
  rw [List.length_cons] at hlength
  rw [standing_setTable hc, hlength]
  omega

end World

/-! ### Sections -/

@[simp] theorem surplus_mk (w : World) (stack : Stack) :
    surplus (w, stack) = w.standing + stack.inHand := rfl

@[simp] theorem surplus_answer (w : World) (a : Answer) (below : Stack) :
    surplus (answer w a below) = w.standing + below.inHand := by
  simp only [surplus, answer, Stack.inHand_reply]

theorem surplus_register {w : World} {c : Correlator} (hc : w.correlator = .present c)
    (operation : String) (listener : Listener) (ticket : Ticket) (reply : CommandHandle → Int32)
    (during : List Step) (below : Stack) :
    surplus (register w c operation listener ticket reply during below) = surplus (w, below) := by
  unfold register
  cases ht : c.table.register w.nextId operation w.clock with
  | none => simp [Frame.inHand, Aftermath.inHand, ht]
  | some p =>
    obtain ⟨h, t⟩ := p
    obtain ⟨-, -, hshape⟩ := PendingTable.register_eq_some ht
    have hbegun : (w.begin operation listener).correlator = .present c := hc
    simp only [ht, surplus_mk, World.standing_handOver, World.standing_note,
      World.standing_setTable hbegun, World.standing_begin, Stack.inHand_cons, Frame.inHand,
      Event.weight, hshape, List.length_append, List.length_singleton]
    omega

theorem surplus_returned (w : World) (id : OperationId) (ticket : Ticket) (operation : String)
    (handle : CommandHandle) (status : Int32) (during : List Answer) (below : Stack) :
    surplus (returned w id ticket operation handle status during below) = surplus (w, below) := by
  unfold returned
  split
  · simp [Event.weight]
  · cases hw : w.correlator with
    | absent absence => simp [Event.weight]
    | present c =>
      cases ht : c.table.removeOwned handle id with
      | none => simp [Event.weight, ht]
      | some t =>
        obtain ⟨e, hfind, -, rfl⟩ := PendingTable.removeOwned_eq_some ht
        simp only [ht, surplus_mk, Stack.inHand_cons, Frame.inHand, Aftermath.inHand,
          World.standing_erase hw hfind]
        omega

theorem surplus_complete {w : World} {c : Correlator} (hc : w.correlator = .present c)
    (handle : CommandHandle) (status : Int32) (payload : Payload) (receipt : Receipt)
    (below : Stack) :
    surplus (complete w c handle status payload receipt below) = surplus (w, below) := by
  unfold complete
  cases ht : c.table.remove handle with
  | none => simp [Event.weight]
  | some p =>
    obtain ⟨entry, t⟩ := p
    obtain ⟨hfind, rfl⟩ := PendingTable.remove_eq_some ht
    simp only [surplus_mk, Stack.inHand_cons, Frame.inHand, Aftermath.inHand,
      World.standing_erase hc hfind]
    omega

@[simp] theorem surplus_sweepOn (w : World) (rest : List Entry) (expired : List CommandHandle)
    (age : Duration) (below : Stack) :
    surplus (sweepOn w rest expired age below) = surplus (w, below) := by
  cases rest with
  | cons e rest => simp [sweepOn, surplus, Frame.inHand, Aftermath.inHand]
  | nil => by_cases h : expired.isEmpty <;> simp [sweepOn, h, surplus, answer, Event.weight]

theorem surplus_shutdownOn (w : World) (rest : List Entry) (count : Nat) (below : Stack) :
    surplus (shutdownOn w rest count below) = surplus (w, below) + count := by
  cases rest with
  | cons e rest => simp [shutdownOn, surplus, Frame.inHand, Aftermath.inHand]; omega
  | nil => simp [shutdownOn, surplus, answer, Event.weight]; omega

@[simp] theorem surplus_dropOn (w : World) (rest : List Entry) (below : Stack) :
    surplus (dropOn w rest below) = surplus (w, below) := by
  cases rest <;> simp [dropOn, surplus, answer, Frame.inHand, Aftermath.inHand]

@[simp] theorem surplus_waitFor (w : World) (call : PendingCall) (limit : Duration)
    (below : Stack) : surplus (waitFor w call limit below) = surplus (w, below) := by
  unfold waitFor
  split <;> simp [Frame.inHand, Aftermath.inHand]

/-- Installing the first correlator adds no entries. -/
theorem World.standing_install {w : World} {c : Correlator} (hc : c.table = {}) :
    (w.install c).2.standing = w.standing := by
  unfold install
  split
  · next hw => simp [standing, pendingCount, hw, hc, note, ledger, Event.weight, PendingTable.size]
  · rfl

/-- Giving the correlator up with its entries is reported at once. -/
theorem surplus_drop {w : World} {c : Correlator} (hc : w.correlator = .present c)
    (order : Arrangement) (below : Stack) :
    surplus (dropOn (if c.table.entries.isEmpty then { w with correlator := .absent .dropped }
      else World.note { w with correlator := .absent .dropped } (.dropped c.table.size))
      (order.apply c.table.entries) below) = surplus (w, below) := by
  have hgone : World.standing { w with correlator := .absent .dropped } =
      w.standing - c.table.entries.length := by
    rw [World.standing, World.standing, World.pendingCount_of_present hc]
    simp only [World.pendingCount, World.ledger]
    omega
  rw [surplus_dropOn]
  split
  · next hempty =>
    have hnil : c.table.entries = [] := List.isEmpty_iff.mp hempty
    simp only [surplus_mk, hgone, hnil, List.length_nil]
    omega
  · simp only [surplus_mk, World.standing_note, hgone, Event.weight, PendingTable.size]
    omega

/-- **Beginning a step does not change the surplus.** -/
theorem Step.Opens.surplus_eq {w : World} {self : Option CommandHandle} {below : Stack} {s : Step}
    {m : World × Stack} (h : s.Opens w self below m) : surplus m = surplus (w, below) := by
  cases h with
  | answered _ => simp
  | rejected _ => simp
  | readied _ => simp
  | installed hc => simp [World.standing_install (Correlator.table_of_ofText hc)]
  | seeded hc => simp [World.standing_setTable hc, PendingTable.seed]
  | slept => exact surplus_answer ..
  | used _ => simp
  | forgotten _ _ => simp
  | uncorrelated _ => simp [Event.weight]
  | @registers s r v c hr hv hc =>
    have hsame : surplus (v, below) = surplus (w, below) := by
      rcases hv with rfl | ⟨-, rfl⟩
      · rfl
      · simp
    rw [surplus_register hc, hsame]
  | @completes s v c handle status payload receipt hd hv hc =>
    have hready : v.correlator = .present c ∧ v.standing = w.standing := by
      rcases hv with ⟨rfl, -⟩ | ⟨n, call, -, rfl, -⟩
      · exact ⟨hc, rfl⟩
      · exact ⟨hc, rfl⟩
    rw [surplus_complete hready.1, surplus_mk, hready.2, surplus_mk]
  | expires _ _ _ => simp [Frame.inHand, Aftermath.inHand]
  | sweeps _ _ => simp
  | shutsDown hc =>
    rw [surplus_shutdownOn, surplus_mk, World.standing_setTable hc, surplus_mk]
    simp only [PendingTable.drain, List.length_nil]
    omega
  | drops hc _ => exact surplus_drop hc ..
  | waits _ _ => simp
  | configures _ => simp [Frame.inHand]

theorem surplus_begin (w : World) (self : Option CommandHandle) (below : Stack) (s : Step) :
    surplus (s.begin w self below) = surplus (w, below) :=
  (opens_begin w self below s).surplus_eq

theorem surplus_resolve (w : World) (id : OperationId) (outcome : Outcome) (cause : Cause)
    (after : Aftermath) (below : Stack) :
    surplus (resolve w id outcome cause after below) =
      surplus (w, .resolve id outcome cause after :: below) := by
  unfold resolve World.resolveOnce
  cases hid : w.operations[id]? with
  | none => simp [Frame.inHand]
  | some o =>
    by_cases hopen : o.outcome.isNone
    · cases hlistener : o.listener with
      | continuation number steps =>
        simp [hopen, hlistener, surplus, Frame.inHand, Event.weight]
      | caller shape isListening =>
        cases isListening <;> simp [hopen, hlistener, surplus, Frame.inHand, Event.weight]
    · simp [hopen, surplus, Frame.inHand]

theorem surplus_conclude (w : World) (ran : Bool) (below : Stack) (after : Aftermath) :
    surplus (conclude w ran below after) = surplus (w, .conclude after ran :: below) := by
  cases after with
  | refuse id ticket error => simp [conclude, surplus, answer, Frame.inHand, Aftermath.inHand]
  | fail id ticket operation handle error during =>
    simp only [conclude, surplus_answer, surplus_mk, World.standing_settle, World.standing_note,
      Event.weight, Stack.inHand_cons, Frame.inHand, Aftermath.inHand]
    omega
  | deliver entry status receipt =>
    have hweight : (if ran then Event.completed entry.owner entry.operation entry.handle status
        else .absorbed entry.owner entry.operation entry.handle).weight = 1 := by
      cases ran <;> rfl
    simp only [conclude, surplus_answer, surplus_mk, World.standing_note, hweight,
      Stack.inHand_cons, Frame.inHand, Aftermath.inHand]
    omega
  | expire handle =>
    cases ran <;> simp [conclude, surplus, answer, Frame.inHand, Aftermath.inHand, Event.weight]
  | sweep handle rest expired age =>
    simp only [conclude, surplus_sweepOn]
    simp [Frame.inHand, Aftermath.inHand]
  | shutdown rest count =>
    simp only [conclude, surplus_shutdownOn, surplus_mk, Stack.inHand_cons, Frame.inHand,
      Aftermath.inHand]
    omega
  | drop rest =>
    simp only [conclude, surplus_dropOn]
    simp [Frame.inHand, Aftermath.inHand]
  | giveUp call limit =>
    cases ran <;> simp [conclude, surplus, answer, Frame.inHand, Aftermath.inHand, Event.weight]

theorem surplus_resume (w : World) (self : Option CommandHandle) (answers : List Answer)
    (stack : Stack) :
    surplus (resume w answers stack) = surplus (w, .script self [] answers :: stack) := by
  unfold resume
  split
  · rw [surplus_returned]
    simp [Frame.inHand]
  · simp [Frame.inHand]
  · simp [Frame.inHand, Event.weight]
  · simp [Frame.inHand]

/-- **No section changes the surplus.** -/
theorem surplus_advance {w : World} {stack : Stack} {n : World × Stack}
    (h : advance w stack = some n) : surplus n = surplus (w, stack) := by
  unfold advance at h
  split at h <;> cases h
  · rw [surplus_begin]
    simp [Frame.inHand]
  · exact surplus_resume ..
  · exact surplus_resolve ..
  · exact surplus_conclude ..
  · rw [surplus_returned]
    simp [Frame.inHand]
  · simp [Frame.inHand]
  · simp [Frame.inHand, Event.weight]

/-! ### The columns of the ledger -/

namespace World

/-- The native calls made; each was given a handle. -/
def nativeCalls (w : World) : Nat :=
  w.journal.countP fun
    | .allocated _ _ _ => true
    | _ => false

/-- The deliveries that came back with success: the completions, and those that came too late. -/
def okDeliveries (w : World) : Nat :=
  w.journal.countP fun
    | .completed _ _ _ _ => true
    | .absorbed _ _ _ => true
    | _ => false

/-- The native functions that failed while their operation had its entry. -/
def ownFailures (w : World) : Nat :=
  w.journal.countP fun
    | .failed _ _ _ => true
    | _ => false

/-- The entries that were drained by shutdowns and drops. -/
def drained (w : World) : Nat :=
  (w.journal.map fun
    | .shutDown count => count
    | .dropped count => count
    | _ => 0).sum

theorem ledger_eq (w : World) :
    w.ledger = w.okDeliveries + w.ownFailures + w.drained - w.nativeCalls := by
  unfold ledger okDeliveries ownFailures drained nativeCalls
  induction w.journal with
  | nil => rfl
  | cons e journal ih =>
    rw [List.map_cons, List.sum_cons, ih]
    cases e <;> simp [Event.weight] <;> omega

end World

theorem Stack.AtTop.inHand {stack : Stack} (h : stack.AtTop) : stack.inHand = 0 := by
  obtain ⟨rest, answers, rfl⟩ := h
  rfl

section Runs

variable {c : Correlator} {steps : List Step} {m : World × Stack}

/-- In every state of a session all entries are accounted for. -/
theorem Reaches.surplus_eq_zero (hc : c.IsFresh) (hm : Reaches (Session.start c steps) m) :
    surplus m = 0 := by
  induction hm with
  | refl =>
    simp [Session.start, World.start, World.standing, World.ledger, World.pendingCount,
      PendingTable.size, hc.empty, Frame.inHand]
  | tail _ hmoves ih =>
    rw [surplus_advance hmoves]
    exact ih

/-- **At the top the books balance.** -/
theorem Reaches.balance (hc : c.IsFresh) (hm : Reaches (Session.start c steps) m)
    (htop : m.2.AtTop) :
    m.1.pendingCount + m.1.okDeliveries + m.1.ownFailures + m.1.drained = m.1.nativeCalls := by
  have hsurplus := hm.surplus_eq_zero hc
  rw [surplus, htop.inHand, World.standing, World.ledger_eq] at hsurplus
  omega

end Runs

end CommandBridge

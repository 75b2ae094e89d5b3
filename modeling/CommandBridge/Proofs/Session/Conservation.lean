import CommandBridge.Proofs.Session.Deliveries
import CommandBridge.Proofs.Session.ExactlyOnce
import CommandBridge.Proofs.Session.Ledger

/-!
# Conservation of entries

An entry may leave the table on a way that resolves its operation or on one that does not, and an
operation may be resolved while its entry stays.  Still every entry leaves the table once, on one of
four ways.

* `Exit`, `Takes` — the four ways out, and the sections that take an entry out;
* `Section.takes`, `Takes.gone` — an entry leaves exactly in these sections;
* `Step.sparesTable`, `Spares` — the sections that leave the table alone;
* `Reaches.not_mem_owners` — an operation that has lost its entry never gets one again;
* `Session.conservation` — the ways out, the balance at the top, and the listing of what is left.
-/

namespace CommandBridge

/-! ### Ways out -/

/-- How an entry can leave the table. -/
inductive Exit where
  | completion
  | failure
  | shutdown
  | drop
  deriving DecidableEq, Repr

/-- The next section of a thread takes an entry of the table out. -/
inductive Takes (e : Entry) (w : World) : Stack → Exit → Prop
  /-- A completion is delivered to its handle. -/
  | completion {self : Option CommandHandle} {s : Step} {rest : List Step} {answers : List Answer}
      {below : Stack} {status : Int32} {payload : Payload}
      (hd : s.delivery? w self = some (e.handle, status, payload)) :
      Takes e w (.script self (s :: rest) answers :: below) .completion
  /-- The native function of its operation fails. -/
  | failure {stack below : Stack} {during : List Answer} {ticket : Ticket} {operation : String}
      {status : Int32}
      (hdone : Done stack during (.native e.owner ticket operation e.handle status :: below))
      (hstatus : status ≠ successStatus) : Takes e w stack .failure
  | shutdown {self : Option CommandHandle} {order : Arrangement} {rest : List Step}
      {answers : List Answer} {below : Stack} :
      Takes e w (.script self (.shutdown order :: rest) answers :: below) .shutdown
  /-- The correlator is given up, which only happens while nothing else uses it. -/
  | drop {self : Option CommandHandle} {order : Arrangement} {rest : List Step}
      {answers : List Answer} :
      Takes e w [.script self (.drop order :: rest) answers] .drop

section Exits

variable {e : Entry} {w v : World} {stack stack' : Stack} {owed : List OperationId} {exit : Exit}

/-- The first section of a step takes an entry out on one of the ways. -/
theorem Step.Begins.takes {self : Option CommandHandle} {s : Step} {rest : List Step}
    {answers : List Answer} {below : Stack}
    (h : s.Begins w self (.script self rest answers :: below) v stack) (he : e ∈ w.entries)
    (hgone : e ∉ v.entries) :
    ∃ exit, Takes e w (.script self (s :: rest) answers :: below) exit := by
  have hstays : v.entries = w.entries → False := fun hsame => hgone (hsame ▸ he)
  cases h with
  | answered hv _ => exact (hstays hv.entries).elim
  | installed hw _ _ _ =>
    rw [World.entries, hw] at he
    cases he
  | seeded hc =>
    refine (hstays ?_).elim
    rw [World.entries_of_present (World.correlator_setTable hc _), World.entries_of_present hc]
    rfl
  | @accepted _ r u c h t _ hu hc ht =>
    rw [(World.quiet_handOver ..).entries, World.entries_enter hc ht,
      World.entries_of_readied hu] at hgone
    exact absurd (List.mem_append_left _ he) hgone
  | @refused _ r u _ _ hu _ _ =>
    have hbegun : (u.begin r.operation r.listener).entries = u.entries := rfl
    exact (hstays (hbegun.trans (World.entries_of_readied hu))).elim
  | @completed _ u c handle status payload entry _ receipt hd hu hc ht =>
    obtain ⟨-, rfl⟩ := PendingTable.remove_eq_some ht
    have hu' : u.correlator = .present c := by
      rcases hu with rfl | ⟨n, rfl⟩
      · exact hc
      · exact hc
    rw [World.entries_of_present hc] at he
    rw [World.entries_of_present (World.correlator_setTable hu' _)] at hgone
    obtain rfl := PendingTable.handle_of_not_mem_erase he hgone
    exact ⟨_, .completion hd⟩
  | expired _ _ _ => exact (hstays rfl).elim
  | swept _ _ => exact (hstays (World.quiet_sweepOn ..).entries).elim
  | shutDown _ => exact ⟨_, .shutdown⟩
  | dropped _ hbelow _ _ =>
    obtain rfl := isOutermost_script hbelow
    exact ⟨_, .drop⟩
  | gaveUp _ _ _ _ => exact (hstays rfl).elim
  | configured => exact (hstays rfl).elim

/-- **An entry only leaves on one of the ways.** -/
theorem Section.takes (h : Section w stack v stack') (hsound : w.Sound owed) (he : e ∈ w.entries)
    (hgone : e ∉ v.entries) : ∃ exit, Takes e w stack exit := by
  have hstays : v.entries = w.entries → False := fun hsame => hgone (hsame ▸ he)
  cases h with
  | began hbegins => exact hbegins.takes he hgone
  | left _ => exact (hstays rfl).elim
  | issued _ => exact (hstays (World.quiet_settle_note rfl).entries).elim
  | @failed _ _ _ id ticket operation handle status c _ hdone hstatus hc ht =>
    obtain ⟨d, hfind, rfl, rfl⟩ := PendingTable.removeOwned_eq_some ht
    rw [World.entries_of_present hc] at he
    rw [World.entries_of_present (World.correlator_setTable hc _)] at hgone
    obtain rfl := PendingTable.handle_of_not_mem_erase he hgone
    obtain rfl := Option.some.inj (((hsound.table c hc).find?_of_mem he).symm.trans hfind)
    exact ⟨_, .failure hdone hstatus⟩
  | failedLate _ _ _ => exact (hstays (World.quiet_settle_note rfl).entries).elim
  | configured _ => exact (hstays rfl).elim
  | continued _ => exact (hstays (World.quiet_note w rfl).entries).elim
  | passed _ => exact (hstays rfl).elim
  | ran _ _ _ => exact (hstays rfl).elim
  | told _ _ _ hv _ => exact (hstays hv.entries).elim
  | refused => exact (hstays (World.quiet_settle ..).entries).elim
  | failedNow => exact (hstays (World.quiet_settle_note rfl).entries).elim
  | answered _ hv _ => exact (hstays hv.entries).elim
  | sweptOn => exact (hstays (World.quiet_sweepOn ..).entries).elim
  | shutDownOn => exact (hstays (World.quiet_shutdownOn ..).entries).elim
  | droppedOn => exact (hstays (World.quiet_dropOn ..).entries).elim

theorem returned_of_own {c : Correlator} (hc : w.correlator = .present c)
    (hfind : c.table.find? e.handle = some e) {status : Int32} (hstatus : status ≠ successStatus)
    (ticket : Ticket) (operation : String) (during : List Answer) (below : Stack) :
    (returned w e.owner ticket operation e.handle status during below).1 =
      w.setTable (c.table.erase e.handle) := by
  simp only [returned, hc, PendingTable.removeOwned_of_find? hfind]
  rw [if_neg hstatus]

/-- **On each of the ways the entry leaves.** -/
theorem Takes.gone (h : Takes e w stack exit) (hsound : w.Sound owed) (he : e ∈ w.entries)
    (hadvance : advance w stack = some (v, stack')) : e ∉ v.entries := by
  obtain ⟨-, c, d, hc, hfind, -⟩ := hsound.holds_of_mem_entries he
  have htable := hsound.table c hc
  have hmem : e ∈ c.table.entries := World.entries_of_present hc ▸ he
  have hfind := htable.find?_of_mem hmem
  have herased : ∀ u : World, u.correlator = .present c →
      e ∉ (u.setTable (c.table.erase e.handle)).entries := by
    intro u hu
    rw [World.entries_of_present (World.correlator_setTable hu _)]
    exact htable.not_mem_erase hfind
  cases h with
  | @completion self s rest answers below status payload hd =>
    obtain ⟨u, hquiet, -, hbegin⟩ := s.begin_of_delivery hd hc (.script self rest answers :: below)
    have hremove : c.table.remove e.handle = some (e, c.table.erase e.handle) := by
      rw [PendingTable.remove, hfind, Option.map_some]
    simp only [complete, hremove] at hbegin
    have hsection : s.begin w self (.script self rest answers :: below) = (v, stack') :=
      Option.some.inj hadvance
    rw [hbegin] at hsection
    cases hsection
    exact herased u (hquiet.correlator.trans hc)
  | @failure _ below during ticket operation status hdone hstatus =>
    have hreturned := returned_of_own hc hfind hstatus ticket operation during below
    have hsection : returned w e.owner ticket operation e.handle status during below =
        (v, stack') := by
      cases hdone with
      | script => exact Option.some.inj hadvance
      | bare => exact Option.some.inj hadvance
    rw [hsection] at hreturned
    cases hreturned
    exact herased w hc
  | @shutdown self order rest answers below =>
    have hsection := congrArg Prod.fst (Option.some.inj hadvance)
    simp only [Step.begin, withCorrelator, hc] at hsection
    rw [← hsection, (World.quiet_shutdownOn ..).entries,
      World.entries_of_present (World.correlator_setTable hc _)]
    exact List.not_mem_nil
  | @drop self order rest answers =>
    have hsection := congrArg Prod.fst (Option.some.inj hadvance)
    have houtermost : isOutermost [.script self rest answers] = true := rfl
    simp only [Step.begin, withCorrelator, hc, houtermost, if_true] at hsection
    rw [← hsection, (World.quiet_dropOn ..).entries]
    split <;> exact List.not_mem_nil

/-- The ways exclude each other. -/
theorem Takes.unique {exit' : Exit} (h : Takes e w stack exit) (h' : Takes e w stack exit') :
    exit = exit' := by
  cases h with
  | completion hd =>
    cases h' with
    | completion _ => rfl
    | failure hdone _ => cases hdone
    | shutdown => cases hd
    | drop => cases hd
  | failure hdone _ =>
    cases h' with
    | completion _ => cases hdone
    | failure _ _ => rfl
    | shutdown => cases hdone
    | drop => cases hdone
  | shutdown =>
    cases h' with
    | completion hd => cases hd
    | failure hdone _ => cases hdone
    | shutdown => rfl
  | drop =>
    cases h' with
    | completion hd => cases hd
    | failure hdone _ => cases hdone
    | drop => rfl

end Exits

/-! ### Never again -/

/-- An operation that was begun and has no entry gets none. -/
theorem Effect.not_mem_owners {w v : World} {stack : Stack} (h : Effect w stack v)
    {id : OperationId} (hid : id < w.operations.length) (hout : id ∉ w.owners) : id ∉ v.owners := by
  rcases h.registers with hsub | ⟨e, howner, -, hentries⟩
  · exact fun hmem => hout ((hsub.map Entry.owner).subset hmem)
  · intro hmem
    rw [World.owners, hentries, List.map_append] at hmem
    rcases List.mem_append.mp hmem with hold | hnew
    · exact hout hold
    · rw [List.mem_singleton.mp hnew, howner] at hid
      exact Nat.lt_irrefl _ hid

/-- **An operation that has lost its entry never gets one again.** -/
theorem Reaches.not_mem_owners {m n : World × Stack} (h : Reaches m n) {id : OperationId}
    (hid : id < m.1.operations.length) (hout : id ∉ m.1.owners) : id ∉ n.1.owners := by
  induction h with
  | refl => exact hout
  | tail hreaches hmoves ih =>
    have hlater := Nat.lt_of_lt_of_le hid (Reaches.precedes hreaches).length
    exact hmoves.section.effect.not_mem_owners hlater ih

/-- An entry that leaves leaves its operation without one. -/
theorem Effect.owner_not_mem {w v : World} {stack : Stack} {owed : List OperationId}
    (h : Effect w stack v) (hsound : w.Sound owed) {e : Entry} (he : e ∈ w.entries)
    (hgone : e ∉ v.entries) : e.owner ∉ v.owners := by
  rcases h.registers with hsub | ⟨d, -, -, hentries⟩
  · intro hmem
    obtain ⟨d, hd, howner⟩ := List.mem_map.mp hmem
    obtain rfl := List.inj_on_of_nodup_map hsound.nodup_owners (hsub.subset hd) he howner
    exact hgone hd
  · rw [hentries] at hgone
    exact absurd (List.mem_append_left _ he) hgone

/-! ### Sections that leave the table alone -/

/-- The step by itself does nothing to the table: it looks, or it resolves an operation whose entry
stays. -/
def Step.sparesTable : Step → Bool
  | .expire _ => true
  | .sweep _ _ => true
  | .isInstalled => true
  | .ask _ => true
  | .sleep _ => true
  | .poll _ => true
  | .timeout _ _ => true
  | .defaultTimeout _ => true
  | .wait _ none => true
  | .forget _ => true
  | .view _ => true
  | _ => false

/-- The next section of a thread leaves the table alone. -/
inductive Spares (w : World) : Stack → Prop
  | looking {self : Option CommandHandle} {s : Step} {rest : List Step} {answers : List Answer}
      {below : Stack} (hs : s.sparesTable = true) :
      Spares w (.script self (s :: rest) answers :: below)
  /-- A delivery to a handle that is not pending. -/
  | dangling {self : Option CommandHandle} {s : Step} {rest : List Step} {answers : List Answer}
      {below : Stack} {handle : CommandHandle} {status : Int32} {payload : Payload}
      (hd : s.delivery? w self = some (handle, status, payload))
      (hfree : ∀ e ∈ w.entries, e.handle ≠ handle) :
      Spares w (.script self (s :: rest) answers :: below)
  /-- A registration with a closed correlator. -/
  | rejected {self : Option CommandHandle} {s : Step} {rest : List Step} {answers : List Answer}
      {below : Stack} {r : Registration} (hr : s.registration? w = some r)
      (hclosed : w.correlator.isClosed = true) :
      Spares w (.script self (s :: rest) answers :: below)
  /-- What is left of a step after its first section. -/
  | resolving {id : OperationId} {outcome : Outcome} {cause : Cause} {after : Aftermath}
      {below : Stack} : Spares w (.resolve id outcome cause after :: below)
  | continued {stack below : Stack} {answers : List Answer} {id : OperationId} {after : Aftermath}
      (hdone : Done stack answers (.continuation id after :: below)) : Spares w stack
  | concluding {after : Aftermath} {ran : Bool} {below : Stack} :
      Spares w (.conclude after ran :: below)

section Spares

variable {w v : World} {self : Option CommandHandle} {s : Step} {below stack stack' : Stack}

/-- A step that spares the table registers and delivers nothing. -/
theorem Step.nothing_of_sparesTable {s : Step} (hs : s.sparesTable = true) (w : World)
    (self : Option CommandHandle) :
    s.registration? w = none ∧ s.delivery? w self = none := by
  cases s with
  | wait n completion =>
    cases completion with
    | none => exact ⟨rfl, rfl⟩
    | some _ => cases hs
  | _ => first | exact ⟨rfl, rfl⟩ | cases hs

/-- The first section of a step leaves the table alone if the step spares it. -/
theorem Step.Begins.correlator_of_sparesTable (h : s.Begins w self below v stack)
    (hs : s.sparesTable = true) (hw : w.correlator ≠ .absent .notInstalled) :
    v.correlator = w.correlator := by
  obtain ⟨hregistration, hdelivery⟩ := s.nothing_of_sparesTable hs w self
  cases h with
  | answered hv _ => exact hv.correlator
  | installed habsent _ _ _ => exact absurd habsent hw
  | seeded _ => cases hs
  | accepted hr _ _ _ => rw [hregistration] at hr; cases hr
  | refused hr _ _ _ => rw [hregistration] at hr; cases hr
  | completed hd _ _ _ => rw [hdelivery] at hd; cases hd
  | expired _ _ _ => rfl
  | swept _ _ => exact (World.quiet_sweepOn ..).correlator
  | shutDown _ => cases hs
  | dropped _ _ _ _ => cases hs
  | gaveUp _ _ _ _ => rfl
  | configured => rfl

theorem Step.Begins.correlator_of_dangling (h : s.Begins w self below v stack)
    {handle : CommandHandle} {status : Int32} {payload : Payload}
    (hd : s.delivery? w self = some (handle, status, payload))
    (hfree : ∀ e ∈ w.entries, e.handle ≠ handle) (hw : w.correlator ≠ .absent .notInstalled) :
    v.correlator = w.correlator := by
  have hregistration := Step.registration?_of_delivery hd
  cases h with
  | answered hv _ => exact hv.correlator
  | installed habsent _ _ _ => exact absurd habsent hw
  | seeded _ => cases hd
  | accepted hr _ _ _ => rw [hregistration] at hr; cases hr
  | refused hr _ _ _ => rw [hregistration] at hr; cases hr
  | completed hd' _ hc ht =>
    cases hd'.symm.trans hd
    obtain ⟨hfind, -⟩ := PendingTable.remove_eq_some ht
    obtain ⟨hmem, hhandle⟩ := PendingTable.find?_eq_some hfind
    rw [← World.entries_of_present hc] at hmem
    exact absurd hhandle (hfree _ hmem)
  | expired _ _ _ => cases hd
  | swept _ _ => cases hd
  | shutDown _ => cases hd
  | dropped _ _ _ _ => cases hd
  | gaveUp _ _ _ _ => rfl
  | configured => cases hd

theorem Step.Begins.correlator_of_rejected (h : s.Begins w self below v stack) {r : Registration}
    (hr : s.registration? w = some r) (hclosed : w.correlator.isClosed = true) :
    v.correlator = w.correlator := by
  cases h with
  | answered hv _ => exact hv.correlator
  | installed habsent _ _ _ =>
    rw [habsent] at hclosed
    cases hclosed
  | seeded _ => cases hr
  | @accepted _ _ u c _ _ _ hu hc ht =>
    obtain ⟨hopen, -⟩ := PendingTable.register_eq_some ht
    obtain rfl := World.eq_of_readied_of_isClosed hu hclosed
    rw [hc] at hclosed
    cases hopen.symm.trans hclosed
  | refused _ hu _ _ =>
    obtain rfl := World.eq_of_readied_of_isClosed hu hclosed
    rfl
  | completed hd _ _ _ => rw [Step.registration?_of_delivery hd] at hr; cases hr
  | expired _ _ _ => cases hr
  | swept _ _ => cases hr
  | shutDown _ => cases hr
  | dropped _ _ _ _ => cases hr
  | gaveUp _ _ _ _ => rfl
  | configured => cases hr

/-- A section that goes on with a step, and is no native function's return, leaves the correlator
alone. -/
theorem Section.correlator_of_later (h : Section w stack v stack')
    (hsteps : ∀ self s rest answers below, stack ≠ .script self (s :: rest) answers :: below)
    (hnative : ∀ during id ticket operation handle status below,
      ¬ Done stack during (.native id ticket operation handle status :: below)) :
    v.correlator = w.correlator := by
  cases h.touches with
  | spared hv => exact hv
  | began hstack _ => exact absurd hstack (hsteps _ _ _ _ _)
  | failed hdone _ _ _ => exact absurd hdone (hnative _ _ _ _ _ _ _)

/-- **No section that spares the table changes the correlator.** -/
theorem Section.correlator_of_spares (h : Section w stack v stack') (hs : Spares w stack)
    (hw : w.correlator ≠ .absent .notInstalled) : v.correlator = w.correlator := by
  cases hs with
  | looking hs => exact h.begins.correlator_of_sparesTable hs hw
  | dangling hd hfree => exact h.begins.correlator_of_dangling hd hfree hw
  | rejected hr hclosed => exact h.begins.correlator_of_rejected hr hclosed
  | resolving =>
    refine h.correlator_of_later (fun _ _ _ _ _ heq => by cases heq) ?_
    rintro _ _ _ _ _ _ _ hdone
    cases hdone
  | continued hdone =>
    refine h.correlator_of_later ?_ ?_
    · rintro _ _ _ _ _ rfl
      cases hdone
    · rintro _ _ _ _ _ _ _ hdone'
      cases hdone <;> cases hdone'
  | concluding =>
    refine h.correlator_of_later (fun _ _ _ _ _ heq => by cases heq) ?_
    rintro _ _ _ _ _ _ _ hdone
    cases hdone

end Spares

/-! ### The result -/

namespace Session

variable {c : Correlator} {steps : List Step} {m : World × Stack}

/-- Deliveries come back with success exactly if they find an entry. -/
theorem returns_of_delivery (hsound : m.1.Sound m.2.owed) {d : Correlator}
    (hd : m.1.correlator = .present d) {self : Option CommandHandle} {s : Step} {rest : List Step}
    {answers : List Answer} {below : Stack} {h : CommandHandle} {status : Int32}
    {payload : Payload} (htop : m.2 = .script self (s :: rest) answers :: below)
    (hdelivery : s.delivery? m.1 self = some (h, status, payload)) :
    (∀ e ∈ m.1.entries, e.handle = h →
      ∃ n, Returns m n ((s.receipt m.1).answer n.1 (.ok ())) ∧
        ∃ event before, n.1.journal = event :: before ∧ event.reportsDelivery e status) ∧
    ((∀ e ∈ m.1.entries, e.handle ≠ h) →
      ∃ n, Returns m n ((s.receipt m.1).answer n.1 (.error (.dangling h status)))) := by
  rw [World.entries_of_present hd]
  refine ⟨?_, fun hfree => ?_⟩
  · rintro e he rfl
    exact returns_of_pending htop hdelivery hd ((hsound.table d hd).find?_of_mem he)
  · have hnone : d.table.find? h = none := by
      rw [PendingTable.find?_eq_none]
      intro hmem
      obtain ⟨e, he, hhandle⟩ := List.mem_map.mp hmem
      exact hfree e he hhandle
    obtain ⟨n, -, -, -, hreturns⟩ := returns_of_not_pending htop hdelivery hd hnone
    exact ⟨n, hreturns⟩

/-- **Entries are conserved.**  In every state of a session with a fresh correlator whose entries
always fit,

* an entry leaves the table in exactly those sections that take it out, on one of the four ways, and
  its operation never gets an entry again;
* a completion takes an entry out exactly if the delivery comes back with success, and then this is
  put on record;
* expiries, sweeps, waiting, polling, giving calls up, dangling deliveries and refused registrations
  change nothing about the correlator by themselves;
* at the top, the entries left are those of all native calls, less the deliveries that succeeded,
  the native functions that failed while they had their entry, and the entries drained;
* the listing shows the handles of the entries left, strictly ascending, and a handle is pending
  exactly if it is listed. -/
theorem conservation (hc : c.IsFresh) (hseeds : ∀ n ∈ Step.seedsIn steps, 0 < n)
    (hfits : ∀ m, Reaches (start c steps) m → m.1.Fits) (hm : Reaches (start c steps) m) :
    (∀ n, Moves m n → ∀ e ∈ m.1.entries,
      (e ∉ n.1.entries ↔ ∃! exit, Takes e m.1 m.2 exit) ∧
      (e ∉ n.1.entries → ∀ q, Reaches n q → e.owner ∉ q.1.owners)) ∧
    (∀ d self s rest answers below h status payload, m.1.correlator = .present d →
      m.2 = .script self (s :: rest) answers :: below →
      s.delivery? m.1 self = some (h, status, payload) →
        (∀ e ∈ m.1.entries, e.handle = h →
          ∃ n, Returns m n ((s.receipt m.1).answer n.1 (.ok ())) ∧
            ∃ event before, n.1.journal = event :: before ∧ event.reportsDelivery e status) ∧
        ((∀ e ∈ m.1.entries, e.handle ≠ h) →
          ∃ n, Returns m n ((s.receipt m.1).answer n.1 (.error (.dangling h status))))) ∧
    (∀ n, Moves m n → Spares m.1 m.2 → n.1.correlator = m.1.correlator) ∧
    (m.2.AtTop →
      m.1.pendingCount + m.1.okDeliveries + m.1.ownFailures + m.1.drained = m.1.nativeCalls) ∧
    (∀ d, m.1.correlator = .present d →
      ∃ listed, (∀ self, Question.pending.answer d self = .handles listed) ∧
        listed.Pairwise (fun a b => a.raw < b.raw) ∧ listed.length = m.1.pendingCount ∧
        (∀ h, h ∈ listed ↔ ∃ id, m.1.Holds id h) ∧
        ∀ self h, (Question.isPending (.handle h)).answer d self = .flag (decide (h ∈ listed))) := by
  have hsound := hm.sound_of_fits hc hseeds hfits
  refine ⟨fun n hmoves e he => ⟨⟨fun hgone => ?_, ?_⟩, fun hgone q hq => ?_⟩, ?_, ?_, ?_, ?_⟩
  · obtain ⟨exit, htakes⟩ := hmoves.section.takes hsound he hgone
    exact ⟨exit, htakes, fun other hother => hother.unique htakes⟩
  · rintro ⟨exit, htakes, -⟩
    exact htakes.gone hsound he hmoves
  · have hbegun := hsound.begun e.owner (List.mem_append_left _ (List.mem_map_of_mem he))
    have hbegun := Nat.lt_of_lt_of_le hbegun hmoves.section.precedes.length
    exact hq.not_mem_owners hbegun (hmoves.section.effect.owner_not_mem hsound he hgone)
  · intro d self s rest answers below h status payload hd htop hdelivery
    exact returns_of_delivery hsound hd htop hdelivery
  · intro n hmoves hspares
    exact hmoves.section.correlator_of_spares hspares hm.installed
  · exact hm.balance hc
  · intro d hd
    have htable := hsound.table d hd
    refine ⟨d.table.handles, fun _ => rfl, htable.handles_ascending, ?_, fun h => ?_, ?_⟩
    · rw [World.pendingCount_of_present hd, PendingTable.length_handles]
    · rw [PendingTable.mem_handles]
      refine ⟨fun hmem => ?_, ?_⟩
      · obtain ⟨e, he, rfl⟩ := List.mem_map.mp hmem
        rw [← World.entries_of_present hd] at he
        exact ⟨e.owner, hsound.holds_of_mem_entries he⟩
      · rintro ⟨id, -, d', e, hd', hfind, -⟩
        cases hd.symm.trans hd'
        obtain ⟨he, rfl⟩ := PendingTable.find?_eq_some hfind
        exact List.mem_map_of_mem he
    · intro self h
      have hcontains : d.table.contains h = decide (h ∈ d.table.handles) := by
        rw [Bool.eq_iff_iff, decide_eq_true_iff, PendingTable.mem_handles]
        exact PendingTable.contains_iff
      exact congrArg Answer.flag hcontains

/-- Of five commands, the first is given up and completes late, the second completes while its
native function still runs, which fails later, the third fails at once, the fourth is pending when
the correlator shuts down, and the last is refused. -/
def everyExit : List Step :=
  [.submit "open_wallet" (fun _ => 0) [] [], .expire (.handle ⟨1⟩),
   .submit "close_wallet" (fun _ => 200) [.deliver .self 0 .empty] [],
   .submit "create_wallet" (fun _ => 203) [] [], .deliver (.handle ⟨1⟩) 0 .empty,
   .submit "list_pools" (fun _ => 0) [] [], .shutdown [],
   .submit "open_pool" (fun _ => 0) [] []]

/-- Four native calls were made, and every column of the ledger has its share. -/
theorem conservation_everyExit : ∃ m, Reaches (start {} everyExit) m ∧ m.2.AtTop ∧
    (m.1.pendingCount = 0 ∧ m.1.okDeliveries = 2 ∧ m.1.ownFailures = 1 ∧ m.1.drained = 1) ∧
    m.1.nativeCalls = 4 := by
  have hfresh : Correlator.IsFresh {} := ⟨rfl, by decide⟩
  have hseeds : ∀ n ∈ Step.seedsIn everyExit, 0 < n := by
    have hnone : Step.seedsIn everyExit = [] := rfl
    rw [hnone]
    exact List.forall_mem_nil _
  have hsize : Step.sizes everyExit < Allocator.fullTurn := by decide
  obtain ⟨m, hm, hworld, hrunning⟩ := Reaches.follow (start {} everyExit) 30
  have htop : m.2.AtTop := by
    rw [← (List.cons.inj hrunning).1]
    exact ⟨_, _, rfl⟩
  have hcolumns : m.1.pendingCount = 0 ∧ m.1.okDeliveries = 2 ∧ m.1.ownFailures = 1 ∧
      m.1.drained = 1 := by
    rw [← hworld]
    decide
  obtain ⟨-, -, -, hbalance, -⟩ := conservation hfresh hseeds
    (fun m hm => (hasRoom hfresh hseeds hsize hm).fits) hm
  obtain ⟨hpending, hok, hfailures, hdrained⟩ := hcolumns
  have htotal := hbalance htop
  rw [hpending, hok, hfailures, hdrained] at htotal
  exact ⟨m, hm, htop, ⟨hpending, hok, hfailures, hdrained⟩, htotal.symm⟩

end Session

end CommandBridge

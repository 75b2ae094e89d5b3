import CommandBridge.Proofs.Session.Runs

/-!
# What frames and calls say about operations

A native function on the stack, a registration that is to be answered and a pending call each name
an operation, and each relies on something about it.  In a session with one thread they are right
to:

* `Frame.Tied` — a native function works under the handle of its operation, which no frame below it
  owes; a refused operation was given no handle; a failed or refused registration is answered after
  its operation was resolved;
* `PendingCall.Tied` — a call with a handle has that of its operation, and a call without one is for
  an operation that is resolved;
* `Section.tied`, `Reaches.tied_of_fits` — every section and every run keep this.

So a native function that fails and finds its operation's entry gone can rely on its operation
having been resolved: whoever took the entry out did so above the native function, and is done.
-/

namespace CommandBridge

/-! ### Definitions -/

/-- An attempt that belongs to a registration is about the operation registered. -/
def Aftermath.Concerns (id : OperationId) : Aftermath → Prop
  | .refuse other _ _ => other = id
  | .fail other _ _ _ _ _ => other = id
  | _ => True

/-- The registration that is to be answered now is that of a resolved operation. -/
def Aftermath.Settled (w : World) : Aftermath → Prop
  | .refuse id _ _ => w.outcome? id ≠ none
  | .fail id _ _ _ _ _ => w.outcome? id ≠ none
  | _ => True

/-- What a frame with `below` under it says about the operation that it names. -/
def Frame.Tied (w : World) (below : Stack) : Frame → Prop
  | .native id _ _ handle _ =>
    id < w.operations.length ∧ w.handlesGiven id = [handle] ∧ id ∉ below.owed
  | .resolve id _ cause after =>
    after.Concerns id ∧
      ∀ operation, cause = .refused operation →
        id < w.operations.length ∧ w.handlesGiven id = []
  | .continuation _ after => after.Settled w
  | .conclude after _ => after.Settled w
  | _ => True

/-- What all frames say. -/
def Stack.Tied (w : World) : Stack → Prop
  | [] => True
  | f :: below => f.Tied w below ∧ Tied w below

/-- What a call says about the operation that it waits for. -/
def PendingCall.Tied (w : World) (call : PendingCall) : Prop :=
  ∀ id, call.source = .operation id →
    (∃ h, call.handle = some h ∧ id < w.operations.length ∧ w.handlesGiven id = [h]) ∨
      call.handle = none ∧ w.outcome? id ≠ none

/-- What all calls say. -/
def World.CallsTied (w : World) : Prop :=
  ∀ call, some call ∈ w.calls → call.Tied w

/-! ### Later states -/

section Later

variable {w v : World}

theorem Aftermath.Concerns.settled {id : OperationId} {after : Aftermath}
    (h : after.Concerns id) (hid : w.outcome? id ≠ none) : after.Settled w := by
  cases after with
  | refuse other ticket error =>
    cases h
    exact hid
  | fail other ticket operation handle error during =>
    cases h
    exact hid
  | _ => trivial

/-- Whoever has not taken an entry out has no registration to answer. -/
theorem Aftermath.settled_of_hasTaken {after : Aftermath} (h : after.hasTaken = false) :
    after.Settled w := by
  cases after with
  | refuse id ticket error => cases h
  | fail id ticket operation handle error during => cases h
  | _ => trivial

theorem Aftermath.Settled.later {after : Aftermath} (h : after.Settled w) (hle : w.Precedes v) :
    after.Settled v := by
  cases after with
  | refuse id ticket error => exact hle.outcome?_ne_none h
  | fail id ticket operation handle error during => exact hle.outcome?_ne_none h
  | _ => trivial

theorem Frame.Tied.later {below : Stack} {f : Frame} (h : f.Tied w below) (hle : w.Precedes v) :
    f.Tied v below := by
  cases f with
  | native id ticket operation handle status =>
    obtain ⟨hid, hgiven, howed⟩ := h
    refine ⟨Nat.lt_of_lt_of_le hid hle.length, ?_, howed⟩
    rw [hle.given id hid, hgiven]
  | resolve id outcome cause after =>
    refine ⟨h.1, fun operation hcause => ?_⟩
    obtain ⟨hid, hgiven⟩ := h.2 operation hcause
    refine ⟨Nat.lt_of_lt_of_le hid hle.length, ?_⟩
    rw [hle.given id hid, hgiven]
  | continuation id after => exact Aftermath.Settled.later h hle
  | conclude after ran => exact Aftermath.Settled.later h hle
  | _ => trivial

theorem Stack.Tied.later {stack : Stack} (h : stack.Tied w) (hle : w.Precedes v) :
    stack.Tied v := by
  induction stack with
  | nil => trivial
  | cons f below ih => exact ⟨h.1.later hle, ih h.2⟩

theorem PendingCall.Tied.later {call : PendingCall} (h : call.Tied w) (hle : w.Precedes v) :
    call.Tied v := by
  intro id hsource
  rcases h id hsource with ⟨handle, hhandle, hid, hgiven⟩ | ⟨hnone, hresolved⟩
  · refine .inl ⟨handle, hhandle, Nat.lt_of_lt_of_le hid hle.length, ?_⟩
    rw [hle.given id hid, hgiven]
  · exact .inr ⟨hnone, hle.outcome?_ne_none hresolved⟩

/-- Calls that were there before stay tied; new ones have to be. -/
theorem World.CallsTied.later (h : w.CallsTied) (hle : w.Precedes v)
    (hnew : ∀ call, some call ∈ v.calls → some call ∈ w.calls ∨ call.Tied v) : v.CallsTied := by
  intro call hcall
  rcases hnew call hcall with hold | htied
  · exact (h call hold).later hle
  · exact htied

end Later

/-! ### Stacks -/

namespace Stack.Tied

variable {w : World} {below : Stack}

theorem reply (h : below.Tied w) (a : Answer) : (reply a below).Tied w := by
  cases below with
  | nil => trivial
  | cons f below =>
    cases f with
    | script self rest answers => exact ⟨trivial, h.2⟩
    | _ => exact h

/-- An attempt to resolve with nothing to answer for. -/
theorem push_resolve (h : below.Tied w) {id : OperationId} {outcome : Outcome} {cause : Cause}
    {after : Aftermath} (hafter : after.Concerns id)
    (hcause : ∀ operation, cause ≠ .refused operation) :
    Stack.Tied w (.resolve id outcome cause after :: below) :=
  ⟨⟨hafter, fun operation heq => absurd heq (hcause operation)⟩, h⟩

theorem goOn (h : below.Tied w) (round : Round) (v : World) (entries : List Entry) :
    (round.goOn v entries below).2.Tied w := by
  refine round.goOn_stack v h.reply (fun e later _ => h.push_resolve ?_ (fun operation heq => ?_))
  · cases round <;> trivial
  · cases round <;> cases heq

/-- A native function on the stack works under the handle of its operation. -/
theorem given_of_mem {stack : Stack} (h : stack.Tied w) {id : OperationId} {ticket : Ticket}
    {operation : String} {handle : CommandHandle} {status : Int32}
    (hmem : .native id ticket operation handle status ∈ stack) : w.handlesGiven id = [handle] := by
  induction stack with
  | nil => cases hmem
  | cons f below ih =>
    rcases List.mem_cons.mp hmem with rfl | hbelow
    · exact h.1.2.1
    · exact ih h.2 hbelow

end Stack.Tied

theorem Done.tied {w : World} {stack below : Stack} {answers : List Answer}
    (hdone : Done stack answers below) (h : stack.Tied w) : below.Tied w := by
  cases hdone with
  | script => exact h.2
  | bare => exact h

/-! ### Calls -/

namespace World

variable {w v : World}

@[simp] theorem calls_setTable (w : World) (t : PendingTable) : (w.setTable t).calls = w.calls := by
  unfold setTable
  split <;> rfl

theorem calls_of_readied (hv : v = w ∨ v = w.installDefault) : v.calls = w.calls := by
  rcases hv with rfl | rfl
  · rfl
  · unfold installDefault
    split <;> rfl

theorem calls_sweepOn (w : World) (entries : List Entry) (expired : List CommandHandle)
    (age : Duration) (below : Stack) : (sweepOn w entries expired age below).1.calls = w.calls := by
  cases entries with
  | nil =>
    show World.calls (if expired.isEmpty then w else w.note (.swept expired.length age)) = w.calls
    split <;> rfl
  | cons e entries => rfl

theorem calls_shutdownOn (w : World) (entries : List Entry) (count : Nat) (below : Stack) :
    (shutdownOn w entries count below).1.calls = w.calls := by
  cases entries <;> rfl

theorem calls_dropOn (w : World) (entries : List Entry) (below : Stack) :
    (dropOn w entries below).1.calls = w.calls := by
  cases entries <;> rfl

end World

open World in
/-- The first section of a step hands out no call for an operation. -/
theorem Step.Begins.calls {w v : World} {self : Option CommandHandle} {below stack : Stack}
    {s : Step} (h : s.Begins w self below v stack) {call : PendingCall}
    (hcall : some call ∈ v.calls) : some call ∈ w.calls ∨ ∃ e, call.source = .failed e := by
  cases h with
  | answered _ hcalls => exact hcalls call hcall
  | installed _ _ _ hcalls =>
    rw [hcalls] at hcall
    exact .inl hcall
  | seeded _ =>
    rw [calls_setTable] at hcall
    exact .inl hcall
  | @accepted _ r u c handle t _ hv _ _ =>
    have hsame : (r.ticket.handOver handle (u.enter r.operation r.listener handle t)).calls =
        u.calls := by
      have henter : (u.enter r.operation r.listener handle t).calls = u.calls :=
        calls_setTable (u.begin r.operation r.listener) t
      rw [← henter]
      cases r.ticket <;> rfl
    rw [hsame, calls_of_readied hv] at hcall
    exact .inl hcall
  | @refused _ r u _ _ hv _ _ =>
    have hsame : (u.begin r.operation r.listener).calls = u.calls := rfl
    rw [hsame, calls_of_readied hv] at hcall
    exact .inl hcall
  | completed _ hv _ _ =>
    rw [calls_setTable] at hcall
    rcases hv with rfl | ⟨n, rfl⟩
    · exact .inl hcall
    · exact .inl (mem_calls_useUp hcall)
  | expired _ _ _ => exact .inl hcall
  | swept _ _ =>
    rw [calls_sweepOn] at hcall
    exact .inl hcall
  | shutDown _ =>
    rw [calls_shutdownOn, calls_setTable] at hcall
    exact .inl hcall
  | dropped _ _ _ hcalls =>
    rw [calls_dropOn, hcalls] at hcall
    exact .inl hcall
  | gaveUp _ _ _ _ => exact .inl (mem_calls_useUp hcall)
  | configured => exact .inl hcall

/-! ### Sections -/

/-- The frames that the first section of a step puts on the stack are tied. -/
theorem Step.Begins.tied {w v : World} {self : Option CommandHandle} {below stack : Stack}
    {s : Step} (hs : s.Begins w self below v stack) (hsound : w.Sound below.owed)
    (h : below.Tied w) : stack.Tied v := by
  have hbelow : below.Tied v := h.later hs.precedes
  cases hs with
  | answered _ _ => exact hbelow.reply _
  | installed _ _ _ _ => exact hbelow.reply _
  | seeded _ => exact hbelow.reply _
  | @accepted _ r u c handle t _ hv hc ht =>
    have hu := hsound.readied hv
    have hfresh : u.nextId ∉ below.owed := by
      intro hmem
      exact hu.nextId_not_mem (List.mem_append_right _ hmem)
    refine ⟨trivial, ⟨?_, ?_, hfresh⟩, hbelow⟩
    · rw [(World.quiet_handOver ..).length, World.operations_enter, List.length_append]
      exact Nat.lt_succ_self _
    · rw [(World.quiet_handOver ..).handlesGiven, World.handlesGiven_enter, if_pos rfl,
        hu.ungiven u.nextId (Nat.le_refl _)]
  | @refused _ r u c _ hv _ _ =>
    have hu := hsound.readied hv
    refine ⟨⟨rfl, fun operation _ => ⟨?_, hu.ungiven u.nextId (Nat.le_refl _)⟩⟩, hbelow⟩
    rw [World.begin, List.length_append]
    exact Nat.lt_succ_self _
  | completed _ _ _ _ => exact hbelow.push_resolve trivial (fun _ heq => by cases heq)
  | expired _ _ _ => exact hbelow.push_resolve trivial (fun _ heq => by cases heq)
  | swept _ _ => exact hbelow.goOn (.sweep _ _) _ _
  | shutDown _ => exact hbelow.goOn (.shutdown _) _ _
  | dropped _ _ _ _ => exact hbelow.goOn .drop _ _
  | gaveUp _ _ _ _ => exact hbelow.push_resolve trivial (fun _ heq => by cases heq)
  | configured => exact ⟨trivial, trivial, hbelow⟩

/-- A native function that fails and finds the entry gone belongs to a resolved operation. -/
theorem World.Sound.resolved_of_gone {w : World} {below : Stack} (h : w.Sound below.owed)
    {id : OperationId} {handle : CommandHandle} (hid : id < w.operations.length)
    (hgiven : w.handlesGiven id = [handle]) (howed : id ∉ below.owed)
    (hgone : ∀ c, w.correlator = .present c → c.table.removeOwned handle id = none) :
    w.outcome? id ≠ none := by
  intro hopen
  rcases List.mem_append.mp (h.covered id hid hopen) with hentry | hmem
  · obtain ⟨handle', hgiven', c, e, hc, hfind, rfl⟩ := h.holds_of_mem_owners hentry
    have hsame : handle = handle' := List.head_eq_of_cons_eq (hgiven.symm.trans hgiven')
    subst hsame
    have htaken := PendingTable.removeOwned_of_find? hfind
    rw [hgone c hc] at htaken
    cases htaken
  · exact howed hmem

/-- The call that answers a registration is tied if its result has the operation's handle, or else
the operation is resolved. -/
theorem World.tied_of_settle {u v w : World} {ticket : Ticket} {id : OperationId}
    {native : Option CommandHandle} {during : List Answer}
    {result : Except BridgeError CommandHandle} {call : PendingCall}
    (hcall : some call ∈ (ticket.settle u id native during result).1.calls)
    (hu : u.calls = w.calls)
    (hresult : (∃ h, result.toOption = some h ∧ id < v.operations.length ∧
        v.handlesGiven id = [h]) ∨ result.toOption = none ∧ v.outcome? id ≠ none) :
    some call ∈ w.calls ∨ call.Tied v := by
  rcases calls_settle hcall with hold | ⟨hsource, hhandle, -⟩
  · rw [hu] at hold
    exact .inl hold
  · refine .inr (fun other hother => ?_)
    cases hsource.symm.trans hother
    rw [hhandle]
    exact hresult

namespace Section

variable {w v : World} {stack stack' : Stack}

/-- The calls that a section hands out are tied. -/
theorem callsTied (hs : Section w stack v stack') (hsound : w.Sound stack.owed)
    (hcalls : w.CallsTied) (h : stack.Tied w) : v.CallsTied := by
  refine hcalls.later hs.precedes (fun call hcall => ?_)
  have hlater : ∀ id, w.outcome? id ≠ none → v.outcome? id ≠ none :=
    fun id hid => hs.precedes.outcome?_ne_none hid
  cases hs with
  | began hbegins =>
    rcases hbegins.calls hcall with hold | ⟨e, hsource⟩
    · exact .inl hold
    · refine .inr (fun id hid => ?_)
      cases hsource.symm.trans hid
  | left _ => exact .inl hcall
  | issued hdone =>
    obtain ⟨⟨hid, hgiven, -⟩, -⟩ := hdone.tied h
    refine World.tied_of_settle hcall rfl ?_
    refine .inl ⟨_, rfl, ?_, ?_⟩
    · rw [(World.quiet_settle ..).length]
      exact hid
    · rw [(World.quiet_settle ..).handlesGiven]
      exact hgiven
  | failed _ _ _ _ =>
    rw [World.calls_setTable] at hcall
    exact .inl hcall
  | failedLate hdone _ hgone =>
    obtain ⟨⟨hid, hgiven, howed⟩, -⟩ := hdone.tied h
    rw [hdone.owed] at hsound
    refine World.tied_of_settle hcall rfl ?_
    exact .inr ⟨rfl, hlater _ (hsound.resolved_of_gone hid hgiven howed hgone)⟩
  | configured _ => exact .inl hcall
  | continued _ => exact .inl hcall
  | passed _ => exact .inl hcall
  | ran _ _ _ => exact .inl hcall
  | told _ _ _ _ hsame =>
    rw [hsame] at hcall
    exact .inl hcall
  | refused =>
    refine World.tied_of_settle hcall rfl ?_
    exact .inr ⟨rfl, hlater _ h.1⟩
  | failedNow =>
    refine World.tied_of_settle hcall rfl ?_
    exact .inr ⟨rfl, hlater _ h.1⟩
  | answered _ _ hsame =>
    rw [hsame] at hcall
    exact .inl hcall
  | sweptOn =>
    rw [World.calls_sweepOn] at hcall
    exact .inl hcall
  | shutDownOn =>
    rw [World.calls_shutdownOn] at hcall
    exact .inl hcall
  | droppedOn =>
    rw [World.calls_dropOn] at hcall
    exact .inl hcall

/-- **Every section keeps the frames tied.** -/
theorem tied (hs : Section w stack v stack') (hsound : w.Sound stack.owed) (h : stack.Tied w) :
    stack'.Tied v := by
  have hle := hs.precedes
  cases hs with
  | began hbegins => exact hbegins.tied hsound ⟨trivial, h.2⟩
  | left _ => exact h.2
  | issued hdone => exact ((hdone.tied h).2.later hle).reply _
  | failed hdone _ _ _ =>
    exact ((hdone.tied h).2.later hle).push_resolve rfl (fun _ heq => by cases heq)
  | failedLate hdone _ _ => exact ((hdone.tied h).2.later hle).reply _
  | configured hdone => exact ((hdone.tied h).2.later hle).reply _
  | continued hdone =>
    have hcontinuation := (hdone.tied h).later hle
    exact ⟨hcontinuation.1, hcontinuation.2⟩
  | @passed id outcome cause after below hid =>
    by_cases htaken : after.hasTaken = true
    · have howed : id ∈ Stack.owed (.resolve id outcome cause after :: below) := by
        rw [Stack.owed_cons, Frame.owed, if_pos htaken]
        exact List.mem_cons_self
      have hlt := hsound.begun id (List.mem_append_right _ howed)
      refine ⟨h.1.1.settled ?_, h.2⟩
      rw [World.outcome?, List.getElem?_eq_getElem hlt]
      exact hid _ (List.getElem?_eq_getElem hlt)
    · exact ⟨Aftermath.settled_of_hasTaken (by simpa using htaken), h.2⟩
  | @ran id outcome cause after below o number steps hid hopen hlistener =>
    refine ⟨trivial, ?_, h.2.later hle⟩
    exact h.1.1.settled (World.Sound.outcome?_resolved hid)
  | @told id outcome cause after below o shape isListening v hid hopen hlistener hv _ =>
    refine ⟨h.1.1.settled ?_, h.2.later hle⟩
    rw [hv.outcome?]
    exact World.Sound.outcome?_resolved hid
  | refused => exact (h.2.later hle).reply _
  | failedNow => exact (h.2.later hle).reply _
  | answered _ _ _ => exact (h.2.later hle).reply _
  | sweptOn => exact (h.2.later hle).goOn (.sweep _ _) _ _
  | shutDownOn => exact (h.2.later hle).goOn (.shutdown _) _ _
  | droppedOn => exact (h.2.later hle).goOn .drop _ _

end Section

/-- **In every state of a session all frames and all calls are tied**, as long as the entries fit. -/
theorem Reaches.tied_of_fits {c : Correlator} (hc : c.IsFresh) {steps : List Step}
    (hseeds : ∀ n ∈ Step.seedsIn steps, 0 < n)
    (hfits : ∀ m, Reaches (Session.start c steps) m → m.1.Fits) {m : World × Stack}
    (hm : Reaches (Session.start c steps) m) : m.1.CallsTied ∧ m.2.Tied m.1 := by
  induction hm with
  | refl => exact ⟨fun call hcall => absurd hcall List.not_mem_nil, trivial, trivial⟩
  | tail hreaches hmoves ih =>
    have hsound := Reaches.sound_of_fits hc hseeds hfits hreaches
    exact ⟨hmoves.section.callsTied hsound ih.1 ih.2, hmoves.section.tied hsound ih.2⟩

theorem Reaches.tied {c : Correlator} (hc : c.IsFresh) {steps : List Step}
    (hseeds : ∀ n ∈ Step.seedsIn steps, 0 < n)
    (hroom : ∀ m, Reaches (Session.start c steps) m → m.1.HasRoom) {m : World × Stack}
    (hm : Reaches (Session.start c steps) m) : m.1.CallsTied ∧ m.2.Tied m.1 :=
  tied_of_fits hc hseeds (fun n hn => (hroom n hn).fits) hm

end CommandBridge

import CommandBridge.Proofs.Session.Simulation

/-!
# An operation that is begun for a caller, and the same with a continuation

`issue` and `submit` register an operation alike.  They differ in what they answer, so their frames
differ in the ticket as long as the registration is under way, and `issue` hands out a call at its
end.

* `Aftermath.Twin`, `Registering` — the two registrations while they are under way, up to the states
  that they are in;
* `Registered` — their answers: the call that `issue` hands out, and what `submit` returns;
* `Registering.matched` — **the two registrations go alike**, section by section, and answer in
  states that are alike but for the call.

A call has a handle just if the native function was given one and accepted it.
-/

namespace CommandBridge

section Twins

variable (id : OperationId) (shape : Shape) (number : Nat) (status : CommandHandle → Int32)

/-- What is left to do after the operation of a registration was resolved.  `native` is the handle
that the native function was given. -/
inductive Aftermath.Twin : Option CommandHandle → Aftermath → Aftermath → Prop
  | refuse {error : BridgeError} :
      Twin none (.refuse id (.issue shape) error) (.refuse id (.submit number) error)
  | fail {operation : String} {handle : CommandHandle} {error : BridgeError}
      {during during' : List Answer} (hstatus : status handle ≠ successStatus) :
      Twin (some handle) (.fail id (.issue shape) operation handle error during)
        (.fail id (.submit number) operation handle error during')

/-- The two registrations are under way, the native function's reply being `status`; `base` and
`base'` are the stacks that will be answered to. -/
inductive Registering (base base' : Stack) (native : Option CommandHandle) :
    World × Stack → World × Stack → Prop
  /-- The steps inside the native function are taken. -/
  | nested {m m' : World × Stack} {operation : String} {handle : CommandHandle}
      (hnative : native = some handle)
      (h : Related id (.native id (.issue shape) operation handle (status handle) :: base)
        (.native id (.submit number) operation handle (status handle) :: base') m m') :
      Registering base base' native m m'
  | attempt {w w' : World} {outcome : Outcome} {cause : Cause} {after after' : Aftermath}
      (hw : w.Alike id w') (hafter : after.Twin id shape number status native after') :
      Registering base base' native (w, .resolve id outcome cause after :: base)
        (w', .resolve id outcome cause after' :: base')
  /-- The continuation of the operation runs. -/
  | continuing {m m' : World × Stack} {after after' : Aftermath}
      (hafter : after.Twin id shape number status native after')
      (h : Related id (.continuation id after :: base) (.continuation id after' :: base') m m') :
      Registering base base' native m m'
  | concluding {w w' : World} {after after' : Aftermath} {ran : Bool} (hw : w.Alike id w')
      (hafter : after.Twin id shape number status native after') :
      Registering base base' native (w, .conclude after ran :: base)
        (w', .conclude after' ran :: base')

/-- The two registrations are over.  The states are alike but for the call that was handed out, and
the call has the handle that was returned, which is one that the native function accepted. -/
inductive Registered (base base' : Stack) (native : Option CommandHandle) :
    World × Stack → World × Stack → Prop
  | mk {v v' : World} {call : PendingCall} {result : Except BridgeError CommandHandle}
      {during during' : List Answer} (hv : v.Alike id v') (hshape : call.shape = shape)
      (hsource : call.source = .operation id) (hresult : call.handle = result.toOption)
      (hhandle : call.handle = native.filter (fun h => status h = successStatus)) :
      Registered base base' native
        (answer (v.addCall call) (.issued v.calls.length call native during) base)
        (answer v' (.submitted number result native during') base')

end Twins

section Registrations

variable {id : OperationId} {shape : Shape} {number : Nat} {status : CommandHandle → Int32}
variable {base base' : Stack} {native : Option CommandHandle} {w w' : World}

/-- The answers to two registrations. -/
theorem registered_settle (hw : w.Alike id w') {result : Except BridgeError CommandHandle}
    (hresult : result.toOption = native.filter (fun h => status h = successStatus))
    (during during' : List Answer) :
    Registered id shape number status base base' native
      (answer ((Ticket.issue shape).settle w id native during result).1
        ((Ticket.issue shape).settle w id native during result).2 base)
      (answer ((Ticket.submit number).settle w' id native during' result).1
        ((Ticket.submit number).settle w' id native during' result).2 base') :=
  .mk hw rfl rfl rfl hresult

/-- The native function has returned: the registrations are over, or the operation is to be
resolved. -/
theorem registering_returned (hw : w.Alike id w') (operation : String) (handle : CommandHandle)
    (during during' : List Answer) :
    Registering id shape number status base base' (some handle)
        (returned w id (.issue shape) operation handle (status handle) during base)
        (returned w' id (.submit number) operation handle (status handle) during' base') ∨
      Registered id shape number status base base' (some handle)
        (returned w id (.issue shape) operation handle (status handle) during base)
        (returned w' id (.submit number) operation handle (status handle) during' base') := by
  unfold returned
  rw [hw.statuses, hw.correlator]
  by_cases hstatus : status handle = successStatus
  · rw [if_pos hstatus, if_pos hstatus]
    refine .inr (registered_settle (hw.note _) ?_ during during')
    simp [Except.toOption, Option.filter, hstatus]
  · rw [if_neg hstatus, if_neg hstatus]
    dsimp only
    split
    · exact .inl (.attempt (hw.setTable _) (.fail hstatus))
    · refine .inr (registered_settle (hw.note _) ?_ during during')
      simp [Except.toOption, Option.filter, hstatus]

theorem registered_conclude (hw : w.Alike id w') {after after' : Aftermath} (ran : Bool)
    (hafter : after.Twin id shape number status native after') :
    Registered id shape number status base base' native (conclude w ran base after)
      (conclude w' ran base' after') := by
  cases hafter with
  | refuse => exact registered_settle hw rfl [] []
  | @fail operation handle error during during' hstatus =>
    refine registered_settle (hw.note _) ?_ during during'
    simp [Except.toOption, Option.filter, hstatus]

theorem Registered.not_over {m m' : World × Stack}
    (h : Registered id shape number status base base' native m m') : ¬ Stack.Over base m.2 := by
  intro hover
  have hlt := hover.length_lt
  cases h with
  | mk _ _ _ _ _ =>
    rw [answer, Stack.length_reply] at hlt
    exact Nat.lt_irrefl _ hlt

namespace Registering

variable {m m' n : World × Stack}

theorem alike (h : Registering id shape number status base base' native m m') :
    m.1.Alike id m'.1 := by
  cases h with
  | nested _ h => exact h.world
  | attempt hw _ => exact hw
  | continuing _ h => exact h.world
  | concluding hw _ => exact hw

/-- Work is left above the stacks that will be answered to. -/
theorem above (h : Registering id shape number status base base' native m m') :
    Stack.Over base m.2 ∧ Stack.Over base' m'.2 := by
  cases h with
  | nested _ h =>
    have hsuffixes := h.stack.suffixes
    exact ⟨Stack.over_of_suffix (by simp) hsuffixes.1, Stack.over_of_suffix (by simp) hsuffixes.2⟩
  | attempt _ _ => exact ⟨.work (by simp), .work (by simp)⟩
  | continuing _ h =>
    have hsuffixes := h.stack.suffixes
    exact ⟨Stack.over_of_suffix (by simp) hsuffixes.1, Stack.over_of_suffix (by simp) hsuffixes.2⟩
  | concluding _ _ => exact ⟨.work (by simp), .work (by simp)⟩

/-- The attempt to resolve the operation of a registration. -/
theorem exists_resolve (hw : w.Alike id w') {after after' : Aftermath}
    (hafter : after.Twin id shape number status native after') (outcome : Outcome)
    (cause : Cause) :
    ∃ n', Inside base' (w', .resolve id outcome cause after' :: base') n' ∧
      Registering id shape number status base base' native
        (resolve w id outcome cause after base) n' := by
  obtain ⟨v, v', n', hv, hinside, ⟨ran, hleft, rfl⟩ | ⟨steps, hleft, rfl⟩⟩ :=
    exists_alike_resolve hw id outcome cause after after' base base'
  · rw [hleft]
    exact ⟨_, hinside, .concluding hv hafter⟩
  · rw [hleft]
    exact ⟨_, hinside, .continuing hafter ⟨hv, .steps⟩⟩

/-- **Every section of the one registration is matched by the other.** -/
theorem exists_next (h : Registering id shape number status base base' native m m')
    (hbase : base'.length = base.length) (hmoves : Moves m n) :
    ∃ n', Inside base' m' n' ∧ (Registering id shape number status base base' native n n' ∨
      Registered id shape number status base base' native n n') := by
  cases h with
  | @nested m m' operation handle hnative h =>
    subst hnative
    rcases exists_related h (congrArg (· + 1) hbase) hmoves with
      ⟨self, answers, answers', hm, hm'⟩ | ⟨n', hn', hrelated⟩
    · obtain ⟨w, stack⟩ := m
      obtain ⟨w', stack'⟩ := m'
      cases hm
      cases hm'
      cases hmoves
      exact ⟨_, .single ⟨.push (.work (by simp)), rfl⟩,
        registering_returned h.world operation handle answers answers'⟩
    · exact ⟨n', hn'.inside (by simp), .inl (.nested rfl hrelated)⟩
  | attempt hw hafter =>
    cases hmoves
    obtain ⟨n', hn', hnext⟩ := exists_resolve hw hafter _ _
    exact ⟨n', hn', .inl hnext⟩
  | @continuing m m' after after' hafter h =>
    rcases exists_related h (congrArg (· + 1) hbase) hmoves with
      ⟨self, answers, answers', hm, hm'⟩ | ⟨n', hn', hrelated⟩
    · obtain ⟨w, stack⟩ := m
      obtain ⟨w', stack'⟩ := m'
      cases hm
      cases hm'
      cases hmoves
      refine ⟨_, .single ⟨.push (.work (by simp)), rfl⟩, .inl ?_⟩
      exact .concluding ((h.world.note_left rfl).note_right rfl) hafter
    · exact ⟨n', hn'.inside (by simp), .inl (.continuing hafter hrelated)⟩
  | concluding hw hafter =>
    cases hmoves
    exact ⟨_, .single ⟨.work (by simp), rfl⟩, .inr (registered_conclude hw _ hafter)⟩

/-- **The two registrations go alike**, until both are over. -/
theorem matched (h : Registering id shape number status base base' native m m')
    (hbase : base'.length = base.length) (hn : Inside base m n) :
    ∃ n', Inside base' m' n' ∧ (Registering id shape number status base base' native n n' ∨
      Registered id shape number status base base' native n n') := by
  induction hn with
  | refl => exact ⟨m', .refl, .inl h⟩
  | tail _ hmoves ih =>
    obtain ⟨p', hp', hregistering | hregistered⟩ := ih
    · obtain ⟨n', hn', hnext⟩ := hregistering.exists_next hbase hmoves.2
      exact ⟨n', hp'.trans hn', hnext⟩
    · exact absurd hmoves.1 hregistered.not_over

end Registering

/-- **The two registrations begin alike**, and the journal says what handle was given. -/
theorem exists_registering (w : World) (c : Correlator) (operation : String) (shape : Shape)
    (number : Nat) (status : CommandHandle → Int32) (during : List Step) (base base' : Stack) :
    ∃ native, Registering w.nextId shape number status base base' native
        (register w c operation (.caller shape true) (.issue shape) status during base)
        (register w c operation (.continuation number []) (.submit number) status during base') ∧
      (w.handlesGiven w.nextId = [] →
        (register w c operation (.caller shape true) (.issue shape) status during
          base).1.handlesGiven w.nextId = native.toList) ∧
      w.nextId < (register w c operation (.caller shape true) (.issue shape) status during
        base).1.operations.length := by
  have hbegun : World.Alike w.nextId (w.begin operation (.caller shape true))
      (w.begin operation (.continuation number [])) :=
    (World.Alike.refl _ w).begin operation (.kept rfl)
  have hlonger : ∀ listener, w.nextId < (w.begin operation listener).operations.length := by
    intro listener
    rw [World.begin, List.length_append]
    exact Nat.lt_succ_self _
  simp only [register]
  cases c.table.register w.nextId operation w.clock with
  | none => exact ⟨none, .attempt hbegun .refuse, fun hungiven => hungiven, hlonger _⟩
  | some p =>
    obtain ⟨handle, table⟩ := p
    have hentered := (hbegun.setTable table).note (.allocated w.nextId operation handle)
    refine ⟨some handle, .nested rfl ⟨hentered, .steps⟩, fun hungiven => ?_, ?_⟩
    · show (w.enter operation _ handle table).handlesGiven w.nextId = [handle]
      rw [World.handlesGiven_enter, if_pos rfl, hungiven]
    · show w.nextId < (w.enter operation _ handle table).operations.length
      rw [World.operations_enter, List.length_append]
      exact Nat.lt_succ_self _

end Registrations

end CommandBridge

import CommandBridge.Proofs.Session.Channel
import CommandBridge.Proofs.Session.Closed
import CommandBridge.Proofs.Session.Conservation
import CommandBridge.Proofs.Session.Registration

/-!
# Issuing is submitting

`issue` hands out a call, `submit` runs a continuation.  Everything else they do is the same: to the
correlator, to every other operation and to whatever runs inside them, and it stays the same in all
that follows.  The call is a view of the operation: it has a result once the operation has an
outcome, and this is all that it ever shows.

* `Underway` — a step has been begun and has not returned;
* `IssueMatches` — what `issue` does, against `submit` with a continuation that has no steps;
* `Session.exists_issueMatches` — **issuing refines submitting**;
* `Session.poll_spec` — what polling shows;
* `Session.returns_of_completion` — a completion takes the entry out, whatever its payload;
* `Session.issue_refines_submit` — all of it, in every state of a session.
-/

namespace CommandBridge

/-- A payload that is not the form of any value wanted is answered with an error. -/
theorem Shape.result_of_ne_encode {shape : Shape} {payload : Payload}
    (h : ∀ value, payload ≠ shape.encode value) :
    shape.result (.ok payload) = .error (shape.mismatch payload) := by
  cases hdecode : shape.decode payload with
  | ok value => exact absurd (eq_encode_of_decode hdecode) (h value)
  | error e =>
    show shape.decode payload = _
    cases shape <;> cases payload <;> first | rfl | cases hdecode

/-! ### Issuing and submitting -/

/-- The step that comes next in `m` has been begun in `q`, and has not returned yet. -/
def Underway (m q : World × Stack) : Prop :=
  ∃ self s rest answers below, m.2 = .script self (s :: rest) answers :: below ∧
    Inside (.script self rest answers :: below)
      (s.begin m.1 self (.script self rest answers :: below)) q ∧
    Stack.Over (.script self rest answers :: below) q.2

/-- The step that comes next in `m` issues an operation and comes back in `n` with the call; the
step that comes next in `m'` submits it and comes back in `n'`.  `native` is the handle that the
native function was given, and `status` what it returns for a handle. -/
structure IssueMatches (m m' : World × Stack) (shape : Shape) (status : CommandHandle → Int32)
    (call : PendingCall) (native : Option CommandHandle) (n n' : World × Stack) : Prop where
  issued : ∃ during, Returns m n (.issued n'.1.calls.length call native during)
  submitted : ∃ result during,
    Returns m' n' (.submitted m.1.submittedCount result native during) ∧
      call.handle = result.toOption
  /-- While the one is under way, the other goes through states like it. -/
  underway : ∀ q, Underway m q → ∃ q', Underway m' q' ∧ q.1.Alike m.1.nextId q'.1
  /-- In the end the states differ in the call, and in who listens to the operation. -/
  alike : n.1.Alike m.1.nextId (n'.1.addCall call)
  /-- Whatever the thread does later, it does alike. -/
  later : ∀ q, Reaches n q →
    ∃ q', Reaches (n'.1.addCall call, n'.2) q' ∧ Related m.1.nextId [] [] q q'
  shape : call.shape = shape
  source : call.source = .operation m.1.nextId
  handle : ∀ h, call.handle = some h ↔ native = some h ∧ status h = successStatus
  given : n.1.handlesGiven m.1.nextId = native.toList

namespace Session

variable {c : Correlator} {steps : List Step} {m : World × Stack}
variable {self : Option CommandHandle} {rest : List Step} {answers : List Answer} {below : Stack}

/-- **Issuing refines submitting.** -/
theorem exists_issueMatches {owed : List OperationId} (hsound : m.1.Sound owed)
    {bottom : List Step} (hrests : m.2.Rests bottom) {d : Correlator}
    (hd : m.1.correlator = .present d) {shape : Shape} {operation : String}
    {status : CommandHandle → Int32} {during : List Step}
    (hm : m.2 = .script self (.issue shape operation status during :: rest) answers :: below) :
    ∃ call native n n', IssueMatches m
      (m.1, .script self (.submit operation status during [] :: rest) answers :: below) shape
      status call native n n' := by
  let base : Stack := .script self rest answers :: below
  -- the first sections
  have hissue := Step.begin_of_registration (s := .issue shape operation status during) rfl hd
    self base
  have hsubmit := Step.begin_of_registration (s := .submit operation status during []) rfl hd
    self base
  obtain ⟨native, hbegun, hgiven, hlength⟩ := exists_registering m.1 d operation shape
    m.1.submittedCount status during base base
  rw [← hissue, ← hsubmit] at hbegun
  rw [← hissue] at hgiven hlength
  -- the last ones
  obtain ⟨v, a, hinside⟩ := exists_step m.1 self (.issue shape operation status during) rest
    answers below
  have hout : ¬ Stack.Over base (.script self rest (answers ++ [a]) :: below) := by
    intro hover
    exact Nat.lt_irrefl _ hover.length_lt
  obtain ⟨n', hinside', hregistering | hregistered⟩ := hbegun.matched rfl hinside
  · exact absurd hregistering.above.1 hout
  generalize (v, Frame.script self rest (answers ++ [a]) :: below) = n at hinside hregistered
  have hunderway : ∀ q, Underway m q → ∃ q', Underway (m.1,
      .script self (.submit operation status during [] :: rest) answers :: below) q' ∧
        q.1.Alike m.1.nextId q'.1 := by
    rintro q ⟨_, _, _, _, _, heq, hq, hover⟩
    rw [hm] at heq
    cases heq
    obtain ⟨q', hq', hregistering | hregistered'⟩ := hbegun.matched rfl hq
    · exact ⟨q', ⟨_, _, _, _, _, rfl, hq', hregistering.above.2⟩, hregistering.alike⟩
    · exact absurd hover hregistered'.not_over
  cases hregistered with
  | @mk u u' call result during' during'' hu hshape hsource hresult hhandle =>
    have hlater : Related m.1.nextId [] [] (answer (u.addCall call)
        (.issued u.calls.length call native during') base)
        (u'.addCall call, reply (.submitted m.1.submittedCount result native during'') base) := by
      refine ⟨hu.addCall call, ?_⟩
      rw [hm] at hrests
      cases below with
      | nil => exact .steps
      | cons f below =>
        have hbelow : Stack.Rests bottom (f :: below) := hrests
        exact .push .script (.refl_of_rests hbelow)
    refine ⟨call, native, answer (u.addCall call) (.issued u.calls.length call native during') base,
      answer u' (.submitted m.1.submittedCount result native during'') base,
      { issued := ⟨during', ?_⟩
        submitted := ⟨result, during'', returns_of_inside rfl hinside', hresult⟩
        underway := hunderway
        alike := hu.addCall call
        later := fun q hq => hlater.exists_reaches hq
        shape := hshape
        source := hsource
        handle := fun h => ?_
        given := ?_ }⟩
    · rw [answer, answer, hu.calls]
      exact returns_of_inside hm hinside
    · rw [hhandle, Option.filter_eq_some_iff, decide_eq_true_iff]
    · rw [hinside.reaches.precedes.given _ hlength]
      exact hgiven (hsound.ungiven _ (Nat.le_refl _))

/-! ### Polling and completing -/

/-- Polling shows the result of a call if there is one, and then the call is used up. -/
theorem returns_of_poll {n : Nat} {call : PendingCall}
    (hm : m.2 = .script self (.poll n :: rest) answers :: below)
    (hcall : m.1.call? n = some call) :
    ∃ q, Returns m q (resultAnswer m.1 call) ∧
      q.1 = if (m.1.result? call).isSome then m.1.useUp n else m.1 := by
  have hbegin : (Step.poll n).begin m.1 self (.script self rest answers :: below) =
      answer (if (m.1.result? call).isSome then m.1.useUp n else m.1) (resultAnswer m.1 call)
        (.script self rest answers :: below) := by
    simp only [Step.begin, withCall, hcall]
    split <;> rfl
  obtain ⟨q, -, hworld, hreturns⟩ := returns_at_once hm hbegin
  exact ⟨q, hreturns, hworld⟩

/-- **Polling shows the one outcome that the operation was resolved with**, in the form that the
caller wants, and nothing before. -/
theorem poll_spec (hc : c.IsFresh) (hseeds : ∀ n ∈ Step.seedsIn steps, 0 < n)
    (hfits : ∀ m, Reaches (start c steps) m → m.1.Fits) (hm : Reaches (start c steps) m)
    {n : Nat} {call : PendingCall} {id : OperationId}
    (htop : m.2 = .script self (.poll n :: rest) answers :: below)
    (hcall : m.1.call? n = some call) (hsource : call.source = .operation id) :
    (m.1.timesRun id = 0 ∧ ∃ q, Returns m q .unresolved ∧ q.1 = m.1) ∨
      (m.1.timesRun id = 1 ∧ ∃ outcome cause, m.1.outcome? id = some outcome ∧
        .resolved id outcome cause ∈ m.1.journal ∧
          ∃ q, Returns m q (.result call.shape (call.shape.result outcome)) ∧
            q.1 = m.1.useUp n) := by
  obtain ⟨q, hreturns, hworld⟩ := returns_of_poll htop hcall
  have hruns := (hm.sound_of_fits hc hseeds hfits).runs id
  have hresult : m.1.result? call = (m.1.outcome? id).map call.shape.result := by
    simp only [World.result?, hsource]
  rw [resultAnswer, hresult] at hreturns
  rw [hresult] at hworld
  cases hopen : m.1.outcome? id with
  | none =>
    rw [hopen] at hruns hreturns hworld
    exact .inl ⟨hruns, q, hreturns, hworld⟩
  | some outcome =>
    obtain ⟨cause, hresolved⟩ := exists_resolvedBy_of_fits hc hseeds hfits hm hopen
    rw [hopen] at hruns hreturns hworld
    exact .inr ⟨hruns, outcome, cause, rfl, hresolved.noted, q, hreturns, hworld⟩

/-- **A completion takes the entry out, whatever its payload.**  If the operation was unresolved,
its outcome is what was delivered. -/
theorem returns_of_completion {owed : List OperationId} (hsound : m.1.Sound owed) {d : Correlator}
    (hd : m.1.correlator = .present d) {s : Step} {h : CommandHandle} {status : Int32}
    {payload : Payload} {e : Entry} (hm : m.2 = .script self (s :: rest) answers :: below)
    (hdelivery : s.delivery? m.1 self = some (h, status, payload))
    (he : d.table.find? h = some e) :
    ∃ q, Returns m q ((s.receipt m.1).answer q.1 (.ok ())) ∧ e.owner ∉ q.1.owners ∧
      (m.1.outcome? e.owner = none → q.1.outcome? e.owner =
        some ((Cause.delivered h status payload).outcome d.statuses)) := by
  obtain ⟨v, q, u, ran, n, hquiet, -, hfirst, hattempt, hreaches, hreturns, -⟩ :=
    exists_completion hm hdelivery hd he
  have hmem : e ∈ m.1.entries := by
    rw [World.entries_of_present hd]
    exact (PendingTable.find?_eq_some he).1
  have hbegun : e.owner < (v.setTable (d.table.erase h)).operations.length := by
    rw [World.operations_setTable, hquiet.length]
    exact hsound.begun e.owner (List.mem_append_left _ (List.mem_map_of_mem hmem))
  refine ⟨n, hreturns, ?_, fun hopen => ?_⟩
  · -- the entry is gone after the first section, and its operation never has one again
    have hgone : e ∉ (v.setTable (d.table.erase h)).entries := by
      rw [World.entries_of_present (World.correlator_setTable (hquiet.correlator.trans hd) _)]
      exact (hsound.table d hd).not_mem_erase he
    have hout := hfirst.section.effect.owner_not_mem hsound hmem hgone
    exact Reaches.not_mem_owners (.head hattempt.moves hreaches) hbegun hout
  · have hopen' : (v.setTable (d.table.erase h)).outcome? e.owner = none := by
      rw [World.outcome?_congr (World.operations_setTable _ _), hquiet.outcome?, hopen]
    obtain ⟨-, -, hset⟩ := hattempt.of_open hbegun hopen'
    exact hreaches.precedes.outcome _ _ hset

/-! ### The result -/

/-- **Issuing is submitting, and the call shows what became of it.**  In every state of a session
with a fresh correlator whose entries always fit,

* issuing changes the correlator, every other operation and everything else just as submitting with
  a continuation without steps does, from its first section to the end of the session, and the call
  has a handle exactly if the native function was given it and accepted it;
* polling a call that is not used up says that there is no result exactly as long as the operation
  is not resolved, and else shows, in the form wanted, the one outcome that it was resolved with;
* a completion with a payload of the wrong form takes the entry out all the same, and the call
  shows an error of structure;
* the channel of an operation is never closed, so a call receives its result and nothing else, and
  in particular never that its command was dropped without being resolved. -/
theorem issue_refines_submit (hc : c.IsFresh) (hseeds : ∀ n ∈ Step.seedsIn steps, 0 < n)
    (hfits : ∀ m, Reaches (start c steps) m → m.1.Fits) (hm : Reaches (start c steps) m) :
    (∀ d self shape operation status during rest answers below, m.1.correlator = .present d →
      m.2 = .script self (.issue shape operation status during :: rest) answers :: below →
        ∃ call native n n', IssueMatches m
          (m.1, .script self (.submit operation status during [] :: rest) answers :: below) shape
          status call native n n') ∧
    (∀ self n call id rest answers below, m.2 = .script self (.poll n :: rest) answers :: below →
      m.1.call? n = some call → call.source = .operation id →
        (m.1.timesRun id = 0 ∧ ∃ q, Returns m q .unresolved ∧ q.1 = m.1) ∨
          (m.1.timesRun id = 1 ∧ ∃ outcome cause, m.1.outcome? id = some outcome ∧
            .resolved id outcome cause ∈ m.1.journal ∧
              ∃ q, Returns m q (.result call.shape (call.shape.result outcome)) ∧
                q.1 = m.1.useUp n)) ∧
    (∀ d self s rest answers below h payload e, m.1.correlator = .present d →
      m.2 = .script self (s :: rest) answers :: below →
      s.delivery? m.1 self = some (h, successStatus, payload) → d.table.find? h = some e →
        ∃ q, Returns m q ((s.receipt m.1).answer q.1 (.ok ())) ∧ e.owner ∉ q.1.owners ∧
          (m.1.timesRun e.owner = 0 → ∀ call, call.source = .operation e.owner →
            q.1.result? call = some (call.shape.result (.ok payload)) ∧
              ((∀ value, payload ≠ call.shape.encode value) →
                call.shape.result (.ok payload) = .error (call.shape.mismatch payload) ∧
                  (call.shape.mismatch payload).kind = .invalidStructure))) ∧
    (∀ id, id < m.1.operations.length → m.1.channel m.2 id ≠ .closed ∧
      ∀ call, call.source = .operation id →
        m.1.polled m.2 call = m.1.result? call ∧
          ∀ handle, m.1.polled m.2 call ≠ some (.error (.abandoned handle))) := by
  have hsound := hm.sound_of_fits hc hseeds hfits
  refine ⟨?_, ?_, ?_, fun id hid => ⟨hsound.channel_ne_closed hid, fun call hsource => ⟨?_, ?_⟩⟩⟩
  · intro d self shape operation status during rest answers below hd htop
    obtain ⟨-, bottom, -, hrests⟩ := hm.rests
    exact exists_issueMatches hsound hrests hd htop
  · intro self n call id rest answers below htop hcall hsource
    exact poll_spec hc hseeds hfits hm htop hcall hsource
  · intro d self s rest answers below h payload e hd htop hdelivery he
    obtain ⟨q, hreturns, hout, hset⟩ := returns_of_completion hsound hd htop hdelivery he
    refine ⟨q, hreturns, hout, fun hzero call hsource => ⟨?_, fun hwrong => ?_⟩⟩
    · have hopen : m.1.outcome? e.owner = none := by
        have hruns := hsound.runs e.owner
        rw [hzero] at hruns
        cases hold : m.1.outcome? e.owner with
        | none => rfl
        | some old =>
          rw [hold] at hruns
          cases hruns
      have hresult : q.1.result? call = (q.1.outcome? e.owner).map call.shape.result := by
        simp only [World.result?, hsource]
      rw [hresult, hset hopen]
      rfl
    · exact ⟨Shape.result_of_ne_encode hwrong, rfl⟩
  · exact hsound.polled_eq hid hsource
  · exact polled_ne_abandoned hc hseeds hfits hm hid hsource

/-- A native function completes its own command with a flag where a text is wanted, and then returns
a failure; after that the call is polled. -/
def mismatched : List Step :=
  [.issue .text "create_key" (fun _ => 203) [.deliver .self 0 (.bool true)], .poll 0]

/-- The call has no handle, its channel is not closed, and polling it shows that the payload had the
wrong form. -/
theorem issue_refines_submit_mismatched :
    (∃ call native n n', IssueMatches (start {} mismatched)
        (start {} [.submit "create_key" (fun _ => 203) [.deliver .self 0 (.bool true)] [], .poll 0])
        .text (fun _ => 203) call native n n' ∧ call.handle = none) ∧
      ∃ m q, Reaches (start {} mismatched) m ∧ m.1.channel m.2 0 ≠ .closed ∧
        Returns m q (.result .text (.error (Shape.text.mismatch (.bool true)))) := by
  have hfresh : Correlator.IsFresh {} := ⟨rfl, by decide⟩
  have hseeds : ∀ n ∈ Step.seedsIn mismatched, 0 < n := by
    have hnone : Step.seedsIn mismatched = [] := rfl
    rw [hnone]
    exact List.forall_mem_nil _
  have hsize : Step.sizes mismatched < Allocator.fullTurn := by decide
  have hfits : ∀ m, Reaches (start {} mismatched) m → m.1.Fits :=
    fun m hm => (hasRoom hfresh hseeds hsize hm).fits
  refine ⟨?_, ?_⟩
  · obtain ⟨hissue, -⟩ := issue_refines_submit hfresh hseeds hfits .refl
    obtain ⟨call, native, n, n', hmatches⟩ := hissue {} none .text "create_key" (fun _ => 203)
      [.deliver .self 0 (.bool true)] [.poll 0] [] [] rfl rfl
    refine ⟨call, native, n, n', hmatches, ?_⟩
    refine Option.eq_none_iff_forall_ne_some.mpr (fun h hhandle => ?_)
    exact absurd ((hmatches.handle h).mp hhandle).2 (by decide)
  · -- five sections later, the call is there to be polled
    obtain ⟨m, hm, hworld, hrunning⟩ := Reaches.follow (start {} mismatched) 5
    obtain ⟨-, hpoll, -, hchannel⟩ := issue_refines_submit hfresh hseeds hfits hm
    obtain ⟨answers, htop⟩ : ∃ answers, m.2 = [.script none [.poll 0] answers] := by
      rw [← (List.cons.inj hrunning).1]
      exact ⟨_, rfl⟩
    have hcall : m.1.call? 0 = some ⟨.text, .operation 0, none, none⟩ := by
      rw [← hworld]
      rfl
    have hone : m.1.timesRun 0 = 1 := by
      rw [← hworld]
      decide
    have hdelivered : m.1.outcome? 0 = some (.ok (.bool true)) := by
      rw [← hworld]
      rfl
    have hbegun : 0 < m.1.operations.length := by
      rw [← hworld]
      decide
    rcases hpoll none 0 _ 0 [] answers [] htop hcall rfl with
      ⟨hzero, -⟩ | ⟨-, outcome, cause, houtcome, -, q, hreturns, -⟩
    · rw [hone] at hzero
      cases hzero
    · cases houtcome.symm.trans hdelivered
      exact ⟨m, q, hm, (hchannel 0 hbegun).1, hreturns⟩

end Session

end CommandBridge

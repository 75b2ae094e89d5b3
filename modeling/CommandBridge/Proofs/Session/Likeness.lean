import CommandBridge.Session.Run

/-!
# Two threads side by side

Two threads that have the same to do, in states that differ in little, do the same: what a section
does it decides by what it sees of its state, and of the stack below it sees next to nothing.  What
"little" means depends on what is compared.  So it is a parameter here, and the walk through all
steps and sections is made once.

* `Ticket.Alike`, `Aftermath.Alike`, `Frame.Alike` — frames that have the same to do;
* `Event.isOutcome`, `Step.call?` — events about outcomes, and the call that a step is about;
* `Likeness` — which states and which stacks go together, and what they must have in common;
* `Likeness.Holds` — a state and a stack go with another state and another stack;
* `holds_settle`, `holds_register`, `holds_complete`, … — the parts of a section;
* `holds_begin`, `holds_resume`, `holds_conclude` — **the same section on both sides**.

An attempt to resolve an operation is left out: who listens is what likenesses disagree about.
-/

namespace CommandBridge

/-! ### Frames that have the same to do -/

/-- The same ticket, but for the number of a continuation. -/
inductive Ticket.Alike : Ticket → Ticket → Prop
  | numbered {number number' : Nat} : Alike (.submit number) (.submit number')
  | same {ticket : Ticket} : Alike ticket ticket

inductive Aftermath.Alike : Aftermath → Aftermath → Prop
  | refuse {id : OperationId} {ticket ticket' : Ticket} {error : BridgeError}
      (hticket : ticket.Alike ticket') :
      Alike (.refuse id ticket error) (.refuse id ticket' error)
  | fail {id : OperationId} {ticket ticket' : Ticket} {operation : String}
      {handle : CommandHandle} {error : BridgeError} {during during' : List Answer}
      (hticket : ticket.Alike ticket') :
      Alike (.fail id ticket operation handle error during)
        (.fail id ticket' operation handle error during')
  | same {after : Aftermath} : Alike after after

/-- Frames that have the same to do. -/
inductive Frame.Alike : Frame → Frame → Prop
  | script {self : Option CommandHandle} {rest : List Step} {answers answers' : List Answer} :
      Alike (.script self rest answers) (.script self rest answers')
  | native {id : OperationId} {ticket ticket' : Ticket} {operation : String}
      {handle : CommandHandle} {status : Int32} (hticket : ticket.Alike ticket') :
      Alike (.native id ticket operation handle status) (.native id ticket' operation handle status)
  | configure {call : NativeCall} {status : Int32} :
      Alike (.configure call status) (.configure call status)
  | resolve {id : OperationId} {outcome : Outcome} {cause : Cause} {after after' : Aftermath}
      (hafter : after.Alike after') :
      Alike (.resolve id outcome cause after) (.resolve id outcome cause after')
  | continuation {id : OperationId} {after after' : Aftermath} (hafter : after.Alike after') :
      Alike (.continuation id after) (.continuation id after')
  | conclude {after after' : Aftermath} {ran : Bool} (hafter : after.Alike after') :
      Alike (.conclude after ran) (.conclude after' ran)

/-- A frame is like itself. -/
theorem Frame.Alike.refl (f : Frame) : f.Alike f := by
  cases f with
  | script self rest answers => exact .script
  | native id ticket operation handle status => exact .native .same
  | configure call status => exact .configure
  | resolve id outcome cause after => exact .resolve .same
  | continuation id after => exact .continuation .same
  | conclude after ran => exact .conclude .same

/-! ### What both sides have in common -/

/-- The event reports the outcome of an operation. -/
def Event.isOutcome : Event → Bool
  | .resolved _ _ _ => true
  | _ => false

/-- The call that a step is about. -/
def Step.call? : Step → Option Nat
  | .poll n => some n
  | .timeout n _ => some n
  | .defaultTimeout n => some n
  | .wait n _ => some n
  | .forget n => some n
  | .view n => some n
  | _ => none

/-- Which states go together, and which stacks do.  All that a section looks at is the same on both
sides, and what it changes on both sides goes together again.  If the likeness is loose, the numbers
of continuations may differ, and with them what steps have returned. -/
structure Likeness where
  worldRel : World → World → Prop
  stackRel : Stack → Stack → Prop
  isLoose : Prop
  /-- The calls that both sides have. -/
  shares : Nat → Prop
  correlator {w w'} (h : worldRel w w') : w'.correlator = w.correlator
  clock {w w'} (h : worldRel w w') : w'.clock = w.clock
  callbacks {w w'} (h : worldRel w w') : w'.callbacks = w.callbacks
  nextId {w w'} (h : worldRel w w') : w'.nextId = w.nextId
  submittedCount {w w'} (h : worldRel w w') : w'.submittedCount = w.submittedCount ∨ isLoose
  callsLength {w w'} (h : worldRel w w') : w'.calls.length = w.calls.length
  call? {w w'} (h : worldRel w w') {n} (hn : shares n) : w'.call? n = w.call? n
  result? {w w'} (h : worldRel w w') (call) : w'.result? call = w.result? call
  note {w w'} (h : worldRel w w') {e : Event} (he : e.isOutcome = false) :
    worldRel (w.note e) (w'.note e)
  continued {w w'} (h : worldRel w w') (id) {answers answers'}
    (hsame : answers' = answers ∨ isLoose) :
    worldRel (w.note (.continued id answers)) (w'.note (.continued id answers'))
  setPresence {w w'} (h : worldRel w w') (p : Presence) :
    worldRel { w with correlator := p } { w' with correlator := p }
  beginCaller {w w'} (h : worldRel w w') (name shape) :
    worldRel (w.begin name (.caller shape true)) (w'.begin name (.caller shape true))
  beginContinuation {w w'} (h : worldRel w w') (name steps) {number number'}
    (hsame : number' = number ∨ isLoose) :
    worldRel (w.begin name (.continuation number steps))
      (w'.begin name (.continuation number' steps))
  addCall {w w'} (h : worldRel w w') (call) : worldRel (w.addCall call) (w'.addCall call)
  useUp {w w'} (h : worldRel w w') {n} (hn : shares n) : worldRel (w.useUp n) (w'.useUp n)
  stopListening {w w'} (h : worldRel w w') (call) :
    worldRel (w.stopListening call) (w'.stopListening call)
  handOver {w w'} (h : worldRel w w') (ticket : Ticket) (handle) :
    worldRel (ticket.handOver handle w) (ticket.handOver handle w')
  sleep {w w'} (h : worldRel w w') (time : Nat) :
    worldRel { w with clock := w.clock + time } { w' with clock := w'.clock + time }
  push {s s'} (h : stackRel s s') {f f'} (hf : f.Alike f') (hsame : f' = f ∨ isLoose) :
    stackRel (f :: s) (f' :: s')
  reply {s s'} (h : stackRel s s') {a a'} (hsame : a' = a ∨ isLoose) :
    stackRel (reply a s) (CommandBridge.reply a' s')
  isOutermost {s s'} (h : stackRel s s') : isOutermost s' = CommandBridge.isOutermost s

/-- Both the states and the stackRel go together. -/
structure Likeness.Holds (l : Likeness) (m m' : World × Stack) : Prop where
  world : l.worldRel m.1 m'.1
  stack : l.stackRel m.2 m'.2

namespace Likeness

variable {l : Likeness} {w w' : World} {below below' : Stack}

/-! ### What both sides see, and the same change on both sides -/

theorem statuses (hw : l.worldRel w w') : w'.statuses = w.statuses := by
  rw [World.statuses, World.statuses, l.correlator hw]

theorem isInstalled (hw : l.worldRel w w') : w'.isInstalled = w.isInstalled := by
  rw [World.isInstalled, World.isInstalled, l.correlator hw]

theorem resultAnswer (hw : l.worldRel w w') (call : PendingCall) :
    resultAnswer w' call = CommandBridge.resultAnswer w call := by
  rw [CommandBridge.resultAnswer, CommandBridge.resultAnswer, l.result? hw]

theorem receipt (hw : l.worldRel w w') (receipt : Receipt) (result : Except BridgeError Unit) :
    receipt.answer w' result = receipt.answer w result := by
  cases receipt with
  | waiter call => rw [Receipt.answer, Receipt.answer, l.result? hw]
  | _ => rfl

theorem setTable (hw : l.worldRel w w') (t : PendingTable) :
    l.worldRel (w.setTable t) (w'.setTable t) := by
  unfold World.setTable
  rw [l.correlator hw]
  split
  · exact l.setPresence hw _
  · exact hw

theorem installDefault (hw : l.worldRel w w') : l.worldRel w.installDefault w'.installDefault := by
  unfold World.installDefault
  rw [l.correlator hw]
  split
  · exact l.setPresence hw _
  · exact hw

/-- The installation goes the same way, and is answered the same way. -/
theorem install (hw : l.worldRel w w') (c : Correlator) :
    (w'.install c).1 = (w.install c).1 ∧ l.worldRel (w.install c).2 (w'.install c).2 := by
  unfold World.install
  rw [l.correlator hw]
  split
  · exact ⟨rfl, l.note (l.setPresence hw _) rfl⟩
  · exact ⟨rfl, hw⟩

/-! ### Parts of a section -/

theorem holds_answer (hw : l.worldRel w w') (hs : l.stackRel below below') {a a' : Answer}
    (ha : a' = a) : l.Holds (answer w a below) (answer w' a' below') :=
  ⟨hw, l.reply hs (.inl ha)⟩

theorem holds_push (hw : l.worldRel w w') (hs : l.stackRel below below') (f : Frame) :
    l.Holds (w, f :: below) (w', f :: below') :=
  ⟨hw, l.push hs (.refl f) (.inl rfl)⟩

/-- An event that is noted on one condition. -/
theorem note_of (hw : l.worldRel w w') (isNoted : Bool) {e : Event} (he : e.isOutcome = false) :
    l.worldRel (if isNoted then w.note e else w) (if isNoted then w'.note e else w') := by
  split
  · exact l.note hw he
  · exact hw

theorem holds_settle (hw : l.worldRel w w') (hs : l.stackRel below below') {ticket ticket' : Ticket}
    (hticket : ticket.Alike ticket') (hsame : ticket' = ticket ∨ l.isLoose) (id : OperationId)
    (native : Option CommandHandle) {during during' : List Answer}
    (hduring : during' = during ∨ l.isLoose) (result : Except BridgeError CommandHandle) :
    l.Holds
      (answer (ticket.settle w id native during result).1
        (ticket.settle w id native during result).2 below)
      (answer (ticket'.settle w' id native during' result).1
        (ticket'.settle w' id native during' result).2 below') := by
  have hanswer : (ticket'.settle w' id native during' result).2 =
      (ticket.settle w id native during result).2 ∨ l.isLoose := by
    rcases hsame with rfl | hloose
    · rcases hduring with rfl | hloose
      · refine .inl ?_
        cases ticket' <;> simp only [Ticket.settle, l.correlator hw, l.callsLength hw]
      · exact .inr hloose
    · exact .inr hloose
  refine ⟨?_, l.reply hs hanswer⟩
  cases hticket with
  | numbered => exact hw
  | same =>
    cases ticket with
    | submit number => exact hw
    | issue shape =>
      simp only [Ticket.settle, l.correlator hw]
      exact l.addCall hw _
    | command cmd arguments =>
      simp only [Ticket.settle, l.correlator hw]
      exact l.addCall hw _

theorem holds_register (hw : l.worldRel w w') (hs : l.stackRel below below') (c : Correlator)
    {operation : String} {listener listener' : Listener}
    (hbegun : l.worldRel (w.begin operation listener) (w'.begin operation listener'))
    {ticket ticket' : Ticket} (hticket : ticket.Alike ticket')
    (hsame : ticket' = ticket ∨ l.isLoose) (status : CommandHandle → Int32) (during : List Step) :
    l.Holds (register w c operation listener ticket status during below)
      (register w' c operation listener' ticket' status during below') := by
  have hhandOver : ∀ {v v' : World} (handle : CommandHandle), l.worldRel v v' →
      l.worldRel (ticket.handOver handle v) (ticket'.handOver handle v') := by
    intro v v' handle hv
    cases hticket with
    | numbered => exact hv
    | same => exact l.handOver hv _ _
  simp only [register, l.nextId hw, l.clock hw]
  cases c.table.register w.nextId operation w.clock with
  | none =>
    refine ⟨hbegun, l.push hs (.resolve (.refuse hticket)) (hsame.imp_left fun heq => ?_)⟩
    rw [heq]
  | some p =>
    have hentered := l.note (l.setTable hbegun p.2) (e := .allocated w.nextId operation p.1) rfl
    refine ⟨hhandOver p.1 hentered,
      l.push (l.push hs (.native hticket) (hsame.imp_left fun heq => ?_)) (.refl _) (.inl rfl)⟩
    rw [heq]

theorem holds_returned (hw : l.worldRel w w') (hs : l.stackRel below below') (id : OperationId)
    {ticket ticket' : Ticket} (hticket : ticket.Alike ticket')
    (hsame : ticket' = ticket ∨ l.isLoose) (operation : String) (handle : CommandHandle)
    (status : Int32) {during during' : List Answer} (hduring : during' = during ∨ l.isLoose) :
    l.Holds (returned w id ticket operation handle status during below)
      (returned w' id ticket' operation handle status during' below') := by
  unfold returned
  rw [l.statuses hw, l.correlator hw]
  split
  · exact holds_settle (l.note hw rfl) hs hticket hsame id _ hduring _
  · dsimp only
    split
    · refine ⟨l.setTable hw _, l.push hs (.resolve (.fail hticket)) ?_⟩
      rcases hsame with heq | hloose
      · refine hduring.imp_left fun hsame => ?_
        rw [heq, hsame]
      · exact .inr hloose
    · exact holds_settle (l.note hw rfl) hs hticket hsame id _ hduring _

theorem holds_complete (hw : l.worldRel w w') (hs : l.stackRel below below') (c : Correlator)
    (handle : CommandHandle) (status : Int32) (payload : Payload) (receipt : Receipt) :
    l.Holds (complete w c handle status payload receipt below)
      (complete w' c handle status payload receipt below') := by
  unfold complete
  split
  · have hnoted := l.note hw (e := .dangling handle status) rfl
    exact holds_answer hnoted hs (l.receipt hnoted receipt _)
  · exact holds_push (l.setTable hw _) hs _

theorem holds_callBack (hw : l.worldRel w w') (hs : l.stackRel below below')
    (handle : CommandHandle) (status : Int32) (arguments : CallbackArguments) :
    l.Holds (callBack w handle status arguments below)
      (callBack w' handle status arguments below') := by
  unfold callBack
  rw [l.correlator hw]
  split
  · exact holds_answer (l.note hw rfl) hs rfl
  · exact holds_complete hw hs _ _ _ _ _

theorem holds_sweepOn (hw : l.worldRel w w') (hs : l.stackRel below below') (rest : List Entry)
    (expired : List CommandHandle) (age : Duration) :
    l.Holds (sweepOn w rest expired age below) (sweepOn w' rest expired age below') := by
  cases rest with
  | cons e rest => exact holds_push hw hs _
  | nil =>
    refine holds_answer ?_ hs rfl
    split
    · exact hw
    · exact l.note hw rfl

theorem holds_shutdownOn (hw : l.worldRel w w') (hs : l.stackRel below below') (rest : List Entry)
    (count : Nat) :
    l.Holds (shutdownOn w rest count below) (shutdownOn w' rest count below') := by
  cases rest with
  | cons e rest => exact holds_push hw hs _
  | nil => exact holds_answer (l.note hw rfl) hs rfl

theorem holds_dropOn (hw : l.worldRel w w') (hs : l.stackRel below below') (rest : List Entry) :
    l.Holds (dropOn w rest below) (dropOn w' rest below') := by
  cases rest with
  | cons e rest => exact holds_push hw hs _
  | nil => exact holds_answer hw hs rfl

theorem holds_waitFor (hw : l.worldRel w w') (hs : l.stackRel below below') (call : PendingCall)
    (limit : Duration) : l.Holds (waitFor w call limit below) (waitFor w' call limit below') := by
  unfold waitFor
  rw [l.result? hw]
  split
  · exact holds_push hw hs _
  · exact holds_answer hw hs (l.resultAnswer hw call)

theorem holds_withCorrelator (hw : l.worldRel w w') (hs : l.stackRel below below')
    {go go' : Correlator → World × Stack} (hgo : ∀ c, l.Holds (go c) (go' c)) :
    l.Holds (withCorrelator w below go) (withCorrelator w' below' go') := by
  unfold withCorrelator
  rw [l.correlator hw]
  split
  · exact hgo _
  · exact holds_answer hw hs rfl

theorem holds_withTarget (hw : l.worldRel w w') (hs : l.stackRel below below')
    (self : Option CommandHandle) (target : Target) {go go' : CommandHandle → World × Stack}
    (hgo : ∀ handle, l.Holds (go handle) (go' handle)) :
    l.Holds (withTarget w self target below go) (withTarget w' self target below' go') := by
  unfold withTarget
  split
  · exact hgo _
  · exact holds_answer hw hs rfl

theorem holds_withCall (hw : l.worldRel w w') (hs : l.stackRel below below') {n : Nat}
    (hn : l.shares n) {go go' : PendingCall → World × Stack}
    (hgo : ∀ call, l.Holds (go call) (go' call)) :
    l.Holds (withCall w n below go) (withCall w' n below' go') := by
  unfold withCall
  rw [l.call? hw hn]
  split
  · exact hgo _
  · exact holds_answer hw hs rfl

/-! ### Sections -/

/-- **A step begins the same way on both sides**, if both have the call that it is about. -/
theorem holds_begin (hw : l.worldRel w w') (hs : l.stackRel below below')
    (self : Option CommandHandle) {s : Step} (hshared : ∀ n, s.call? = some n → l.shares n) :
    l.Holds (s.begin w self below) (s.begin w' self below') := by
  cases s with
  | submit operation reply during onward =>
    have hnumber := l.submittedCount hw
    exact holds_withCorrelator hw hs (fun c => holds_register hw hs c
      (l.beginContinuation hw operation onward hnumber) .numbered
      (hnumber.imp_left (congrArg Ticket.submit)) reply during)
  | issue shape operation reply during =>
    exact holds_withCorrelator hw hs (fun c => holds_register hw hs c
      (l.beginCaller hw operation shape) .same (.inl rfl) reply during)
  | command cmd reply during =>
    have hdefault := l.installDefault hw
    simp only [Step.begin]
    split
    · rw [l.callsLength hw]
      exact holds_answer (l.addCall hw _) hs rfl
    · exact holds_withCorrelator hdefault hs (fun c => holds_register hdefault hs c
        (l.beginCaller hdefault cmd.operation cmd.shape) .same (.inl rfl) reply during)
  | runtimeConfig config status during =>
    simp only [Step.begin]
    split
    · exact holds_answer hw hs rfl
    · exact holds_push hw (holds_push hw hs _).stack _
  | deliver target status payload =>
    exact holds_withCorrelator hw hs (fun c => holds_withTarget hw hs self target
      (fun handle => holds_complete hw hs c handle status payload .sender))
  | expire target =>
    refine holds_withCorrelator hw hs (fun c => holds_withTarget hw hs self target
      (fun handle => ?_))
    split
    · exact holds_answer hw hs rfl
    · exact holds_push hw hs _
  | sweep age order =>
    refine holds_withCorrelator hw hs (fun c => ?_)
    rw [l.clock hw]
    split
    · exact holds_answer hw hs rfl
    · exact holds_sweepOn hw hs _ _ _
  | shutdown order =>
    exact holds_withCorrelator hw hs (fun c => holds_shutdownOn (l.setTable hw _) hs _ _)
  | drop order =>
    have hgone := l.setPresence hw (.absent .dropped)
    simp only [Step.begin, l.isOutermost hs]
    split
    · refine holds_withCorrelator hw hs (fun c => holds_dropOn ?_ hs _)
      split
      · exact hgone
      · exact l.note hgone rfl
    · exact holds_answer hw hs rfl
  | callback target status arguments =>
    exact holds_withTarget hw hs self target
      (fun handle => holds_callBack hw hs handle status arguments)
  | fire target status argument =>
    refine holds_withTarget hw hs self target (fun handle => ?_)
    rw [l.callbacks hw]
    split
    · exact holds_callBack hw hs _ _ _
    · exact holds_answer hw hs rfl
  | install config =>
    simp only [Step.begin]
    split
    · exact holds_answer hw hs rfl
    · next c _ =>
      obtain ⟨hsame, hinstalled⟩ := l.install hw c
      apply holds_answer hinstalled hs
      rw [hsame]
  | installDefault =>
    have hdefault := l.installDefault hw
    exact holds_withCorrelator hdefault hs (fun c => holds_answer hdefault hs rfl)
  | isInstalled =>
    apply holds_answer hw hs
    rw [l.isInstalled hw]
  | ask question => exact holds_withCorrelator hw hs (fun c => holds_answer hw hs rfl)
  | seed next =>
    exact holds_withCorrelator hw hs (fun c => holds_answer (l.setTable hw _) hs rfl)
  | sleep time => exact holds_answer (l.sleep hw _) hs rfl
  | poll n =>
    have hn := hshared n rfl
    refine holds_withCall hw hs hn (fun call => ?_)
    have hpolled : l.worldRel (if (w.result? call).isSome then w.useUp n else w)
        (if (w'.result? call).isSome then w'.useUp n else w') := by
      rw [l.result? hw]
      split
      · exact l.useUp hw hn
      · exact hw
    exact holds_answer hpolled hs (l.resultAnswer hpolled call)
  | timeout n limit =>
    have hn := hshared n rfl
    exact holds_withCall hw hs hn (fun call => holds_waitFor (l.useUp hw hn) hs call limit)
  | defaultTimeout n =>
    have hn := hshared n rfl
    have hused := l.useUp hw hn
    refine holds_withCorrelator hw hs (fun c => holds_withCall hw hs hn (fun call => ?_))
    split
    · exact holds_waitFor hused hs call _
    · exact holds_answer (l.stopListening hused call) hs (l.resultAnswer hw call)
  | wait n completion =>
    have hn := hshared n rfl
    refine holds_withCorrelator hw hs (fun c => holds_withCall hw hs hn (fun call => ?_))
    split
    · exact holds_complete (l.useUp hw hn) hs c _ _ _ _
    · exact holds_answer (l.useUp hw hn) hs (l.resultAnswer hw call)
  | forget n =>
    have hn := hshared n rfl
    exact holds_withCall hw hs hn
      (fun call => holds_answer (l.stopListening (l.useUp hw hn) call) hs rfl)
  | view n => exact holds_withCall hw hs (hshared n rfl) (fun call => holds_answer hw hs rfl)

/-- **The steps above a frame are done**, and it goes on the same way on both sides. -/
theorem holds_resume (hw : l.worldRel w w') (hs : l.stackRel below below') {f f' : Frame}
    (hf : f.Alike f') (hsame : f' = f ∨ l.isLoose) {answers answers' : List Answer}
    (hanswers : answers' = answers ∨ l.isLoose) :
    l.Holds (resume w answers (f :: below)) (resume w' answers' (f' :: below')) := by
  cases hf with
  | native hticket =>
    refine holds_returned hw hs _ hticket (hsame.imp_left fun heq => ?_) _ _ _ hanswers
    cases heq
    rfl
  | configure =>
    refine ⟨hw, l.reply hs (hanswers.imp_left fun heq => ?_)⟩
    rw [l.statuses hw, heq]
  | continuation hafter =>
    refine ⟨l.continued hw _ hanswers,
      l.push hs (.conclude hafter) (hsame.imp_left fun heq => ?_)⟩
    cases heq
    rfl
  | script => exact ⟨hw, l.push hs .script hsame⟩
  | resolve hafter => exact ⟨hw, l.push hs (.resolve hafter) hsame⟩
  | conclude hafter => exact ⟨hw, l.push hs (.conclude hafter) hsame⟩

/-- **What is left to do after an attempt** is done the same way on both sides. -/
theorem holds_conclude (hw : l.worldRel w w') (hs : l.stackRel below below') (ran : Bool)
    {after after' : Aftermath} (hafter : after.Alike after')
    (hsame : after' = after ∨ l.isLoose) :
    l.Holds (conclude w ran below after) (conclude w' ran below' after') := by
  cases hafter with
  | refuse hticket =>
    refine holds_settle hw hs hticket (hsame.imp_left fun heq => ?_) _ none (.inl rfl) _
    cases heq
    rfl
  | fail hticket =>
    refine holds_settle (l.note hw rfl) hs hticket (hsame.imp_left fun heq => ?_) _ _
      (hsame.imp_left fun heq => ?_) _
    · cases heq
      rfl
    · cases heq
      rfl
  | same =>
    cases after with
    | refuse id ticket error => exact holds_settle hw hs .same (.inl rfl) id none (.inl rfl) _
    | fail id ticket operation handle error during =>
      exact holds_settle (l.note hw rfl) hs .same (.inl rfl) id _ (.inl rfl) _
    | deliver entry status receipt =>
      have hcompleted : l.worldRel
          (w.note (if ran then .completed entry.owner entry.operation entry.handle status
            else .absorbed entry.owner entry.operation entry.handle))
          (w'.note (if ran then .completed entry.owner entry.operation entry.handle status
            else .absorbed entry.owner entry.operation entry.handle)) := by
        refine l.note hw ?_
        cases ran <;> rfl
      exact holds_answer hcompleted hs (l.receipt hcompleted receipt _)
    | expire handle => exact holds_answer (l.note_of hw ran rfl) hs rfl
    | sweep handle rest expired age => exact holds_sweepOn hw hs _ _ _
    | shutdown rest count => exact holds_shutdownOn hw hs _ _
    | drop rest => exact holds_dropOn hw hs _
    | giveUp call limit =>
      have hgaveUp := l.note_of hw ran (e := .gaveUp call.handle limit) rfl
      exact holds_answer hgaveUp hs (l.resultAnswer hgaveUp call)

end Likeness

end CommandBridge

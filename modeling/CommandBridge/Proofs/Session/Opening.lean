import CommandBridge.Session.Run

/-!
# What a step does first

Steps differ in what they look up before they do anything: the correlator, the handle meant, the
call.  What they do then is one of few things.  `Step.begin` is taken apart here once, and nowhere
else is every step gone through for the sake of an invariant.

* `Step.registration?`, `Step.delivery?` — what a step wants to register or to deliver;
* `World.Shows` — what a step may answer without a change;
* `Step.Opens` — what the first section of a step does, one rule for each thing;
* `opens_begin` — **the first section of every step does one of them**.
-/

namespace CommandBridge

/-! ### What a step is after -/

/-- An operation to be registered. -/
structure Registration where
  operation : String
  listener : Listener
  ticket : Ticket
  reply : CommandHandle → Int32
  during : List Step

/-- The operation that a step registers. -/
def Step.registration? (w : World) : Step → Option Registration
  | .submit operation reply during onward =>
    some ⟨operation, .continuation w.submittedCount onward, .submit w.submittedCount, reply, during⟩
  | .issue shape operation reply during =>
    some ⟨operation, .caller shape true, .issue shape, reply, during⟩
  | .command cmd reply during =>
    match cmd.arguments with
    | .error _ => none
    | .ok arguments =>
      some ⟨cmd.operation, .caller cmd.shape true, .command cmd arguments, reply, during⟩
  | _ => none

/-- The handle, the status and the payload that a step delivers. -/
def Step.delivery? (w : World) (self : Option CommandHandle) :
    Step → Option (CommandHandle × Int32 × Payload)
  | .deliver target status payload => (target.resolve self).map (fun h => (h, status, payload))
  | .callback target status arguments =>
    (target.resolve self).map (fun h => (h, status, arguments.completion status))
  | .fire target status argument =>
    (target.resolve self).bind fun h =>
      (w.callbacks.lookup h).map fun shape =>
        (h, status, (argument.arguments shape).completion status)
  | .wait n (some (status, payload)) =>
    (w.call? n).bind fun call => call.handle.map (fun h => (h, status, payload))
  | _ => none

/-! ### What a step does -/

/-- The answer has neither a call nor the result of anything in it. -/
def Answer.isRemark : Answer → Bool
  | .submitted _ _ _ _ => false
  | .issued _ _ _ _ => false
  | .called _ _ _ _ => false
  | .configured _ _ _ => false
  | .delivered _ => false
  | .error _ => false
  | .result _ _ => false
  | .waited _ _ _ => false
  | .call _ => false
  | _ => true

/-- What a step that changes nothing may answer. -/
inductive World.Shows (w : World) : Answer → Prop
  | remark {a : Answer} (ha : a.isRemark = true) : Shows w a
  | result {n : Nat} {call : PendingCall} (hcall : w.call? n = some call) :
      Shows w (resultAnswer w call)
  | call {n : Nat} {call : PendingCall} (hcall : w.call? n = some call) : Shows w (.call call)
  | question {c : Correlator} (hc : w.correlator = .present c) (self : Option CommandHandle)
      (question : Question) : Shows w (question.answer c self)
  | unconfigured {config : String} {e : BridgeError} (he : runtimeConfigCall config = .error e) :
      Shows w (.configured (.error e) none [])

/-- What the first section of a step does, above the stack that its answer goes to. -/
inductive Step.Opens (w : World) (self : Option CommandHandle) (below : Stack) :
    Step → World × Stack → Prop
  /-- The step is over, and nothing has changed. -/
  | answered {s : Step} {a : Answer} (ha : w.Shows a) : Opens w self below s (answer w a below)
  /-- A wrapped function rejects its arguments, and its caller gets a call that has failed. -/
  | rejected {cmd : Command} {reply : CommandHandle → Int32} {during : List Step}
      {e : BridgeError} (he : cmd.arguments = .error e) :
      Opens w self below (.command cmd reply during)
        (answer (w.addCall ⟨cmd.shape, .failed e, none, none⟩)
          (.called w.calls.length ⟨cmd.shape, .failed e, none, none⟩ none []) below)
  | readied {c : Correlator} (hc : w.installDefault.correlator = .present c) :
      Opens w self below .installDefault (answer w.installDefault (.installed c) below)
  | installed {config : Option String} {c : Correlator} (hc : Correlator.ofText config = .ok c) :
      Opens w self below (.install config)
        (answer (w.install c).2 (.installation (w.install c).1.isOk) below)
  | seeded {next : Int32} {c : Correlator} (hc : w.correlator = .present c) :
      Opens w self below (.seed next) (answer (w.setTable (c.table.seed next)) .done below)
  | slept {time : Duration} :
      Opens w self below (.sleep time) (answer { w with clock := w.clock + time.millis } .done below)
  /-- A call is used up for its result. -/
  | used {s : Step} {n : Nat} {call : PendingCall} (hcall : w.call? n = some call) :
      Opens w self below s (answer (w.useUp n) (resultAnswer (w.useUp n) call) below)
  /-- A call is given up. -/
  | forgotten {s : Step} {n : Nat} {call : PendingCall} {a : Answer}
      (hcall : w.call? n = some call) (ha : a = .forgotten ∨ a = resultAnswer w call) :
      Opens w self below s (answer ((w.useUp n).stopListening call) a below)
  /-- The native side calls back, and there is no correlator. -/
  | uncorrelated {s : Step} {handle : CommandHandle} {status : Int32} {absence : Absence}
      (hw : w.correlator = .absent absence) :
      Opens w self below s (answer (w.note (.uncorrelated handle status)) .done below)
  /-- An operation is to be registered.  Only wrapped functions see to a correlator first. -/
  | registers {s : Step} {r : Registration} {v : World} {c : Correlator}
      (hr : s.registration? w = some r)
      (hv : v = w ∨ (∃ cmd reply during, s = .command cmd reply during) ∧ v = w.installDefault)
      (hc : v.correlator = .present c) :
      Opens w self below s
        (register v c r.operation r.listener r.ticket r.reply r.during below)
  /-- A completion arrives; a caller who waits for it has used the call up. -/
  | completes {s : Step} {v : World} {c : Correlator} {handle : CommandHandle} {status : Int32}
      {payload : Payload} {receipt : Receipt}
      (hd : s.delivery? w self = some (handle, status, payload))
      (hv : v = w ∧ (receipt = .sender ∨ receipt = .nobody) ∨
        ∃ n call, w.call? n = some call ∧ v = w.useUp n ∧ receipt = .waiter call)
      (hc : w.correlator = .present c) :
      Opens w self below s (complete v c handle status payload receipt below)
  | expires {target : Target} {handle : CommandHandle} {c : Correlator} {entry : Entry}
      (htarget : target.resolve self = some handle) (hc : w.correlator = .present c)
      (he : c.table.find? handle = some entry) :
      Opens w self below (.expire target)
        (w, .resolve entry.owner (.error (.timeout handle)) (.expired handle) (.expire handle) ::
          below)
  | sweeps {age : Option Duration} {order : Arrangement} {c : Correlator} {limit : Duration}
      (hc : w.correlator = .present c) (hage : age.or c.callTimeout = some limit) :
      Opens w self below (.sweep age order)
        (sweepOn w (order.apply (c.table.stale w.clock limit.millis)) [] limit below)
  | shutsDown {order : Arrangement} {c : Correlator} (hc : w.correlator = .present c) :
      Opens w self below (.shutdown order)
        (shutdownOn (w.setTable c.table.drain.2) (order.apply c.table.entries)
          c.table.entries.length below)
  | drops {order : Arrangement} {c : Correlator} (hc : w.correlator = .present c)
      (hbelow : isOutermost below = true) :
      Opens w self below (.drop order)
        (dropOn (if c.table.entries.isEmpty then { w with correlator := .absent .dropped }
          else World.note { w with correlator := .absent .dropped } (.dropped c.table.size))
          (order.apply c.table.entries) below)
  /-- A caller waits for a call that is used up. -/
  | waits {s : Step} {n : Nat} {call : PendingCall} {limit : Duration}
      (hs : s = .timeout n limit ∨ s = .defaultTimeout n) (hcall : w.call? n = some call) :
      Opens w self below s (waitFor (w.useUp n) call limit below)
  | configures {config : String} {status : Int32} {during : List Step} {call : NativeCall}
      (hcall : runtimeConfigCall config = .ok call) :
      Opens w self below (.runtimeConfig config status during)
        (w, .script none during [] :: .configure call status :: below)

/-! ### Steps that look something up -/

section Lookups

variable {w : World} {self : Option CommandHandle} {below : Stack} {s : Step}

theorem opens_withCorrelator {go : Correlator → World × Stack}
    (h : ∀ c, w.correlator = .present c → s.Opens w self below (go c)) :
    s.Opens w self below (withCorrelator w below go) := by
  unfold withCorrelator
  split
  · next c hc => exact h c hc
  · exact .answered (.remark rfl)

theorem opens_withTarget {target : Target} {go : CommandHandle → World × Stack}
    (h : ∀ handle, target.resolve self = some handle → s.Opens w self below (go handle)) :
    s.Opens w self below (withTarget w self target below go) := by
  unfold withTarget
  split
  · next handle hhandle => exact h handle hhandle
  · exact .answered (.remark rfl)

theorem opens_withCall {n : Nat} {go : PendingCall → World × Stack}
    (h : ∀ call, w.call? n = some call → s.Opens w self below (go call)) :
    s.Opens w self below (withCall w n below go) := by
  unfold withCall
  split
  · next call hcall => exact h call hcall
  · exact .answered (.remark rfl)

theorem opens_callBack {handle : CommandHandle} {status : Int32} {arguments : CallbackArguments}
    (hd : s.delivery? w self = some (handle, status, arguments.completion status)) :
    s.Opens w self below (callBack w handle status arguments below) := by
  unfold callBack
  split
  · next absence hw => exact .uncorrelated hw
  · next c hc => exact .completes hd (.inl ⟨rfl, .inr rfl⟩) hc

/-- Only where no correlator has been installed yet is the default one installed. -/
theorem World.installDefault_eq_self {w : World} {absence : Absence}
    (h : w.installDefault.correlator = .absent absence) : w.installDefault = w := by
  unfold installDefault at h ⊢
  split
  · next hw => simp [hw] at h
  · rfl

end Lookups

/-! ### All steps -/

/-- **The first section of every step does one of these things.** -/
theorem opens_begin (w : World) (self : Option CommandHandle) (below : Stack) (s : Step) :
    s.Opens w self below (s.begin w self below) := by
  cases s with
  | submit operation reply during onward =>
    refine opens_withCorrelator (fun c hc => ?_)
    exact .registers (r := ⟨operation, .continuation w.submittedCount onward,
      .submit w.submittedCount, reply, during⟩) rfl (.inl rfl) hc
  | issue shape operation reply during =>
    refine opens_withCorrelator (fun c hc => ?_)
    exact .registers (r := ⟨operation, .caller shape true, .issue shape, reply, during⟩) rfl
      (.inl rfl) hc
  | command cmd reply during =>
    simp only [Step.begin]
    cases harguments : cmd.arguments with
    | error e => exact .rejected harguments
    | ok arguments =>
      simp only [withCorrelator]
      split
      · next c hc =>
        exact .registers (r := ⟨cmd.operation, .caller cmd.shape true, .command cmd arguments,
          reply, during⟩) (by simp only [Step.registration?, harguments])
          (.inr ⟨⟨cmd, reply, during, rfl⟩, rfl⟩) hc
      · next absence habsent =>
        rw [World.installDefault_eq_self habsent]
        exact .answered (.remark rfl)
  | runtimeConfig config status during =>
    simp only [Step.begin]
    cases hcall : runtimeConfigCall config with
    | error e => exact .answered (.unconfigured hcall)
    | ok call => exact .configures hcall
  | deliver target status payload =>
    refine opens_withCorrelator (fun c hc => opens_withTarget (fun handle hhandle => ?_))
    refine .completes ?_ (.inl ⟨rfl, .inl rfl⟩) hc
    simp only [Step.delivery?, hhandle, Option.map_some]
  | expire target =>
    refine opens_withCorrelator (fun c hc => opens_withTarget (fun handle hhandle => ?_))
    cases hfind : c.table.find? handle with
    | none => exact .answered (.remark rfl)
    | some entry => exact .expires hhandle hc hfind
  | sweep age order =>
    refine opens_withCorrelator (fun c hc => ?_)
    cases hage : age.or c.callTimeout with
    | none => exact .answered (.remark rfl)
    | some limit => exact .sweeps hc hage
  | shutdown order => exact opens_withCorrelator (fun c hc => .shutsDown hc)
  | drop order =>
    simp only [Step.begin]
    split
    · next hbelow => exact opens_withCorrelator (fun c hc => .drops hc hbelow)
    · exact .answered (.remark rfl)
  | callback target status arguments =>
    refine opens_withTarget (fun handle hhandle => opens_callBack ?_)
    simp only [Step.delivery?, hhandle, Option.map_some]
  | fire target status argument =>
    refine opens_withTarget (fun handle hhandle => ?_)
    cases hlookup : w.callbacks.lookup handle with
    | none => exact .answered (.remark rfl)
    | some shape =>
      refine opens_callBack ?_
      simp only [Step.delivery?, hhandle, Option.bind_some, hlookup, Option.map_some]
  | install config =>
    simp only [Step.begin]
    cases hc : Correlator.ofText config with
    | error e => exact .answered (.remark rfl)
    | ok c => exact .installed hc
  | installDefault =>
    simp only [Step.begin, withCorrelator]
    split
    · next c hc => exact .readied hc
    · next absence habsent =>
      rw [World.installDefault_eq_self habsent]
      exact .answered (.remark rfl)
  | isInstalled => exact .answered (.remark rfl)
  | ask question => exact opens_withCorrelator (fun c hc => .answered (.question hc self question))
  | seed next => exact opens_withCorrelator (fun c hc => .seeded hc)
  | sleep time => exact .slept
  | poll n =>
    refine opens_withCall (fun call hcall => ?_)
    by_cases hsome : (w.result? call).isSome
    · simp only [hsome, if_true]
      exact .used hcall
    · simp only [hsome]
      exact .answered (.result hcall)
  | timeout n limit => exact opens_withCall (fun call hcall => .waits (.inl rfl) hcall)
  | defaultTimeout n =>
    refine opens_withCorrelator (fun c hc => opens_withCall (fun call hcall => ?_))
    split
    · exact .waits (.inr rfl) hcall
    · exact .forgotten hcall (.inr rfl)
  | wait n completion =>
    refine opens_withCorrelator (fun c hc => opens_withCall (fun call hcall => ?_))
    split
    · next status payload handle hhandle =>
      refine .completes ?_ (.inr ⟨n, call, hcall, rfl, rfl⟩) hc
      simp only [Step.delivery?, hcall, Option.bind_some, hhandle, Option.map_some]
    · exact .used hcall
  | forget n => exact opens_withCall (fun call hcall => .forgotten hcall (.inl rfl))
  | view n => exact opens_withCall (fun call hcall => .answered (.call hcall))

end CommandBridge

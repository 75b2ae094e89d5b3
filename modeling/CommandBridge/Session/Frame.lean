import CommandBridge.Session.World

/-!
# Threads

A thread works on a stack of frames.  The one on top says what comes next; the others wait for the
one above them.  A thread moves in sections.  Each section is a whole: it looks at the state and
changes it, and nothing else runs in between.

* `Frame` — a list of steps under way, a native function waited for, an operation about to be
  resolved, or what is left to do after that;
* `Ticket` — what the answer to a registration will have to say;
* `Aftermath` — what is left to do once an attempt to resolve an operation is over;
* `begin` — the first section of a step;
* `advance` — the next section of a thread.

Registering, the look at a native status, taking an entry out, resolving an operation and what is
done after it are sections of their own, so that other threads may come between them.
-/

namespace CommandBridge

/-- What the answer to a registration will have to say besides its result. -/
inductive Ticket where
  /-- An operation with a continuation, and its number. -/
  | submit (number : Nat)
  | issue (shape : Shape)
  | command (command : Command) (arguments : List NativeArgument)

/-- Who is told about a delivery. -/
inductive Receipt where
  /-- Whoever reported the completion. -/
  | sender
  /-- Nobody; callbacks return nothing. -/
  | nobody
  /-- The caller who waits for this call. -/
  | waiter (call : PendingCall)

/-- What is left to do once an attempt to resolve an operation is over. -/
inductive Aftermath where
  /-- The registration was refused. -/
  | refuse (id : OperationId) (ticket : Ticket) (error : BridgeError)
  /-- The native function failed. -/
  | fail (id : OperationId) (ticket : Ticket) (operation : String) (handle : CommandHandle)
      (error : BridgeError) (during : List Answer)
  | deliver (entry : Entry) (status : Int32) (receipt : Receipt)
  | expire (handle : CommandHandle)
  /-- The entries still to go through, and the handles resolved so far. -/
  | sweep (handle : CommandHandle) (rest : List Entry) (expired : List CommandHandle)
      (age : Duration)
  | shutdown (rest : List Entry) (count : Nat)
  | drop (rest : List Entry)
  | giveUp (call : PendingCall) (limit : Duration)

/-- A piece of work under way. -/
inductive Frame where
  /-- Steps to take, one after the other, and what those before returned.  `self` is the handle
  that the native function around them was given. -/
  | script (self : Option CommandHandle) (rest : List Step) (answers : List Answer)
  /-- The native function of an operation, which returns `status` once the steps above are done. -/
  | native (id : OperationId) (ticket : Ticket) (operation : String) (handle : CommandHandle)
      (status : Int32)
  /-- The native function that sets the configuration. -/
  | configure (call : NativeCall) (status : Int32)
  /-- An operation to resolve. -/
  | resolve (id : OperationId) (outcome : Outcome) (cause : Cause) (after : Aftermath)
  /-- A continuation that runs in the steps above. -/
  | continuation (id : OperationId) (after : Aftermath)
  /-- The attempt to resolve is over; `ran` says whether it was the one that counted. -/
  | conclude (after : Aftermath) (ran : Bool)

/-- The frames of a thread, the one to work on first. -/
abbrev Stack := List Frame

/-- Returns an answer to the steps that wait for it. -/
def reply (a : Answer) : Stack → Stack
  | .script self rest answers :: below => .script self rest (answers ++ [a]) :: below
  | below => below

/-- The state as it is, and the answer returned. -/
def answer (w : World) (a : Answer) (below : Stack) : World × Stack :=
  (w, reply a below)

/-! ### Registering -/

/-- The answer to a registration.  Whoever wants a pending call gets one. -/
def Ticket.settle (ticket : Ticket) (w : World) (id : OperationId) (native : Option CommandHandle)
    (during : List Answer) (result : Except BridgeError CommandHandle) : World × Answer :=
  let timeout := match w.correlator with
    | .present c => c.callTimeout
    | .absent _ => none
  match ticket with
  | .submit number => (w, .submitted number result native during)
  | .issue shape =>
    let call : PendingCall := ⟨shape, .operation id, result.toOption, timeout⟩
    (w.addCall call, .issued w.calls.length call native during)
  | .command cmd arguments =>
    let call : PendingCall := ⟨cmd.shape, .operation id, result.toOption, timeout⟩
    (w.addCall call, .called w.calls.length call
      (native.map (fun h => ⟨cmd.function, some h, arguments⟩)) during)

/-- A wrapped function gives its callback to the native side, which keeps it for the handle. -/
def Ticket.handOver (ticket : Ticket) (handle : CommandHandle) (w : World) : World :=
  match ticket with
  | .command cmd _ => { w with callbacks := (handle, cmd.callback) :: w.callbacks }
  | _ => w

/-- Registers an operation and enters its native function, or refuses it. -/
def register (w : World) (c : Correlator) (operation : String) (listener : Listener)
    (ticket : Ticket) (reply : CommandHandle → Int32) (during : List Step) (below : Stack) :
    World × Stack :=
  let id := w.nextId
  match c.table.register id operation w.clock with
  | none =>
    (w.begin operation listener,
      .resolve id (.error (.refused operation)) (.refused operation)
        (.refuse id ticket (.refused operation)) :: below)
  | some (handle, table) =>
    let w := ((w.begin operation listener).setTable table).note (.allocated id operation handle)
    (ticket.handOver handle w,
      .script (some handle) during [] :: .native id ticket operation handle (reply handle) :: below)

/-- The native function of an operation has returned its status. -/
def returned (w : World) (id : OperationId) (ticket : Ticket) (operation : String)
    (handle : CommandHandle) (status : Int32) (during : List Answer) (below : Stack) :
    World × Stack :=
  if status = successStatus then
    let (w, a) := ticket.settle (w.note (.issued id operation handle)) id (some handle) during
      (.ok handle)
    answer w a below
  else
    let error := w.statuses.errorOf status
    let table? := match w.correlator with
      | .present c => c.table.removeOwned handle id
      | .absent _ => none
    match table? with
    | some table =>
      (w.setTable table,
        .resolve id (.error error) (.failed handle status)
          (.fail id ticket operation handle error during) :: below)
    | none =>
      let (w, a) := ticket.settle (w.note (.failedLate id operation handle status)) id
        (some handle) during (.error error)
      answer w a below

/-! ### Completing -/

/-- What a delivery returns to whoever it concerns. -/
def Receipt.answer (receipt : Receipt) (w : World) (result : Except BridgeError Unit) : Answer :=
  match receipt with
  | .sender => .delivered result
  | .nobody => .done
  | .waiter call =>
    match w.result? call with
    | some r => .waited call.shape r result
    | none => .unresolved

/-- A completion arrives.  The entry is taken out before anything else runs. -/
def complete (w : World) (c : Correlator) (handle : CommandHandle) (status : Int32)
    (payload : Payload) (receipt : Receipt) (below : Stack) : World × Stack :=
  match c.table.remove handle with
  | none =>
    let w := w.note (.dangling handle status)
    answer w (receipt.answer w (.error (.dangling handle status))) below
  | some (entry, table) =>
    let cause := Cause.delivered handle status payload
    (w.setTable table,
      .resolve entry.owner (cause.outcome c.statuses) cause (.deliver entry status receipt) ::
        below)

/-- The native side calls back. -/
def callBack (w : World) (handle : CommandHandle) (status : Int32) (arguments : CallbackArguments)
    (below : Stack) : World × Stack :=
  match w.correlator with
  | .absent _ => answer (w.note (.uncorrelated handle status)) .done below
  | .present c => complete w c handle status (arguments.completion status) .nobody below

/-- The arguments of a callback of a given form that is fired with one argument. -/
def FireArgument.arguments (argument : FireArgument) : Shape → CallbackArguments
  | .handle => .handle (match argument with
    | .number value => value
    | _ => 0)
  | .text => .text (match argument with
    | .text bytes => some bytes
    | _ => none)
  | _ => .empty

/-! ### Going through the table -/

/-- Goes on with a sweep: the next entry, or the end. -/
def sweepOn (w : World) (rest : List Entry) (expired : List CommandHandle) (age : Duration)
    (below : Stack) : World × Stack :=
  match rest with
  | entry :: rest =>
    (w, .resolve entry.owner (.error (.timeout entry.handle)) (.swept entry.handle)
      (.sweep entry.handle rest expired age) :: below)
  | [] =>
    let w := if expired.isEmpty then w else w.note (.swept expired.length age)
    answer w (.swept (some (expired.mergeSort (fun a b => a.raw ≤ b.raw)))) below

/-- Goes on with a shutdown: the next entry, or the end. -/
def shutdownOn (w : World) (rest : List Entry) (count : Nat) (below : Stack) : World × Stack :=
  match rest with
  | entry :: rest =>
    (w, .resolve entry.owner (.error (.shutDown entry.handle)) (.shutDown entry.handle)
      (.shutdown rest count) :: below)
  | [] => answer (w.note (.shutDown count)) (.count count) below

/-- Goes on with giving the correlator up: the next entry, or the end. -/
def dropOn (w : World) (rest : List Entry) (below : Stack) : World × Stack :=
  match rest with
  | entry :: rest =>
    (w, .resolve entry.owner (.error (.shutDown entry.handle)) (.dropped entry.handle)
      (.drop rest) :: below)
  | [] => answer w .dropped below

/-! ### Waiting -/

/-- What a call returns when it is used up now. -/
def resultAnswer (w : World) (call : PendingCall) : Answer :=
  match w.result? call with
  | some r => .result call.shape r
  | none => .unresolved

/-- Waits for a call that is used up.  If it has no result yet, time runs out and the operation is
to be resolved from here. -/
def waitFor (w : World) (call : PendingCall) (limit : Duration) (below : Stack) : World × Stack :=
  match w.result? call, call.source with
  | none, .operation id =>
    (w, .resolve id (.error (.timeoutOf call.handle)) (.gaveUp call.handle)
      (.giveUp call limit) :: below)
  | _, _ => answer w (resultAnswer w call) below

/-! ### The first section of a step -/

/-- What a question is answered with. -/
def Question.answer (c : Correlator) (self : Option CommandHandle) : Question → Answer
  | .pending => .handles c.table.handles
  | .isPending target =>
    match target.resolve self with
    | some handle => .flag (c.table.contains handle)
    | none => .outOfPlace
  | .correlator => .correlator c
  | .callTimeout => .callTimeout c.callTimeout
  | .errorOf code => .error (c.statuses.errorOf code)
  | .isPublished => .flag c.statuses.isPublished

/-- Goes on with the correlator, or says why there is none. -/
def withCorrelator (w : World) (below : Stack) (go : Correlator → World × Stack) :
    World × Stack :=
  match w.correlator with
  | .present c => go c
  | .absent absence => answer w (.missing absence) below

/-- Goes on with the handle meant. -/
def withTarget (w : World) (self : Option CommandHandle) (target : Target) (below : Stack)
    (go : CommandHandle → World × Stack) : World × Stack :=
  match target.resolve self with
  | some handle => go handle
  | none => answer w .outOfPlace below

/-- Goes on with a call that is not used up. -/
def withCall (w : World) (n : Nat) (below : Stack) (go : PendingCall → World × Stack) :
    World × Stack :=
  match w.call? n with
  | some call => go call
  | none => answer w .noCall below

/-- The stack is that of a thread that does nothing else. -/
def isOutermost (below : Stack) : Bool :=
  below.length ≤ 1

/-- The first section of a step.  `below` is the stack that the answer goes to. -/
def Step.begin (w : World) (self : Option CommandHandle) (below : Stack) : Step → World × Stack
  | .submit operation reply during onward =>
    withCorrelator w below fun c =>
      register w c operation (.continuation w.submittedCount onward) (.submit w.submittedCount)
        reply during below
  | .issue shape operation reply during =>
    withCorrelator w below fun c =>
      register w c operation (.caller shape true) (.issue shape) reply during below
  | .command cmd reply during =>
    match cmd.arguments with
    | .error e =>
      let call : PendingCall := ⟨cmd.shape, .failed e, none, none⟩
      answer (w.addCall call) (.called w.calls.length call none []) below
    | .ok arguments =>
      let w := w.installDefault
      withCorrelator w below fun c =>
        register w c cmd.operation (.caller cmd.shape true) (.command cmd arguments) reply during
          below
  | .runtimeConfig config status during =>
    match runtimeConfigCall config with
    | .error e => answer w (.configured (.error e) none []) below
    | .ok call => (w, .script none during [] :: .configure call status :: below)
  | .deliver target status payload =>
    withCorrelator w below fun c => withTarget w self target below fun handle =>
      complete w c handle status payload .sender below
  | .expire target =>
    withCorrelator w below fun c => withTarget w self target below fun handle =>
      match c.table.find? handle with
      | none => answer w (.flag false) below
      | some entry =>
        (w, .resolve entry.owner (.error (.timeout handle)) (.expired handle)
          (.expire handle) :: below)
  | .sweep age order =>
    withCorrelator w below fun c =>
      match age.or c.callTimeout with
      | none => answer w (.swept none) below
      | some age => sweepOn w (order.apply (c.table.stale w.clock age.millis)) [] age below
  | .shutdown order =>
    withCorrelator w below fun c =>
      let (entries, table) := c.table.drain
      shutdownOn (w.setTable table) (order.apply entries) entries.length below
  | .drop order =>
    if isOutermost below then
      withCorrelator w below fun c =>
        let w := { w with correlator := .absent .dropped }
        let w := if c.table.entries.isEmpty then w else w.note (.dropped c.table.size)
        dropOn w (order.apply c.table.entries) below
    else answer w .outOfPlace below
  | .callback target status arguments =>
    withTarget w self target below fun handle => callBack w handle status arguments below
  | .fire target status argument =>
    withTarget w self target below fun handle =>
      match w.callbacks.lookup handle with
      | some shape => callBack w handle status (argument.arguments shape) below
      | none => answer w .noCallback below
  | .install config =>
    match Correlator.ofText config with
    | .error e => answer w (.rejected e) below
    | .ok c =>
      let (installed, w) := w.install c
      answer w (.installation installed.isOk) below
  | .installDefault =>
    let w := w.installDefault
    withCorrelator w below fun c => answer w (.installed c) below
  | .isInstalled => answer w (.flag w.isInstalled) below
  | .ask question => withCorrelator w below fun c => answer w (question.answer c self) below
  | .seed next =>
    withCorrelator w below fun c => answer (w.setTable (c.table.seed next)) .done below
  | .sleep time => answer { w with clock := w.clock + time.millis } .done below
  | .poll n =>
    withCall w n below fun call =>
      let w := if (w.result? call).isSome then w.useUp n else w
      answer w (resultAnswer w call) below
  | .timeout n limit =>
    withCall w n below fun call => waitFor (w.useUp n) call limit below
  | .defaultTimeout n =>
    withCorrelator w below fun _ => withCall w n below fun call =>
      match call.defaultTimeout with
      | some limit => waitFor (w.useUp n) call limit below
      | none => answer ((w.useUp n).stopListening call) (resultAnswer w call) below
  | .wait n completion =>
    withCorrelator w below fun c => withCall w n below fun call =>
      match completion, call.handle with
      | some (status, payload), some handle =>
        complete (w.useUp n) c handle status payload (.waiter call) below
      | _, _ => answer (w.useUp n) (resultAnswer w call) below
  | .forget n =>
    withCall w n below fun call => answer ((w.useUp n).stopListening call) .forgotten below
  | .view n => withCall w n below fun call => answer w (.call call) below

/-! ### The other sections -/

/-- An attempt to resolve an operation.  If it counts, the continuation starts above what is left
to do. -/
def resolve (w : World) (id : OperationId) (outcome : Outcome) (cause : Cause)
    (after : Aftermath) (below : Stack) : World × Stack :=
  match w.resolveOnce id outcome cause with
  | none => (w, .conclude after false :: below)
  | some (operation, w) =>
    match operation.listener with
    | .continuation _ steps => (w, .script none steps [] :: .continuation id after :: below)
    | .caller _ isListening =>
      let w := if isListening then w else w.note (.unheard id operation.name)
      (w, .conclude after true :: below)

/-- What is left to do after an attempt to resolve an operation. -/
def conclude (w : World) (ran : Bool) (below : Stack) : Aftermath → World × Stack
  | .refuse id ticket error =>
    let (w, a) := ticket.settle w id none [] (.error error)
    answer w a below
  | .fail id ticket operation handle error during =>
    let (w, a) := ticket.settle (w.note (.failed id operation error)) id (some handle) during
      (.error error)
    answer w a below
  | .deliver entry status receipt =>
    let w := w.note (if ran then .completed entry.owner entry.operation entry.handle status
      else .absorbed entry.owner entry.operation entry.handle)
    answer w (receipt.answer w (.ok ())) below
  | .expire handle =>
    let w := if ran then w.note (.expired handle) else w
    answer w (.flag ran) below
  | .sweep handle rest expired age =>
    sweepOn w rest (if ran then expired ++ [handle] else expired) age below
  | .shutdown rest count => shutdownOn w rest count below
  | .drop rest => dropOn w rest below
  | .giveUp call limit =>
    let w := if ran then w.note (.gaveUp call.handle limit) else w
    answer w (resultAnswer w call) below

/-- The steps above a frame are done; they returned these answers. -/
def resume (w : World) (answers : List Answer) : Stack → World × Stack
  | .native id ticket operation handle status :: below =>
    returned w id ticket operation handle status answers below
  | .configure call status :: below =>
    answer w (.configured (w.statuses.check status) (some call) answers) below
  | .continuation id after :: below =>
    (w.note (.continued id answers), .conclude after true :: below)
  | below => (w, below)

/-- The next section of a thread; nothing if it has no more to do. -/
def advance (w : World) : Stack → Option (World × Stack)
  | .script self (s :: rest) answers :: below =>
    some (s.begin w self (.script self rest answers :: below))
  | .script _ [] _ :: [] => none
  | .script _ [] answers :: below => some (resume w answers below)
  | .resolve id outcome cause after :: below => some (resolve w id outcome cause after below)
  | .conclude after ran :: below => some (conclude w ran below after)
  | .native id ticket operation handle status :: below =>
    some (returned w id ticket operation handle status [] below)
  | .configure call status :: below =>
    some (answer w (.configured (w.statuses.check status) (some call) []) below)
  | .continuation id after :: below =>
    some (w.note (.continued id []), .conclude after true :: below)
  | [] => none

end CommandBridge

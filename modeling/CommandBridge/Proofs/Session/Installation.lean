import CommandBridge.Proofs.Session.Runs

/-!
# One correlator for good

A process has one place for a correlator.  The first one that is installed stays there, and everyone
who needs a correlator finds it there: installations that come too late, callbacks, wrapped
functions and the configuration of the running library.

* `PendingTable.Change`, `Correlator.Becomes` — what can happen to an installed correlator: its
  table changes step by step, and nothing else about it does;
* `Stack.NeverDrops` — a thread whose steps do not give the correlator up, as nobody can who does
  not own it;
* `Section.becomes` — a section of such a thread keeps the installed correlator;
* `Step.installs?` — the correlator that a step installs where there is none;
* `Threads.Vacant`, `World.ServedBy` — how a process without a correlator answers, and how one with
  a correlator does;
* `Threads.Proceeds` — a section of some thread, or an installation of any correlator whatever;
* `Threads.one_correlator` — a process has no correlator, or it has this one from now on.
-/

namespace CommandBridge

/-! ### The same correlator, later -/

/-- One change that is made to the table of a correlator. -/
inductive PendingTable.Change (t : PendingTable) : PendingTable → Prop
  | registered {owner : OperationId} {operation : String} {now : Nat} {handle : CommandHandle}
      {t' : PendingTable} (ht : t.register owner operation now = some (handle, t')) : Change t t'
  | removed {handle : CommandHandle} {entry : Entry} {t' : PendingTable}
      (ht : t.remove handle = some (entry, t')) : Change t t'
  | removedOwned {handle : CommandHandle} {owner : OperationId} {t' : PendingTable}
      (ht : t.removeOwned handle owner = some t') : Change t t'
  | drained : Change t t.drain.2
  | seeded {next : Int32} : Change t (t.seed next)

/-- The one correlator is the other at a later time. -/
structure Correlator.Becomes (c d : Correlator) : Prop where
  statuses : d.statuses = c.statuses
  callTimeout : d.callTimeout = c.callTimeout
  table : Relation.ReflTransGen PendingTable.Change c.table d.table

namespace Correlator.Becomes

theorem refl (c : Correlator) : c.Becomes c :=
  ⟨rfl, rfl, .refl⟩

theorem trans {c d e : Correlator} (hcd : c.Becomes d) (hde : d.Becomes e) : c.Becomes e :=
  ⟨hde.statuses.trans hcd.statuses, hde.callTimeout.trans hcd.callTimeout,
    hcd.table.trans hde.table⟩

theorem of_change {c : Correlator} {t : PendingTable} (ht : c.table.Change t) :
    c.Becomes { c with table := t } :=
  ⟨rfl, rfl, .single ht⟩

end Correlator.Becomes

namespace World

/-- The correlator is this one, at a later time. -/
def HoldsOn (c : Correlator) (v : World) : Prop :=
  ∃ d, v.correlator = .present d ∧ c.Becomes d

variable {w v : World} {c : Correlator}

theorem holdsOn_of_eq (hv : v.correlator = .present c) : v.HoldsOn c :=
  ⟨c, hv, .refl c⟩

theorem Quiet.holdsOn (hq : w.Quiet v) (hc : w.HoldsOn c) : v.HoldsOn c := by
  obtain ⟨d, hd, hbecomes⟩ := hc
  exact ⟨d, hq.correlator.trans hd, hbecomes⟩

theorem holdsOn_setTable (hc : w.correlator = .present c) {t : PendingTable}
    (ht : c.table.Change t) : (w.setTable t).HoldsOn c :=
  ⟨_, correlator_setTable hc t, .of_change ht⟩

theorem holdsOn_enter {name : String} {listener : Listener} {handle : CommandHandle}
    {t : PendingTable} (hc : w.correlator = .present c)
    (ht : c.table.register w.nextId name w.clock = some (handle, t)) :
    (w.enter name listener handle t).HoldsOn c :=
  ⟨_, correlator_enter hc, .of_change (.registered ht)⟩

/-- A default correlator is not installed over another one. -/
theorem installDefault_of_present (hc : w.correlator = .present c) : w.installDefault = w := by
  unfold installDefault
  rw [hc]

theorem eq_of_readied_of_present (hv : v = w ∨ v = w.installDefault)
    (hc : w.correlator = .present c) : v = w := by
  rcases hv with rfl | rfl
  · rfl
  · exact installDefault_of_present hc

end World

/-! ### Sections where a correlator is installed -/

/-- The first section of a step keeps the installed correlator, unless the step gives it up. -/
theorem Step.Begins.becomes {w v : World} {self : Option CommandHandle} {below stack : Stack}
    {s : Step} {c : Correlator} (hs : s.Begins w self below v stack)
    (hc : w.correlator = .present c)
    (hkept : isOutermost below = true → ∀ order, s ≠ .drop order) : v.HoldsOn c := by
  cases hs with
  | answered hv _ => exact hv.holdsOn (World.holdsOn_of_eq hc)
  | installed hw _ _ _ => cases hc.symm.trans hw
  | seeded hd =>
    cases hc.symm.trans hd
    exact World.holdsOn_setTable hc .seeded
  | accepted _ hv hd ht =>
    obtain rfl := World.eq_of_readied_of_present hv hc
    cases hc.symm.trans hd
    exact (World.quiet_handOver ..).holdsOn (World.holdsOn_enter hc ht)
  | refused _ hv _ _ =>
    obtain rfl := World.eq_of_readied_of_present hv hc
    exact World.holdsOn_of_eq hc
  | @completed _ v _ _ _ _ _ _ _ _ hv hd ht =>
    cases hc.symm.trans hd
    have hvc : v.correlator = .present c := by
      rcases hv with rfl | ⟨n, rfl⟩ <;> exact hc
    exact World.holdsOn_setTable hvc (.removed ht)
  | expired _ _ _ => exact World.holdsOn_of_eq hc
  | swept _ _ => exact (World.quiet_sweepOn ..).holdsOn (World.holdsOn_of_eq hc)
  | shutDown hd =>
    cases hc.symm.trans hd
    exact (World.quiet_shutdownOn ..).holdsOn (World.holdsOn_setTable hc .drained)
  | dropped _ hbelow _ _ => exact absurd rfl (hkept hbelow _)
  | gaveUp _ _ _ _ => exact World.holdsOn_of_eq hc
  | configured => exact World.holdsOn_of_eq hc

/-- The steps at the bottom of the stack do not give the correlator up.  Above the bottom nobody
can. -/
def Stack.NeverDrops (stack : Stack) : Prop :=
  ∃ rest, stack.Rests rest ∧ ∀ order, Step.drop order ∉ rest

theorem Section.neverDrops {w v : World} {stack stack' : Stack} (hs : Section w stack v stack')
    (h : stack.NeverDrops) : stack'.NeverDrops := by
  obtain ⟨rest, hrests, hkept⟩ := h
  rcases hs.rests hrests with hsame | ⟨s, rest', _, rfl, -, hnext⟩
  · exact ⟨rest, hsame, hkept⟩
  · exact ⟨rest', hnext, fun order hmem => hkept order (List.mem_cons_of_mem s hmem)⟩

/-- The step that a thread takes next does not give the correlator up. -/
theorem Stack.NeverDrops.next {self : Option CommandHandle} {s : Step} {rest : List Step}
    {answers : List Answer} {below : Stack}
    (h : Stack.NeverDrops (.script self (s :: rest) answers :: below))
    (hbelow : isOutermost (.script self rest answers :: below) = true) :
    ∀ order, s ≠ .drop order := by
  obtain rfl := isOutermost_script hbelow
  obtain ⟨steps, ⟨old, heq⟩, hkept⟩ := h
  cases heq
  rintro order rfl
  exact hkept order List.mem_cons_self

/-- **A section keeps the installed correlator.** -/
theorem Section.becomes {w v : World} {stack stack' : Stack} {c : Correlator}
    (hs : Section w stack v stack') (hc : w.correlator = .present c) (h : stack.NeverDrops) :
    v.HoldsOn c := by
  cases hs.touches with
  | spared hv => exact World.holdsOn_of_eq (hv.trans hc)
  | began hstack hbegins =>
    subst hstack
    exact hbegins.becomes hc h.next
  | failed _ hd ht hv =>
    subst hv
    cases hc.symm.trans hd
    exact World.holdsOn_setTable hc (.removedOwned ht)

/-! ### Sections where none is installed -/

/-- The correlator that a step installs where there is none. -/
def Step.installs? : Step → Option Correlator
  | .install config => (Correlator.ofText config).toOption
  | .installDefault => some {}
  | .command cmd _ _ => cmd.arguments.toOption.map (fun _ => {})
  | _ => none

/-- The correlator that the next section of a thread installs where there is none. -/
def Stack.installs? : Stack → Option Correlator
  | .script _ (s :: _) _ :: _ => s.installs?
  | _ => none

theorem World.installDefault_of_vacant {w : World}
    (hw : w.correlator = .absent .notInstalled) :
    w.installDefault = { w with correlator := .present {} } := by
  unfold installDefault
  rw [hw]

/-- An operation is registered with the correlator given. -/
theorem holdsOn_register {w : World} {c : Correlator} (hc : w.correlator = .present c)
    (operation : String) (listener : Listener) (ticket : Ticket) (reply : CommandHandle → Int32)
    (during : List Step) (below : Stack) :
    (register w c operation listener ticket reply during below).1.HoldsOn c := by
  unfold register
  cases ht : c.table.register w.nextId operation w.clock with
  | none =>
    simp only [ht]
    exact World.holdsOn_of_eq hc
  | some p =>
    simp only [ht]
    have henter : (w.enter operation listener p.1 p.2).HoldsOn c := World.holdsOn_enter hc ht
    exact (World.quiet_handOver ticket p.1 _).holdsOn henter

namespace Step

variable {w : World} {s : Step}

/-- A step that installs no correlator leaves the process without one. -/
theorem Opens.vacant {self : Option CommandHandle} {below : Stack} {m : World × Stack}
    (h : s.Opens w self below m) (hw : w.correlator = .absent .notInstalled)
    (hs : s.installs? = none) : m.1.correlator = .absent .notInstalled := by
  cases h with
  | answered _ => exact hw
  | rejected _ => exact hw
  | readied _ => cases hs
  | installed hc => simp [installs?, hc, Except.toOption] at hs
  | seeded hc => cases hw.symm.trans hc
  | slept => exact hw
  | used _ => exact hw
  | forgotten _ _ => exact (World.quiet_stopListening w _ _).correlator.trans hw
  | uncorrelated _ => exact hw
  | registers hr hv hc =>
    rcases hv with rfl | ⟨⟨cmd, reply, during, rfl⟩, -⟩
    · cases hw.symm.trans hc
    · -- a wrapped function that registers an operation sees to a correlator
      cases harguments : cmd.arguments with
      | error e => simp [registration?, harguments] at hr
      | ok arguments => simp [installs?, harguments, Except.toOption] at hs
  | completes _ _ hc => cases hw.symm.trans hc
  | expires _ hc _ => cases hw.symm.trans hc
  | sweeps hc _ => cases hw.symm.trans hc
  | shutsDown hc => cases hw.symm.trans hc
  | drops hc _ => cases hw.symm.trans hc
  | waits _ _ =>
    unfold waitFor
    split <;> exact hw
  | configures _ => exact hw

/-- A step that installs a correlator leaves it installed, perhaps with an operation in its
table. -/
theorem begin_of_installs {c : Correlator} (hw : w.correlator = .absent .notInstalled)
    (hs : s.installs? = some c) (self : Option CommandHandle) (below : Stack) :
    (s.begin w self below).1.HoldsOn c := by
  cases s with
  | install config =>
    simp only [begin]
    cases hconfig : Correlator.ofText config with
    | error e => simp [installs?, hconfig, Except.toOption] at hs
    | ok d =>
      obtain rfl : d = c := by simpa [installs?, hconfig, Except.toOption] using hs
      simp only [World.install, hw]
      exact World.holdsOn_of_eq rfl
  | installDefault =>
    cases hs
    simp only [begin, World.installDefault_of_vacant hw]
    exact World.holdsOn_of_eq rfl
  | command cmd reply during =>
    simp only [begin]
    cases harguments : cmd.arguments with
    | error e => simp [installs?, harguments, Except.toOption] at hs
    | ok arguments =>
      obtain rfl : ({} : Correlator) = c := by
        simpa [installs?, harguments, Except.toOption] using hs
      simp only [World.installDefault_of_vacant hw, withCorrelator]
      exact holdsOn_register rfl ..
  | _ => cases hs

end Step

/-- A section that begins no step leaves a process without a correlator as it is. -/
theorem Section.vacant {w v : World} {stack stack' : Stack} (hs : Section w stack v stack')
    (hw : w.correlator = .absent .notInstalled)
    (hbegun : ∀ self s rest answers below, stack ≠ .script self (s :: rest) answers :: below) :
    v.correlator = .absent .notInstalled := by
  cases hs.touches with
  | spared hv => exact hv.trans hw
  | began hstack _ => exact absurd hstack (hbegun _ _ _ _ _)
  | failed _ hc _ _ => cases hw.symm.trans hc

theorem Stack.exists_step_of_installs {stack : Stack} {c : Correlator}
    (h : stack.installs? = some c) :
    ∃ self s rest answers below, stack = .script self (s :: rest) answers :: below ∧
      s.installs? = some c := by
  unfold installs? at h
  split at h
  · next self s rest answers below => exact ⟨self, s, rest, answers, below, rfl, h⟩
  · cases h

/-- **A section installs no correlator** unless it begins a step that does. -/
theorem vacant_of_advance {w v : World} {stack stack' : Stack}
    (hadvance : advance w stack = some (v, stack')) (hw : w.correlator = .absent .notInstalled)
    (hnone : stack.installs? = none) : v.correlator = .absent .notInstalled := by
  by_cases hstep : ∃ self s rest answers below, stack = .script self (s :: rest) answers :: below
  · obtain ⟨self, s, rest, answers, below, rfl⟩ := hstep
    have hbegin : s.begin w self (.script self rest answers :: below) = (v, stack') :=
      Option.some.inj hadvance
    have hopens := opens_begin w self (.script self rest answers :: below) s
    rw [hbegin] at hopens
    exact hopens.vacant hw hnone
  · refine (section_of_advance hadvance).vacant hw ?_
    rintro self s rest answers below rfl
    exact hstep ⟨self, s, rest, answers, below, rfl⟩

/-- A section that begins such a step installs the correlator of the step. -/
theorem holdsOn_of_advance {w v : World} {stack stack' : Stack} {c : Correlator}
    (hadvance : advance w stack = some (v, stack')) (hw : w.correlator = .absent .notInstalled)
    (hsome : stack.installs? = some c) : v.HoldsOn c := by
  obtain ⟨self, s, rest, answers, below, rfl, hs⟩ := Stack.exists_step_of_installs hsome
  have hbegin : s.begin w self (.script self rest answers :: below) = (v, stack') :=
    Option.some.inj hadvance
  have hholds := Step.begin_of_installs hw hs self (.script self rest answers :: below)
  rwa [hbegin] at hholds

/-! ### Who finds which correlator -/

/-- Everyone who needs a correlator finds this one. -/
structure World.ServedBy (w : World) (c : Correlator) : Prop where
  /-- Any other one is given back, and nothing changes. -/
  install : ∀ other, w.install other = (.error other, w)
  refuses : ∀ self below config other, Correlator.ofText config = .ok other →
    (Step.install config).begin w self below = answer w (.installation false) below
  isInstalled : ∀ self below, Step.isInstalled.begin w self below = answer w (.flag true) below
  installDefault : ∀ self below,
    Step.installDefault.begin w self below = answer w (.installed c) below
  question : ∀ question self below,
    (Step.ask question).begin w self below = answer w (question.answer c self) below
  /-- Callbacks complete what stands in its table, and statuses mean what they mean to it. -/
  callback : ∀ target status arguments self below,
    (Step.callback target status arguments).begin w self below =
      withTarget w self target below fun handle =>
        complete w c handle status (arguments.completion status) .nobody below
  fire : ∀ target status argument self below,
    (Step.fire target status argument).begin w self below =
      withTarget w self target below fun handle =>
        match w.callbacks.lookup handle with
        | some shape =>
          complete w c handle status ((argument.arguments shape).completion status) .nobody below
        | none => answer w .noCallback below
  /-- Wrapped functions are registered in its table, under its next handle. -/
  command : ∀ cmd arguments reply during self below, Command.arguments cmd = .ok arguments →
    (Step.command cmd reply during).begin w self below =
      register w c cmd.operation (.caller cmd.shape true) (.command cmd arguments) reply during
        below
  /-- A native function that fails gives its entry in the table back, and its status means what it
  means to the correlator. -/
  failure : ∀ id ticket operation handle status during below t, status ≠ successStatus →
    c.table.removeOwned handle id = some t →
      returned w id ticket operation handle status during below =
        (w.setTable t,
          .resolve id (.error (c.statuses.errorOf status)) (.failed handle status)
            (.fail id ticket operation handle (c.statuses.errorOf status) during) :: below)
  /-- A call that is handed out waits for as long as the correlator says. -/
  call : ∀ cmd arguments id native during result,
    (Ticket.settle (.command cmd arguments) w id native during result).1.calls =
      w.calls ++ [some ⟨cmd.shape, .operation id, result.toOption, c.callTimeout⟩]
  configuration : ∀ self answers call status below,
    advance w (.script self [] answers :: .configure call status :: below) =
      some (answer w (.configured (c.statuses.check status) (some call) answers) below)

theorem World.servedBy_of_present {w : World} {c : Correlator} (hc : w.correlator = .present c) :
    w.ServedBy c := by
  have hstatuses : w.statuses = c.statuses := by
    simp only [World.statuses, hc]
  have hcorrelator : ∀ below go, withCorrelator w below go = go c := by
    intro below go
    simp only [withCorrelator, hc]
  have hcallBack : ∀ handle status arguments below, callBack w handle status arguments below =
      complete w c handle status (arguments.completion status) .nobody below := by
    intro handle status arguments below
    simp only [callBack, hc]
  have hinstall : ∀ other, w.install other = (.error other, w) := by
    intro other
    simp only [World.install, hc]
  refine ⟨hinstall, ?_, ?_, ?_, ?_, ?_, ?_, ?_, ?_, ?_, ?_⟩
  · intro self below config other hconfig
    simp only [Step.begin, hconfig, hinstall]
    rfl
  · intro self below
    simp only [Step.begin, World.isInstalled, hc]
  · intro self below
    simp only [Step.begin, World.installDefault_of_present hc, hcorrelator]
  · intro question self below
    exact hcorrelator below _
  · intro target status arguments self below
    simp only [Step.begin, hcallBack]
  · intro target status argument self below
    refine congrArg (withTarget w self target below) (funext fun handle => ?_)
    cases w.callbacks.lookup handle with
    | none => rfl
    | some shape => exact hcallBack ..
  · intro cmd arguments reply during self below harguments
    simp only [Step.begin, harguments, World.installDefault_of_present hc, hcorrelator]
  · intro id ticket operation handle status during below t hstatus ht
    simp only [returned, if_neg hstatus, hc, ht, hstatuses]
  · intro cmd arguments id native during result
    simp only [Ticket.settle, hc]
    rfl
  · intro self answers call status below
    simp only [advance, resume, hstatuses]

/-- There is no correlator.  Steps that need one install the default one; callbacks and the
configuration of the running library do without. -/
structure Threads.Vacant (t : Threads) : Prop where
  install : ∀ c, t.world.install c =
    (.ok (), World.note { t.world with correlator := .present c } .installed)
  isInstalled : ∀ self below,
    Step.isInstalled.begin t.world self below = answer t.world (.flag false) below
  callback : ∀ target status arguments self below,
    (Step.callback target status arguments).begin t.world self below =
      withTarget t.world self target below fun handle =>
        answer (t.world.note (.uncorrelated handle status)) .done below
  fire : ∀ target status argument self below,
    (Step.fire target status argument).begin t.world self below =
      withTarget t.world self target below fun handle =>
        match t.world.callbacks.lookup handle with
        | some _ => answer (t.world.note (.uncorrelated handle status)) .done below
        | none => answer t.world .noCallback below
  /-- A wrapped function whose arguments are rejected adds the call that has failed, and that is
  all. -/
  rejected : ∀ cmd e reply during self below, Command.arguments cmd = .error e →
    (Step.command cmd reply during).begin t.world self below =
      answer (t.world.addCall ⟨cmd.shape, .failed e, none, none⟩)
        (.called t.world.calls.length ⟨cmd.shape, .failed e, none, none⟩ none []) below
  configuration : ∀ self answers call status below,
    advance t.world (.script self [] answers :: .configure call status :: below) =
      some (answer t.world
        (.configured (StatusTable.published.check status) (some call) answers) below)
  /-- Nothing else installs a correlator. -/
  stays : ∀ i, (t.running[i]?).bind Stack.installs? = none →
    (t.move i).world.correlator = .absent .notInstalled
  installs : ∀ i c, (t.running[i]?).bind Stack.installs? = some c → (t.move i).world.HoldsOn c

theorem Threads.vacant_of_notInstalled {t : Threads}
    (ht : t.world.correlator = .absent .notInstalled) : t.Vacant := by
  have hcallBack : ∀ handle status arguments below, callBack t.world handle status arguments below =
      answer (t.world.note (.uncorrelated handle status)) .done below := by
    intro handle status arguments below
    simp only [callBack, ht]
  refine ⟨?_, ?_, ?_, ?_, ?_, ?_, ?_, ?_⟩
  · intro c
    simp only [World.install, ht]
  · intro self below
    simp only [Step.begin, World.isInstalled, ht]
  · intro target status arguments self below
    simp only [Step.begin, hcallBack]
  · intro target status argument self below
    refine congrArg (withTarget t.world self target below) (funext fun handle => ?_)
    cases t.world.callbacks.lookup handle with
    | none => rfl
    | some shape => exact hcallBack ..
  · intro cmd e reply during self below harguments
    simp only [Step.begin, harguments]
  · intro self answers call status below
    simp only [advance, resume, World.statuses, ht]
  · intro i hnone
    rcases move_cases t i with hsame | ⟨stack, v, stack', hi, hadvance, hmove⟩
    · rw [hsame]
      exact ht
    · rw [hi] at hnone
      rw [hmove]
      exact vacant_of_advance hadvance ht hnone
  · intro i c hsome
    obtain ⟨stack, hi, hinstalls⟩ := Option.bind_eq_some_iff.mp hsome
    obtain ⟨self, s, rest, answers, below, rfl, -⟩ := Stack.exists_step_of_installs hinstalls
    have hadvance : advance t.world (.script self (s :: rest) answers :: below) =
        some (s.begin t.world self (.script self rest answers :: below)) := rfl
    have hmove : (t.move i).world =
        (s.begin t.world self (.script self rest answers :: below)).1 := by
      simp only [move, hi, hadvance]
    rw [hmove]
    exact holdsOn_of_advance hadvance ht hinstalls

/-! ### A process -/

namespace Threads

/-- Threads with these scripts in a process that has no correlator yet. -/
def startVacant (scripts : List (List Step)) : Threads :=
  ⟨{}, scripts.map (fun steps => [.script none steps []])⟩

/-- What happens next in a process: a section of some thread, or somebody installs some
correlator. -/
inductive Proceeds (t : Threads) : Threads → Prop
  | moved (i : Nat) : Proceeds t (t.move i)
  | installs (c : Correlator) : Proceeds t ⟨(t.world.install c).2, t.running⟩

/-- No thread gives the correlator up. -/
def NeverDrop (t : Threads) : Prop :=
  ∀ stack ∈ t.running, stack.NeverDrops

theorem neverDrop_startVacant {scripts : List (List Step)}
    (hkept : ∀ script ∈ scripts, ∀ order, Step.drop order ∉ script) :
    (startVacant scripts).NeverDrop := by
  intro stack hstack
  obtain ⟨script, hscript, rfl⟩ := List.mem_map.mp hstack
  exact ⟨script, ⟨[], rfl⟩, hkept script hscript⟩

theorem NeverDrop.proceeds {t u : Threads} (h : t.NeverDrop) (hnext : t.Proceeds u) :
    u.NeverDrop := by
  cases hnext with
  | installs c => exact h
  | moved i =>
    rcases move_cases t i with hsame | ⟨stack, v, stack', hi, hadvance, hmove⟩
    · rw [hsame]
      exact h
    · rw [hmove]
      intro other hother
      rcases List.mem_or_eq_of_mem_set hother with hold | rfl
      · exact h other hold
      · exact (section_of_advance hadvance).neverDrops (h stack (List.mem_of_getElem? hi))

/-- **The step lemma.**  Whatever happens next, an installed correlator stays. -/
theorem Proceeds.becomes {t u : Threads} {c : Correlator} (hnext : t.Proceeds u)
    (hc : t.world.correlator = .present c) (h : t.NeverDrop) : u.world.HoldsOn c := by
  cases hnext with
  | installs other =>
    rw [(World.servedBy_of_present hc).install other]
    exact World.holdsOn_of_eq hc
  | moved i =>
    rcases move_cases t i with hsame | ⟨stack, v, stack', hi, hadvance, hmove⟩
    · rw [hsame]
      exact World.holdsOn_of_eq hc
    · rw [hmove]
      exact (section_of_advance hadvance).becomes hc (h stack (List.mem_of_getElem? hi))

/-- From the first correlator on, every state holds on to it. -/
theorem becomes_of_present {t u : Threads} {c : Correlator}
    (hlater : Relation.ReflTransGen Proceeds t u) (hc : t.world.correlator = .present c)
    (h : t.NeverDrop) : u.world.HoldsOn c ∧ u.NeverDrop := by
  induction hlater with
  | refl => exact ⟨World.holdsOn_of_eq hc, h⟩
  | tail _ hnext ih =>
    obtain ⟨⟨d, hd, hbecomes⟩, hnever⟩ := ih
    obtain ⟨e, he, hnow⟩ := hnext.becomes hd hnever
    exact ⟨⟨e, he, hbecomes.trans hnow⟩, hnever.proceeds hnext⟩

/-- A process has no correlator yet, or it has one and nobody gives it up. -/
theorem present_or_vacant {scripts : List (List Step)}
    (hkept : ∀ script ∈ scripts, ∀ order, Step.drop order ∉ script) {t : Threads}
    (ht : Relation.ReflTransGen Proceeds (startVacant scripts) t) :
    (t.world.correlator = .absent .notInstalled ∨ ∃ c, t.world.correlator = .present c) ∧
      t.NeverDrop := by
  induction ht with
  | refl => exact ⟨.inl rfl, neverDrop_startVacant hkept⟩
  | @tail t u _ hnext ih =>
    obtain ⟨hcorrelator, hnever⟩ := ih
    refine ⟨?_, hnever.proceeds hnext⟩
    rcases hcorrelator with hvacant | ⟨c, hc⟩
    · have hanswers := vacant_of_notInstalled hvacant
      cases hnext with
      | installs c =>
        rw [hanswers.install c]
        exact .inr ⟨c, rfl⟩
      | moved i =>
        cases hinstalls : (t.running[i]?).bind Stack.installs? with
        | none => exact .inl (hanswers.stays i hinstalls)
        | some c =>
          obtain ⟨d, hd, -⟩ := hanswers.installs i c hinstalls
          exact .inr ⟨d, hd⟩
    · obtain ⟨d, hd, -⟩ := hnext.becomes hc hnever
      exact .inr ⟨d, hd⟩

/-- **One correlator for good.**  At any time a process has no correlator, and then it gets one
from an installation or from a step that installs one and from nothing else; or it has one, and then
this is the one that everyone finds from now on. -/
theorem one_correlator {scripts : List (List Step)}
    (hkept : ∀ script ∈ scripts, ∀ order, Step.drop order ∉ script) {t : Threads}
    (ht : Relation.ReflTransGen Proceeds (startVacant scripts) t) :
    (t.world.correlator = .absent .notInstalled ∧ t.Vacant) ∨
      ∃ c, t.world.correlator = .present c ∧
        ∀ u, Relation.ReflTransGen Proceeds t u →
          ∃ d, u.world.correlator = .present d ∧ c.Becomes d ∧ u.world.ServedBy d := by
  obtain ⟨hcorrelator, hnever⟩ := present_or_vacant hkept ht
  rcases hcorrelator with hvacant | ⟨c, hc⟩
  · exact .inl ⟨hvacant, vacant_of_notInstalled hvacant⟩
  · refine .inr ⟨c, hc, fun u hu => ?_⟩
    obtain ⟨⟨d, hd, hbecomes⟩, -⟩ := becomes_of_present hu hc hnever
    exact ⟨d, hd, hbecomes, World.servedBy_of_present hd⟩

/-- A wrapped function installs the default correlator, and another thread comes too late with its
own. -/
theorem one_correlator_lazy :
    ∃ c, ((startVacant [[.command (.closeWallet 1) (fun _ => 0) []], [.install none]]).move
        0).world.correlator = .present c ∧
      ∀ u, Relation.ReflTransGen Proceeds
          ((startVacant [[.command (.closeWallet 1) (fun _ => 0) []], [.install none]]).move 0) u →
        ∃ d, u.world.correlator = .present d ∧ c.Becomes d ∧ u.world.ServedBy d := by
  have hkept : ∀ script ∈ [[Step.command (.closeWallet 1) (fun _ => 0) []], [.install none]],
      ∀ order, Step.drop order ∉ script := by
    simp
  have hfirst : (startVacant [[.command (.closeWallet 1) (fun _ => 0) []], [.install none]]).Vacant :=
    vacant_of_notInstalled rfl
  obtain ⟨c, hc, -⟩ := hfirst.installs 0 {} rfl
  rcases one_correlator hkept (.single (.moved 0)) with ⟨hvacant, -⟩ | hpresent
  · cases hvacant.symm.trans hc
  · exact hpresent

end Threads

end CommandBridge

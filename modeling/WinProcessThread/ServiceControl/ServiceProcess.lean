import WinProcessThread.ServiceControl.StoppedService
import WinProcessThread.Service.Reporting

/-!
# The process of the service

`ServiceMain` never returns, but its process has another thread.  The one that runs `main` waits in
`StartServiceCtrlDispatcher`, which calls the handler on this thread and returns once the manager
has received `STOPPED` for the only service; then `main` returns and the process ends with all of
its threads.  So the loop of `Service_Init` goes round for ever only if no `STOPPED` report arrives.
-/

namespace WinProcessThread.ServiceControl

open Service Transition

/-! ## The process -/

/-- Where the thread that runs `main` is. -/
inductive ProgramThread
  /-- In the dispatcher, which calls the handler. -/
  | dispatching
  /-- Behind the dispatcher. -/
  | returning
  /-- The process has ended. -/
  | exited
deriving DecidableEq, Repr

structure ServiceProcess where
  world : Service.World
  program : ProgramThread
deriving DecidableEq, Repr

inductive ProcessAction
  /-- A step of `ServiceMain` or the handler, or a control that is delivered. -/
  | service (action : Action)
  | dispatcherReturns
  | exit
deriving DecidableEq, Repr

/-- The handler is called by the dispatcher only, and `ServiceMain` runs until the process ends. -/
def ProgramThread.Runs : ProgramThread → Action → Prop
  | .dispatching, _ => True
  | .returning, .main _ => True
  | _, _ => False

instance (program : ProgramThread) (action : Action) : Decidable (program.Runs action) :=
  match program, action with
  | .dispatching, _ => .isTrue trivial
  | .returning, .main _ => .isTrue trivial
  | .returning, .deliver _ => .isFalse id
  | .returning, .handler _ => .isFalse id
  | .exited, _ => .isFalse id

/-- The dispatcher returns when its only service has been received as stopped, and not out of the
handler. -/
def DispatcherReturns (process : ServiceProcess) : Prop :=
  process.program = .dispatching ∧ process.world.handler = .idle ∧
    recordedState process.world = serviceStopped

instance (process : ServiceProcess) : Decidable (DispatcherReturns process) :=
  inferInstanceAs (Decidable (_ ∧ _ ∧ _))

def processStep (process : ServiceProcess) : ProcessAction → Option ServiceProcess
  | .service action =>
    if process.program.Runs action then
      (Service.step process.world action).map fun world ↦ { process with world := world }
    else
      none
  | .dispatcherReturns =>
    if DispatcherReturns process then some { process with program := .returning } else none
  | .exit =>
    if process.program = .returning then some { process with program := .exited } else none

/-- The delivery rules of the manager. -/
def ProcessAllows (process : ServiceProcess) : ProcessAction → Prop
  | .service action => ScmAllows process.world action
  | _ => True

abbrev ProcessStep : ServiceProcess → ProcessAction → ServiceProcess → Prop :=
  guarded ProcessAllows (ofPartial processStep)

/-- The manager has started the process, and the dispatcher `ServiceMain`. -/
def initialProcess : ServiceProcess where
  world := Service.initial
  program := .dispatching

def ProcessAction.IsMain : ProcessAction → Prop
  | .service action => action.IsMain
  | _ => False

def ProcessAction.IsHandler : ProcessAction → Prop
  | .service action => action.IsHandler
  | _ => False

/-- Both threads are scheduled again and again while they can take a step.  The handler, the
dispatcher and the end of `main` share a thread, and at most one of them can take a step. -/
structure FairProcess (exec : Execution ProcessStep initialProcess) : Prop where
  main : exec.WeaklyFair ProcessAction.IsMain
  handler : exec.WeaklyFair ProcessAction.IsHandler
  dispatcher : exec.WeaklyFair (· = .dispatcherReturns)
  exit : exec.WeaklyFair (· = .exit)

variable {process next : ServiceProcess} {w after : Service.World}
variable {exec : Execution ProcessStep initialProcess} {n : ℕ}

/-- What a step of the process can do. -/
theorem processStep_cases {action : ProcessAction} (hstep : ProcessStep process action next) :
    (∃ act, action = .service act ∧ process.program.Runs act ∧
        ScmStep process.world act next.world ∧ next.program = process.program) ∨
      (action = .dispatcherReturns ∧ DispatcherReturns process ∧
        next = { process with program := .returning }) ∨
      (action = .exit ∧ process.program = .returning ∧
        next = { process with program := .exited }) := by
  obtain ⟨hallows, hnext⟩ := hstep
  cases action with
  | service act =>
    left
    simp only [ofPartial, processStep] at hnext
    split at hnext
    next hruns =>
      obtain ⟨world, hworld, hafter⟩ := Option.map_eq_some_iff.mp hnext
      rw [← hafter]
      exact ⟨act, rfl, hruns, ⟨hallows, hworld⟩, rfl⟩
    next => cases hnext
  | dispatcherReturns =>
    simp only [ofPartial, processStep] at hnext
    split at hnext
    next hreturns => exact .inr (.inl ⟨rfl, hreturns, (Option.some.inj hnext).symm⟩)
    next => cases hnext
  | exit =>
    simp only [ofPartial, processStep] at hnext
    split at hnext
    next hreturning => exact .inr (.inr ⟨rfl, hreturning, (Option.some.inj hnext).symm⟩)
    next => cases hnext

theorem returning_of_step (hstep : ProcessStep process .dispatcherReturns next) :
    DispatcherReturns process ∧ next.program = .returning := by
  rcases processStep_cases hstep with ⟨_, hother, -⟩ | ⟨-, hreturns, rfl⟩ | ⟨hother, -⟩
  · cases hother
  · exact ⟨hreturns, rfl⟩
  · cases hother

theorem exited_of_step (hstep : ProcessStep process .exit next) :
    process.program = .returning ∧ next.program = .exited := by
  rcases processStep_cases hstep with ⟨_, hother, -⟩ | ⟨hother, -⟩ | ⟨-, hreturning, rfl⟩
  · cases hother
  · cases hother
  · exact ⟨hreturning, rfl⟩

/-- A step of the service is one of its process, as long as its thread runs. -/
theorem processStep_service {act : Action} (hruns : process.program.Runs act)
    (hstep : ScmStep process.world act after) :
    ProcessStep process (.service act) { process with world := after } := by
  refine ⟨hstep.1, ?_⟩
  have hnext : Service.step process.world act = some after := hstep.2
  simp [ofPartial, processStep, hruns, hnext]

/-! ## The service in its process -/

/-- The action of the service in an action of the process. -/
def ProcessAction.ofService : ProcessAction → Option Action
  | .service action => some action
  | _ => none

/-- The execution of the service in one of its process. -/
def serviceExecution (exec : Execution ProcessStep initialProcess) :
    Execution ScmStep Service.initial :=
  exec.project ServiceProcess.world ProcessAction.ofService
    (fun _ _ _ _ hstep hseen ↦ by
      rcases processStep_cases hstep with ⟨act, rfl, -, hservice, -⟩ | ⟨rfl, -⟩ | ⟨rfl, -⟩
      · cases hseen
        exact hservice
      · cases hseen
      · cases hseen)
    (fun _ _ _ hstep hsilent ↦ by
      rcases processStep_cases hstep with ⟨act, rfl, -⟩ | ⟨-, -, rfl⟩ | ⟨-, -, rfl⟩
      · cases hsilent
      · rfl
      · rfl)

/-- As long as the process has not ended, `ServiceMain` takes its steps there. -/
theorem serviceExecution_fair (hfair : exec.WeaklyFair ProcessAction.IsMain)
    (hruns : ∀ n, (exec.state n).program ≠ .exited) :
    (serviceExecution exec).WeaklyFair Action.IsMain := by
  intro n henabled
  obtain ⟨m, action, hle, haction, hmain⟩ := hfair n fun m hm ↦ by
    obtain ⟨act, world, hact, hstep⟩ := henabled m hm
    cases act with
    | main lastError =>
      have hthread : (exec.state m).program.Runs (.main lastError) := by
        cases hprogram : (exec.state m).program with
        | dispatching => trivial
        | returning => trivial
        | exited => exact absurd hprogram (hruns m)
      exact ⟨.service (.main lastError), _, trivial, processStep_service hthread hstep⟩
    | deliver controlCode => cases hact
    | handler lastError => cases hact
  cases action with
  | service act =>
    refine ⟨m, act, hle, ?_, hmain⟩
    change (exec.action m).bind _ = _
    rw [haction]
    rfl
  | dispatcherReturns => cases hmain
  | exit => cases hmain

/-! ## Whence a stop comes -/

/-- A service in its last phase has been asked to stop, or is about to note it. -/
structure StopAsked (w : Service.World) : Prop where
  refines : ∃ phase, Refines w phase
  asked : Refines w .stopped → StopDue w ∨ w.handler = .setEvent

/-- A step that leaves the shared status and the place of `ServiceMain` alone does not enter the
last phase. -/
theorem refines_stopped_of_same (hbefore : ∃ phase, Refines w phase)
    (hafter : Refines after .stopped) (hstatus : after.serviceStatus = w.serviceStatus)
    (hmain : after.main = w.main) : Refines w .stopped := by
  obtain ⟨phase, href⟩ := hbefore
  have hstopped := hafter.matched
  rw [Phase.Matches, hmain, hstatus] at hstopped
  have hmatched := href.matched
  cases phase with
  | initial =>
    exfalso
    rcases hstopped.1 with hplace | hplace <;> simp [Phase.Matches, hplace] at hmatched
  | starting =>
    exfalso
    rcases hstopped.1 with hplace | hplace <;> simp [Phase.Matches, hplace] at hmatched
  | running => exact absurd (hmatched.2.2.2.symm.trans hstopped.2) (by decide)
  | stopped => exact href

theorem refines_stopped_of_reportStopped {phase : Phase} (href : Refines w phase)
    (hmain : w.main = .reportStopped) : Refines w .stopped := by
  have hmatched := href.matched
  cases phase with
  | initial | starting | running => simp [Phase.Matches, hmain] at hmatched
  | stopped => exact href

/-- In the last phase `ServiceMain` is behind `CreateEvent`. -/
theorem pastCreateEvent_of_stopped (href : Refines w .stopped) : w.main.PastCreateEvent := by
  rcases href.matched.1 with hmain | hmain
  · exact .inr (.inl hmain)
  · exact .inr (.inr (.inl hmain))

theorem StopAsked.step {action : Action} (hasked : StopAsked w)
    (hstep : ScmStep w action after) : StopAsked after := by
  have hmove := move_of_step hstep.2
  obtain ⟨phase, href⟩ := hasked.refines
  refine ⟨href.step hstep, fun hafter ↦ ?_⟩
  have hpast := pastCreateEvent_of_stopped hafter
  have hstopped : after.serviceStatus.dwCurrentState = serviceStopped := hafter.matched.2
  -- the same phase before the step, for the steps that do not report
  have hsame := refines_stopped_of_same hasked.refines hafter
  cases hmove with
  | registerHandler _ hmain | reportStartPending _ hmain | setInitialStatus _ hmain
  | createEvent _ hmain =>
    have hplace := hafter.matched.1
    simp at hplace
  | reportInitial _ hmain =>
    by_cases hevent : w.stopServiceEvent = none
    · exact .inl (.inr ⟨hpast, hevent⟩)
    · rw [if_neg hevent] at hstopped
      have hother : serviceRunning ≠ serviceStopped := by decide
      exact absurd hstopped hother
  | waitForStop _ hmain hreturns =>
    left
    cases hevent : w.stopServiceEvent with
    | none => exact .inr ⟨.inr (.inr (.inl rfl)), rfl⟩
    | some signaled =>
      cases signaled with
      | false => exact absurd hevent hreturns
      | true => exact .inl rfl
  | reportStopped _ hmain =>
    have hlast : Refines w .stopped := refines_stopped_of_reportStopped href hmain
    rcases hasked.asked hlast with (hsignaled | ⟨-, hnull⟩) | hsets
    · exact .inl (.inl hsignaled)
    · exact .inl (.inr ⟨hpast, hnull⟩)
    · exact .inr hsets
  | deliver controlCode hidle hmain =>
    rcases hasked.asked (hsame rfl rfl) with hdue | hsets
    · exact .inl hdue
    · exact absurd (hidle.symm.trans hsets) (by simp)
  | branch controlCode lastError hhandler hbranch =>
    cases hbranch with
    | stop => exact .inr rfl
    | none =>
      rcases hasked.asked (hsame rfl rfl) with hdue | hsets
      · exact .inl hdue
      · exact absurd (hhandler.symm.trans hsets) (by simp)
    | shutdown =>
      have hother : serviceControlShutdown ≠ serviceStopped := by decide
      exact absurd hstopped hother
    | pause =>
      have hother : servicePaused ≠ serviceStopped := by decide
      exact absurd hstopped hother
    | «continue» =>
      have hother : serviceRunning ≠ serviceStopped := by decide
      exact absurd hstopped hother
  | setEvent lastError hhandler =>
    left
    by_cases hevent : w.stopServiceEvent = none
    · refine .inr ⟨hpast, ?_⟩
      simp [setEvent, hevent]
    · exact .inl (setEvent_signals hevent)
  | setFinalStatus lastError hhandler =>
    rcases hasked.asked (hsame rfl rfl) with hdue | hsets
    · exact .inl hdue
    · exact absurd (hhandler.symm.trans hsets) (by simp)

theorem stopAsked (exec : Execution ScmStep Service.initial) (n : ℕ) :
    StopAsked (exec.state n) := by
  have hstart : StopAsked Service.initial := by
    refine ⟨⟨.initial, refines_initial⟩, fun hstopped ↦ ?_⟩
    have hplace := hstopped.matched.1
    simp [Service.initial] at hplace
  exact exec.invariant StopAsked hstart (fun _ _ _ hasked hstep ↦ hasked.step hstep) n

/-! ## What the manager receives -/

/-- A report that arrives is what the manager then holds. -/
theorem received_of_report {action : Action} (hmove : Move w action after) :
    ∃ later, after.log = w.log ++ later ∧
      ∀ caller status, .report caller status none ∈ later → after.received = status := by
  cases hmove with
  | branch controlCode lastError hhandler hbranch =>
    cases hbranch <;> simp +contextual [reportServiceStatus, setServiceStatus, eq_comm]
  | setEvent lastError hhandler =>
    unfold setEvent
    split <;> simp
  | _ => simp +contextual [reportServiceStatus, setServiceStatus, eq_comm]

/-- A `STOPPED` that has arrived is still held. -/
structure StopReceived (w : Service.World) : Prop where
  recorded : RecordedStopped w
  received : ∀ caller status, .report caller status none ∈ w.log →
    status.dwCurrentState = serviceStopped → recordedState w = serviceStopped

theorem StopReceived.step {action : Action} (hreceived : StopReceived w)
    (hstep : ScmStep w action after) : StopReceived after := by
  refine ⟨hreceived.recorded.step hstep, fun caller status hreport hstopped ↦ ?_⟩
  obtain ⟨later, hlog, hlater⟩ := received_of_report (move_of_step hstep.2)
  rw [hlog] at hreport
  rcases List.mem_append.mp hreport with hearlier | hthis
  · have hrecord := hreceived.received caller status hearlier hstopped
    have hbehind : StoppedBehind w.log w :=
      ⟨hreceived.recorded.stopped hrecord, hrecord, [], by simp, by simp⟩
    exact (hbehind.step hstep).record
  · rw [recordedState, hlater caller status hthis]
    exact hstopped

theorem stopReceived (exec : Execution ScmStep Service.initial) (n : ℕ) :
    StopReceived (exec.state n) :=
  exec.invariant StopReceived ⟨recordedStopped_initial, nofun⟩
    (fun _ _ _ hreceived hstep ↦ hreceived.step hstep) n

/-! ## The end of the process -/

/-- The manager holds the service as stopped, for good. -/
def HeldStopped (process : ServiceProcess) : Prop :=
  ∃ log, StoppedBehind log process.world

theorem HeldStopped.record (hheld : HeldStopped process) :
    recordedState process.world = serviceStopped := by
  obtain ⟨log, hbehind⟩ := hheld
  exact hbehind.record

/-- The steps that are left of a handler invocation. -/
def handlerLeft : HandlerThread → ℕ
  | .idle => 0
  | .setFinalStatus => 1
  | .setEvent => 2
  | .dispatched _ => 3

theorem handlerLeft_of_move {lastError : Option DWORD} (hmove : Move w (.handler lastError) after) :
    handlerLeft after.handler < handlerLeft w.handler := by
  cases hmove with
  | branch controlCode _ hhandler hbranch =>
    rw [hhandler]
    cases hbranch <;> simp [handlerLeft]
  | setEvent _ hhandler => simp [handlerLeft, hhandler]
  | setFinalStatus _ hhandler => simp [handlerLeft, hhandler]

theorem handler_eq_of_main {lastError : Option DWORD} (hmove : Move w (.main lastError) after) :
    after.handler = w.handler := by
  cases hmove <;> rfl

/-- Once the service is held as stopped, the next step is one of `ServiceMain`, which leaves the
handler alone, one of the handler, or the way out of the dispatcher and of the process. -/
theorem HeldStopped.step {action : ProcessAction} (hheld : HeldStopped process)
    (hstep : ProcessStep process action next) :
    HeldStopped next ∧
      (next.program = process.program ∧
          (action.IsHandler ∧ handlerLeft next.world.handler < handlerLeft process.world.handler ∨
            ¬ action.IsHandler ∧ next.world.handler = process.world.handler) ∨
        action = .dispatcherReturns ∧ DispatcherReturns process ∧ next.program = .returning ∨
        action = .exit ∧ process.program = .returning ∧ next.program = .exited) := by
  obtain ⟨log, hbehind⟩ := hheld
  rcases processStep_cases hstep with
    ⟨act, rfl, -, hservice, hprogram⟩ | ⟨rfl, hreturns, rfl⟩ | ⟨rfl, hreturning, rfl⟩
  · refine ⟨⟨log, hbehind.step hservice⟩, .inl ⟨hprogram, ?_⟩⟩
    have hmove := move_of_step hservice.2
    cases act with
    | main lastError => exact .inr ⟨id, handler_eq_of_main hmove⟩
    | handler lastError => exact .inl ⟨trivial, handlerLeft_of_move hmove⟩
    | deliver controlCode => exact absurd hbehind.record hservice.1.1.2.2
  · exact ⟨⟨log, hbehind⟩, .inr (.inl ⟨rfl, hreturns, rfl⟩)⟩
  · exact ⟨⟨log, hbehind⟩, .inr (.inr ⟨rfl, hreturning, rfl⟩)⟩

/-- The handler comes to its end, and the dispatcher can return. -/
theorem exists_dispatcherReturns (hfair : exec.WeaklyFair ProcessAction.IsHandler)
    (hheld : HeldStopped (exec.state n)) (hprogram : (exec.state n).program = .dispatching) :
    ∃ m, n ≤ m ∧ HeldStopped (exec.state m) ∧ DispatcherReturns (exec.state m) := by
  by_cases hidle : (exec.state n).world.handler = .idle
  · exact ⟨n, le_rfl, hheld, hprogram, hidle, hheld.record⟩
  apply exec.eventually_of_rank hfair
    (fun process ↦ HeldStopped process ∧ DispatcherReturns process)
    (fun process ↦ HeldStopped process ∧ process.program = .dispatching ∧
      process.world.handler ≠ .idle)
    (fun process ↦ handlerLeft process.world.handler)
  · rintro process ⟨-, hdispatching, hbusy⟩
    have hpossible : ∃ after, handlerStep none process.world = some after := by
      unfold handlerStep
      cases hhandler : process.world.handler with
      | idle => exact absurd hhandler hbusy
      | _ => exact ⟨_, rfl⟩
    obtain ⟨after, hafter⟩ := hpossible
    have hruns : process.program.Runs (.handler none) := by
      rw [hdispatching]
      trivial
    exact ⟨.service (.handler none), _, trivial, processStep_service hruns ⟨trivial, hafter⟩⟩
  · rintro process action next ⟨hheld, hdispatching, hbusy⟩ hother hstep
    obtain ⟨hnext, hcases⟩ := hheld.step hstep
    rcases hcases with ⟨hsame, ⟨hhandler, -⟩ | ⟨-, hkept⟩⟩ | ⟨-, hreturns, -⟩ | ⟨-, hreturning, -⟩
    · exact absurd hhandler hother
    · rw [hsame, hkept]
      exact ⟨⟨hnext, hdispatching, hbusy⟩, rfl⟩
    · exact absurd hreturns.2.1 hbusy
    · exact absurd (hdispatching.symm.trans hreturning) (by simp)
  · rintro m action haction hhandler ⟨hheld, hdispatching, hbusy⟩
    obtain ⟨hnext, hcases⟩ := hheld.step (exec.moves m action haction)
    rcases hcases with ⟨hsame, ⟨-, hlower⟩ | ⟨hother, -⟩⟩ | ⟨rfl, -⟩ | ⟨rfl, -⟩
    · have hstill := hsame.trans hdispatching
      by_cases hdone : (exec.state (m + 1)).world.handler = .idle
      · exact .inl ⟨hnext, hstill, hdone, hnext.record⟩
      · exact .inr ⟨⟨hnext, hstill, hdone⟩, hlower⟩
    · exact absurd hhandler hother
    · cases hhandler
    · cases hhandler
  · exact ⟨hheld, hprogram, hidle⟩

theorem exists_returning (hfair : exec.WeaklyFair (· = .dispatcherReturns))
    (hheld : HeldStopped (exec.state n)) (hreturns : DispatcherReturns (exec.state n)) :
    ∃ m, (exec.state m).program = .returning := by
  obtain ⟨m, action, -, ⟨hheld, hready⟩, haction, rfl⟩ :=
    exec.eventually_takes hfair (fun process ↦ HeldStopped process ∧ DispatcherReturns process)
      (by
        rintro process ⟨-, hready⟩
        exact ⟨.dispatcherReturns, _, rfl, trivial, if_pos hready⟩)
      (by
        rintro process action next ⟨hheld, hdispatching, hidle, -⟩ hother hstep
        obtain ⟨hnext, hcases⟩ := hheld.step hstep
        rcases hcases with ⟨hsame, ⟨-, hlower⟩ | ⟨-, hkept⟩⟩ | ⟨rfl, -⟩ | ⟨-, hreturning, -⟩
        · rw [hidle] at hlower
          exact absurd hlower (Nat.not_lt_zero _)
        · exact ⟨hnext, hsame.trans hdispatching, hkept.trans hidle, hnext.record⟩
        · exact absurd rfl hother
        · exact absurd (hdispatching.symm.trans hreturning) (by simp))
      ⟨hheld, hreturns⟩
  exact ⟨m + 1, (returning_of_step (exec.moves m _ haction)).2⟩

theorem exists_exited (hfair : exec.WeaklyFair (· = .exit))
    (hreturning : (exec.state n).program = .returning) :
    ∃ m, (exec.state m).program = .exited := by
  obtain ⟨m, action, -, -, haction, rfl⟩ :=
    exec.eventually_takes hfair (fun process ↦ process.program = .returning)
      (fun process hready ↦ ⟨.exit, _, rfl, trivial, if_pos hready⟩)
      (by
        intro process action next hready hother hstep
        rcases processStep_cases hstep with ⟨_, -, -, -, hsame⟩ | ⟨-, hreturns, -⟩ | ⟨hexit, -⟩
        · exact hsame.trans hready
        · exact absurd (hready.symm.trans hreturns.1) (by simp)
        · exact absurd hexit hother)
      hreturning
  exact ⟨m + 1, (exited_of_step (exec.moves m _ haction)).2⟩

/-- Under fair scheduling a service that is held as stopped takes its process with it. -/
theorem exists_exited_of_stopped (hfair : FairProcess exec)
    (hrecord : recordedState (exec.state n).world = serviceStopped) :
    ∃ m, (exec.state m).program = .exited := by
  cases hprogram : (exec.state n).program with
  | dispatching =>
    have hbehind : StoppedBehind ((serviceExecution exec).state n).log
        ((serviceExecution exec).state n) := stoppedBehind hrecord le_rfl
    obtain ⟨m, -, hheld, hreturns⟩ :=
      exists_dispatcherReturns hfair.handler ⟨_, hbehind⟩ hprogram
    obtain ⟨k, hreturning⟩ := exists_returning hfair.dispatcher hheld hreturns
    exact exists_exited hfair.exit hreturning
  | returning => exact exists_exited hfair.exit hprogram
  | exited => exact ⟨n, hprogram⟩

/-- A process that has ended has left its dispatcher before. -/
theorem exists_dispatcherReturns_of_exited (hexited : (exec.state n).program = .exited) :
    ∃ m, DispatcherReturns (exec.state m) := by
  have houtside : (exec.state n).program ≠ .dispatching := by simp [hexited]
  obtain ⟨m, action, haction, hinside, hleft⟩ :=
    exec.exists_entry (fun process ↦ process.program ≠ .dispatching) (by simp [initialProcess])
      houtside
  rcases processStep_cases (exec.moves m action haction) with
    ⟨_, -, -, -, hsame⟩ | ⟨-, hreturns, -⟩ | ⟨-, hreturning, -⟩
  · exact absurd (hsame ▸ hleft) hinside
  · exact ⟨m, hreturns⟩
  · exact absurd (by simp [hreturning]) hinside

/-- The reports of `STOPPED` in a log have all failed. -/
def NoneArrives (log : List Event) : Prop :=
  ∀ caller status lastError, .report caller status lastError ∈ log →
    status.dwCurrentState = serviceStopped → lastError ≠ none

/-- **The end of the service.**  In every execution of the process under the delivery rules that is
fair to its threads, the process ends exactly when the manager holds the service as stopped at some
instant, and only if a stop has come due.  Once one has, the process ends or `ServiceMain` reports
`STOPPED` without bound and none of its reports arrives. -/
theorem process_ends (exec : Execution ProcessStep initialProcess) (hfair : FairProcess exec) :
    ((∃ n, (exec.state n).program = .exited) ↔
        ∃ n, recordedState (exec.state n).world = serviceStopped) ∧
      ((∃ n, (exec.state n).program = .exited) → ∃ n, StopDue (exec.state n).world) ∧
      ((∃ n, StopDue (exec.state n).world) →
        (∃ n, (exec.state n).program = .exited) ∨
          (∀ count, ∃ n, count ≤ stoppedReports (exec.state n).world.log) ∧
            ∀ n, NoneArrives (exec.state n).world.log) := by
  refine ⟨⟨?_, ?_⟩, ?_, ?_⟩
  · rintro ⟨n, hexited⟩
    obtain ⟨m, hreturns⟩ := exists_dispatcherReturns_of_exited hexited
    exact ⟨m, hreturns.2.2⟩
  · rintro ⟨n, hrecord⟩
    exact exists_exited_of_stopped hfair hrecord
  · rintro ⟨n, hexited⟩
    obtain ⟨m, -, hidle, hrecord⟩ := exists_dispatcherReturns_of_exited hexited
    have hlast := (recordedStopped (serviceExecution exec) m).stopped hrecord
    rcases (stopAsked (serviceExecution exec) m).asked hlast with hdue | hsets
    · exact ⟨m, hdue⟩
    · exact absurd (hidle.symm.trans hsets) (by simp)
  · rintro ⟨n, hdue⟩
    by_cases hends : ∃ n, (exec.state n).program = .exited
    · exact .inl hends
    · right
      have hruns : ∀ n, (exec.state n).program ≠ .exited := fun n hexited ↦ hends ⟨n, hexited⟩
      have hmain := serviceExecution_fair hfair.main hruns
      have hfree : ∀ (w : Service.World) act, act.IsMain → ScmAllows w act := by
        intro w act hact
        cases act with
        | main lastError => trivial
        | deliver controlCode => cases hact
        | handler lastError => cases hact
      constructor
      · exact stoppedReports_unbounded (hmain.unguarded hfree) hdue
      · intro n caller status lastError hreport hstopped hnone
        rw [hnone] at hreport
        have hrecord :=
          (stopReceived (serviceExecution exec) n).received caller status hreport hstopped
        exact hends (exists_exited_of_stopped hfair hrecord)

/-! ## A process that is stopped -/

/-- All threads in turn, with one `STOP` after the service has reported `RUNNING`. -/
def processSchedule (n : ℕ) : ProcessAction :=
  if n = 20 then .service (.deliver serviceControlStop)
  else if n % 4 = 0 then .service (.main none)
  else if n % 4 = 1 then .service (.handler none)
  else if n % 4 = 2 then .dispatcherReturns
  else .exit

def stoppingExecution : Execution (ofPartial processStep) initialProcess :=
  scheduled processStep initialProcess processSchedule

theorem stoppingExecution_allowed (n : ℕ) (action : ProcessAction)
    (haction : stoppingExecution.action n = some action) :
    ProcessAllows (stoppingExecution.state n) action := by
  have hscheduled : action = processSchedule n := by
    simp only [stoppingExecution, scheduled] at haction
    split at haction
    · exact (Option.some.inj haction).symm
    · cases haction
  rw [hscheduled]
  unfold processSchedule
  split_ifs with hstop
  · rw [hstop]
    change ScmDelivers (stoppingExecution.state 20).world.received serviceControlStop
    decide
  all_goals trivial

/-- The process of a service that receives one `STOP`. -/
def stoppingProcess : Execution ProcessStep initialProcess :=
  stoppingExecution.guarded stoppingExecution_allowed

/-- Whether a step of the service is possible in its process depends on no outcome. -/
theorem service_isSome {act other : Action}
    (hsame : (Service.step process.world act).isSome = (Service.step process.world other).isSome)
    (hruns : process.program.Runs act → process.program.Runs other)
    (hstep : processStep process (.service act) = some next) :
    (processStep process (.service other)).isSome := by
  rw [processStep] at hstep
  split at hstep
  next hthread =>
    obtain ⟨world, hworld, -⟩ := Option.map_eq_some_iff.mp hstep
    rw [hworld, Option.isSome_some] at hsame
    rw [processStep, if_pos (hruns hthread), Option.isSome_map, ← hsame]
  next => cases hstep

theorem stoppingProcess_fair : FairProcess stoppingProcess where
  main := by
    apply Execution.WeaklyFair.guarded
    refine weaklyFair_scheduled fun n ↦ ⟨4 * (n + 6), by omega, ?_⟩
    have hturn : processSchedule (4 * (n + 6)) = .service (.main none) := by
      rw [processSchedule, if_neg (by omega), if_pos (by omega)]
    rw [hturn]
    refine ⟨trivial, ?_⟩
    intro process action next hmain hstep
    cases action with
    | service act =>
      cases act with
      | main lastError =>
        have hsame : (Service.step process.world (.main lastError)).isSome =
            (Service.step process.world (.main none)).isSome :=
          mainStep_isSome lastError none process.world
        exact service_isSome hsame (by cases process.program <;> exact id) hstep
      | _ => cases hmain
    | _ => cases hmain
  handler := by
    apply Execution.WeaklyFair.guarded
    refine weaklyFair_scheduled fun n ↦ ⟨4 * n + 1, by omega, ?_⟩
    have hturn : processSchedule (4 * n + 1) = .service (.handler none) := by
      rw [processSchedule, if_neg (by omega), if_neg (by omega), if_pos (by omega)]
    rw [hturn]
    refine ⟨trivial, ?_⟩
    intro process action next hhandler hstep
    cases action with
    | service act =>
      cases act with
      | handler lastError =>
        have hsame : (Service.step process.world (.handler lastError)).isSome =
            (Service.step process.world (.handler none)).isSome :=
          handlerStep_isSome lastError none process.world
        exact service_isSome hsame (by cases process.program <;> exact id) hstep
      | _ => cases hhandler
    | _ => cases hhandler
  dispatcher := by
    apply Execution.WeaklyFair.guarded
    refine weaklyFair_scheduled fun n ↦ ⟨4 * n + 2, by omega, ?_⟩
    have hturn : processSchedule (4 * n + 2) = .dispatcherReturns := by
      rw [processSchedule, if_neg (by omega), if_neg (by omega), if_neg (by omega),
        if_pos (by omega)]
    rw [hturn]
    refine ⟨rfl, ?_⟩
    intro process action next hreturns hstep
    rw [← hreturns, hstep, Option.isSome_some]
  exit := by
    apply Execution.WeaklyFair.guarded
    refine weaklyFair_scheduled fun n ↦ ⟨4 * n + 3, by omega, ?_⟩
    have hturn : processSchedule (4 * n + 3) = .exit := by
      rw [processSchedule, if_neg (by omega), if_neg (by omega), if_neg (by omega),
        if_neg (by omega)]
    rw [hturn]
    refine ⟨rfl, ?_⟩
    intro process action next hexit hstep
    rw [← hexit, hstep, Option.isSome_some]

/-- One `STOP` whose report arrives ends the process. -/
theorem stoppingProcess_ends : ∃ n, (stoppingProcess.state n).program = .exited := by
  have hrecord : recordedState (stoppingProcess.state 22).world = serviceStopped := by decide
  exact (process_ends stoppingProcess stoppingProcess_fair).1.mpr ⟨22, hrecord⟩

end WinProcessThread.ServiceControl

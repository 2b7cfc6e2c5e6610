import WinProcessThread.Service.PlainControls
import Mathlib.Tactic.SplitIfs

/-!
# The service lifecycle under the delivery rules of the service control manager

The abstract lifecycle is an automaton over reported states: starting, then running, then stopped.
Under the delivery rules of the service control manager every run of the two threads refines it,
so the reported states keep that order.  The rules look at the last status the manager received,
and no report ever carries an accepted control other than `STOP`; this is why the `SHUTDOWN`,
`PAUSE` and `CONTINUE` branches stay out of reach.
-/

namespace WinProcessThread.Service

open Transition

/-! ## The abstract lifecycle -/

inductive Phase
  | initial
  | starting
  | running
  | stopped
deriving DecidableEq, Repr

/-- The phase after a state has been reported; other states are not part of the lifecycle. -/
def Phase.advance (phase : Phase) (dwCurrentState : DWORD) : Option Phase :=
  match phase with
  | .initial => if dwCurrentState = serviceStartPending then some .starting else none
  | .starting =>
    if dwCurrentState = serviceStartPending then some .starting
    else if dwCurrentState = serviceRunning then some .running
    else if dwCurrentState = serviceStopped then some .stopped
    else none
  | .running =>
    if dwCurrentState = serviceRunning then some .running
    else if dwCurrentState = serviceStopped then some .stopped
    else none
  | .stopped => if dwCurrentState = serviceStopped then some .stopped else none

/-- The state sequences of the lifecycle that end in a phase. -/
abbrev Lifecycle (states : List DWORD) (phase : Phase) : Prop :=
  Run (ofPartial Phase.advance) .initial states phase

/-- The state sequences that lead to each phase, written out. -/
def Phase.Shape (states : List DWORD) : Phase → Prop
  | .initial => states = []
  | .starting => ∃ a, states = List.replicate (a + 1) serviceStartPending
  | .running => ∃ a b, states = List.replicate (a + 1) serviceStartPending ++
      List.replicate b serviceRunning
  | .stopped => ∃ a b c, states = List.replicate (a + 1) serviceStartPending ++
      List.replicate b serviceRunning ++ List.replicate c serviceStopped

theorem Phase.shape_advance {states : List DWORD} {phase next : Phase} {dwCurrentState : DWORD}
    (hshape : phase.Shape states) (hadvance : phase.advance dwCurrentState = some next) :
    next.Shape (states ++ [dwCurrentState]) := by
  cases phase with
  | initial =>
    simp only [advance] at hadvance
    split_ifs at hadvance with hstate
    cases hadvance
    subst hstate
    exact ⟨0, by rw [hshape]; rfl⟩
  | starting =>
    obtain ⟨a, rfl⟩ := hshape
    simp only [advance] at hadvance
    split_ifs at hadvance with hpending hrunning hstopped <;> cases hadvance
    · subst hpending
      exact ⟨a + 1, List.replicate_succ'.symm⟩
    · subst hrunning
      exact ⟨a, 1, rfl⟩
    · subst hstopped
      exact ⟨a, 0, 1, by simp⟩
  | running =>
    obtain ⟨a, b, rfl⟩ := hshape
    simp only [advance] at hadvance
    split_ifs at hadvance with hrunning hstopped <;> cases hadvance
    · subst hrunning
      exact ⟨a, b + 1, by rw [List.append_assoc, ← List.replicate_succ']⟩
    · subst hstopped
      exact ⟨a, b, 1, rfl⟩
  | stopped =>
    obtain ⟨a, b, c, rfl⟩ := hshape
    simp only [advance] at hadvance
    split_ifs at hadvance with hstopped
    cases hadvance
    subst hstopped
    exact ⟨a, b, c + 1, by rw [List.append_assoc, ← List.replicate_succ']⟩

theorem shape_of_lifecycle {states : List DWORD} {phase : Phase}
    (hrun : Lifecycle states phase) : phase.Shape states := by
  induction hrun with
  | refl => rfl
  | snoc _ hadvance ih => exact Phase.shape_advance ih hadvance

/-- In every phase the states are some `START_PENDING`, then some `RUNNING`, then some
`STOPPED`. -/
theorem exists_replicate_of_lifecycle {states : List DWORD} {phase : Phase}
    (hrun : Lifecycle states phase) :
    ∃ a b c, states = List.replicate a serviceStartPending ++
        List.replicate b serviceRunning ++ List.replicate c serviceStopped ∧
      (states ≠ [] → 0 < a) := by
  have hshape := shape_of_lifecycle hrun
  cases phase with
  | initial => exact ⟨0, 0, 0, hshape, fun hne ↦ absurd hshape hne⟩
  | starting =>
    obtain ⟨a, rfl⟩ := hshape
    exact ⟨a + 1, 0, 0, by simp, fun _ ↦ Nat.succ_pos a⟩
  | running =>
    obtain ⟨a, b, rfl⟩ := hshape
    exact ⟨a + 1, b, 0, by simp, fun _ ↦ Nat.succ_pos a⟩
  | stopped =>
    obtain ⟨a, b, c, rfl⟩ := hshape
    exact ⟨a + 1, b, c, rfl, fun _ ↦ Nat.succ_pos a⟩

/-! ## Delivery rules -/

/-- The service control manager delivers a control only to a service whose last received status is
neither starting nor stopping, and the controls with an accept bit only if that bit was set. -/
def ScmDelivers (received : ServiceStatus) (controlCode : DWORD) : Prop :=
  (received.dwCurrentState ≠ serviceStartPending ∧
    received.dwCurrentState ≠ serviceStopPending ∧
    received.dwCurrentState ≠ serviceStopped) ∧
  (controlCode = serviceControlStop → received.dwControlsAccepted &&& serviceAcceptStop ≠ 0) ∧
  (controlCode = serviceControlPause ∨ controlCode = serviceControlContinue →
    received.dwControlsAccepted &&& serviceAcceptPauseContinue ≠ 0) ∧
  (controlCode = serviceControlShutdown →
    received.dwControlsAccepted &&& serviceAcceptShutdown ≠ 0)

def ScmAllows (w : World) : Action → Prop
  | .deliver controlCode => ScmDelivers w.received controlCode
  | _ => True

instance (received : ServiceStatus) (controlCode : DWORD) :
    Decidable (ScmDelivers received controlCode) := by
  unfold ScmDelivers
  infer_instance

instance (w : World) : (action : Action) → Decidable (ScmAllows w action)
  | .main _ => .isTrue trivial
  | .deliver controlCode => inferInstanceAs (Decidable (ScmDelivers w.received controlCode))
  | .handler _ => .isTrue trivial

/-- Steps of the service under the delivery rules. -/
abbrev ScmStep : World → Action → World → Prop := guarded ScmAllows Step

/-- The states passed to `SetServiceStatus`, in order. -/
def reportedStates (log : List Event) : List DWORD :=
  log.filterMap fun
    | .report _ status _ => some status.dwCurrentState
    | _ => none

@[simp]
theorem reportedStates_append (log later : List Event) :
    reportedStates (log ++ later) = reportedStates log ++ reportedStates later :=
  List.filterMap_append

@[simp]
theorem reportedStates_nil : reportedStates [] = [] := rfl

@[simp]
theorem reportedStates_report (caller : Caller) (status : ServiceStatus)
    (lastError : Option DWORD) (log : List Event) :
    reportedStates (.report caller status lastError :: log) =
      status.dwCurrentState :: reportedStates log := rfl

@[simp]
theorem reportedStates_deliver (controlCode : DWORD) (log : List Event) :
    reportedStates (.deliver controlCode :: log) = reportedStates log := rfl

@[simp]
theorem reportedStates_branch (controlCode : DWORD) (log : List Event) :
    reportedStates (.branch controlCode :: log) = reportedStates log := rfl

@[simp]
theorem reportedStates_setEvent (log : List Event) :
    reportedStates (.setEvent :: log) = reportedStates log := rfl

/-! ## The refinement -/

def OnlyStopAccepted (status : ServiceStatus) : Prop :=
  status.dwControlsAccepted = 0 ∨ status.dwControlsAccepted = serviceAcceptStop

theorem plain_of_scmDelivers {received : ServiceStatus} {controlCode : DWORD}
    (haccepted : OnlyStopAccepted received) (hdelivers : ScmDelivers received controlCode) :
    Plain controlCode := by
  obtain ⟨-, -, hpause, hshutdown⟩ := hdelivers
  have hnoPause : received.dwControlsAccepted &&& serviceAcceptPauseContinue = 0 := by
    rcases haccepted with haccepted | haccepted <;> rw [haccepted] <;> decide
  have hnoShutdown : received.dwControlsAccepted &&& serviceAcceptShutdown = 0 := by
    rcases haccepted with haccepted | haccepted <;> rw [haccepted] <;> decide
  exact ⟨fun h ↦ hshutdown h hnoShutdown, fun h ↦ hpause (.inl h) hnoPause,
    fun h ↦ hpause (.inr h) hnoPause⟩

theorem onlyStopAccepted_reportedStatus (dwCurrentState exitCode waitHint checkPoint : DWORD)
    (status : ServiceStatus) :
    OnlyStopAccepted (reportedStatus dwCurrentState exitCode waitHint checkPoint status) := by
  unfold OnlyStopAccepted reportedStatus
  split <;> simp

/-- How far the two threads can be in each phase. -/
def Phase.Matches (w : World) : Phase → Prop
  | .initial =>
    (w.main = .registerHandler ∨ w.main = .reportStartPending) ∧
      w.handler = .idle ∧ w.stopServiceEvent ≠ some true ∧
      w.received.dwCurrentState = serviceStartPending
  | .starting =>
    (w.main = .setInitialStatus ∨ w.main = .createEvent ∨ w.main = .reportInitial) ∧
      w.handler = .idle ∧ w.stopServiceEvent ≠ some true ∧
      w.serviceStatus.dwCurrentState = serviceStartPending ∧
      w.received.dwCurrentState = serviceStartPending
  | .running =>
    w.main = .waitForStop ∧ w.stopServiceEvent = some false ∧ w.handler ≠ .setEvent ∧
      w.serviceStatus.dwCurrentState = serviceRunning
  | .stopped =>
    (w.main = .waitForStop ∨ w.main = .reportStopped) ∧
      w.serviceStatus.dwCurrentState = serviceStopped

/-- The refinement relation between the phases of the lifecycle and the states of the service. -/
structure Refines (w : World) (phase : Phase) : Prop where
  lifecycle : Lifecycle (reportedStates w.log) phase
  matched : phase.Matches w
  statusAccepts : OnlyStopAccepted w.serviceStatus
  receivedAccepts : OnlyStopAccepted w.received
  plain : PlainHandler w

theorem refines_initial : Refines initial .initial where
  lifecycle := .refl
  matched := ⟨.inl rfl, rfl, by decide, rfl⟩
  statusAccepts := .inl rfl
  receivedAccepts := .inl rfl
  plain := plainHandler_initial

/-- A report extends the lifecycle when the automaton accepts the reported state. -/
theorem Refines.lifecycle_report {w : World} {phase next : Phase} (href : Refines w phase)
    {status : ServiceStatus} (hadvance : phase.advance status.dwCurrentState = some next)
    (caller : Caller) (lastError : Option DWORD) :
    Lifecycle (reportedStates (w.log ++ [.report caller status lastError])) next := by
  rw [reportedStates_append, reportedStates_report]
  exact .snoc href.lifecycle hadvance

theorem onlyStopAccepted_received {w : World} (caller : Caller) (lastError : Option DWORD)
    (hstatus : OnlyStopAccepted w.serviceStatus) (hreceived : OnlyStopAccepted w.received) :
    OnlyStopAccepted (setServiceStatus caller lastError w).received := by
  rcases setServiceStatus_received caller lastError w with h | h <;> rw [h]
  · exact hreceived
  · exact hstatus

/-- The service control manager still takes the service as starting after a starting report. -/
theorem received_startPending {w : World} (caller : Caller) (lastError : Option DWORD)
    (hstatus : w.serviceStatus.dwCurrentState = serviceStartPending)
    (hreceived : w.received.dwCurrentState = serviceStartPending) :
    (setServiceStatus caller lastError w).received.dwCurrentState = serviceStartPending := by
  rcases setServiceStatus_received caller lastError w with h | h <;> rw [h]
  · exact hreceived
  · exact hstatus

/-- A report of the thread of `ServiceMain` moves the automaton and leaves the handler alone. -/
theorem Refines.report_main {w : World} {phase next : Phase} (href : Refines w phase)
    {status : ServiceStatus} {dwCheckPoint : DWORD} {lastError : Option DWORD} {main : MainThread}
    (haccepts : OnlyStopAccepted status)
    (hadvance : phase.advance status.dwCurrentState = some next)
    (hmatched : next.Matches
      { setServiceStatus .serviceMain lastError
          { w with serviceStatus := status, dwCheckPoint := dwCheckPoint } with main := main }) :
    Refines
      { setServiceStatus .serviceMain lastError
          { w with serviceStatus := status, dwCheckPoint := dwCheckPoint } with main := main }
      next where
  lifecycle := href.lifecycle_report hadvance .serviceMain lastError
  matched := hmatched
  statusAccepts := haccepts
  receivedAccepts := onlyStopAccepted_received .serviceMain lastError haccepts href.receivedAccepts
  plain := href.plain.report_main rfl rfl rfl

/-- The first report behind the event leaves the service running, or stopped without an event. -/
theorem Refines.report_initial {w : World} (href : Refines w .starting)
    (lastError : Option DWORD) (hidle : w.handler = .idle)
    (hevent : w.stopServiceEvent ≠ some true) :
    ∃ next, Refines
      { reportServiceStatus
          (if w.stopServiceEvent = none then serviceStopped else serviceRunning) noError 0
          .serviceMain lastError w with main := .waitForStop } next := by
  cases hcreated : w.stopServiceEvent with
  | none =>
    refine ⟨.stopped, href.report_main (onlyStopAccepted_reportedStatus _ _ _ _ _) rfl ?_⟩
    exact ⟨.inl rfl, rfl⟩
  | some signaled =>
    have hunset : w.stopServiceEvent = some false := by
      cases signaled with
      | false => exact hcreated
      | true => exact absurd hcreated hevent
    refine ⟨.running, href.report_main (onlyStopAccepted_reportedStatus _ _ _ _ _) rfl ?_⟩
    exact ⟨rfl, hunset, by simp [hidle], rfl⟩

theorem Refines.main_step {w after : World} {phase : Phase} {lastError : Option DWORD}
    (href : Refines w phase) (hmove : Move w (.main lastError) after) :
    ∃ next, Refines after next := by
  have hmatched := href.matched
  have hplain := href.plain.main_step hmove
  cases hmove with
  | registerHandler _ hmain =>
    cases phase <;> simp [Phase.Matches, hmain] at hmatched
    exact ⟨.initial, { href with matched := ⟨.inr rfl, hmatched⟩, plain := hplain }⟩
  | reportStartPending _ hmain =>
    cases phase <;> simp [Phase.Matches, hmain] at hmatched
    obtain ⟨hidle, hevent, hreceived⟩ := hmatched
    refine ⟨.starting, href.report_main (onlyStopAccepted_reportedStatus _ _ _ _ _) rfl ?_⟩
    exact ⟨.inl rfl, hidle, hevent, rfl, received_startPending .serviceMain lastError rfl hreceived⟩
  | setInitialStatus _ hmain =>
    cases phase <;> simp [Phase.Matches, hmain] at hmatched
    obtain ⟨hidle, hevent, hstatus, hreceived⟩ := hmatched
    refine ⟨.starting, href.report_main href.statusAccepts (by rw [hstatus]; rfl) ?_⟩
    exact ⟨.inr (.inl rfl), hidle, hevent, hstatus,
      received_startPending .serviceMain lastError hstatus hreceived⟩
  | createEvent _ hmain =>
    cases phase <;> simp [Phase.Matches, hmain] at hmatched
    obtain ⟨hidle, -, hstatus, hreceived⟩ := hmatched
    have hevent : (if lastError = none then some false else none) ≠ some true := by
      split <;> simp
    exact ⟨.starting,
      { href with
        matched := ⟨.inr (.inr rfl), hidle, hevent, hstatus, hreceived⟩, plain := hplain }⟩
  | reportInitial _ hmain =>
    cases phase <;> simp [Phase.Matches, hmain] at hmatched
    obtain ⟨hidle, hevent, hstatus, hreceived⟩ := hmatched
    exact href.report_initial lastError hidle hevent
  | waitForStop _ hmain hreturns =>
    cases phase <;> simp [Phase.Matches, hmain, hreturns] at hmatched
    exact ⟨.stopped, { href with matched := ⟨.inr rfl, hmatched⟩, plain := hplain }⟩
  | reportStopped _ hmain =>
    cases phase <;> simp [Phase.Matches, hmain] at hmatched
    refine ⟨.stopped, href.report_main (onlyStopAccepted_reportedStatus _ _ _ _ _) rfl ?_⟩
    exact ⟨.inl rfl, rfl⟩

theorem Refines.deliver_step {w after : World} {phase : Phase} {controlCode : DWORD}
    (href : Refines w phase) (hallows : ScmDelivers w.received controlCode)
    (hstep : Step w (.deliver controlCode) after) : Refines after phase := by
  have hplain : PlainHandler after := by
    refine href.plain.step (fun code hcode ↦ ?_) hstep
    cases hcode
    exact plain_of_scmDelivers href.receivedAccepts hallows
  obtain ⟨-, rfl⟩ := step_deliver_iff.mp hstep
  refine { href with lifecycle := ?_, matched := ?_, plain := hplain }
  · simpa using href.lifecycle
  · -- before `RUNNING` has been received the manager does not call the handler
    have hmatched := href.matched
    have hnotStarting := hallows.1.1
    cases phase <;> simp_all [Phase.Matches]

/-- A handler only runs once the service has left its starting phases. -/
theorem Refines.handler_phase {w : World} {phase : Phase} (href : Refines w phase)
    (hbusy : w.handler ≠ .idle) : phase = .running ∨ phase = .stopped := by
  have hmatched := href.matched
  cases phase <;> simp_all [Phase.Matches]

/-- The phases in which a handler runs do not depend on where it stands, except that a running
service is not about to signal the event. -/
theorem Refines.matches_handler {w : World} {phase : Phase} (href : Refines w phase)
    (hbusy : w.handler ≠ .idle) {handler : HandlerThread} (hnext : handler ≠ .setEvent)
    {received : ServiceStatus} {log : List Event} :
    phase.Matches { w with handler := handler, received := received, log := log } := by
  have hmatched := href.matched
  rcases href.handler_phase hbusy with rfl | rfl
  · exact ⟨hmatched.1, hmatched.2.1, hnext, hmatched.2.2.2⟩
  · exact hmatched

/-- The `STOP` branch reports `STOPPED`, from the running or from the stopped phase. -/
theorem Refines.stop_branch {w : World} {phase : Phase} {lastError : Option DWORD}
    (href : Refines w phase) (hbusy : w.handler ≠ .idle)
    (hplain : PlainHandler { reportServiceStatus serviceStopped noError 0 .controlHandler lastError
      { w with log := w.log ++ [.branch serviceControlStop] } with handler := .setEvent }) :
    Refines
      { reportServiceStatus serviceStopped noError 0 .controlHandler lastError
          { w with log := w.log ++ [.branch serviceControlStop] } with handler := .setEvent }
      .stopped := by
  have hmatched := href.matched
  have haccepts := onlyStopAccepted_reportedStatus serviceStopped noError 0 w.dwCheckPoint
    w.serviceStatus
  have hlifecycle : Lifecycle (reportedStates w.log ++ [serviceStopped]) .stopped := by
    apply Run.snoc href.lifecycle
    rcases href.handler_phase hbusy with rfl | rfl <;> rfl
  have hmain : w.main = .waitForStop ∨ w.main = .reportStopped := by
    rcases href.handler_phase hbusy with rfl | rfl
    · exact .inl hmatched.1
    · exact hmatched.1
  refine ⟨?_, ⟨hmain, rfl⟩, haccepts,
    onlyStopAccepted_received .controlHandler lastError haccepts href.receivedAccepts, hplain⟩
  simpa [reportServiceStatus] using hlifecycle

/-- Before the event is signalled the service has reported `STOPPED`. -/
theorem Refines.set_event {w : World} {phase : Phase} (href : Refines w phase)
    (hhandler : w.handler = .setEvent)
    (hplain : PlainHandler { setEvent w with handler := .setFinalStatus }) :
    Refines { setEvent w with handler := .setFinalStatus } .stopped := by
  -- a running service is not about to signal, so the phase is already `stopped`
  have hphase : phase = .stopped := by
    rcases href.handler_phase (by simp [hhandler]) with rfl | rfl
    · exact absurd hhandler href.matched.2.2.1
    · rfl
  subst hphase
  have hstates : reportedStates (setEvent w).log = reportedStates w.log := by
    unfold setEvent
    split <;> simp
  refine ⟨?_, ?_, ?_, ?_, hplain⟩
  · simpa only [hstates] using href.lifecycle
  · simpa [Phase.Matches] using href.matched
  · simpa using href.statusAccepts
  · simpa using href.receivedAccepts

/-- The last report of a handler repeats the state that is set. -/
theorem Refines.set_final_status {w : World} {phase : Phase} (href : Refines w phase)
    (hbusy : w.handler ≠ .idle) (lastError : Option DWORD)
    (hplain : PlainHandler { setServiceStatus .controlHandler lastError w with handler := .idle }) :
    Refines { setServiceStatus .controlHandler lastError w with handler := .idle } phase := by
  have hadvance : phase.advance w.serviceStatus.dwCurrentState = some phase := by
    have hmatched := href.matched
    rcases href.handler_phase hbusy with rfl | rfl
    · rw [hmatched.2.2.2]
      rfl
    · rw [hmatched.2]
      rfl
  exact {
    lifecycle := href.lifecycle_report hadvance .controlHandler lastError
    matched := href.matches_handler hbusy (by simp)
    statusAccepts := href.statusAccepts
    receivedAccepts :=
      onlyStopAccepted_received .controlHandler lastError href.statusAccepts href.receivedAccepts
    plain := hplain }

theorem Refines.handler_step {w after : World} {phase : Phase} {lastError : Option DWORD}
    (href : Refines w phase) (hmove : Move w (.handler lastError) after) :
    ∃ next, Refines after next := by
  have hplain := href.plain.handler_step hmove
  cases hmove with
  | branch controlCode _ hhandler hbranch =>
    have hbusy : w.handler ≠ .idle := by simp [hhandler]
    obtain ⟨hnoShutdown, hnoPause, hnoContinue⟩ := (href.plain.dispatched _ hhandler).1
    cases hbranch with
    | none =>
      have hlifecycle : Lifecycle (reportedStates (w.log ++ [.branch controlCode])) phase := by
        simpa using href.lifecycle
      exact ⟨phase, { href with
        lifecycle := hlifecycle
        matched := href.matches_handler hbusy (by simp)
        plain := hplain }⟩
    | shutdown => exact absurd rfl hnoShutdown
    | stop => exact ⟨.stopped, href.stop_branch hbusy hplain⟩
    | pause => exact absurd rfl hnoPause
    | «continue» => exact absurd rfl hnoContinue
  | setEvent _ hhandler => exact ⟨.stopped, href.set_event hhandler hplain⟩
  | setFinalStatus _ hhandler =>
    have hbusy : w.handler ≠ .idle := by simp [hhandler]
    exact ⟨phase, href.set_final_status hbusy lastError hplain⟩

/-- Every step under the delivery rules is matched by at most one step of the lifecycle. -/
theorem Refines.step {w after : World} {phase : Phase} {action : Action}
    (href : Refines w phase) (hstep : ScmStep w action after) : ∃ next, Refines after next := by
  have hmove := move_of_step hstep.2
  cases action with
  | main lastError => exact href.main_step hmove
  | deliver controlCode => exact ⟨phase, href.deliver_step hstep.1 hstep.2⟩
  | handler lastError => exact href.handler_step hmove

/-- Every run under the delivery rules refines the lifecycle. -/
theorem exists_refines_of_run {actions : List Action} {w : World}
    (hrun : Run ScmStep initial actions w) : ∃ phase, Refines w phase :=
  hrun.invariant (fun w ↦ ∃ phase, Refines w phase) ⟨.initial, refines_initial⟩
    fun _ _ _ ⟨_, href⟩ hstep ↦ href.step hstep

/-- **Lifecycle.**  Under the delivery rules every run reports some `START_PENDING`, then some
`RUNNING`, then only `STOPPED`; the handler takes none of the branches `SHUTDOWN`, `PAUSE` and
`CONTINUE`; and the stop event is signaled only after a delivered `STOP`. -/
theorem scm_run_reports_lifecycle {actions : List Action} {w : World}
    (hrun : Run ScmStep initial actions w) :
    (∃ a b c, reportedStates w.log = List.replicate a serviceStartPending ++
        List.replicate b serviceRunning ++ List.replicate c serviceStopped ∧
      (reportedStates w.log ≠ [] → 0 < a)) ∧
    (∀ controlCode, Event.branch controlCode ∈ w.log →
      controlCode ≠ serviceControlShutdown ∧ controlCode ≠ serviceControlPause ∧
        controlCode ≠ serviceControlContinue) ∧
    (w.stopServiceEvent = some true → Event.deliver serviceControlStop ∈ w.log) := by
  obtain ⟨phase, href⟩ := exists_refines_of_run hrun
  refine ⟨exists_replicate_of_lifecycle href.lifecycle, ?_, href.plain.signaled⟩
  intro controlCode hbranch
  obtain ⟨earlier, later, hsplit⟩ := List.append_of_mem hbranch
  exact href.plain.lawful earlier _ later hsplit

/-- A start, an interrogation, a `STOP` whose report fails, and one round of the stop loop. -/
def stoppedRun : List Action :=
  [.main none, .main none, .main none, .main none, .main none,
    .deliver serviceControlInterrogate, .handler none, .handler none,
    .deliver serviceControlStop, .handler (some errorInvalidData), .handler none,
    .main none, .main none, .handler none]

theorem scm_run_reports_lifecycle_stoppedRun :
    ∃ w, Run ScmStep initial stoppedRun w ∧ Event.deliver serviceControlStop ∈ w.log := by
  obtain ⟨w, hrun, hsignaled⟩ : ∃ w, Run (ofPartial (restrict ScmAllows step)) initial
      stoppedRun w ∧ decide (w.stopServiceEvent = some true) = true :=
    exists_run_of_any (by decide)
  rw [ofPartial_restrict] at hrun
  exact ⟨w, hrun, (scm_run_reports_lifecycle hrun).2.2 (of_decide_eq_true hsignaled)⟩

end WinProcessThread.Service

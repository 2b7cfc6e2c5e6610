import WinProcessThread.Transition.Run
import WinProcessThread.Transition.History
import Mathlib.Data.UInt

/-!
# The service process and its control handler

`ServiceMain` with `Service_Init` and `Service_Control_Handler` run on two threads and share
`Service_Status`, the check-point counter of `ReportServiceStatus` and `Stop_Service_Event`.  One
step is one report, one event call or one dispatch; between two steps of one thread the other may
take any number of steps.  Handler invocations do not overlap, since the service control
dispatcher calls the handler from a single thread.

Every API outcome is an input of the step that makes the call: `lastError = none` is success.  The
log collects what the rest of the system sees, in order; the lines printed to a console no service
has are left out.  Control codes and state codes are plain `DWORD` values, as in the source,
because the handler assigns one to the other.
-/

namespace WinProcessThread.Service

abbrev DWORD := UInt32

/-! ## Win32 constants -/

def serviceStopped : DWORD := 1
def serviceStartPending : DWORD := 2
def serviceStopPending : DWORD := 3
def serviceRunning : DWORD := 4
def serviceContinuePending : DWORD := 5
def servicePausePending : DWORD := 6
def servicePaused : DWORD := 7

def serviceControlStop : DWORD := 1
def serviceControlPause : DWORD := 2
def serviceControlContinue : DWORD := 3
def serviceControlInterrogate : DWORD := 4
def serviceControlShutdown : DWORD := 5

def serviceAcceptStop : DWORD := 1
def serviceAcceptPauseContinue : DWORD := 2
def serviceAcceptShutdown : DWORD := 4

def serviceWin32OwnProcess : DWORD := 0x10
def noError : DWORD := 0
def errorInvalidData : DWORD := 13

/-! ## Shared state -/

/-- The `SERVICE_STATUS` record. -/
structure ServiceStatus where
  dwServiceType : DWORD
  dwCurrentState : DWORD
  dwControlsAccepted : DWORD
  dwWin32ExitCode : DWORD
  dwServiceSpecificExitCode : DWORD
  dwCheckPoint : DWORD
  dwWaitHint : DWORD
deriving DecidableEq, Repr

/-- The thread that makes a call: `ServiceMain` with `Service_Init`, or the handler. -/
inductive Caller
  | serviceMain
  | controlHandler
deriving DecidableEq, Repr

inductive Event
  /-- The service control manager invokes the handler. -/
  | deliver (controlCode : DWORD)
  /-- The switch of the handler takes the branch of this code. -/
  | branch (controlCode : DWORD)
  /-- A status is passed to `SetServiceStatus`. -/
  | report (caller : Caller) (status : ServiceStatus) (lastError : Option DWORD)
  /-- `SetEvent` on an existing event. -/
  | setEvent
deriving DecidableEq, Repr

/-- The next statement of `ServiceMain` or `Service_Init`. -/
inductive MainThread
  | registerHandler
  | reportStartPending
  | setInitialStatus
  | createEvent
  | reportInitial
  | waitForStop
  | reportStopped
  /-- `ServiceMain` has returned. -/
  | returned
deriving DecidableEq, Repr

/-- The next statement of `Service_Control_Handler`. -/
inductive HandlerThread
  | idle
  | dispatched (controlCode : DWORD)
  | setEvent
  | setFinalStatus
deriving DecidableEq, Repr

structure World where
  serviceStatus : ServiceStatus
  dwCheckPoint : DWORD
  /-- `Stop_Service_Event`: `none` is `NULL`, otherwise whether the event is signaled. -/
  stopServiceEvent : Option Bool
  main : MainThread
  handler : HandlerThread
  /-- The last status the service control manager has received. -/
  received : ServiceStatus
  log : List Event
deriving DecidableEq, Repr

/-- Globals are zero-initialised, the check point starts at 1, and the service control manager
holds a starting service as `START_PENDING` without accepted controls. -/
def initial : World where
  serviceStatus := ⟨0, 0, 0, 0, 0, 0, 0⟩
  dwCheckPoint := 1
  stopServiceEvent := none
  main := .registerHandler
  handler := .idle
  received := ⟨serviceWin32OwnProcess, serviceStartPending, 0, 0, 0, 0, 0⟩
  log := []

/-! ## Reports -/

/-- `SetServiceStatus(Service_Status_Handle, &Service_Status)`. -/
def setServiceStatus (caller : Caller) (lastError : Option DWORD) (w : World) : World :=
  { w with
    received := if lastError = none then w.serviceStatus else w.received
    log := w.log ++ [.report caller w.serviceStatus lastError] }

/-- The fields `ReportServiceStatus` stores, with `dwCheckPoint` the value of its counter. -/
def reportedStatus (dwCurrentState dwWin32ExitCode dwWaitHint dwCheckPoint : DWORD)
    (status : ServiceStatus) : ServiceStatus :=
  { status with
    dwCurrentState
    dwWin32ExitCode
    dwWaitHint
    dwControlsAccepted :=
      if dwCurrentState = serviceStartPending then 0 else serviceAcceptStop
    dwCheckPoint :=
      if dwCurrentState = serviceRunning ∨ dwCurrentState = serviceStopped then 0
      else dwCheckPoint }

/-- `ReportServiceStatus`, with the counter advanced where the source writes `dwCheckPoint++`. -/
def reportServiceStatus (dwCurrentState dwWin32ExitCode dwWaitHint : DWORD) (caller : Caller)
    (lastError : Option DWORD) (w : World) : World :=
  setServiceStatus caller lastError
    { w with
      serviceStatus :=
        reportedStatus dwCurrentState dwWin32ExitCode dwWaitHint w.dwCheckPoint w.serviceStatus
      dwCheckPoint :=
        if dwCurrentState = serviceRunning ∨ dwCurrentState = serviceStopped then w.dwCheckPoint
        else w.dwCheckPoint + 1 }

/-- `SetEvent(Stop_Service_Event)`; on a `NULL` handle the call fails and changes nothing. -/
def setEvent (w : World) : World :=
  match w.stopServiceEvent with
  | none => w
  | some _ => { w with stopServiceEvent := some true, log := w.log ++ [.setEvent] }

/-! ## The threads -/

/-- The statements of the handler's switch up to `SetEvent` or `break`.  The `SHUTDOWN` branch
stores the control code itself as the current state. -/
def controlSwitch (controlCode : DWORD) (lastError : Option DWORD) (w : World) : World :=
  let w := { w with log := w.log ++ [.branch controlCode] }
  if controlCode = serviceControlInterrogate then { w with handler := .setFinalStatus }
  else if controlCode = serviceControlShutdown then
    { w with
      serviceStatus :=
        { w.serviceStatus with dwWin32ExitCode := 0, dwCurrentState := serviceControlShutdown }
      handler := .setEvent }
  else if controlCode = serviceControlStop then
    { reportServiceStatus serviceStopped noError 0 .controlHandler lastError w with
      handler := .setEvent }
  else if controlCode = serviceControlPause then
    { setServiceStatus .controlHandler lastError
        { w with serviceStatus := { w.serviceStatus with dwCurrentState := servicePaused } } with
      handler := .setEvent }
  else if controlCode = serviceControlContinue then
    { setServiceStatus .controlHandler lastError
        { w with serviceStatus := { w.serviceStatus with dwCurrentState := serviceRunning } } with
      handler := .setEvent }
  else { w with handler := .setFinalStatus }

/-- One step of `Service_Control_Handler`; every invocation ends with the status call after the
switch. -/
def handlerStep (lastError : Option DWORD) (w : World) : Option World :=
  match w.handler with
  | .idle => none
  | .dispatched controlCode => some (controlSwitch controlCode lastError w)
  | .setEvent => some { setEvent w with handler := .setFinalStatus }
  | .setFinalStatus =>
    some { setServiceStatus .controlHandler lastError w with handler := .idle }

/-- One step of `ServiceMain` and, from `createEvent` on, of `Service_Init`.  The wait blocks on
an event that is not signaled and returns at once on a `NULL` handle; the loop has no exit. -/
def mainStep (lastError : Option DWORD) (w : World) : Option World :=
  match w.main with
  | .registerHandler => some { w with main := .reportStartPending }
  | .reportStartPending =>
    let w := { w with serviceStatus := { w.serviceStatus with
      dwServiceType := serviceWin32OwnProcess, dwServiceSpecificExitCode := noError } }
    some { reportServiceStatus serviceStartPending noError 3000 .serviceMain lastError w with
      main := .setInitialStatus }
  | .setInitialStatus =>
    some { setServiceStatus .serviceMain lastError w with main := .createEvent }
  | .createEvent =>
    some { w with
      stopServiceEvent := if lastError = none then some false else none
      main := .reportInitial }
  | .reportInitial =>
    let dwCurrentState := if w.stopServiceEvent = none then serviceStopped else serviceRunning
    some { reportServiceStatus dwCurrentState noError 0 .serviceMain lastError w with
      main := .waitForStop }
  | .waitForStop =>
    if w.stopServiceEvent = some false then none else some { w with main := .reportStopped }
  | .reportStopped =>
    some { reportServiceStatus serviceStopped noError 0 .serviceMain lastError w with
      main := .waitForStop }
  | .returned => none

/-- The dispatcher calls the handler once it is registered and not running already. -/
def deliver (controlCode : DWORD) (w : World) : Option World :=
  if w.handler = .idle ∧ w.main ≠ .registerHandler then
    some { w with handler := .dispatched controlCode, log := w.log ++ [.deliver controlCode] }
  else none

inductive Action
  | main (lastError : Option DWORD)
  | deliver (controlCode : DWORD)
  | handler (lastError : Option DWORD)
deriving DecidableEq, Repr

def step (w : World) : Action → Option World
  | .main lastError => mainStep lastError w
  | .deliver controlCode => deliver controlCode w
  | .handler lastError => handlerStep lastError w

/-- Steps in any order, with any control codes and any API outcomes. -/
abbrev Step : World → Action → World → Prop := Transition.ofPartial step

/-- A start to `RUNNING` and one complete handler invocation. -/
def controlRun (controlCode : DWORD) : List Action :=
  [.main none, .main none, .main none, .main none, .main none,
    .deliver controlCode, .handler none, .handler none, .handler none]

/-! ## What a step can do -/

section Fields

variable (caller : Caller) (lastError : Option DWORD) (w : World)

@[simp]
theorem setServiceStatus_serviceStatus :
    (setServiceStatus caller lastError w).serviceStatus = w.serviceStatus := rfl

@[simp]
theorem setServiceStatus_main : (setServiceStatus caller lastError w).main = w.main := rfl

@[simp]
theorem setServiceStatus_handler :
    (setServiceStatus caller lastError w).handler = w.handler := rfl

@[simp]
theorem setServiceStatus_log :
    (setServiceStatus caller lastError w).log =
      w.log ++ [.report caller w.serviceStatus lastError] := rfl

/-- The service control manager holds the old status or the one just reported. -/
theorem setServiceStatus_received :
    (setServiceStatus caller lastError w).received = w.received ∨
      (setServiceStatus caller lastError w).received = w.serviceStatus := by
  unfold setServiceStatus
  by_cases hset : lastError = none
  · right
    simp [hset]
  · left
    simp [hset]

@[simp]
theorem reportedStatus_dwCurrentState (dwCurrentState exitCode waitHint checkPoint : DWORD)
    (status : ServiceStatus) :
    (reportedStatus dwCurrentState exitCode waitHint checkPoint status).dwCurrentState =
      dwCurrentState := rfl

@[simp]
theorem setEvent_serviceStatus : (setEvent w).serviceStatus = w.serviceStatus := by
  unfold setEvent
  split <;> rfl

@[simp]
theorem setEvent_dwCheckPoint : (setEvent w).dwCheckPoint = w.dwCheckPoint := by
  unfold setEvent
  split <;> rfl

@[simp]
theorem setEvent_main : (setEvent w).main = w.main := by
  unfold setEvent
  split <;> rfl

@[simp]
theorem setEvent_received : (setEvent w).received = w.received := by
  unfold setEvent
  split <;> rfl

end Fields

/-- The branches of the handler's switch, as one relation between the state before and after. -/
inductive Branch (lastError : Option DWORD) (w : World) : DWORD → World → Prop
  | none {controlCode : DWORD} (hshutdown : controlCode ≠ serviceControlShutdown)
      (hstop : controlCode ≠ serviceControlStop) (hpause : controlCode ≠ serviceControlPause)
      (hcontinue : controlCode ≠ serviceControlContinue) :
      Branch lastError w controlCode { w with handler := .setFinalStatus }
  | shutdown :
      Branch lastError w serviceControlShutdown
        { w with
          serviceStatus :=
            { w.serviceStatus with dwWin32ExitCode := 0, dwCurrentState := serviceControlShutdown }
          handler := .setEvent }
  | stop :
      Branch lastError w serviceControlStop
        { reportServiceStatus serviceStopped noError 0 .controlHandler lastError w with
          handler := .setEvent }
  | pause :
      Branch lastError w serviceControlPause
        { setServiceStatus .controlHandler lastError
            { w with serviceStatus :=
                { w.serviceStatus with dwCurrentState := servicePaused } } with
          handler := .setEvent }
  | continue :
      Branch lastError w serviceControlContinue
        { setServiceStatus .controlHandler lastError
            { w with serviceStatus :=
                { w.serviceStatus with dwCurrentState := serviceRunning } } with
          handler := .setEvent }

theorem branch_controlSwitch (controlCode : DWORD) (lastError : Option DWORD) (w : World) :
    Branch lastError { w with log := w.log ++ [.branch controlCode] } controlCode
      (controlSwitch controlCode lastError w) := by
  unfold controlSwitch
  split_ifs with hinterrogate hshutdown hstop hpause hcontinue
  · subst hinterrogate
    exact .none (by decide) (by decide) (by decide) (by decide)
  · subst hshutdown
    exact .shutdown
  · subst hstop
    exact .stop
  · subst hpause
    exact .pause
  · subst hcontinue
    exact .continue
  · exact .none hshutdown hstop hpause hcontinue

theorem controlSwitch_stop (lastError : Option DWORD) (w : World) :
    controlSwitch serviceControlStop lastError w =
      { reportServiceStatus serviceStopped noError 0 .controlHandler lastError
          { w with log := w.log ++ [.branch serviceControlStop] } with handler := .setEvent } := rfl

theorem setEvent_signals {w : World} (hevent : w.stopServiceEvent ≠ none) :
    (setEvent w).stopServiceEvent = some true := by
  unfold setEvent
  split
  · next hnull => exact absurd hnull hevent
  · rfl

theorem step_deliver_iff {w after : World} {controlCode : DWORD} :
    Step w (.deliver controlCode) after ↔
      (w.handler = .idle ∧ w.main ≠ .registerHandler) ∧
        after = { w with handler := .dispatched controlCode,
                         log := w.log ++ [.deliver controlCode] } := by
  unfold Step Transition.ofPartial step deliver
  split <;> simp_all [eq_comm]

/-- Whether a thread can take its next step does not depend on the outcome of the call in it. -/
theorem mainStep_isSome (lastError other : Option DWORD) (w : World) :
    (mainStep lastError w).isSome = (mainStep other w).isSome := by
  cases hmain : w.main <;> simp only [mainStep, hmain, Option.isSome_some]

theorem handlerStep_isSome (lastError other : Option DWORD) (w : World) :
    (handlerStep lastError w).isSome = (handlerStep other w).isSome := by
  cases hhandler : w.handler <;> simp only [handlerStep, hhandler, Option.isSome_some]

/-- Every step, one constructor for each statement of the two threads. -/
inductive Move (w : World) : Action → World → Prop
  | registerHandler (lastError : Option DWORD) (hmain : w.main = .registerHandler) :
      Move w (.main lastError) { w with main := .reportStartPending }
  | reportStartPending (lastError : Option DWORD) (hmain : w.main = .reportStartPending) :
      Move w (.main lastError)
        { reportServiceStatus serviceStartPending noError 3000 .serviceMain lastError
            { w with serviceStatus := { w.serviceStatus with
              dwServiceType := serviceWin32OwnProcess, dwServiceSpecificExitCode := noError } } with
          main := .setInitialStatus }
  | setInitialStatus (lastError : Option DWORD) (hmain : w.main = .setInitialStatus) :
      Move w (.main lastError)
        { setServiceStatus .serviceMain lastError w with main := .createEvent }
  | createEvent (lastError : Option DWORD) (hmain : w.main = .createEvent) :
      Move w (.main lastError)
        { w with
          stopServiceEvent := if lastError = none then some false else none
          main := .reportInitial }
  | reportInitial (lastError : Option DWORD) (hmain : w.main = .reportInitial) :
      Move w (.main lastError)
        { reportServiceStatus
            (if w.stopServiceEvent = none then serviceStopped else serviceRunning) noError 0
            .serviceMain lastError w with
          main := .waitForStop }
  | waitForStop (lastError : Option DWORD) (hmain : w.main = .waitForStop)
      (hreturns : w.stopServiceEvent ≠ some false) :
      Move w (.main lastError) { w with main := .reportStopped }
  | reportStopped (lastError : Option DWORD) (hmain : w.main = .reportStopped) :
      Move w (.main lastError)
        { reportServiceStatus serviceStopped noError 0 .serviceMain lastError w with
          main := .waitForStop }
  | deliver (controlCode : DWORD) (hidle : w.handler = .idle) (hmain : w.main ≠ .registerHandler) :
      Move w (.deliver controlCode)
        { w with
          handler := .dispatched controlCode
          log := w.log ++ [.deliver controlCode] }
  | branch (controlCode : DWORD) (lastError : Option DWORD) {after : World}
      (hhandler : w.handler = .dispatched controlCode)
      (hbranch : Branch lastError { w with log := w.log ++ [.branch controlCode] } controlCode
        after) :
      Move w (.handler lastError) after
  | setEvent (lastError : Option DWORD) (hhandler : w.handler = .setEvent) :
      Move w (.handler lastError) { setEvent w with handler := .setFinalStatus }
  | setFinalStatus (lastError : Option DWORD) (hhandler : w.handler = .setFinalStatus) :
      Move w (.handler lastError)
        { setServiceStatus .controlHandler lastError w with handler := .idle }

/-- Every step is one of the moves. -/
theorem move_of_step {w after : World} {action : Action} (hstep : step w action = some after) :
    Move w action after := by
  cases action with
  | main lastError =>
    simp only [step, mainStep] at hstep
    split at hstep
    case h_1 hmain => cases hstep; exact .registerHandler lastError hmain
    case h_2 hmain => cases hstep; exact .reportStartPending lastError hmain
    case h_3 hmain => cases hstep; exact .setInitialStatus lastError hmain
    case h_4 hmain => cases hstep; exact .createEvent lastError hmain
    case h_5 hmain => cases hstep; exact .reportInitial lastError hmain
    case h_6 hmain =>
      split at hstep
      · cases hstep
      · next hreturns => cases hstep; exact .waitForStop lastError hmain hreturns
    case h_7 hmain => cases hstep; exact .reportStopped lastError hmain
    case h_8 => cases hstep
  | deliver controlCode =>
    simp only [step, Service.deliver] at hstep
    split at hstep
    · next hguard => cases hstep; exact .deliver controlCode hguard.1 hguard.2
    · cases hstep
  | handler lastError =>
    simp only [step, handlerStep] at hstep
    split at hstep
    case h_1 => cases hstep
    case h_2 controlCode hhandler =>
      cases hstep
      exact .branch controlCode lastError hhandler (branch_controlSwitch controlCode lastError w)
    case h_3 hhandler => cases hstep; exact .setEvent lastError hhandler
    case h_4 hhandler => cases hstep; exact .setFinalStatus lastError hhandler

theorem log_grows_of_move {w after : World} {action : Action} (hmove : Move w action after) :
    ∃ later, after.log = w.log ++ later := by
  cases hmove with
  | branch controlCode lastError hhandler hbranch =>
    cases hbranch <;> simp [reportServiceStatus]
  | setEvent lastError hhandler =>
    unfold setEvent
    split <;> simp
  | _ => simp [reportServiceStatus]

/-- Only the handler itself ends an invocation that has begun. -/
theorem handler_eq_of_move {w after : World} {action : Action} (hmove : Move w action after)
    (hbusy : w.handler ≠ .idle) (hother : ∀ lastError, action ≠ .handler lastError) :
    after.handler = w.handler := by
  cases hmove with
  | deliver controlCode hidle hmain => exact absurd hidle hbusy
  | branch controlCode lastError hhandler hbranch => exact absurd rfl (hother lastError)
  | setEvent lastError hhandler => exact absurd rfl (hother lastError)
  | setFinalStatus lastError hhandler => exact absurd rfl (hother lastError)
  | _ => rfl

/-- The loop of `Service_Init` has no exit. -/
theorem main_ne_returned_of_move {w after : World} {action : Action}
    (hmove : Move w action after) (hmain : w.main ≠ .returned) : after.main ≠ .returned := by
  cases hmove with
  | deliver controlCode hidle hregistered => exact hmain
  | branch controlCode lastError hhandler hbranch => cases hbranch <;> exact hmain
  | setEvent lastError hhandler => simpa using hmain
  | setFinalStatus lastError hhandler => exact hmain
  | _ => simp

end WinProcessThread.Service

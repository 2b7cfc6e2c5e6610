import WinProcessThread.Service.Status
import Mathlib.Tactic.Tauto

/-!
# Consistent status records

`ReportServiceStatus` recomputes every field that depends on the state, while the handler stores a
state alone and sends the other fields as the last report left them.  The records agree in exactly
those runs in which no raw call sends the `SHUTDOWN` code as a state, and in which the `PAUSE` and
`CONTINUE` branches do not overwrite the `START_PENDING` record.
-/

namespace WinProcessThread.Service

open Transition

/-! ## The law -/

def Pending (dwCurrentState : DWORD) : Prop :=
  dwCurrentState = serviceStartPending ∨ dwCurrentState = serviceStopPending ∨
    dwCurrentState = serviceContinuePending ∨ dwCurrentState = servicePausePending

/-- The dependent fields of a record fit its state. -/
structure Consistent (status : ServiceStatus) : Prop where
  accepts : status.dwControlsAccepted = 0 ↔ status.dwCurrentState = serviceStartPending
  acceptsStop : status.dwCurrentState ≠ serviceStartPending →
    status.dwControlsAccepted &&& serviceAcceptStop ≠ 0
  settled : ¬ Pending status.dwCurrentState → status.dwCheckPoint = 0 ∧ status.dwWaitHint = 0
  pending : Pending status.dwCurrentState → status.dwCheckPoint ≠ 0

instance (dwCurrentState : DWORD) : Decidable (Pending dwCurrentState) :=
  inferInstanceAs (Decidable (_ ∨ _))

instance (status : ServiceStatus) : Decidable (Consistent status) :=
  decidable_of_iff
    ((status.dwControlsAccepted = 0 ↔ status.dwCurrentState = serviceStartPending) ∧
      (status.dwCurrentState ≠ serviceStartPending →
        status.dwControlsAccepted &&& serviceAcceptStop ≠ 0) ∧
      (¬ Pending status.dwCurrentState → status.dwCheckPoint = 0 ∧ status.dwWaitHint = 0) ∧
      (Pending status.dwCurrentState → status.dwCheckPoint ≠ 0))
    ⟨fun ⟨haccepts, hstop, hsettled, hpending⟩ ↦ ⟨haccepts, hstop, hsettled, hpending⟩,
      fun h ↦ ⟨h.accepts, h.acceptsStop, h.settled, h.pending⟩⟩

/-- `ServiceMain` has made its first report. -/
def mainReported (log : List Event) : Bool :=
  log.any fun
    | .report .serviceMain _ _ => true
    | _ => false

/-- From the first report of `ServiceMain` on, every record is consistent. -/
def consistencyLaw (earlier : List Event) : Event → Prop
  | .report caller status _ => caller = .serviceMain ∨ mainReported earlier → Consistent status
  | _ => True

instance (earlier : List Event) : (event : Event) → Decidable (consistencyLaw earlier event)
  | .deliver _ => .isTrue trivial
  | .branch _ => .isTrue trivial
  | .report _ _ _ => inferInstanceAs (Decidable (_ → _))
  | .setEvent => .isTrue trivial

abbrev ConsistentReports (log : List Event) : Prop := Throughout consistencyLaw log

/-! ## The steps that keep it -/

def MainThread.Reported (main : MainThread) : Prop :=
  main ≠ .registerHandler ∧ main ≠ .reportStartPending

/-- A raw call does not send the `SHUTDOWN` code as a state, and a `PAUSE` or `CONTINUE` branch
does not overwrite a `START_PENDING` record. -/
def KeepsConsistent (w : World) : Action → Prop
  | .main _ => w.main = .setInitialStatus →
      w.serviceStatus.dwCurrentState ≠ serviceControlShutdown
  | .handler _ => w.main.Reported →
      (w.handler = .setFinalStatus → w.serviceStatus.dwCurrentState ≠ serviceControlShutdown) ∧
      (w.handler = .dispatched serviceControlPause ∨
        w.handler = .dispatched serviceControlContinue →
        w.serviceStatus.dwCurrentState ≠ serviceStartPending)
  | .deliver _ => True

/-- The record `Service_Status` between two steps of a consistent run. -/
inductive StatusShape (handler : HandlerThread) (status : ServiceStatus) : Prop
  | starting (hstate : status.dwCurrentState = serviceStartPending)
      (haccepts : status.dwControlsAccepted = 0) (hcheckPoint : status.dwCheckPoint ≠ 0)
  | settled
      (hstate : status.dwCurrentState = serviceRunning ∨ status.dwCurrentState = serviceStopped ∨
        status.dwCurrentState = servicePaused)
      (haccepts : status.dwControlsAccepted = serviceAcceptStop)
      (hcheckPoint : status.dwCheckPoint = 0) (hwaitHint : status.dwWaitHint = 0)
  | shuttingDown (hstate : status.dwCurrentState = serviceControlShutdown)
      (hfields : status.dwControlsAccepted = 0 ∨ status.dwCheckPoint = 0)
      (hhandler : handler = .setEvent ∨ handler = .setFinalStatus)

theorem consistent_of_starting {status : ServiceStatus}
    (hstate : status.dwCurrentState = serviceStartPending)
    (haccepts : status.dwControlsAccepted = 0) (hcheckPoint : status.dwCheckPoint ≠ 0) :
    Consistent status where
  accepts := iff_of_true haccepts hstate
  acceptsStop := fun hother ↦ absurd hstate hother
  settled := fun hsettled ↦ absurd (.inl hstate) hsettled
  pending := fun _ ↦ hcheckPoint

theorem not_pending_of_settled {dwCurrentState : DWORD}
    (hstate : dwCurrentState = serviceRunning ∨ dwCurrentState = serviceStopped ∨
      dwCurrentState = servicePaused) :
    ¬ Pending dwCurrentState ∧ dwCurrentState ≠ serviceStartPending := by
  unfold Pending
  rcases hstate with rfl | rfl | rfl <;> decide

theorem consistent_of_settled {status : ServiceStatus}
    (hstate : status.dwCurrentState = serviceRunning ∨ status.dwCurrentState = serviceStopped ∨
      status.dwCurrentState = servicePaused)
    (haccepts : status.dwControlsAccepted = serviceAcceptStop)
    (hcheckPoint : status.dwCheckPoint = 0) (hwaitHint : status.dwWaitHint = 0) :
    Consistent status where
  accepts := iff_of_false (by rw [haccepts]; decide) (not_pending_of_settled hstate).2
  acceptsStop := fun _ ↦ by rw [haccepts]; decide
  settled := fun _ ↦ ⟨hcheckPoint, hwaitHint⟩
  pending := fun hpending ↦ absurd hpending (not_pending_of_settled hstate).1

/-- `SERVICE_CONTROL_SHUTDOWN` read as a state is `SERVICE_CONTINUE_PENDING`. -/
theorem not_consistent_of_shutdown {status : ServiceStatus}
    (hstate : status.dwCurrentState = serviceControlShutdown)
    (hfields : status.dwControlsAccepted = 0 ∨ status.dwCheckPoint = 0) :
    ¬ Consistent status := by
  intro hconsistent
  have hpending : Pending status.dwCurrentState := .inr (.inr (.inl hstate))
  have hnotStart : status.dwCurrentState ≠ serviceStartPending := by
    rw [hstate]
    decide
  rcases hfields with haccepts | hcheckPoint
  · exact hnotStart (hconsistent.accepts.mp haccepts)
  · exact hconsistent.pending hpending hcheckPoint

theorem StatusShape.consistent_iff {handler : HandlerThread} {status : ServiceStatus}
    (hshape : StatusShape handler status) :
    Consistent status ↔ status.dwCurrentState ≠ serviceControlShutdown := by
  cases hshape with
  | starting hstate haccepts hcheckPoint =>
    apply iff_of_true (consistent_of_starting hstate haccepts hcheckPoint)
    rw [hstate]
    decide
  | settled hstate haccepts hcheckPoint hwaitHint =>
    apply iff_of_true (consistent_of_settled hstate haccepts hcheckPoint hwaitHint)
    rcases hstate with h | h | h <;> rw [h] <;> decide
  | shuttingDown hstate hfields _ =>
    exact iff_of_false (not_consistent_of_shutdown hstate hfields) (fun h ↦ h hstate)

/-- Either the record still has the fields of the starting report, or those of a later one. -/
theorem StatusShape.fields {handler : HandlerThread} {status : ServiceStatus}
    (hshape : StatusShape handler status) :
    status.dwControlsAccepted = 0 ∨ status.dwCheckPoint = 0 := by
  cases hshape with
  | starting _ haccepts _ => exact .inl haccepts
  | settled _ _ hcheckPoint _ => exact .inr hcheckPoint
  | shuttingDown _ hfields _ => exact hfields

/-- Where the handler stands matters only while it holds the `SHUTDOWN` code as a state. -/
theorem StatusShape.move {handler next : HandlerThread} {status : ServiceStatus}
    (hshape : StatusShape handler status)
    (hnext : status.dwCurrentState = serviceControlShutdown →
      handler = .setEvent ∨ handler = .setFinalStatus → next = .setEvent ∨ next = .setFinalStatus) :
    StatusShape next status := by
  cases hshape with
  | starting hstate haccepts hcheckPoint => exact .starting hstate haccepts hcheckPoint
  | settled hstate haccepts hcheckPoint hwaitHint =>
    exact .settled hstate haccepts hcheckPoint hwaitHint
  | shuttingDown hstate hfields hhandler =>
    exact .shuttingDown hstate hfields (hnext hstate hhandler)

/-- The records of the two reports that `Service_Init` and the `STOP` branch make. -/
theorem consistent_reportedStatus {dwCurrentState : DWORD}
    (hstate : dwCurrentState = serviceRunning ∨ dwCurrentState = serviceStopped)
    (checkPoint : DWORD) (status : ServiceStatus) (handler : HandlerThread) :
    StatusShape handler (reportedStatus dwCurrentState noError 0 checkPoint status) ∧
      Consistent (reportedStatus dwCurrentState noError 0 checkPoint status) := by
  have hsettled : dwCurrentState = serviceRunning ∨ dwCurrentState = serviceStopped ∨
      dwCurrentState = servicePaused := by tauto
  have haccepts : (reportedStatus dwCurrentState noError 0 checkPoint status).dwControlsAccepted
      = serviceAcceptStop := if_neg (not_pending_of_settled hsettled).2
  have hcheckPoint : (reportedStatus dwCurrentState noError 0 checkPoint status).dwCheckPoint
      = 0 := if_pos hstate
  exact ⟨.settled hsettled haccepts hcheckPoint rfl,
    consistent_of_settled hsettled haccepts hcheckPoint rfl⟩

/-! ## The invariant of consistent runs -/

structure ConsistentRun (w : World) : Prop where
  reported : mainReported w.log = true ↔ w.main.Reported
  counter : ¬ w.main.Reported → w.dwCheckPoint = 1
  shape : w.main.Reported → StatusShape w.handler w.serviceStatus

theorem consistentRun_initial : ConsistentRun initial where
  reported := iff_of_false (by decide) (fun h ↦ h.1 rfl)
  counter := fun _ ↦ rfl
  shape := fun h ↦ absurd rfl h.1

@[simp]
theorem mainReported_append (log later : List Event) :
    mainReported (log ++ later) = (mainReported log || mainReported later) := List.any_append

@[simp]
theorem mainReported_nil : mainReported [] = false := rfl

@[simp]
theorem mainReported_main (status : ServiceStatus) (lastError : Option DWORD)
    (log : List Event) : mainReported (.report .serviceMain status lastError :: log) = true := rfl

@[simp]
theorem mainReported_handler (status : ServiceStatus) (lastError : Option DWORD)
    (log : List Event) :
    mainReported (.report .controlHandler status lastError :: log) = mainReported log := rfl

@[simp]
theorem mainReported_branch (controlCode : DWORD) (log : List Event) :
    mainReported (.branch controlCode :: log) = mainReported log := rfl

@[simp]
theorem mainReported_deliver (controlCode : DWORD) (log : List Event) :
    mainReported (.deliver controlCode :: log) = mainReported log := rfl

@[simp]
theorem mainReported_setEvent (log : List Event) :
    mainReported (.setEvent :: log) = mainReported log := rfl

/-- A report of `ServiceMain` keeps the history lawful exactly when its record is consistent. -/
theorem lawful_main_report {log : List Event} (hlawful : ConsistentReports log)
    {status : ServiceStatus} {lastError : Option DWORD} :
    ConsistentReports (log ++ [.report .serviceMain status lastError]) ↔ Consistent status := by
  rw [ConsistentReports, throughout_snoc]
  exact ⟨fun h ↦ h.2 (.inl rfl), fun h ↦ ⟨hlawful, fun _ ↦ h⟩⟩

/-- A report of the handler counts once `ServiceMain` has reported. -/
theorem lawful_handler_report {log : List Event} (hlawful : ConsistentReports log)
    {status : ServiceStatus} {lastError : Option DWORD} :
    ConsistentReports (log ++ [.report .controlHandler status lastError]) ↔
      (mainReported log = true → Consistent status) := by
  rw [ConsistentReports, throughout_snoc]
  refine ⟨fun h hreported ↦ h.2 (.inr hreported), fun h ↦ ⟨hlawful, ?_⟩⟩
  rintro (hmain | hreported)
  · cases hmain
  · exact h hreported

/-- What a step does to a consistent run: it stays one exactly when the step keeps to the rule. -/
def StepKeeps (w : World) (action : Action) (after : World) : Prop :=
  (ConsistentReports after.log ↔ KeepsConsistent w action) ∧
    (KeepsConsistent w action → ConsistentRun after)

theorem ConsistentRun.initial_report {w : World} (hrun : ConsistentRun w)
    (hlawful : ConsistentReports w.log) {lastError : Option DWORD}
    (hmain : w.main = .reportStartPending) (status : ServiceStatus) :
    StepKeeps w (.main lastError)
      { reportServiceStatus serviceStartPending noError 3000 .serviceMain lastError
          { w with serviceStatus := status } with main := .setInitialStatus } := by
  have hcounter : w.dwCheckPoint = 1 := hrun.counter (by simp [MainThread.Reported, hmain])
  have hcheckPoint : (reportedStatus serviceStartPending noError 3000 w.dwCheckPoint
      status).dwCheckPoint ≠ 0 := by
    have hone : (1 : DWORD) ≠ 0 := by decide
    rw [hcounter]
    exact hone
  have hkeeps : KeepsConsistent w (.main lastError) := by
    simp [KeepsConsistent, hmain]
  refine ⟨iff_of_true ?_ hkeeps, fun _ ↦ ⟨?_, ?_, ?_⟩⟩
  · exact (lawful_main_report hlawful).mpr (consistent_of_starting rfl rfl hcheckPoint)
  · simp [reportServiceStatus, MainThread.Reported]
  · simp [MainThread.Reported]
  · exact fun _ ↦ .starting rfl rfl hcheckPoint

/-- `Service_Init` reports `RUNNING` or `STOPPED` through `ReportServiceStatus`. -/
theorem later_report {w : World} (hlawful : ConsistentReports w.log) {lastError : Option DWORD}
    (hmain : w.main ≠ .setInitialStatus) {dwCurrentState : DWORD}
    (hstate : dwCurrentState = serviceRunning ∨ dwCurrentState = serviceStopped) :
    StepKeeps w (.main lastError)
      { reportServiceStatus dwCurrentState noError 0 .serviceMain lastError w with
        main := .waitForStop } := by
  have hstatus := consistent_reportedStatus hstate w.dwCheckPoint w.serviceStatus w.handler
  have hkeeps : KeepsConsistent w (.main lastError) := fun h ↦ absurd h hmain
  refine ⟨iff_of_true ?_ hkeeps, fun _ ↦ ⟨?_, ?_, fun _ ↦ hstatus.1⟩⟩
  · exact (lawful_main_report hlawful).mpr hstatus.2
  · simp [reportServiceStatus, MainThread.Reported]
  · simp [MainThread.Reported]

/-- A step of `ServiceMain` between its reports. -/
theorem ConsistentRun.silent_main {w : World} (hrun : ConsistentRun w)
    (hlawful : ConsistentReports w.log) {lastError : Option DWORD}
    (hmain : w.main ≠ .setInitialStatus) {event : Option Bool} {main : MainThread}
    (hreported : main.Reported ↔ w.main.Reported) :
    StepKeeps w (.main lastError) { w with stopServiceEvent := event, main := main } := by
  have hkeeps : KeepsConsistent w (.main lastError) := fun h ↦ absurd h hmain
  refine ⟨iff_of_true hlawful hkeeps, fun _ ↦ ⟨hrun.reported.trans hreported.symm, ?_, ?_⟩⟩
  · exact fun hnot ↦ hrun.counter (fun h ↦ hnot (hreported.mpr h))
  · exact fun h ↦ hrun.shape (hreported.mp h)

theorem ConsistentRun.main_step {w after : World} {lastError : Option DWORD}
    (hrun : ConsistentRun w) (hlawful : ConsistentReports w.log)
    (hmove : Move w (.main lastError) after) : StepKeeps w (.main lastError) after := by
  cases hmove with
  | registerHandler _ hmain =>
    exact hrun.silent_main hlawful (by simp [hmain]) (by simp [MainThread.Reported, hmain])
  | reportStartPending _ hmain => exact hrun.initial_report hlawful hmain _
  | setInitialStatus _ hmain =>
    have hshape := hrun.shape (by simp [MainThread.Reported, hmain])
    refine ⟨?_, fun _ ↦ ⟨?_, ?_, fun _ ↦ hshape⟩⟩
    · apply (lawful_main_report hlawful).trans
      apply hshape.consistent_iff.trans
      simp [KeepsConsistent, hmain]
    · simp [MainThread.Reported]
    · simp [MainThread.Reported]
  | createEvent _ hmain =>
    exact hrun.silent_main hlawful (by simp [hmain]) (by simp [MainThread.Reported, hmain])
  | reportInitial _ hmain =>
    apply later_report hlawful (by simp [hmain])
    split
    · exact .inr rfl
    · exact .inl rfl
  | waitForStop _ hmain =>
    exact hrun.silent_main hlawful (by simp [hmain]) (by simp [MainThread.Reported, hmain])
  | reportStopped _ hmain => exact later_report hlawful (by simp [hmain]) (.inr rfl)

/-- The raw report of a `PAUSE` or `CONTINUE` branch. -/
theorem ConsistentRun.raw_branch {w : World} (hrun : ConsistentRun w)
    (hlawful : ConsistentReports w.log) {lastError : Option DWORD}
    {controlCode dwCurrentState : DWORD} (hhandler : w.handler = .dispatched controlCode)
    (hcode : controlCode = serviceControlPause ∨ controlCode = serviceControlContinue)
    (hstate : dwCurrentState = servicePaused ∨ dwCurrentState = serviceRunning) :
    StepKeeps w (.handler lastError)
      { setServiceStatus .controlHandler lastError
          { w with
            serviceStatus := { w.serviceStatus with dwCurrentState := dwCurrentState }
            log := w.log ++ [.branch controlCode] } with handler := .setEvent } := by
  have hsettled : dwCurrentState = serviceRunning ∨ dwCurrentState = serviceStopped ∨
      dwCurrentState = servicePaused := by tauto
  have hlogged : ConsistentReports (w.log ++ [.branch controlCode]) :=
    throughout_snoc.mpr ⟨hlawful, trivial⟩
  have hkeeps : KeepsConsistent w (.handler lastError) ↔
      (w.main.Reported → w.serviceStatus.dwCurrentState ≠ serviceStartPending) := by
    rcases hcode with rfl | rfl <;> simp [KeepsConsistent, hhandler]
  have hshaped : w.main.Reported →
      (Consistent { w.serviceStatus with dwCurrentState := dwCurrentState } ↔
        w.serviceStatus.dwCurrentState ≠ serviceStartPending) ∧
      (w.serviceStatus.dwCurrentState ≠ serviceStartPending →
        StatusShape .setEvent { w.serviceStatus with dwCurrentState := dwCurrentState }) := by
    intro hreported
    cases hrun.shape hreported with
    | starting hstart haccepts _ =>
      refine ⟨iff_of_false (fun hconsistent ↦ ?_) (fun h ↦ h hstart), fun h ↦ absurd hstart h⟩
      exact (not_pending_of_settled hsettled).2 (hconsistent.accepts.mp haccepts)
    | settled hbefore haccepts hcheckPoint hwaitHint =>
      have hnotStart := (not_pending_of_settled hbefore).2
      exact ⟨iff_of_true (consistent_of_settled hsettled haccepts hcheckPoint hwaitHint) hnotStart,
        fun _ ↦ .settled hsettled haccepts hcheckPoint hwaitHint⟩
    | shuttingDown _ _ hbusy => simp [hhandler] at hbusy
  refine ⟨?_, fun hkeep ↦ ⟨?_, hrun.counter, fun hreported ↦ ?_⟩⟩
  · rw [hkeeps]
    apply (lawful_handler_report hlogged).trans
    simp only [mainReported_append, mainReported_branch, mainReported_nil, Bool.or_false]
    rw [hrun.reported]
    exact forall_congr' fun hreported ↦ (hshaped hreported).1
  · simpa using hrun.reported
  · exact (hshaped hreported).2 (hkeeps.mp hkeep hreported)

/-- What the branches of the handler do; those that write the status themselves are
`ConsistentRun.raw_branch`. -/
theorem ConsistentRun.branch_step {w after : World} {lastError : Option DWORD}
    (hrun : ConsistentRun w) (hlawful : ConsistentReports w.log) {controlCode : DWORD}
    (hhandler : w.handler = .dispatched controlCode)
    (hbranch :
      Branch lastError { w with log := w.log ++ [.branch controlCode] } controlCode after) :
    StepKeeps w (.handler lastError) after := by
  have hlogged : ConsistentReports (w.log ++ [.branch controlCode]) :=
    throughout_snoc.mpr ⟨hlawful, trivial⟩
  have hreported : mainReported (w.log ++ [.branch controlCode]) = true ↔ w.main.Reported := by
    simpa using hrun.reported
  cases hbranch with
  | none _ _ hpause hcontinue =>
    have hkeeps : KeepsConsistent w (.handler lastError) := by
      simp [KeepsConsistent, hhandler, hpause, hcontinue]
    refine ⟨iff_of_true hlogged hkeeps, fun _ ↦ ⟨hreported, hrun.counter, fun hmain ↦ ?_⟩⟩
    exact (hrun.shape hmain).move fun _ _ ↦ .inr rfl
  | shutdown =>
    have hkeeps : KeepsConsistent w (.handler lastError) := by
      simp [KeepsConsistent, hhandler, serviceControlShutdown, serviceControlPause,
        serviceControlContinue]
    refine ⟨iff_of_true hlogged hkeeps, fun _ ↦ ⟨hreported, hrun.counter, fun hmain ↦ ?_⟩⟩
    exact .shuttingDown rfl (hrun.shape hmain).fields (.inl rfl)
  | stop =>
    have hstatus := consistent_reportedStatus (.inr rfl) w.dwCheckPoint w.serviceStatus .setEvent
    have hkeeps : KeepsConsistent w (.handler lastError) := by
      simp [KeepsConsistent, hhandler, serviceControlStop, serviceControlPause,
        serviceControlContinue]
    refine ⟨iff_of_true ?_ hkeeps, fun _ ↦ ⟨?_, hrun.counter, fun _ ↦ hstatus.1⟩⟩
    · exact (lawful_handler_report hlogged).mpr fun _ ↦ hstatus.2
    · simpa [reportServiceStatus] using hrun.reported
  | pause => exact hrun.raw_branch hlawful hhandler (.inl rfl) (.inl rfl)
  | «continue» => exact hrun.raw_branch hlawful hhandler (.inr rfl) (.inr rfl)

theorem ConsistentRun.setEvent_step {w : World} {lastError : Option DWORD}
    (hrun : ConsistentRun w) (hlawful : ConsistentReports w.log)
    (hhandler : w.handler = .setEvent) :
    StepKeeps w (.handler lastError) { setEvent w with handler := .setFinalStatus } := by
  have hkeeps : KeepsConsistent w (.handler lastError) := by
    simp [KeepsConsistent, hhandler]
  have hlog : ConsistentReports (setEvent w).log := by
    unfold setEvent
    split
    · exact hlawful
    · exact throughout_snoc.mpr ⟨hlawful, trivial⟩
  refine ⟨iff_of_true hlog hkeeps, fun _ ↦ ⟨?_, ?_, fun hmain ↦ ?_⟩⟩
  · unfold setEvent
    split <;> simpa using hrun.reported
  · simpa using hrun.counter
  · have hshape := hrun.shape (by simpa using hmain)
    simpa using hshape.move fun _ _ ↦ .inr rfl

/-- The last report of the handler is of the status as it stands. -/
theorem ConsistentRun.finalStatus_step {w : World} {lastError : Option DWORD}
    (hrun : ConsistentRun w) (hlawful : ConsistentReports w.log)
    (hhandler : w.handler = .setFinalStatus) :
    StepKeeps w (.handler lastError)
      { setServiceStatus .controlHandler lastError w with handler := .idle } := by
  have hkeeps : KeepsConsistent w (.handler lastError) ↔
      (w.main.Reported → w.serviceStatus.dwCurrentState ≠ serviceControlShutdown) := by
    simp [KeepsConsistent, hhandler]
  refine ⟨?_, fun hkeep ↦ ⟨?_, hrun.counter, fun hmain ↦ ?_⟩⟩
  · rw [hkeeps]
    apply (lawful_handler_report hlawful).trans
    rw [hrun.reported]
    exact forall_congr' fun hmain ↦ (hrun.shape hmain).consistent_iff
  · simpa using hrun.reported
  · exact (hrun.shape hmain).move fun hstate ↦ absurd hstate (hkeeps.mp hkeep hmain)

theorem ConsistentRun.handler_step {w after : World} {lastError : Option DWORD}
    (hrun : ConsistentRun w) (hlawful : ConsistentReports w.log)
    (hmove : Move w (.handler lastError) after) : StepKeeps w (.handler lastError) after := by
  cases hmove with
  | branch controlCode _ hhandler hbranch => exact hrun.branch_step hlawful hhandler hbranch
  | setEvent _ hhandler => exact hrun.setEvent_step hlawful hhandler
  | setFinalStatus _ hhandler => exact hrun.finalStatus_step hlawful hhandler

theorem ConsistentRun.step {w after : World} {action : Action} (hrun : ConsistentRun w)
    (hlawful : ConsistentReports w.log) (hstep : step w action = some after) :
    StepKeeps w action after := by
  have hmove := move_of_step hstep
  cases action with
  | main lastError => exact hrun.main_step hlawful hmove
  | handler lastError => exact hrun.handler_step hlawful hmove
  | deliver controlCode =>
    obtain ⟨⟨hidle, -⟩, rfl⟩ := step_deliver_iff.mp hstep
    refine ⟨iff_of_true ?_ trivial, fun _ ↦ ⟨?_, hrun.counter, fun hmain ↦ ?_⟩⟩
    · exact throughout_snoc.mpr ⟨hlawful, trivial⟩
    · simpa using hrun.reported
    · exact (hrun.shape hmain).move fun _ hbusy ↦ by simp [hidle] at hbusy

/-- **Consistency.**  The records sent since the first report of `ServiceMain` are all consistent
exactly when every step of the run keeps to the rule. -/
theorem consistentReports_iff_everyStep {actions : List Action} {w : World}
    (hrun : Run Step initial actions w) :
    ConsistentReports w.log ↔ EveryStep step initial KeepsConsistent actions := by
  have hback : ∀ before action after, step before action = some after →
      ConsistentReports after.log → ConsistentReports before.log := by
    intro before action after hstep hlawful
    obtain ⟨later, hlater⟩ := log_grows_of_move (move_of_step hstep)
    rw [hlater] at hlawful
    exact throughout_of_append hlawful
  refine hrun.good_iff_everyStep (fun w ↦ ConsistentReports w.log) ConsistentRun
    throughout_nil consistentRun_initial hback ?_ ?_
  · intro before action after hlawful hconsistent hstep
    exact (hconsistent.step hlawful hstep).1
  · intro before action after hlawful hconsistent hstep
    have hkeeps := hconsistent.step (hback before action after hstep hlawful) hstep
    exact hkeeps.2 (hkeeps.1.mp hlawful)

/-- Pausing a service that has reported `RUNNING` keeps to the rule. -/
theorem pause_run_keepsConsistent :
    EveryStep step initial KeepsConsistent (controlRun serviceControlPause) := by
  obtain ⟨w, hrun, hlawful⟩ : ∃ w, Run Step initial (controlRun serviceControlPause) w ∧
      decide (ConsistentReports w.log) = true := exists_run_of_any (by decide)
  exact (consistentReports_iff_everyStep hrun).mp (of_decide_eq_true hlawful)

/-- A `SHUTDOWN` of the running service is reported as `CONTINUE_PENDING` without a check point. -/
theorem shutdown_run_inconsistent :
    ∃ w, Run Step initial (controlRun serviceControlShutdown) w ∧ ¬ ConsistentReports w.log := by
  obtain ⟨w, hrun, hbroken⟩ : ∃ w, Run Step initial (controlRun serviceControlShutdown) w ∧
      decide (¬ ConsistentReports w.log) = true := exists_run_of_any (by decide)
  exact ⟨w, hrun, of_decide_eq_true hbroken⟩

end WinProcessThread.Service

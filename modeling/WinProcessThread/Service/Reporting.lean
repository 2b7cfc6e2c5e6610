import WinProcessThread.Service.Stopping

/-!
# What the reports of a run say

Whatever the order of steps and the outcomes of the calls, no report carries an error, the check
point never gets past its first value, and no control but `STOP` is accepted.  A service whose
`CreateEvent` failed is reported as `STOPPED` without an error.  From then on, as from a signaled
event on, the loop of `Service_Init` reports `STOPPED` again and again: in a fair execution
`ServiceMain` reports `STOPPED` either never or without bound.
-/

namespace WinProcessThread.Service

open Transition

/-! ## The fields of a record -/

/-- The states that are ever stored; the control code of `SHUTDOWN` is one of them. -/
def storedStates : List DWORD :=
  [0, serviceStartPending, serviceRunning, serviceStopped, servicePaused, serviceControlShutdown]

/-- The values a record can have in its fields. -/
structure Ordinary (status : ServiceStatus) : Prop where
  serviceType : status.dwServiceType = 0 ∨ status.dwServiceType = serviceWin32OwnProcess
  currentState : status.dwCurrentState ∈ storedStates
  accepted : OnlyStopAccepted status
  exitCode : status.dwWin32ExitCode = noError
  specificExitCode : status.dwServiceSpecificExitCode = noError
  checkPoint : status.dwCheckPoint = 0 ∨ status.dwCheckPoint = 1
  waitHint : status.dwWaitHint = 0 ∨ status.dwWaitHint = 3000

theorem ordinary_initial : Ordinary initial.serviceStatus where
  serviceType := .inl rfl
  currentState := by decide
  accepted := .inl rfl
  exitCode := rfl
  specificExitCode := rfl
  checkPoint := .inl rfl
  waitHint := .inl rfl

/-- Another state in an otherwise unchanged record, as the raw branches of the handler store it. -/
theorem Ordinary.with_state {status : ServiceStatus} (hordinary : Ordinary status)
    {dwCurrentState : DWORD} (hstate : dwCurrentState ∈ storedStates) :
    Ordinary { status with dwCurrentState := dwCurrentState } :=
  { hordinary with currentState := hstate }

/-- `ReportServiceStatus` for a state that does not count. -/
theorem Ordinary.reported {status : ServiceStatus} (hordinary : Ordinary status)
    {dwCurrentState : DWORD} (hstate : dwCurrentState ∈ storedStates)
    (hsettled : dwCurrentState = serviceRunning ∨ dwCurrentState = serviceStopped)
    (dwCheckPoint : DWORD) :
    Ordinary (reportedStatus dwCurrentState noError 0 dwCheckPoint status) where
  serviceType := hordinary.serviceType
  currentState := hstate
  accepted := onlyStopAccepted_reportedStatus _ _ _ _ _
  exitCode := rfl
  specificExitCode := hordinary.specificExitCode
  checkPoint := .inl (if_pos hsettled)
  waitHint := .inl rfl

/-- The first report of `ServiceMain` is the only one that counts, and the counter is still 1. -/
theorem ordinary_startPending (status : ServiceStatus) :
    Ordinary (reportedStatus serviceStartPending noError 3000 1
      { status with
        dwServiceType := serviceWin32OwnProcess, dwServiceSpecificExitCode := noError }) where
  serviceType := .inr rfl
  currentState := by simp [storedStates]
  accepted := onlyStopAccepted_reportedStatus _ _ _ _ _
  exitCode := rfl
  specificExitCode := rfl
  checkPoint := .inr rfl
  waitHint := .inr rfl

/-! ## In every run -/

/-- `ServiceMain` has not made its first report. -/
def MainThread.BeforeReport (main : MainThread) : Prop :=
  main = .registerHandler ∨ main = .reportStartPending

def ReportsOrdinary (log : List Event) : Prop :=
  ∀ caller status lastError, Event.report caller status lastError ∈ log → Ordinary status

/-- What every step preserves: the shared record, what has been sent, and the counter. -/
structure Reporting (w : World) : Prop where
  status : Ordinary w.serviceStatus
  reports : ReportsOrdinary w.log
  counter : w.main.BeforeReport → w.dwCheckPoint = 1

theorem reporting_initial : Reporting initial where
  status := ordinary_initial
  reports := by
    intro caller status lastError hreport
    cases hreport
  counter := fun _ ↦ rfl

theorem ReportsOrdinary.snoc {log : List Event} (hreports : ReportsOrdinary log) {event : Event}
    (hevent : ∀ caller status lastError, event = .report caller status lastError →
      Ordinary status) : ReportsOrdinary (log ++ [event]) := by
  intro caller status lastError hreport
  rw [List.mem_append, List.mem_singleton] at hreport
  cases hreport with
  | inl hearlier => exact hreports caller status lastError hearlier
  | inr hlast => exact hevent caller status lastError hlast.symm

/-- Sending an ordinary record, wherever the two threads stand afterwards. -/
theorem Reporting.send {w : World} (hreporting : Reporting w) {status : ServiceStatus}
    (hstatus : Ordinary status) (caller : Caller) (lastError : Option DWORD)
    {dwCheckPoint : DWORD} {main : MainThread} {handler : HandlerThread}
    (hcounter : main.BeforeReport → dwCheckPoint = 1) :
    Reporting
      { setServiceStatus caller lastError
          { w with serviceStatus := status, dwCheckPoint := dwCheckPoint } with
        main := main
        handler := handler } where
  status := hstatus
  reports := by
    apply hreporting.reports.snoc
    intro sender sent outcome hsent
    cases hsent
    exact hstatus
  counter := hcounter

/-- An event that is not a report. -/
theorem Reporting.append {w : World} (hreporting : Reporting w) {event : Event}
    (hsilent : reportedStates [event] = []) {handler : HandlerThread} :
    Reporting { w with handler := handler, log := w.log ++ [event] } where
  status := hreporting.status
  reports := by
    apply hreporting.reports.snoc
    intro caller status lastError hevent
    subst hevent
    cases hsilent
  counter := hreporting.counter

theorem Reporting.main_step {w after : World} {lastError : Option DWORD}
    (hreporting : Reporting w) (hmove : Move w (.main lastError) after) : Reporting after := by
  cases hmove with
  | registerHandler _ hmain =>
    exact { hreporting with counter := fun _ ↦ hreporting.counter (.inl hmain) }
  | reportStartPending _ hmain =>
    have hcounter : w.dwCheckPoint = 1 := hreporting.counter (.inr hmain)
    refine hreporting.send ?_ .serviceMain lastError (by simp [MainThread.BeforeReport])
    simpa only [hcounter] using ordinary_startPending w.serviceStatus
  | setInitialStatus _ hmain =>
    exact hreporting.send hreporting.status .serviceMain lastError
      (by simp [MainThread.BeforeReport])
  | createEvent _ hmain =>
    exact { hreporting with counter := by simp [MainThread.BeforeReport] }
  | reportInitial _ hmain =>
    -- a failed `CreateEvent` is told apart from a created event by the state alone
    refine hreporting.send ?_ .serviceMain lastError (by simp [MainThread.BeforeReport])
    by_cases hcreated : w.stopServiceEvent = none
    · rw [if_pos hcreated]
      exact hreporting.status.reported (by decide) (.inr rfl) _
    · rw [if_neg hcreated]
      exact hreporting.status.reported (by decide) (.inl rfl) _
  | waitForStop _ hmain hreturns =>
    exact { hreporting with counter := by simp [MainThread.BeforeReport] }
  | reportStopped _ hmain =>
    exact hreporting.send (hreporting.status.reported (by decide) (.inr rfl) _) .serviceMain
      lastError (by simp [MainThread.BeforeReport])

/-- The `STOP` branch leaves the counter alone, also before the first report of `ServiceMain`. -/
theorem Reporting.branch {w after : World} {lastError : Option DWORD} {controlCode : DWORD}
    (hreporting : Reporting w) (hbranch : Branch lastError w controlCode after) :
    Reporting after := by
  cases hbranch with
  | none => exact { hreporting with counter := hreporting.counter }
  | shutdown =>
    have hstatus : Ordinary { w.serviceStatus with dwWin32ExitCode := 0 } :=
      { hreporting.status with exitCode := rfl }
    exact { hreporting with status := hstatus.with_state (by decide) }
  | stop =>
    exact hreporting.send (hreporting.status.reported (by decide) (.inr rfl) _) .controlHandler
      lastError hreporting.counter
  | pause =>
    exact hreporting.send (hreporting.status.with_state (by decide)) .controlHandler lastError
      hreporting.counter
  | «continue» =>
    exact hreporting.send (hreporting.status.with_state (by decide)) .controlHandler lastError
      hreporting.counter

theorem Reporting.handler_step {w after : World} {lastError : Option DWORD}
    (hreporting : Reporting w) (hmove : Move w (.handler lastError) after) : Reporting after := by
  cases hmove with
  | branch controlCode _ hhandler hbranch =>
    have hlogged : Reporting { w with log := w.log ++ [.branch controlCode] } :=
      hreporting.append rfl
    exact hlogged.branch hbranch
  | setEvent _ hhandler =>
    cases hevent : w.stopServiceEvent with
    | none =>
      have hnull : setEvent w = w := by simp [setEvent, hevent]
      rw [hnull]
      exact { hreporting with counter := hreporting.counter }
    | some signaled =>
      have hset : setEvent w =
          { w with stopServiceEvent := some true, log := w.log ++ [.setEvent] } := by
        simp [setEvent, hevent]
      have hlogged : Reporting { w with log := w.log ++ [.setEvent] } := hreporting.append rfl
      rw [hset]
      exact { hlogged with counter := hlogged.counter }
  | setFinalStatus _ hhandler =>
    exact hreporting.send hreporting.status .controlHandler lastError hreporting.counter

theorem Reporting.step {w after : World} {action : Action} (hreporting : Reporting w)
    (hstep : Step w action after) : Reporting after := by
  have hmove := move_of_step hstep
  cases action with
  | main lastError => exact hreporting.main_step hmove
  | handler lastError => exact hreporting.handler_step hmove
  | deliver controlCode =>
    cases hmove with
    | deliver _ hidle hmain => exact hreporting.append rfl

theorem reporting_of_run {actions : List Action} {w : World} (hrun : Run Step initial actions w) :
    Reporting w :=
  hrun.invariant Reporting reporting_initial fun _ _ _ hreporting hstep ↦ hreporting.step hstep

/-- **No error is reported.**  In every run, for every order of steps, every control code and every
outcome of the calls, a report has both exit codes `NO_ERROR`, a check point of at most 1, a wait
hint of 0 or 3000, one of six states, and accepts nothing but `STOP`. -/
theorem reports_ordinary {actions : List Action} {w : World}
    (hrun : Run Step initial actions w) {caller : Caller} {status : ServiceStatus}
    {lastError : Option DWORD} (hreport : Event.report caller status lastError ∈ w.log) :
    Ordinary status :=
  (reporting_of_run hrun).reports caller status lastError hreport

/-- A start in which `CreateEvent` fails. -/
def eventFailsRun : List Action :=
  [.main none, .main none, .main none, .main (some errorInvalidData), .main none]

def eventFailsReport : Event :=
  .report .serviceMain ⟨serviceWin32OwnProcess, serviceStopped, serviceAcceptStop, 0, 0, 0, 0⟩ none

theorem eventFailsRun_reports_ordinary :
    Ordinary ⟨serviceWin32OwnProcess, serviceStopped, serviceAcceptStop, 0, 0, 0, 0⟩ := by
  obtain ⟨w, hrun, hreport⟩ : ∃ w, Run Step initial eventFailsRun w ∧
      decide (eventFailsReport ∈ w.log) = true :=
    exists_run_of_any (by decide)
  exact reports_ordinary hrun (of_decide_eq_true hreport)

/-! ## `STOPPED` without bound -/

/-- The `STOPPED` reports of the thread of `ServiceMain`. -/
def stoppedReports (log : List Event) : ℕ :=
  log.countP fun
    | .report .serviceMain status _ => status.dwCurrentState == serviceStopped
    | _ => false

theorem stoppedReports_append (log later : List Event) :
    stoppedReports (log ++ later) = stoppedReports log + stoppedReports later :=
  List.countP_append

theorem stoppedReports_report_main (w : World) (lastError : Option DWORD) :
    stoppedReports (setServiceStatus .serviceMain lastError w).log =
      stoppedReports w.log +
        if w.serviceStatus.dwCurrentState = serviceStopped then 1 else 0 := by
  rw [setServiceStatus_log, stoppedReports_append]
  by_cases hstopped : w.serviceStatus.dwCurrentState = serviceStopped
  · simp [stoppedReports, hstopped]
  · simp [stoppedReports, hstopped]

theorem stoppedReports_reportServiceStatus (w : World)
    (dwCurrentState exitCode waitHint : DWORD) (lastError : Option DWORD) :
    stoppedReports
        (reportServiceStatus dwCurrentState exitCode waitHint .serviceMain lastError w).log =
      stoppedReports w.log + if dwCurrentState = serviceStopped then 1 else 0 :=
  stoppedReports_report_main _ lastError

/-- No step takes a report back. -/
theorem stoppedReports_le_of_move {w after : World} {action : Action}
    (hmove : Move w action after) : stoppedReports w.log ≤ stoppedReports after.log := by
  obtain ⟨later, hlater⟩ := log_grows_of_move hmove
  rw [hlater, stoppedReports_append]
  exact Nat.le_add_right _ _

/-- The places of `ServiceMain` from which the loop of `Service_Init` goes round. -/
def MainThread.InLoop (main : MainThread) : Prop :=
  main = .reportInitial ∨ main = .waitForStop ∨ main = .reportStopped

/-- `ServiceMain` is at a place in or before its loop and nothing will hold it up there. -/
structure Due (main : MainThread) (count : ℕ) (w : World) : Prop where
  place : w.main = main
  event : w.stopServiceEvent ≠ some false
  reports : count ≤ stoppedReports w.log

/-- No step of the handler and no delivery holds `ServiceMain` up. -/
theorem Due.other_step {main : MainThread} {count : ℕ} {w after : World} {action : Action}
    (hdue : Due main count w) (hother : ¬ action.IsMain) (hstep : Step w action after) :
    Due main count after := by
  have hmove := move_of_step hstep
  have hreports := hdue.reports.trans (stoppedReports_le_of_move hmove)
  cases hmove with
  | deliver controlCode hidle hmain => exact ⟨hdue.place, hdue.event, hreports⟩
  | branch controlCode lastError hhandler hbranch =>
    cases hbranch <;> exact ⟨hdue.place, hdue.event, hreports⟩
  | setEvent lastError hhandler =>
    refine ⟨by simpa using hdue.place, ?_, hreports⟩
    unfold setEvent
    split
    · exact hdue.event
    · simp
  | setFinalStatus lastError hhandler => exact ⟨hdue.place, hdue.event, hreports⟩
  | _ => exact absurd trivial hother

/-- A fair execution takes the next step of a `ServiceMain` that nothing holds up. -/
theorem Due.eventually_steps {exec : Execution Step initial}
    (hfair : exec.WeaklyFair Action.IsMain) {main : MainThread} (hloop : main.InLoop) {count n : ℕ}
    (hdue : Due main count (exec.state n)) :
    ∃ m lastError, Due main count (exec.state m) ∧
      mainStep lastError (exec.state m) = some (exec.state (m + 1)) := by
  have henabled : ∀ w, Due main count w →
      ∃ action after, action.IsMain ∧ Step w action after := by
    intro w hdue
    have hpossible : ∃ after, mainStep none w = some after := by
      unfold mainStep
      rw [hdue.place]
      rcases hloop with rfl | rfl | rfl
      · exact ⟨_, rfl⟩
      · exact ⟨_, if_neg hdue.event⟩
      · exact ⟨_, rfl⟩
    obtain ⟨after, hafter⟩ := hpossible
    exact ⟨.main none, after, trivial, hafter⟩
  obtain ⟨m, action, -, hdue, haction, hthread⟩ :=
    exec.eventually_takes hfair (Due main count) henabled
      (fun _ _ _ hdue hother hstep ↦ hdue.other_step hother hstep) hdue
  cases action with
  | main lastError => exact ⟨m, lastError, hdue, exec.moves m _ haction⟩
  | deliver controlCode => cases hthread
  | handler lastError => cases hthread

/-- A round of the loop: the wait returns and `STOPPED` is reported once more. -/
theorem Due.next_round {exec : Execution Step initial} (hfair : exec.WeaklyFair Action.IsMain)
    {count n : ℕ} (hdue : Due .waitForStop count (exec.state n)) :
    ∃ m, Due .waitForStop (count + 1) (exec.state m) := by
  obtain ⟨m, lastError, hwaiting, hwait⟩ := hdue.eventually_steps hfair (.inr (.inl rfl))
  have hreturned : { exec.state m with main := .reportStopped } = exec.state (m + 1) := by
    simpa [mainStep, hwaiting.place, hwaiting.event] using hwait
  have hreporting : Due .reportStopped count (exec.state (m + 1)) := by
    rw [← hreturned]
    exact ⟨rfl, hwaiting.event, hwaiting.reports⟩
  obtain ⟨k, lastError, hready, hreport⟩ :=
    hreporting.eventually_steps hfair (.inr (.inr rfl))
  have hreported :
      { reportServiceStatus serviceStopped noError 0 .serviceMain lastError (exec.state k) with
        main := .waitForStop } = exec.state (k + 1) := by
    simpa [mainStep, hready.place] using hreport
  refine ⟨k + 1, ?_⟩
  rw [← hreported]
  refine ⟨rfl, hready.event, ?_⟩
  have hcounted :=
    stoppedReports_reportServiceStatus (exec.state k) serviceStopped noError 0 lastError
  rw [if_pos rfl] at hcounted
  exact (Nat.add_le_add_right hready.reports 1).trans hcounted.ge

/-- Behind either report of `Service_Init` stands the wait. -/
theorem Due.waits {main : MainThread} {w after : World} {lastError : Option DWORD}
    (hdue : Due main 0 w) (hreports : main = .reportInitial ∨ main = .reportStopped)
    (hstep : mainStep lastError w = some after) : Due .waitForStop 0 after := by
  have hmove : Move w (.main lastError) after := move_of_step hstep
  have hplace := hdue.place
  cases hmove with
  | reportInitial _ hmain => exact ⟨rfl, hdue.event, Nat.zero_le _⟩
  | reportStopped _ hmain => exact ⟨rfl, hdue.event, Nat.zero_le _⟩
  | _ => rcases hreports with rfl | rfl <;> simp_all

theorem Due.reaches_wait {exec : Execution Step initial} (hfair : exec.WeaklyFair Action.IsMain)
    {main : MainThread} {n : ℕ} (hdue : Due main 0 (exec.state n))
    (hreports : main = .reportInitial ∨ main = .reportStopped) :
    ∃ m, Due .waitForStop 0 (exec.state m) := by
  have hloop : main.InLoop := by
    rcases hreports with rfl | rfl
    · exact .inl rfl
    · exact .inr (.inr rfl)
  obtain ⟨m, lastError, hready, hreport⟩ := hdue.eventually_steps hfair hloop
  exact ⟨m + 1, hready.waits hreports hreport⟩

theorem Due.unbounded {exec : Execution Step initial} (hfair : exec.WeaklyFair Action.IsMain)
    {n : ℕ} (hdue : Due .waitForStop 0 (exec.state n)) (count : ℕ) :
    ∃ m, Due .waitForStop count (exec.state m) := by
  induction count with
  | zero => exact ⟨n, hdue⟩
  | succ count ih =>
    obtain ⟨m, hround⟩ := ih
    exact hround.next_round hfair

/-- The event is signaled only once it has been created, and `ServiceMain` creates it once. -/
def SignaledLate (w : World) : Prop :=
  w.stopServiceEvent ≠ none → w.main.PastCreateEvent

theorem signaledLate_of_move {w after : World} {action : Action} (hlate : SignaledLate w)
    (hmove : Move w action after) : SignaledLate after := by
  cases hmove with
  | registerHandler _ hmain | reportStartPending _ hmain | setInitialStatus _ hmain =>
    intro hevent
    have hpast : w.main.PastCreateEvent := hlate hevent
    simp [MainThread.PastCreateEvent, hmain] at hpast
  | createEvent _ hmain => exact fun _ ↦ .inl rfl
  | reportInitial _ hmain => exact fun _ ↦ .inr (.inl rfl)
  | waitForStop _ hmain hreturns => exact fun _ ↦ .inr (.inr (.inl rfl))
  | reportStopped _ hmain => exact fun _ ↦ .inr (.inl rfl)
  | deliver controlCode hidle hmain => exact hlate
  | branch controlCode lastError hhandler hbranch => cases hbranch <;> exact hlate
  | setEvent lastError hhandler =>
    intro hevent
    have hcreated : w.stopServiceEvent ≠ none := by
      intro hnull
      exact hevent (by simp [setEvent, hnull])
    simpa using hlate hcreated
  | setFinalStatus lastError hhandler => exact hlate

theorem signaledLate (exec : Execution Step initial) (n : ℕ) : SignaledLate (exec.state n) :=
  exec.invariant SignaledLate (fun hevent ↦ absurd rfl hevent)
    (fun _ _ _ hlate hstep ↦ signaledLate_of_move hlate (move_of_step hstep)) n

/-- A stop that is due finds `ServiceMain` in its loop or in front of it. -/
theorem due_of_stopDue {exec : Execution Step initial} {n : ℕ} (hdue : StopDue (exec.state n)) :
    ∃ main : MainThread, main.InLoop ∧ Due main 0 (exec.state n) := by
  have hpast : (exec.state n).main.PastCreateEvent := by
    rcases hdue with hsignaled | ⟨hpast, -⟩
    · exact signaledLate exec n (by simp [hsignaled])
    · exact hpast
  have hevent : (exec.state n).stopServiceEvent ≠ some false := by
    rcases hdue with hsignaled | ⟨-, hnull⟩
    · simp [hsignaled]
    · simp [hnull]
  refine ⟨(exec.state n).main, ?_, rfl, hevent, Nat.zero_le _⟩
  rcases hpast with hmain | hmain | hmain | hmain
  · exact .inl hmain
  · exact .inr (.inl hmain)
  · exact .inr (.inr hmain)
  · exact absurd hmain (main_ne_returned exec n)

/-- Wherever a stop finds it, `ServiceMain` reaches its wait again. -/
theorem reaches_wait_of_stopDue {exec : Execution Step initial}
    (hfair : exec.WeaklyFair Action.IsMain) {n : ℕ} (hdue : StopDue (exec.state n)) :
    ∃ m, Due .waitForStop 0 (exec.state m) := by
  obtain ⟨main, hloop, hmain⟩ := due_of_stopDue hdue
  rcases hloop with rfl | rfl | rfl
  · exact hmain.reaches_wait hfair (.inl rfl)
  · exact ⟨n, hmain⟩
  · exact hmain.reaches_wait hfair (.inr rfl)

/-- **Reporting for ever.**  In an execution that is fair to `ServiceMain`, whatever the handler
does, `ServiceMain` reports `STOPPED` without bound once a stop is due. -/
theorem stoppedReports_unbounded {exec : Execution Step initial}
    (hfair : exec.WeaklyFair Action.IsMain) {n : ℕ} (hdue : StopDue (exec.state n)) (count : ℕ) :
    ∃ m, count ≤ stoppedReports (exec.state m).log := by
  obtain ⟨m, hwaiting⟩ := reaches_wait_of_stopDue hfair hdue
  obtain ⟨later, hreported⟩ := hwaiting.unbounded hfair count
  exact ⟨later, hreported.reports⟩

end WinProcessThread.Service

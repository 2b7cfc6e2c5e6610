import WinProcessThread.ServiceControl.StartedService
import WinProcessThread.ServiceControl.Standalone

/-!
# `Stop_Service` and `Uninstall_Service` against the service itself

Both commands ask the manager once.  `Stop_Service` sends a `STOP` to a service that is neither held
as stopped nor as starting, and those are just the services to which the manager delivers it.
`Uninstall_Service` deletes a service that is held as stopped.  The service may go on reporting
behind its stop, but it reports nothing but `STOPPED` from there on, so what the command deletes has
stopped for good; and a `STOP` whose report arrives leads to a service that can be deleted.

An execution is one life of the service process, from its start on: nobody starts the service again.
-/

namespace WinProcessThread.ServiceControl

open Service Transition

variable {w after : Service.World} {exec : Execution ScmStep Service.initial} {n k : ℕ}

/-! ## What `Stop_Service` sends -/

/-- The control that the manager may deliver to a started service is a `STOP`. -/
structure Accepting (w : Service.World) : Prop where
  recorded : Recorded w
  status : InService w → w.serviceStatus.dwControlsAccepted = serviceAcceptStop
  record : Started w → w.received.dwControlsAccepted = serviceAcceptStop

/-- Only `ReportServiceStatus` stores what is accepted. -/
theorem accepted_of_move {action : Action} (hmove : Move w action after) (hin : InService after)
    (hbefore : InService w → w.serviceStatus.dwControlsAccepted = serviceAcceptStop) :
    after.serviceStatus.dwControlsAccepted = serviceAcceptStop := by
  cases hmove with
  | registerHandler _ hmain | reportStartPending _ hmain | setInitialStatus _ hmain
  | createEvent _ hmain =>
    simp [InService] at hin
  | reportInitial _ hmain =>
    by_cases hcreated : w.stopServiceEvent = none
    · rw [if_pos hcreated]
      rfl
    · rw [if_neg hcreated]
      rfl
  | waitForStop _ hmain hreturns => exact hbefore (.inl hmain)
  | reportStopped _ hmain => rfl
  | deliver controlCode hidle hmain => exact hbefore hin
  | branch controlCode lastError hhandler hbranch =>
    cases hbranch with
    | stop => rfl
    | _ => exact hbefore hin
  | setEvent lastError hhandler =>
    simp only [setEvent_serviceStatus]
    exact hbefore (by simpa [InService] using hin)
  | setFinalStatus lastError hhandler => exact hbefore hin

theorem Accepting.step {action : Action} (haccepting : Accepting w)
    (hstep : ScmStep w action after) : Accepting after := by
  have hmove := move_of_step hstep.2
  have hrecorded := haccepting.recorded.step hstep
  refine ⟨hrecorded, fun hin ↦ accepted_of_move hmove hin haccepting.status, fun hstarted ↦ ?_⟩
  rcases received_of_move hmove with hsame | hsent
  · rw [hsame]
    apply haccepting.record
    unfold Started recordedState at hstarted ⊢
    rwa [hsame] at hstarted
  · rw [hsent]
    exact accepted_of_move hmove (hrecorded.inService hstarted) haccepting.status

/-- Behind a stopped lifecycle only `STOPPED` is reported. -/
theorem reports_behind_stopped {states more : List DWORD} {next : Phase}
    (hstopped : Lifecycle states .stopped) (hrun : Lifecycle (states ++ more) next) :
    next = .stopped ∧ ∀ state ∈ more, state = serviceStopped := by
  obtain ⟨middle, hstates, hmore⟩ := Run.append_iff.mp hrun
  have hmiddle : middle = .stopped := hstates.unique hstopped
  rw [hmiddle] at hmore
  clear hrun hstates hmiddle
  induction hmore with
  | refl => exact ⟨rfl, by simp⟩
  | snoc _ hlast ih =>
    obtain ⟨rfl, hall⟩ := ih
    simp only [ofPartial, Phase.advance] at hlast
    split at hlast
    · next hstate =>
      refine ⟨(Option.some.inj hlast).symm, ?_⟩
      intro state hmember
      rcases List.mem_append.mp hmember with hearlier | hthis
      · exact hall state hearlier
      · rw [List.mem_singleton.mp hthis, hstate]
    · cases hlast

/-- No step leaves the last phase. -/
theorem refines_stopped_step {action : Action} (href : Refines w .stopped)
    (hstep : ScmStep w action after) : Refines after .stopped := by
  obtain ⟨next, hnext⟩ := href.step hstep
  obtain ⟨later, hlater⟩ := log_grows_of_move (move_of_step hstep.2)
  have hlifecycle := hnext.lifecycle
  rw [hlater, reportedStates_append] at hlifecycle
  have hstopped := (reports_behind_stopped href.lifecycle hlifecycle).1
  rwa [hstopped] at hnext

/-- The manager takes the service as stopped only when it is in its last phase. -/
structure RecordedStopped (w : Service.World) : Prop where
  refines : ∃ phase, Refines w phase
  stopped : recordedState w = serviceStopped → Refines w .stopped

/-- A stopped record has come from the shared status, and that is the status of the last phase. -/
theorem refines_stopped_of_sent {phase : Phase} (href : Refines w phase)
    (hrecord : recordedState w = serviceStopped)
    (hsent : w.received = w.serviceStatus) : phase = .stopped := by
  have hmatched := href.matched
  cases phase with
  | initial => exact absurd (hmatched.2.2.2.symm.trans hrecord) (by decide)
  | starting => exact absurd (hmatched.2.2.2.2.symm.trans hrecord) (by decide)
  | running =>
    rw [recordedState, hsent] at hrecord
    exact absurd (hmatched.2.2.2.symm.trans hrecord) (by decide)
  | stopped => rfl

theorem RecordedStopped.step {action : Action} (hrecorded : RecordedStopped w)
    (hstep : ScmStep w action after) : RecordedStopped after := by
  obtain ⟨phase, href⟩ := hrecorded.refines
  obtain ⟨next, hnext⟩ := href.step hstep
  refine ⟨⟨next, hnext⟩, fun hrecord ↦ ?_⟩
  rcases received_of_move (move_of_step hstep.2) with hsame | hsent
  · rw [recordedState, hsame] at hrecord
    exact refines_stopped_step (hrecorded.stopped hrecord) hstep
  · rwa [refines_stopped_of_sent hnext hrecord hsent] at hnext

theorem recordedStopped_initial : RecordedStopped Service.initial :=
  ⟨⟨.initial, refines_initial⟩, fun hstopped ↦ absurd hstopped (by decide)⟩

theorem recordedStopped (exec : Execution ScmStep Service.initial) (n : ℕ) :
    RecordedStopped (exec.state n) :=
  exec.invariant RecordedStopped recordedStopped_initial
    (fun _ _ _ hrecorded hstep ↦ hrecorded.step hstep) n

/-- The manager and the service agree, and nothing but `STOPPED` is reported behind this log. -/
structure StoppedBehind (log : List Event) (w : Service.World) : Prop where
  refines : Refines w .stopped
  record : recordedState w = serviceStopped
  reports : ∃ more, reportedStates w.log = reportedStates log ++ more ∧
    ∀ state ∈ more, state = serviceStopped

theorem StoppedBehind.step {log : List Event} {action : Action} (hbehind : StoppedBehind log w)
    (hstep : ScmStep w action after) : StoppedBehind log after := by
  have hafter := refines_stopped_step hbehind.refines hstep
  have hmove := move_of_step hstep.2
  obtain ⟨more, hmore, hall⟩ := hbehind.reports
  obtain ⟨later, hlater⟩ := log_grows_of_move hmove
  have hlifecycle := hafter.lifecycle
  rw [hlater, reportedStates_append] at hlifecycle
  have hlast := (reports_behind_stopped hbehind.refines.lifecycle hlifecycle).2
  refine ⟨hafter, ?_, more ++ reportedStates later, ?_, ?_⟩
  · rcases received_of_move hmove with hsame | hsent
    · rw [recordedState, hsame]
      exact hbehind.record
    · rw [recordedState, hsent]
      exact hafter.matched.2
  · rw [hlater, reportedStates_append, hmore, List.append_assoc]
  · exact List.forall_mem_append.mpr ⟨hall, hlast⟩

theorem stoppedBehind (hrecord : recordedState (exec.state n) = serviceStopped) (hle : n ≤ k) :
    StoppedBehind (exec.state n).log (exec.state k) := by
  have hrefines := (recordedStopped exec n).stopped hrecord
  have hnow : StoppedBehind (exec.state n).log (exec.state n) :=
    ⟨hrefines, hrecord, [], by simp, by simp⟩
  exact exec.stable (StoppedBehind (exec.state n).log) (fun _ _ hbehind hstep ↦ hbehind.step hstep)
    hnow hle

/-! ## The two calls of `Stop_Service` -/

/-- `Uninstall_Service` with both handles opened and its query answered by the manager. -/
def uninstallCommand (exec : Execution ScmStep Service.initial) (instant : ℕ)
    (lastError : Option DWORD) : World :=
  uninstallService ⟨none, none, .answered (recordedState (exec.state instant)), lastError⟩ .fresh

/-- `DeleteService` is called, with this result. -/
def Deletes (world : World) (lastError : Option DWORD) : Prop :=
  .deleteService .openedService lastError ∈ world.log

theorem deletes_uninstallCommand (exec : Execution ScmStep Service.initial) (instant : ℕ)
    (lastError : Option DWORD) :
    Deletes (uninstallCommand exec instant lastError) lastError ↔
      recordedState (exec.state instant) = serviceStopped := by
  unfold Deletes uninstallCommand
  by_cases hstopped : recordedState (exec.state instant) = serviceStopped
  · simp [uninstallService, uninstallFromManager, log_uninstallInState, World.fresh, hstopped]
  · simp [uninstallService, uninstallFromManager, log_uninstallInState, World.fresh, hstopped]

/-- **What is deleted has stopped.**  In every execution of the service under the delivery rules,
that is, in one life of its process, `Uninstall_Service` calls `DeleteService` at some instant
exactly when from that instant on the manager holds the service as stopped and the service reports
nothing but `STOPPED`. -/
theorem deletes_iff_stopped_for_good (exec : Execution ScmStep Service.initial) (n : ℕ)
    (lastError : Option DWORD) :
    Deletes (uninstallCommand exec n lastError) lastError ↔
      ∀ k, n ≤ k → recordedState (exec.state k) = serviceStopped ∧
        ∃ more, reportedStates (exec.state k).log = reportedStates (exec.state n).log ++ more ∧
          ∀ state ∈ more, state = serviceStopped := by
  rw [deletes_uninstallCommand]
  constructor
  · intro hrecord k hle
    have hbehind := stoppedBehind hrecord hle
    exact ⟨hbehind.record, hbehind.reports⟩
  · intro hforever
    exact (hforever n le_rfl).1

/-! ## A `STOP` leads there -/

/-- `SetServiceStatus` succeeds in the `STOP` branch of the handler. -/
def StopReportSucceeds (exec : Execution ScmStep Service.initial) : Prop :=
  ∀ n lastError, exec.action n = some (.handler lastError) →
    (exec.state n).handler = .dispatched serviceControlStop → lastError = none

/-- The handler takes the `STOP` branch in the end, and its report is received. -/
theorem exists_stopped (hfair : exec.WeaklyFair Action.IsHandler)
    (hsucceeds : StopReportSucceeds exec)
    (hdispatched : (exec.state n).handler = .dispatched serviceControlStop) :
    ∃ m, n ≤ m ∧ recordedState (exec.state m) = serviceStopped := by
  have henabled : ∀ w : Service.World, w.handler = .dispatched serviceControlStop →
      ∃ action after, action.IsHandler ∧ ScmStep w action after := by
    intro w hhandler
    have hpossible : handlerStep none w = some (controlSwitch serviceControlStop none w) := by
      rw [handlerStep, hhandler]
    exact ⟨.handler none, _, trivial, trivial, hpossible⟩
  have hkeep : ∀ (w : Service.World) action after, w.handler = .dispatched serviceControlStop →
      ¬ action.IsHandler → ScmStep w action after →
      after.handler = .dispatched serviceControlStop := by
    intro w action after hhandler hother hstep
    have hbusy : w.handler ≠ .idle := by simp [hhandler]
    rw [handler_eq_of_move (move_of_step hstep.2) hbusy, hhandler]
    intro lastError haction
    exact hother (by rw [haction]; trivial)
  obtain ⟨m, action, hle, hhandler, haction, hthread⟩ :=
    exec.eventually_takes hfair (fun w ↦ w.handler = .dispatched serviceControlStop) henabled hkeep
      hdispatched
  cases action with
  | handler lastError =>
    obtain rfl := hsucceeds m lastError haction hhandler
    have hstep : controlSwitch serviceControlStop none (exec.state m) = exec.state (m + 1) := by
      have hmoves := (exec.moves m _ haction).2
      simpa [ofPartial, step, handlerStep, hhandler] using hmoves
    refine ⟨m + 1, by omega, ?_⟩
    rw [← hstep, controlSwitch_stop]
    rfl
  | main lastError => cases hthread
  | deliver controlCode => cases hthread

/-- **Stop, then uninstall.**  In every execution under the delivery rules in which the handler is
scheduled and its `STOPPED` report arrives, each `STOP` that is delivered leads to an instant from
which on, as long as nobody starts the service again, `Uninstall_Service` calls `DeleteService`. -/
theorem uninstall_after_stop (exec : Execution ScmStep Service.initial)
    (hfair : exec.WeaklyFair Action.IsHandler) (hsucceeds : StopReportSucceeds exec) {n : ℕ}
    (hstop : exec.action n = some (.deliver serviceControlStop)) :
    ∃ m, n ≤ m ∧ ∀ k, m ≤ k → ∀ lastError,
      Deletes (uninstallCommand exec k lastError) lastError := by
  have hdispatched : (exec.state (n + 1)).handler = .dispatched serviceControlStop := by
    rw [(step_deliver_iff.mp (exec.moves n _ hstop).2).2]
  obtain ⟨m, hle, hrecord⟩ := exists_stopped hfair hsucceeds hdispatched
  refine ⟨m, by omega, fun k hk lastError ↦ ?_⟩
  rw [deletes_uninstallCommand]
  exact (stoppedBehind hrecord hk).record

theorem stopExecution_action {n : ℕ} {action : Action}
    (haction : stopExecution.action n = some action) :
    action = .main none ∨ action = .handler none ∨
      n = 10 ∧ action = .deliver serviceControlStop := by
  have hscheduled : action = stopSchedule n := by
    simp only [stopExecution, scheduled] at haction
    split at haction
    · exact (Option.some.inj haction).symm
    · cases haction
  rw [hscheduled]
  unfold stopSchedule quietSchedule
  split_ifs with hstop
  · exact .inr (.inr ⟨hstop, rfl⟩)
  · exact .inl rfl
  · exact .inr (.inl rfl)

theorem stopExecution_allowed (n : ℕ) (action : Action)
    (haction : stopExecution.action n = some action) :
    ScmAllows (stopExecution.state n) action := by
  rcases stopExecution_action haction with rfl | rfl | ⟨rfl, rfl⟩
  · trivial
  · trivial
  · change ScmDelivers (stopExecution.state 10).received serviceControlStop
    decide

/-- The service with both threads in turn and one `STOP` after it has reported `RUNNING`. -/
def stoppingService : Execution ScmStep Service.initial :=
  stopExecution.guarded stopExecution_allowed

theorem stoppingService_reports : StopReportSucceeds stoppingService := by
  intro n lastError haction hhandler
  rcases stopExecution_action haction with hmain | hturn | ⟨-, hdeliver⟩
  · cases hmain
  · exact Action.handler.inj hturn
  · cases hdeliver

theorem stoppingService_uninstall_after_stop :
    ∃ m, 10 ≤ m ∧ ∀ k, m ≤ k → ∀ lastError,
      Deletes (uninstallCommand stoppingService k lastError) lastError := by
  have hstop : stoppingService.action 10 = some (.deliver serviceControlStop) := by decide
  exact uninstall_after_stop stoppingService
    (stopExecution_fair.handler.guarded stopExecution_allowed) stoppingService_reports hstop

end WinProcessThread.ServiceControl

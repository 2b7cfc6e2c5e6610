import WinProcessThread.Service.Lifecycle
import WinProcessThread.Transition.Fair

/-!
# What follows a stop

A service that has reported `STOPPED` should report nothing more, and `ServiceMain` should return
once the stop event is signaled or could not be created.  Neither is so: the loop of
`Service_Init` has no exit, and the `STOP` branch is followed by the status call that ends every
invocation.  The executions that keep the promise are exactly those in which nothing asks the
service to stop.
-/

namespace WinProcessThread.Service

open Transition

/-! ## The promise -/

/-- No status is reported after a `STOPPED` one. -/
def finalLaw (earlier : List Event) : Event → Prop
  | .report _ _ _ => serviceStopped ∉ reportedStates earlier
  | _ => True

instance (earlier : List Event) : (event : Event) → Decidable (finalLaw earlier event)
  | .deliver _ => .isTrue trivial
  | .branch _ => .isTrue trivial
  | .report _ _ _ => inferInstanceAs (Decidable (_ ∉ _))
  | .setEvent => .isTrue trivial

/-- `CreateEvent` has been called. -/
def MainThread.PastCreateEvent (main : MainThread) : Prop :=
  main = .reportInitial ∨ main = .waitForStop ∨ main = .reportStopped ∨ main = .returned

/-- The stop event is signaled or could not be created. -/
def StopDue (w : World) : Prop :=
  w.stopServiceEvent = some true ∨ (w.main.PastCreateEvent ∧ w.stopServiceEvent = none)

structure StoppedIsFinal (exec : Execution Step initial) : Prop where
  final : ∀ n, Throughout finalLaw (exec.state n).log
  returns : ∀ n, StopDue (exec.state n) → ∃ m, n ≤ m ∧ (exec.state m).main = .returned

def Action.IsMain : Action → Prop
  | .main _ => True
  | _ => False

def Action.IsHandler : Action → Prop
  | .handler _ => True
  | _ => False

/-- Both threads are scheduled again and again while they can take a step. -/
structure FairThreads (exec : Execution Step initial) : Prop where
  main : exec.WeaklyFair Action.IsMain
  handler : exec.WeaklyFair Action.IsHandler

/-! ## When it is kept -/

/-- A step that does not ask the service to stop: `CreateEvent` succeeds, no `STOP` is delivered,
and the handler's `SetEvent` finds no event. -/
def KeepsRunning (w : World) : Action → Prop
  | .main lastError => w.main = .createEvent → lastError = none
  | .deliver controlCode => controlCode ≠ serviceControlStop
  | .handler _ => w.handler = .setEvent → w.stopServiceEvent = none

/-- What such steps preserve. -/
structure NeverStopped (w : World) : Prop where
  main : w.main ≠ .reportStopped ∧ w.main ≠ .returned
  unsignaled : w.stopServiceEvent ≠ some true
  created : w.main.PastCreateEvent → w.stopServiceEvent = some false
  handler : w.handler ≠ .dispatched serviceControlStop
  status : w.serviceStatus.dwCurrentState ≠ serviceStopped
  reports : serviceStopped ∉ reportedStates w.log
  final : Throughout finalLaw w.log

theorem neverStopped_initial : NeverStopped initial where
  main := by decide
  unsignaled := by decide
  created := by simp [initial, MainThread.PastCreateEvent]
  handler := by decide
  status := by decide
  reports := by decide
  final := throughout_nil

/-- A report of a state other than `STOPPED` is harmless, wherever the threads go next. -/
theorem NeverStopped.report {w : World} (hnever : NeverStopped w) {status : ServiceStatus}
    {caller : Caller} {lastError : Option DWORD} {dwCheckPoint : DWORD} {main : MainThread}
    {handler : HandlerThread} (hstatus : status.dwCurrentState ≠ serviceStopped)
    (hmain : main ≠ .reportStopped ∧ main ≠ .returned)
    (hcreated : main.PastCreateEvent → w.stopServiceEvent = some false)
    (hhandler : handler ≠ .dispatched serviceControlStop) :
    NeverStopped
      { setServiceStatus caller lastError
          { w with serviceStatus := status, dwCheckPoint := dwCheckPoint } with
        main := main
        handler := handler } where
  main := hmain
  unsignaled := hnever.unsignaled
  created := hcreated
  handler := hhandler
  status := hstatus
  reports := by simpa using ⟨hnever.reports, Ne.symm hstatus⟩
  final := throughout_snoc.mpr ⟨hnever.final, hnever.reports⟩

/-- An event that is not a report changes nothing that `NeverStopped` says about the log. -/
theorem NeverStopped.append {w : World} (hnever : NeverStopped w) (event : Event)
    (hsilent : reportedStates [event] = []) :
    NeverStopped { w with log := w.log ++ [event] } where
  main := hnever.main
  unsignaled := hnever.unsignaled
  created := hnever.created
  handler := hnever.handler
  status := hnever.status
  reports := by simpa [hsilent] using hnever.reports
  final := by
    refine throughout_snoc.mpr ⟨hnever.final, ?_⟩
    cases event with
    | report caller status lastError => cases hsilent
    | _ => trivial

theorem NeverStopped.main_step {w after : World} {lastError : Option DWORD}
    (hnever : NeverStopped w) (hkeeps : KeepsRunning w (.main lastError))
    (hmove : Move w (.main lastError) after) : NeverStopped after := by
  cases hmove with
  | registerHandler _ hmain =>
    exact { hnever with
      main := ⟨by simp, by simp⟩
      created := by simp [MainThread.PastCreateEvent] }
  | reportStartPending _ hmain =>
    exact hnever.report (by simp; decide) ⟨by simp, by simp⟩
      (by simp [MainThread.PastCreateEvent]) hnever.handler
  | setInitialStatus _ hmain =>
    exact hnever.report hnever.status ⟨by simp, by simp⟩
      (by simp [MainThread.PastCreateEvent]) hnever.handler
  | createEvent _ hmain =>
    obtain rfl := hkeeps hmain
    exact { hnever with
      main := ⟨by simp, by simp⟩
      unsignaled := by simp
      created := fun _ ↦ rfl }
  | reportInitial _ hmain =>
    have hcreated := hnever.created (.inl hmain)
    refine hnever.report ?_ ⟨by simp, by simp⟩ (fun _ ↦ hcreated) hnever.handler
    rw [hcreated]
    simp
    decide
  | waitForStop _ hmain hreturns => exact absurd (hnever.created (.inr (.inl hmain))) hreturns
  | reportStopped _ hmain => exact absurd hmain hnever.main.1

theorem NeverStopped.handler_step {w after : World} {lastError : Option DWORD}
    (hnever : NeverStopped w) (hkeeps : KeepsRunning w (.handler lastError))
    (hmove : Move w (.handler lastError) after) : NeverStopped after := by
  cases hmove with
  | branch controlCode _ hhandler hbranch =>
    have hlogged := hnever.append (.branch controlCode) rfl
    cases hbranch with
    | none => exact { hlogged with handler := by simp }
    | shutdown =>
      exact { hlogged with
        handler := by simp
        status := by simp; decide }
    | stop => exact absurd hhandler hnever.handler
    | pause => exact hlogged.report (by simp; decide) hnever.main hnever.created (by simp)
    | «continue» => exact hlogged.report (by simp; decide) hnever.main hnever.created (by simp)
  | setEvent _ hhandler =>
    have hnull : setEvent w = w := by
      unfold setEvent
      rw [hkeeps hhandler]
    rw [hnull]
    exact { hnever with handler := by simp }
  | setFinalStatus _ hhandler =>
    exact hnever.report hnever.status hnever.main hnever.created (by simp)

theorem NeverStopped.step {w after : World} {action : Action} (hnever : NeverStopped w)
    (hkeeps : KeepsRunning w action) (hstep : Step w action after) : NeverStopped after := by
  have hmove := move_of_step hstep
  cases action with
  | main lastError => exact hnever.main_step hkeeps hmove
  | handler lastError => exact hnever.handler_step hkeeps hmove
  | deliver controlCode =>
    cases hmove with
    | deliver _ hidle hmain =>
      exact { hnever.append (.deliver controlCode) rfl with
        handler := fun h ↦ hkeeps (HandlerThread.dispatched.inj h) }

/-! ## When it is broken -/

theorem main_ne_returned (exec : Execution Step initial) (n : ℕ) :
    (exec.state n).main ≠ .returned :=
  exec.invariant (fun w ↦ w.main ≠ .returned) (by decide)
    (fun _ _ _ hmain hstep ↦ main_ne_returned_of_move (move_of_step hstep) hmain) n

theorem StoppedIsFinal.not_stopDue {exec : Execution Step initial} (hfinal : StoppedIsFinal exec)
    (n : ℕ) : ¬ StopDue (exec.state n) := by
  intro hdue
  obtain ⟨m, -, hreturned⟩ := hfinal.returns n hdue
  exact main_ne_returned exec m hreturned

/-- A handler in the middle of an invocation is eventually scheduled, and what the log has
recorded stays recorded. -/
theorem handler_eventually_steps {exec : Execution Step initial}
    (hfair : exec.WeaklyFair Action.IsHandler) {handler : HandlerThread}
    (hbusy : handler ≠ .idle) {fact : List Event → Prop}
    (hfact : ∀ log later, fact log → fact (log ++ later)) {n : ℕ}
    (hnow : (exec.state n).handler = handler) (hlog : fact (exec.state n).log) :
    ∃ m lastError, (exec.state m).handler = handler ∧ fact (exec.state m).log ∧
      handlerStep lastError (exec.state m) = some (exec.state (m + 1)) := by
  have henabled : ∀ w, (w.handler = handler ∧ fact w.log) →
      ∃ action after, action.IsHandler ∧ Step w action after := by
    rintro w ⟨hhandler, -⟩
    have hpossible : ∃ after, handlerStep none w = some after := by
      unfold handlerStep
      cases handler <;> simp_all
    obtain ⟨after, hafter⟩ := hpossible
    exact ⟨.handler none, after, trivial, hafter⟩
  have hkeep : ∀ w action after, (w.handler = handler ∧ fact w.log) → ¬ action.IsHandler →
      Step w action after → after.handler = handler ∧ fact after.log := by
    rintro w action after ⟨hhandler, hlog⟩ hother hstep
    have hmove := move_of_step hstep
    obtain ⟨later, hlater⟩ := log_grows_of_move hmove
    refine ⟨?_, by rw [hlater]; exact hfact _ _ hlog⟩
    rw [handler_eq_of_move hmove (by rw [hhandler]; exact hbusy), hhandler]
    rintro lastError rfl
    exact hother trivial
  obtain ⟨m, action, -, ⟨hhandler, hlog⟩, haction, hthread⟩ :=
    exec.eventually_takes hfair (fun w ↦ w.handler = handler ∧ fact w.log) henabled hkeep
      ⟨hnow, hlog⟩
  cases action with
  | handler lastError => exact ⟨m, lastError, hhandler, hlog, exec.moves m _ haction⟩
  | main lastError => cases hthread
  | deliver controlCode => cases hthread

def StoppedReported (log : List Event) : Prop := serviceStopped ∈ reportedStates log

theorem stoppedReported_append (log later : List Event) (hstopped : StoppedReported log) :
    StoppedReported (log ++ later) := by
  unfold StoppedReported
  rw [reportedStates_append]
  exact List.mem_append_left _ hstopped

/-- A handler about to make its last report after a `STOPPED` one breaks the promise. -/
theorem not_final_of_setFinalStatus {exec : Execution Step initial}
    (hfair : exec.WeaklyFair Action.IsHandler) {n : ℕ}
    (hnow : (exec.state n).handler = .setFinalStatus)
    (hlog : StoppedReported (exec.state n).log) :
    ∃ m, ¬ Throughout finalLaw (exec.state m).log := by
  obtain ⟨m, lastError, hhandler, hstopped, hstep⟩ :=
    handler_eventually_steps hfair (by simp) stoppedReported_append hnow hlog
  have hafter : { setServiceStatus .controlHandler lastError (exec.state m) with handler := .idle }
      = exec.state (m + 1) := by
    simpa [handlerStep, hhandler] using hstep
  refine ⟨m + 1, fun hall ↦ ?_⟩
  rw [← hafter] at hall
  exact (throughout_snoc.mp hall).2 hstopped

theorem not_final_of_setEvent {exec : Execution Step initial}
    (hfair : exec.WeaklyFair Action.IsHandler) {n : ℕ}
    (hnow : (exec.state n).handler = .setEvent)
    (hlog : StoppedReported (exec.state n).log) :
    ∃ m, ¬ Throughout finalLaw (exec.state m).log := by
  obtain ⟨m, lastError, hhandler, hstopped, hstep⟩ :=
    handler_eventually_steps hfair (by simp) stoppedReported_append hnow hlog
  have hafter : { setEvent (exec.state m) with handler := .setFinalStatus }
      = exec.state (m + 1) := by
    simpa [handlerStep, hhandler] using hstep
  have hmove : Move (exec.state m) (.handler lastError) (exec.state (m + 1)) := move_of_step hstep
  obtain ⟨later, hlater⟩ := log_grows_of_move hmove
  have hgrown : StoppedReported (exec.state (m + 1)).log := by
    rw [hlater]
    exact stoppedReported_append _ later hstopped
  exact not_final_of_setFinalStatus hfair (by rw [← hafter]) hgrown

/-- A delivered `STOP` reports `STOPPED` and then, in the same invocation, reports again. -/
theorem not_final_of_stop {exec : Execution Step initial}
    (hfair : exec.WeaklyFair Action.IsHandler) {n : ℕ}
    (hnow : (exec.state n).handler = .dispatched serviceControlStop) :
    ∃ m, ¬ Throughout finalLaw (exec.state m).log := by
  have hkept : ∀ log later : List Event, True → True := fun _ _ _ ↦ trivial
  obtain ⟨m, lastError, hhandler, -, hstep⟩ :=
    handler_eventually_steps hfair (by simp) hkept hnow trivial
  have hafter : controlSwitch serviceControlStop lastError (exec.state m)
      = exec.state (m + 1) := by
    simpa [handlerStep, hhandler] using hstep
  rw [controlSwitch_stop] at hafter
  refine not_final_of_setEvent hfair (n := m + 1) (by rw [← hafter]) ?_
  rw [← hafter]
  simp [StoppedReported, reportServiceStatus]

theorem keepsRunning_of_stoppedIsFinal {exec : Execution Step initial}
    (hfair : FairThreads exec) (hfinal : StoppedIsFinal exec) {n : ℕ} {action : Action}
    (haction : exec.action n = some action) : KeepsRunning (exec.state n) action := by
  have hstep := exec.moves n action haction
  cases action with
  | main lastError =>
    intro hmain
    by_contra hfailed
    have hafter : { exec.state n with stopServiceEvent := none, main := .reportInitial }
        = exec.state (n + 1) := by
      simpa [ofPartial, step, mainStep, hmain, hfailed] using hstep
    apply hfinal.not_stopDue (n + 1)
    rw [← hafter]
    exact .inr ⟨.inl rfl, rfl⟩
  | deliver controlCode =>
    rintro rfl
    have hdispatched : (exec.state (n + 1)).handler = .dispatched serviceControlStop := by
      rw [(step_deliver_iff.mp hstep).2]
    obtain ⟨m, hbroken⟩ := not_final_of_stop hfair.handler hdispatched
    exact hbroken (hfinal.final m)
  | handler lastError =>
    intro hsignaling
    by_contra hevent
    have hafter : { setEvent (exec.state n) with handler := .setFinalStatus }
        = exec.state (n + 1) := by
      simpa [ofPartial, step, handlerStep, hsignaling] using hstep
    apply hfinal.not_stopDue (n + 1)
    rw [← hafter]
    exact .inl (setEvent_signals hevent)

/-- **Stopping.**  In a fair execution `STOPPED` is final, with `ServiceMain` returning, exactly
when `CreateEvent` does not fail, no `STOP` is delivered, and no handler invocation calls
`SetEvent` on the created event. -/
theorem stoppedIsFinal_iff_keepsRunning (exec : Execution Step initial)
    (hfair : FairThreads exec) :
    StoppedIsFinal exec ↔
      ∀ n action, exec.action n = some action → KeepsRunning (exec.state n) action := by
  constructor
  · intro hfinal n action haction
    exact keepsRunning_of_stoppedIsFinal hfair hfinal haction
  · intro hkeeps
    have hnever : ∀ n, NeverStopped (exec.state n) :=
      exec.invariant_of_actions NeverStopped KeepsRunning neverStopped_initial hkeeps
        fun _ _ _ hnever hstep ↦ hnever.step hstep
    refine ⟨fun n ↦ (hnever n).final, fun n hdue ↦ ?_⟩
    rcases hdue with hsignaled | ⟨hpast, hnull⟩
    · exact absurd hsignaled (hnever n).unsignaled
    · exact absurd ((hnever n).created hpast) (by simp [hnull])

/-! ## Two fair executions -/

/-- A schedule that gives every thread its turn for ever. -/
theorem fairThreads_scheduled {schedule : ℕ → Action}
    (hmain : ∀ n, schedule (2 * (n + 6)) = .main none)
    (hhandler : ∀ n, schedule (2 * n + 1) = .handler none) :
    FairThreads (scheduled step initial schedule) where
  main := by
    refine weaklyFair_scheduled fun n ↦ ⟨2 * (n + 6), by omega, ?_, ?_⟩
    · rw [hmain]
      trivial
    · intro w action after hthread hstep
      cases action with
      | main lastError =>
        rw [hmain, step, mainStep_isSome none lastError]
        exact Option.isSome_iff_exists.mpr ⟨after, hstep⟩
      | _ => cases hthread
  handler := by
    refine weaklyFair_scheduled fun n ↦ ⟨2 * n + 1, by omega, ?_, ?_⟩
    · rw [hhandler]
      trivial
    · intro w action after hthread hstep
      cases action with
      | handler lastError =>
        rw [hhandler, step, handlerStep_isSome none lastError]
        exact Option.isSome_iff_exists.mpr ⟨after, hstep⟩
      | _ => cases hthread

/-- Both threads in turn, every call succeeding and no control delivered. -/
def quietSchedule (n : ℕ) : Action :=
  if n % 2 = 0 then .main none else .handler none

def quietExecution : Execution Step initial := scheduled step initial quietSchedule

theorem quietExecution_fair : FairThreads quietExecution :=
  fairThreads_scheduled (fun n ↦ if_pos (by omega)) (fun n ↦ if_neg (by omega))

theorem quietExecution_action {n : ℕ} {action : Action}
    (haction : quietExecution.action n = some action) :
    action = .main none ∨ action = .handler none := by
  have hscheduled : action = quietSchedule n := by
    simp only [quietExecution, scheduled] at haction
    split at haction
    · exact (Option.some.inj haction).symm
    · cases haction
  rw [hscheduled]
  unfold quietSchedule
  split
  · exact .inl rfl
  · exact .inr rfl

theorem quietExecution_idle (n : ℕ) : (quietExecution.state n).handler = .idle := by
  refine quietExecution.invariant_of_actions (fun w ↦ w.handler = .idle)
    (fun _ action ↦ action = .main none ∨ action = .handler none) rfl
    (fun n action haction ↦ quietExecution_action haction) ?_ n
  rintro w action after hidle (rfl | rfl) hstep
  · cases move_of_step hstep <;> exact hidle
  · cases move_of_step hstep <;> simp_all

theorem quietExecution_stoppedIsFinal : StoppedIsFinal quietExecution := by
  apply (stoppedIsFinal_iff_keepsRunning quietExecution quietExecution_fair).mpr
  intro n action haction
  rcases quietExecution_action haction with rfl | rfl
  · exact fun _ ↦ rfl
  · intro hsignaling
    simp [quietExecution_idle n] at hsignaling

/-- Both threads in turn, and one `STOP` after the service has reported `RUNNING`. -/
def stopSchedule (n : ℕ) : Action :=
  if n = 10 then .deliver serviceControlStop else quietSchedule n

def stopExecution : Execution Step initial := scheduled step initial stopSchedule

theorem stopExecution_fair : FairThreads stopExecution := by
  refine fairThreads_scheduled (fun n ↦ ?_) (fun n ↦ ?_)
  · rw [stopSchedule, if_neg (by omega)]
    exact if_pos (by omega)
  · rw [stopSchedule, if_neg (by omega)]
    exact if_neg (by omega)

theorem stopExecution_not_final : FairThreads stopExecution ∧ ¬ StoppedIsFinal stopExecution := by
  refine ⟨stopExecution_fair, fun hfinal ↦ ?_⟩
  have hlater : ¬ Throughout finalLaw (stopExecution.state 16).log := by decide
  exact hlater (hfinal.final 16)

end WinProcessThread.Service

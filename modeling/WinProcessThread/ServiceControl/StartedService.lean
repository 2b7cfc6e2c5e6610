import WinProcessThread.Service.Stopping
import WinProcessThread.ServiceControl.Starting

/-!
# `Start_Service` against the service itself

The command polls the status that the service control manager holds, and the manager holds what the
service has reported.  Put together, the service leaves `START_PENDING` for good once its report
behind `CreateEvent` has arrived, and it never reports one of the other three states the command can
wait for; so the command returns.
-/

namespace WinProcessThread.ServiceControl

open Service Transition

variable {w after : Service.World} {exec : Execution ScmStep Service.initial} {n : ℕ}

/-! ## The record of the manager -/

/-- The state that a query is answered with. -/
def recordedState (w : Service.World) : DWORD :=
  w.received.dwCurrentState

/-- A step leaves the record alone or makes it the shared status. -/
theorem received_of_move {action : Action} (hmove : Move w action after) :
    after.received = w.received ∨ after.received = after.serviceStatus := by
  cases hmove with
  | branch controlCode lastError hhandler hbranch =>
    cases hbranch with
    | none => exact .inl rfl
    | shutdown => exact .inl rfl
    | stop => exact setServiceStatus_received .controlHandler lastError _
    | pause => exact setServiceStatus_received .controlHandler lastError _
    | «continue» => exact setServiceStatus_received .controlHandler lastError _
  | reportStartPending lastError hmain =>
    exact setServiceStatus_received .serviceMain lastError _
  | setInitialStatus lastError hmain => exact setServiceStatus_received .serviceMain lastError _
  | reportInitial lastError hmain => exact setServiceStatus_received .serviceMain lastError _
  | reportStopped lastError hmain => exact setServiceStatus_received .serviceMain lastError _
  | setEvent lastError hhandler => exact .inl (setEvent_received w)
  | setFinalStatus lastError hhandler =>
    exact setServiceStatus_received .controlHandler lastError _
  | _ => exact .inl rfl

/-- `ServiceMain` is behind its report that follows `CreateEvent`. -/
def InService (w : Service.World) : Prop :=
  w.main = .waitForStop ∨ w.main = .reportStopped

/-- The manager holds one of the two states the service reports from there on. -/
def Started (w : Service.World) : Prop :=
  recordedState w = serviceRunning ∨ recordedState w = serviceStopped

theorem inService_of_move {action : Action} (hin : InService w) (hmove : Move w action after) :
    InService after := by
  cases hmove with
  | registerHandler _ hmain | reportStartPending _ hmain | setInitialStatus _ hmain
  | createEvent _ hmain | reportInitial _ hmain =>
    simp [InService, hmain] at hin
  | waitForStop _ hmain hreturns => exact .inr rfl
  | reportStopped _ hmain => exact .inl rfl
  | deliver controlCode hidle hmain => exact hin
  | branch controlCode lastError hhandler hbranch => cases hbranch <;> exact hin
  | setEvent lastError hhandler => simpa [InService] using hin
  | setFinalStatus lastError hhandler => exact hin

/-- In front of that report the manager takes the service as starting. -/
theorem recordedState_of_not_inService {phase : Phase} (href : Refines w phase)
    (hfront : ¬ InService w) : recordedState w = serviceStartPending := by
  have hmatched := href.matched
  cases phase with
  | initial => exact hmatched.2.2.2
  | starting => exact hmatched.2.2.2.2
  | running => exact absurd (.inl hmatched.1) hfront
  | stopped => exact absurd hmatched.1 hfront

/-- Behind it the shared status is never a starting one again. -/
theorem state_of_inService {phase : Phase} (href : Refines w phase) (hin : InService w) :
    w.serviceStatus.dwCurrentState = serviceRunning ∨
      w.serviceStatus.dwCurrentState = serviceStopped := by
  have hmatched := href.matched
  cases phase with
  | initial =>
    exfalso
    rcases hin with hmain | hmain <;> simp [Phase.Matches, hmain] at hmatched
  | starting =>
    exfalso
    rcases hin with hmain | hmain <;> simp [Phase.Matches, hmain] at hmatched
  | running => exact .inl hmatched.2.2.2
  | stopped => exact .inr hmatched.2

/-- What every instant under the delivery rules says of the record. -/
structure Recorded (w : Service.World) : Prop where
  refines : ∃ phase, Refines w phase
  pending_or_started : recordedState w = serviceStartPending ∨ Started w

/-- The report of a started service has been made. -/
theorem Recorded.inService (hrecorded : Recorded w) (hstarted : Started w) : InService w := by
  obtain ⟨phase, href⟩ := hrecorded.refines
  by_contra hfront
  have hpending := recordedState_of_not_inService href hfront
  rcases hstarted with hstate | hstate
  · exact absurd (hstate.symm.trans hpending) (by decide)
  · exact absurd (hstate.symm.trans hpending) (by decide)

/-- A service that has been started stays so, whatever the handler reports. -/
theorem Started.step {action : Action} (hrecorded : Recorded w) (hstarted : Started w)
    (hstep : ScmStep w action after) : Started after := by
  obtain ⟨phase, href⟩ := hrecorded.refines
  obtain ⟨next, hnext⟩ := href.step hstep
  have hmove := move_of_step hstep.2
  rcases received_of_move hmove with hsame | hsent
  · unfold Started recordedState
    rw [hsame]
    exact hstarted
  · unfold Started recordedState
    rw [hsent]
    exact state_of_inService hnext (inService_of_move (hrecorded.inService hstarted) hmove)

theorem Recorded.step {action : Action} (hrecorded : Recorded w)
    (hstep : ScmStep w action after) : Recorded after := by
  obtain ⟨phase, href⟩ := hrecorded.refines
  obtain ⟨next, hnext⟩ := href.step hstep
  refine ⟨⟨next, hnext⟩, ?_⟩
  rcases hrecorded.pending_or_started with hpending | hstarted
  · by_cases hin : InService after
    · rcases received_of_move (move_of_step hstep.2) with hsame | hsent
      · left
        unfold recordedState at hpending ⊢
        rw [hsame, hpending]
      · right
        unfold Started recordedState
        rw [hsent]
        exact state_of_inService hnext hin
    · exact .inl (recordedState_of_not_inService hnext hin)
  · exact .inr (hstarted.step hrecorded hstep)

theorem recorded (exec : Execution ScmStep Service.initial) (n : ℕ) : Recorded (exec.state n) :=
  exec.invariant Recorded ⟨⟨.initial, refines_initial⟩, .inl rfl⟩
    (fun _ _ _ hrecorded hstep ↦ hrecorded.step hstep) n

/-- The manager never takes a started service as starting again. -/
theorem Started.mono {m : ℕ} (hstarted : Started (exec.state n)) (hle : n ≤ m) :
    Started (exec.state m) :=
  exec.stable Started (fun k _ hnow hstep ↦ hnow.step (recorded exec k) hstep) hstarted hle

/-! ## The service gets there -/

/-- The steps of `ServiceMain` up to and including its report behind `CreateEvent`. -/
def stepsLeft : MainThread → ℕ
  | .registerHandler => 5
  | .reportStartPending => 4
  | .setInitialStatus => 3
  | .createEvent => 2
  | .reportInitial => 1
  | _ => 0

/-- `SetServiceStatus` succeeds in the report behind `CreateEvent`. -/
def InitialReportSucceeds (exec : Execution ScmStep Service.initial) : Prop :=
  ∀ n lastError, exec.action n = some (.main lastError) → (exec.state n).main = .reportInitial →
    lastError = none

theorem main_eq_of_move {action : Action} (hmove : Move w action after)
    (hother : ¬ action.IsMain) : after.main = w.main := by
  cases hmove with
  | deliver controlCode hidle hmain => rfl
  | branch controlCode lastError hhandler hbranch => cases hbranch <;> rfl
  | setEvent lastError hhandler => simp
  | setFinalStatus lastError hhandler => rfl
  | _ => exact absurd trivial hother

/-- Nothing holds `ServiceMain` up in front of that report. -/
theorem mainStep_of_stepsLeft (hleft : stepsLeft w.main ≠ 0) :
    ∃ after, mainStep none w = some after := by
  unfold mainStep
  cases hmain : w.main with
  | waitForStop | reportStopped | returned => simp [hmain, stepsLeft] at hleft
  | _ => exact ⟨_, rfl⟩

/-- A step of `ServiceMain` comes nearer to the report or makes it. -/
theorem stepsLeft_of_move {lastError : Option DWORD} (hleft : stepsLeft w.main ≠ 0)
    (hmove : Move w (.main lastError) after)
    (hsucceeds : w.main = .reportInitial → lastError = none) :
    Started after ∨ stepsLeft after.main ≠ 0 ∧ stepsLeft after.main < stepsLeft w.main := by
  cases hmove with
  | registerHandler _ hmain | reportStartPending _ hmain | setInitialStatus _ hmain
  | createEvent _ hmain =>
    right
    simp [stepsLeft, hmain]
  | reportInitial _ hmain =>
    left
    obtain rfl := hsucceeds hmain
    by_cases hcreated : w.stopServiceEvent = none
    · right
      rw [if_pos hcreated]
      rfl
    · left
      rw [if_neg hcreated]
      rfl
  | waitForStop _ hmain hreturns | reportStopped _ hmain => simp [hmain, stepsLeft] at hleft

theorem exists_started (hfair : exec.WeaklyFair Action.IsMain)
    (hsucceeds : InitialReportSucceeds exec) : ∃ n, Started (exec.state n) := by
  have hbusy : stepsLeft (exec.state 0).main ≠ 0 := by
    rw [exec.starts]
    decide
  have henabled : ∀ w : Service.World, stepsLeft w.main ≠ 0 →
      ∃ action after, action.IsMain ∧ ScmStep w action after := by
    intro w hleft
    obtain ⟨after, hafter⟩ := mainStep_of_stepsLeft hleft
    exact ⟨.main none, after, trivial, trivial, hafter⟩
  have hother : ∀ w action after, stepsLeft w.main ≠ 0 → ¬ action.IsMain →
      ScmStep w action after →
      stepsLeft after.main ≠ 0 ∧ stepsLeft after.main = stepsLeft w.main := by
    intro w action after hleft hother hstep
    rw [main_eq_of_move (move_of_step hstep.2) hother]
    exact ⟨hleft, rfl⟩
  obtain ⟨m, -, hstarted⟩ :=
    exec.eventually_of_rank hfair Started (fun w ↦ stepsLeft w.main ≠ 0)
      (fun w ↦ stepsLeft w.main) henabled hother
      (fun n action haction hthread hleft ↦ by
        cases action with
        | main lastError =>
          have hmove := move_of_step (exec.moves n _ haction).2
          exact stepsLeft_of_move hleft hmove (hsucceeds n lastError haction)
        | deliver controlCode => cases hthread
        | handler lastError => cases hthread)
      hbusy
  exact ⟨m, hstarted⟩

/-! ## The command comes back -/

/-- The answer to a query at this instant. -/
def answerAt (exec : Execution ScmStep Service.initial) (dwServiceFlags : DWORD) (instant : ℕ) :
    ServiceStatusProcess :=
  ⟨recordedState (exec.state instant), dwServiceFlags⟩

/-- `Start_Service` with both handles opened and every query answered by the manager: the first one
at instant `instants 0`, the ones of the waiting loop at the instants behind it. -/
def startCommand (exec : Execution ScmStep Service.initial) (dwServiceFlags : DWORD)
    (instants : ℕ → ℕ) (lastError : Option DWORD) (count : ℕ) : Progress Unit :=
  startService ⟨none, none, .answered (answerAt exec dwServiceFlags (instants 0)), lastError⟩
    (firstOutcomes (fun index ↦ .answered (answerAt exec dwServiceFlags (instants (index + 1))))
      count) .fresh

/-- A starting service is waited for, and nothing is done behind the wait. -/
theorem startInState_of_pending {status : ServiceStatusProcess}
    (hpending : status.dwCurrentState = serviceStartPending) (lastError : Option DWORD)
    (polls : Polls) (world : World) :
    ∃ shown, startInState status lastError .openedService .openedManager polls world =
      afterPending serviceStartPending .openedService .openedManager polls status id shown := by
  obtain ⟨shown, -, hbranch⟩ :=
    startInState_branch status lastError .openedService .openedManager polls world
  generalize startInState status lastError .openedService .openedManager polls world = progress
    at hbranch ⊢
  cases hbranch with
  | running hrunning => exact absurd (hrunning.symm.trans hpending) (by decide)
  | starting hstart => exact ⟨shown, rfl⟩
  | awaited pending hawaits hawaited =>
    unfold IsAwaited at hawaited
    rw [← hawaits, hpending] at hawaited
    exact absurd hawaited (by decide)
  | atOnce hrunning hstart hawaited => exact absurd hpending hstart

/-- The wait is left by the first answer that is no starting one. -/
theorem startInState_of_other {status other : ServiceStatusProcess} {used : Polls}
    (hpending : status.dwCurrentState = serviceStartPending)
    (hused : ∀ query ∈ used, Waits serviceStartPending query)
    (hother : other.dwCurrentState ≠ serviceStartPending) (lastError : Option DWORD)
    (world : World) :
    ∃ left, startInState status lastError .openedService .openedManager
        (used ++ [.answered other]) world = .left [] () left := by
  obtain ⟨shown, hwait⟩ :=
    startInState_of_pending hpending lastError (used ++ [.answered other]) world
  obtain ⟨left, hloop, -⟩ :=
    pollLoop_of_answers hused hother hpending .openedService .openedManager shown []
  refine ⟨left, ?_⟩
  rw [hwait, afterPending, hloop]
  rfl

/-- A running or stopped service is not waited for. -/
theorem startInState_of_started {status : ServiceStatusProcess}
    (hstarted : status.dwCurrentState = serviceRunning ∨ status.dwCurrentState = serviceStopped)
    (lastError : Option DWORD) (world : World) :
    ∃ left, startInState status lastError .openedService .openedManager [] world =
      .left [] () left := by
  obtain ⟨shown, -, hbranch⟩ :=
    startInState_branch status lastError .openedService .openedManager [] world
  generalize startInState status lastError .openedService .openedManager [] world = progress
    at hbranch ⊢
  cases hbranch with
  | running hrunning => exact ⟨shown, rfl⟩
  | starting hstart =>
    rw [hstart] at hstarted
    exact absurd hstarted (by decide)
  | awaited pending hawaits hawaited =>
    unfold IsAwaited at hawaited
    rw [← hawaits] at hawaited
    exfalso
    rcases hstarted with hstate | hstate <;> rw [hstate] at hawaited <;>
      exact absurd hawaited (by decide)
  | atOnce hrunning hstart hawaited => exact ⟨_, rfl⟩

section Command

variable (dwServiceFlags : DWORD) {instants : ℕ → ℕ} (lastError : Option DWORD)

/-- The command is left when its `switch` is. -/
theorem startCommand_of_left {dwServiceFlags : DWORD} {lastError : Option DWORD} {count : ℕ}
    {left : World}
    (hleft : startInState (answerAt exec dwServiceFlags (instants 0)) lastError .openedService
      .openedManager
      (firstOutcomes (fun index ↦ .answered (answerAt exec dwServiceFlags (instants (index + 1))))
        count) (queriedWorld (answerAt exec dwServiceFlags (instants 0))) = .left [] () left) :
    ∃ back, startCommand exec dwServiceFlags instants lastError count = .left [] () back := by
  refine ⟨(left.closeServiceHandle .openedService).closeServiceHandle .openedManager, ?_⟩
  rw [startCommand, startService_of_answered rfl rfl rfl, hleft]

theorem startCommand_returns_of_started {index : ℕ}
    (hstarted : Started (exec.state (instants index))) :
    ∃ count back, startCommand exec dwServiceFlags instants lastError count = .left [] () back := by
  have hother : ∃ index, recordedState (exec.state (instants index)) ≠ serviceStartPending := by
    refine ⟨index, fun hpending ↦ ?_⟩
    rcases hstarted with hstate | hstate
    · exact absurd (hstate.symm.trans hpending) (by decide)
    · exact absurd (hstate.symm.trans hpending) (by decide)
  -- the first answer that is no starting one ends the wait, if there is any wait
  have hfirst := Nat.find_spec hother
  have hearlier : ∀ earlier < Nat.find hother,
      recordedState (exec.state (instants earlier)) = serviceStartPending := by
    intro earlier hearlier
    exact not_not.mp (Nat.find_min hother hearlier)
  cases hindex : Nat.find hother with
  | zero =>
    rw [hindex] at hfirst
    have hanswer : (answerAt exec dwServiceFlags (instants 0)).dwCurrentState = serviceRunning ∨
        (answerAt exec dwServiceFlags (instants 0)).dwCurrentState = serviceStopped :=
      (recorded exec (instants 0)).pending_or_started.resolve_left hfirst
    obtain ⟨left, hleft⟩ := startInState_of_started hanswer lastError
      (queriedWorld (answerAt exec dwServiceFlags (instants 0)))
    exact ⟨0, startCommand_of_left hleft⟩
  | succ index =>
    rw [hindex] at hfirst hearlier
    have hused : ∀ query ∈ firstOutcomes
        (fun index ↦ .answered (answerAt exec dwServiceFlags (instants (index + 1)))) index,
        Waits serviceStartPending query :=
      forall_mem_firstOutcomes.mpr fun earlier hlt ↦ hearlier (earlier + 1) (by omega)
    have hentered : (answerAt exec dwServiceFlags (instants 0)).dwCurrentState =
        serviceStartPending := hearlier 0 (by omega)
    have hended : (answerAt exec dwServiceFlags (instants (index + 1))).dwCurrentState ≠
        serviceStartPending := hfirst
    obtain ⟨left, hleft⟩ := startInState_of_other hentered hused hended lastError
      (queriedWorld (answerAt exec dwServiceFlags (instants 0)))
    rw [← firstOutcomes_succ] at hleft
    exact ⟨index + 1, startCommand_of_left hleft⟩

/-- As long as the manager takes the service as starting, the command is waiting. -/
theorem startCommand_waits (hpending : ∀ n, recordedState (exec.state n) = serviceStartPending)
    (instants : ℕ → ℕ) (count : ℕ) :
    ∃ middle, startCommand exec dwServiceFlags instants lastError count = .waiting middle := by
  have hwaits : ∀ query ∈ firstOutcomes
      (fun index ↦ .answered (answerAt exec dwServiceFlags (instants (index + 1)))) count,
      Waits serviceStartPending query :=
    forall_mem_firstOutcomes.mpr fun index _ ↦ hpending (instants (index + 1))
  have hentered : (answerAt exec dwServiceFlags (instants 0)).dwCurrentState =
      serviceStartPending := hpending (instants 0)
  obtain ⟨shown, hwait⟩ := startInState_of_pending hentered lastError
    (firstOutcomes (fun index ↦ .answered (answerAt exec dwServiceFlags (instants (index + 1))))
      count) (queriedWorld (answerAt exec dwServiceFlags (instants 0)))
  obtain ⟨middle, hloop, -⟩ :=
    pollLoop_of_waits hwaits hentered .openedService .openedManager shown
  refine ⟨middle, ?_⟩
  rw [startCommand, startService_of_answered rfl rfl rfl, hwait, afterPending, hloop]

/-- With queries made again and again the command comes back exactly when the service has been
started at some instant. -/
theorem startCommand_returns_iff (hagain : ∀ n, ∃ index, n ≤ instants index) :
    (∃ count back, startCommand exec dwServiceFlags instants lastError count =
        .left [] () back) ↔
      ∃ n, Started (exec.state n) := by
  constructor
  · intro hreturns
    obtain ⟨count, back, hback⟩ := hreturns
    by_contra hnever
    have hpending : ∀ n, recordedState (exec.state n) = serviceStartPending := fun n ↦
      (recorded exec n).pending_or_started.resolve_right fun hstarted ↦ hnever ⟨n, hstarted⟩
    obtain ⟨middle, hmiddle⟩ :=
      startCommand_waits dwServiceFlags lastError hpending instants count
    rw [hback] at hmiddle
    cases hmiddle
  · intro hstarted
    obtain ⟨n, hstarted⟩ := hstarted
    obtain ⟨index, hindex⟩ := hagain n
    exact startCommand_returns_of_started dwServiceFlags lastError (hstarted.mono hindex)

/-- A stopped service is started by the command, a starting or running one is not. -/
theorem startState_answerAt (exec : Execution ScmStep Service.initial) (dwServiceFlags : DWORD)
    (instant : ℕ) (polls : Polls) :
    startState (answerAt exec dwServiceFlags instant) polls =
      if recordedState (exec.state instant) = serviceStopped then some serviceStopped
      else none := by
  change startState ⟨recordedState (exec.state instant), dwServiceFlags⟩ polls = _
  rcases (recorded exec instant).pending_or_started with hstate | hstate | hstate
  · rw [hstate]
    rfl
  · rw [hstate]
    rfl
  · rw [hstate]
    rfl

theorem startCommand_starts (exec : Execution ScmStep Service.initial) (instants : ℕ → ℕ)
    (count : ℕ) :
    Starts (startCommand exec dwServiceFlags instants lastError count).world.log
      (if recordedState (exec.state (instants 0)) = serviceStopped then some serviceStopped
        else none) := by
  rw [← startState_answerAt exec dwServiceFlags (instants 0)
    (firstOutcomes (fun index ↦ .answered (answerAt exec dwServiceFlags (instants (index + 1))))
      count)]
  exact startService_starts rfl rfl rfl

end Command

/-- **The command comes back.**  In every execution of the service under the delivery rules in which
`ServiceMain` is scheduled and its report behind `CreateEvent` arrives, a `Start_Service` whose
queries are answered by the manager leaves its waiting loop.  It has called `StartService` only if
the first answer was a stopped service, and then once. -/
theorem startCommand_returns (exec : Execution ScmStep Service.initial)
    (hfair : exec.WeaklyFair Action.IsMain) (hsucceeds : InitialReportSucceeds exec)
    (dwServiceFlags : DWORD) {instants : ℕ → ℕ} (hagain : ∀ n, ∃ index, n ≤ instants index)
    (lastError : Option DWORD) :
    ∃ count back, startCommand exec dwServiceFlags instants lastError count = .left [] () back ∧
      Starts back.log
        (if recordedState (exec.state (instants 0)) = serviceStopped then some serviceStopped
          else none) := by
  obtain ⟨count, back, hback⟩ :=
    (startCommand_returns_iff dwServiceFlags lastError hagain).mpr
      (exists_started hfair hsucceeds)
  refine ⟨count, back, hback, ?_⟩
  have hstarts := startCommand_starts dwServiceFlags lastError exec instants count
  rw [hback] at hstarts
  exact hstarts

theorem quietExecution_allowed (n : ℕ) (action : Action)
    (haction : quietExecution.action n = some action) :
    ScmAllows (quietExecution.state n) action := by
  rcases quietExecution_action haction with rfl | rfl
  · trivial
  · trivial

/-- The service with both threads in turn and no control delivered, under the delivery rules. -/
def quietService : Execution ScmStep Service.initial :=
  quietExecution.guarded quietExecution_allowed

theorem quietService_reports : InitialReportSucceeds quietService := by
  intro n lastError haction hmain
  rcases quietExecution_action haction with hquiet | hquiet
  · exact Action.main.inj hquiet
  · cases hquiet

/-- The command asks at every third instant. -/
theorem quietService_startCommand_returns :
    ∃ count back, startCommand quietService 0 (fun index ↦ 3 * index) none count =
        .left [] () back ∧ Starts back.log none :=
  startCommand_returns quietService (quietExecution_fair.main.guarded quietExecution_allowed)
    quietService_reports 0 (fun n ↦ ⟨n, by omega⟩) none

end WinProcessThread.ServiceControl

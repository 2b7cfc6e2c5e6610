import WinProcessThread.ServiceControl.Polling
import WinProcessThread.Transition.History

/-!
# When `Start_Service` starts the service

Every branch of `Start_Service` decides by the state it was entered with.  A branch that waits first
starts the service in whatever state ended the waiting, and the branches of a paused service and of
an unknown state start it at once, although the branch of a running service calls every state but
`SERVICE_STOPPED` and `SERVICE_STOP_PENDING` one of a service that already runs.
-/

namespace WinProcessThread.ServiceControl

open Service Transition

variable {polls : Polls} {service hOpenSCManager : SC_HANDLE} {pending : DWORD}
variable {serviceStatus : ServiceStatusProcess} {lastError : Option DWORD} {world : World}

def ScCall.isStart : ScCall → Bool
  | .startService _ _ => true
  | _ => false

/-- The state behind one call that the last successful query has answered. -/
def answerAfter (last : Option DWORD) : ScCall → Option DWORD
  | .queryServiceStatusEx _ (.answered status) => some status.dwCurrentState
  | _ => last

/-- The state that the most recent successful query has answered. -/
def lastAnswer (log : List ScCall) : Option DWORD :=
  log.foldl answerAfter none

/-- `StartService` is called on a stopped service. -/
def startLaw (earlier : List ScCall) : ScCall → Prop
  | .startService _ _ => lastAnswer earlier = some serviceStopped
  | _ => True

/-- `StartService` is called at most once, and only when the most recent successful query has
answered `SERVICE_STOPPED`. -/
structure StartsOnlyStopped (log : List ScCall) : Prop where
  at_most_once : log.countP ScCall.isStart ≤ 1
  stopped : Throughout startLaw log

@[simp]
theorem lastAnswer_snoc (log : List ScCall) (call : ScCall) :
    lastAnswer (log ++ [call]) = answerAfter (lastAnswer log) call :=
  List.foldl_append

/-- Calls among which there is no `StartService`. -/
def Quiet (log : List ScCall) : Prop :=
  ∀ call ∈ log, call.isStart = false

theorem Quiet.append {log more : List ScCall} (hlog : Quiet log) (hmore : Quiet more) :
    Quiet (log ++ more) :=
  List.forall_mem_append.mpr ⟨hlog, hmore⟩

theorem Quiet.countP_isStart {log : List ScCall} (hquiet : Quiet log) :
    log.countP ScCall.isStart = 0 :=
  List.countP_eq_zero.mpr fun call hcall ↦ by rw [hquiet call hcall]; exact Bool.false_ne_true

theorem startLaw_of_not_isStart {call : ScCall} (hcall : call.isStart = false)
    (earlier : List ScCall) : startLaw earlier call := by
  cases call <;> trivial

theorem Quiet.startsOnlyStopped {log : List ScCall} (hquiet : Quiet log) :
    StartsOnlyStopped log where
  at_most_once := by
    rw [hquiet.countP_isStart]
    exact Nat.zero_le 1
  stopped := by
    intro earlier call later hsplit
    exact startLaw_of_not_isStart (hquiet call (by rw [hsplit]; simp)) earlier

/-- A log with one `StartService`, called in the state that the last answer of `front` says. -/
structure StartedIn (log : List ScCall) (state : DWORD) (front : List ScCall) (call : ScCall)
    (back : List ScCall) : Prop where
  split : log = front ++ call :: back
  isStart : call.isStart = true
  quiet_front : Quiet front
  quiet_back : Quiet back
  answer : lastAnswer front = some state

theorem StartedIn.onlyStopped_iff {log front back : List ScCall} {state : DWORD}
    {call : ScCall} (hstarted : StartedIn log state front call back) :
    StartsOnlyStopped log ↔ state = serviceStopped := by
  obtain ⟨rfl, hstart, hfront, hback, hanswer⟩ := hstarted
  have hlaw : ∀ earlier, startLaw earlier call ↔ lastAnswer earlier = some serviceStopped := by
    intro earlier
    cases call <;> first | exact Iff.rfl | cases hstart
  constructor
  · intro honly
    have hstopped := (hlaw front).mp (honly.stopped front call back rfl)
    exact Option.some.inj (hanswer.symm.trans hstopped)
  · intro hstate
    refine ⟨?_, ?_⟩
    · rw [List.countP_append, List.countP_cons, hfront.countP_isStart, hback.countP_isStart, hstart]
      exact le_rfl
    · rw [throughout_append, throughout_cons]
      refine ⟨hfront.startsOnlyStopped.stopped, ?_, ?_⟩
      · rw [List.append_nil, hlaw, hanswer, hstate]
      · intro earlier other later hsplit
        exact startLaw_of_not_isStart (hback other (by rw [hsplit]; simp)) _

/-- The state in which the `switch` comes to `StartService`, where it does: the one it was entered
with or, behind a waiting loop, the one that has ended the waiting. -/
def startState (serviceStatus : ServiceStatusProcess) (polls : Polls) : Option DWORD :=
  let state := serviceStatus.dwCurrentState
  if state = serviceStartPending ∨ state = serviceRunning then
    none
  else if state = serviceStopPending ∨ state = servicePausePending ∨
      state = serviceContinuePending then
    (firstOther state polls).map ServiceStatusProcess.dwCurrentState
  else
    some state

/-- Where the command gets as far as its `switch`, the service is stopped, is starting or running,
or is on its way to a state that turns out to be `SERVICE_STOPPED`. -/
def StartsStopped (outcome : StartOutcome) (polls : Polls) : Prop :=
  outcome.openSCManager = none → outcome.openService = none →
    ∀ serviceStatus, outcome.queryServiceStatusEx = .answered serviceStatus →
      serviceStatus.dwCurrentState ∈ [serviceStopped, serviceStartPending, serviceRunning] ∨
        serviceStatus.dwCurrentState ∈
            [serviceStopPending, servicePausePending, serviceContinuePending] ∧
          ∀ other, firstOther serviceStatus.dwCurrentState polls = some other →
            other.dwCurrentState = serviceStopped

theorem startState_stopped_iff (serviceStatus : ServiceStatusProcess) (polls : Polls) :
    (∀ state, startState serviceStatus polls = some state → state = serviceStopped) ↔
      serviceStatus.dwCurrentState ∈ [serviceStopped, serviceStartPending, serviceRunning] ∨
        serviceStatus.dwCurrentState ∈
            [serviceStopPending, servicePausePending, serviceContinuePending] ∧
          ∀ other, firstOther serviceStatus.dwCurrentState polls = some other →
            other.dwCurrentState = serviceStopped := by
  have hdistinct : serviceStopPending ≠ serviceStopped ∧ servicePausePending ≠ serviceStopped ∧
      serviceContinuePending ≠ serviceStopped := by decide
  unfold startState
  by_cases hstarted : serviceStatus.dwCurrentState = serviceStartPending ∨
      serviceStatus.dwCurrentState = serviceRunning
  · simp only [if_pos hstarted]
    apply iff_of_true (by simp)
    rcases hstarted with hstate | hstate <;> simp [hstate]
  · by_cases hpending : serviceStatus.dwCurrentState = serviceStopPending ∨
        serviceStatus.dwCurrentState = servicePausePending ∨
        serviceStatus.dwCurrentState = serviceContinuePending
    · simp only [if_neg hstarted, if_pos hpending]
      push Not at hstarted
      have hstopped : serviceStatus.dwCurrentState ≠ serviceStopped := by
        rcases hpending with hstate | hstate | hstate <;> rw [hstate] <;> tauto
      simp [hstarted, hpending, hstopped]
    · simp only [if_neg hstarted, if_neg hpending]
      push Not at hstarted hpending
      simp [hstarted, hpending]

/-- The log has no `StartService`, or one that is called in this state. -/
def Starts (log : List ScCall) : Option DWORD → Prop
  | none => Quiet log
  | some state => ∃ front call back, StartedIn log state front call back

theorem Starts.onlyStopped_iff {log : List ScCall} {state : Option DWORD}
    (hstarts : Starts log state) :
    StartsOnlyStopped log ↔ ∀ started, state = some started → started = serviceStopped := by
  cases state with
  | none =>
    apply iff_of_true (Quiet.startsOnlyStopped hstarts)
    intro started hstarted
    cases hstarted
  | some state =>
    obtain ⟨front, call, back, hstarted⟩ := hstarts
    rw [hstarted.onlyStopped_iff]
    simp

theorem Starts.append {log more : List ScCall} {state : Option DWORD} (hstarts : Starts log state)
    (hmore : Quiet more) : Starts (log ++ more) state := by
  cases state with
  | none => exact Quiet.append hstarts hmore
  | some state =>
    obtain ⟨front, call, back, rfl, hstart, hfront, hback, hanswer⟩ := hstarts
    exact ⟨front, call, back ++ more, by simp, hstart, hfront, hback.append hmore, hanswer⟩

theorem startTheService_starts (hquiet : Quiet world.log) {state : DWORD}
    (hanswer : lastAnswer world.log = some state) :
    Starts (startTheService lastError service hOpenSCManager world).log (some state) := by
  have hcall : Starts (world.call (.startService service lastError)).log (some state) :=
    ⟨world.log, .startService service lastError, [], rfl, rfl, hquiet, by simp [Quiet], hanswer⟩
  unfold startTheService
  cases lastError with
  | none => exact hcall
  | some dwError =>
    have hclosings : Quiet [.closeServiceHandle service, .closeServiceHandle hOpenSCManager] := by
      simp [Quiet, ScCall.isStart]
    have hlog := hcall.append hclosings
    rw [List.append_cons] at hlog
    exact hlog

theorem quiet_pollCalls (polls : Polls) :
    Quiet (polls.flatMap (pollCalls service hOpenSCManager)) := by
  intro call hcall
  obtain ⟨query, -, hmember⟩ := List.mem_flatMap.mp hcall
  cases query <;> simp [pollCalls] at hmember <;> rcases hmember with rfl | rfl | rfl <;> rfl

/-- A branch that waits has started nothing while it does.  It goes on behind the answer that ends
the wait, if there is one. -/
theorem afterPending_cases (hpending : serviceStatus.dwCurrentState = pending)
    (hquiet : Quiet world.log) (next : World → World) :
    (firstOther pending polls = none ∧ Quiet (afterPending pending service hOpenSCManager polls
        serviceStatus next world).world.log) ∨
      ∃ status middle, firstOther pending polls = some status ∧ Quiet middle.log ∧
        lastAnswer middle.log = some status.dwCurrentState ∧
        (afterPending pending service hOpenSCManager polls serviceStatus next world).world =
          next middle := by
  unfold afterPending
  rcases waits_or_answers pending polls with hall | ⟨used, status, rest, rfl, hused, hother⟩
  · obtain ⟨middle, hloop, hlog⟩ :=
      pollLoop_of_waits hall hpending service hOpenSCManager world
    have hnone : firstOther pending polls = none := by
      have happend := firstOther_append hall []
      rwa [List.append_nil] at happend
    left
    rw [hloop]
    refine ⟨hnone, ?_⟩
    change Quiet middle.log
    rw [hlog]
    exact hquiet.append (quiet_pollCalls polls)
  · obtain ⟨middle, hloop, hlog⟩ :=
      pollLoop_of_answers hused hother hpending service hOpenSCManager world rest
    have hsome : firstOther pending (used ++ .answered status :: rest) = some status :=
      (firstOther_append hused _).trans (if_neg hother)
    right
    rw [hloop]
    refine ⟨status, middle, hsome, ?_, ?_, rfl⟩
    · rw [hlog]
      exact (hquiet.append (quiet_pollCalls used)).append (by simp [Quiet, ScCall.isStart])
    · rw [hlog, lastAnswer_snoc]
      rfl

/-- A branch that waits and then starts the service starts it in the state that ends the wait. -/
theorem afterPending_starts (hpending : serviceStatus.dwCurrentState = pending)
    (hquiet : Quiet world.log) :
    Starts (afterPending pending service hOpenSCManager polls serviceStatus
        (startTheService lastError service hOpenSCManager) world).world.log
      ((firstOther pending polls).map ServiceStatusProcess.dwCurrentState) := by
  rcases afterPending_cases hpending hquiet (startTheService lastError service hOpenSCManager) with
    ⟨hnone, hlog⟩ | ⟨status, middle, hsome, hmiddle, hanswer, hnext⟩
  · rw [hnone]
    exact hlog
  · rw [hsome, hnext]
    exact startTheService_starts hmiddle hanswer

theorem afterPending_quiet (hpending : serviceStatus.dwCurrentState = pending)
    (hquiet : Quiet world.log) :
    Quiet (afterPending pending service hOpenSCManager polls serviceStatus id world).world.log := by
  rcases afterPending_cases hpending hquiet id with
    ⟨-, hlog⟩ | ⟨status, middle, -, hmiddle, -, hnext⟩
  · exact hlog
  · rw [hnext]
    exact hmiddle

theorem startInState_starts (hquiet : Quiet world.log)
    (hanswer : lastAnswer world.log = some serviceStatus.dwCurrentState)
    (lastError : Option DWORD) (service hOpenSCManager : SC_HANDLE) (polls : Polls) :
    Starts (startInState serviceStatus lastError service hOpenSCManager polls world).world.log
      (startState serviceStatus polls) := by
  obtain ⟨shown, hlog, hbranch⟩ :=
    startInState_branch serviceStatus lastError service hOpenSCManager polls world
  rw [← hlog] at hquiet hanswer
  generalize startInState serviceStatus lastError service hOpenSCManager polls world = progress
    at hbranch ⊢
  cases hbranch with
  | running hrunning =>
    rw [startState, if_pos (.inr hrunning)]
    exact hquiet
  | starting hstartPending =>
    rw [startState, if_pos (.inl hstartPending)]
    exact afterPending_quiet hstartPending hquiet
  | awaited pending hpending hawaited =>
    unfold IsAwaited at hawaited
    have hdistinct : ¬ (pending = serviceStartPending ∨ pending = serviceRunning) := by
      rcases hawaited with rfl | rfl | rfl <;> decide
    rw [startState, hpending, if_neg hdistinct, if_pos hawaited]
    exact afterPending_starts hpending hquiet
  | atOnce hrunning hstartPending hawaited =>
    unfold IsAwaited at hawaited
    rw [startState, if_neg (not_or.mpr ⟨hstartPending, hrunning⟩), if_neg hawaited]
    exact startTheService_starts hquiet hanswer

theorem startService_starts {outcome : StartOutcome} (hmanager : outcome.openSCManager = none)
    (hservice : outcome.openService = none)
    (hquery : outcome.queryServiceStatusEx = .answered serviceStatus) :
    Starts (startService outcome polls .fresh).world.log (startState serviceStatus polls) := by
  have hquiet : Quiet (queriedWorld serviceStatus).log := by
    simp [Quiet, queriedWorld, World.fresh, ScCall.isStart]
  have hswitch :=
    startInState_starts hquiet rfl outcome.startService .openedService .openedManager polls
  rw [startService_of_answered hmanager hservice hquery]
  cases hprogress : startInState serviceStatus outcome.startService .openedService .openedManager
      polls (queriedWorld serviceStatus) with
  | waiting world =>
    rw [hprogress] at hswitch
    exact hswitch
  | left rest value world =>
    rw [hprogress] at hswitch
    have hclosings :
        Quiet [.closeServiceHandle .openedService, .closeServiceHandle .openedManager] := by
      simp [Quiet, ScCall.isStart]
    have hlog := hswitch.append hclosings
    rw [List.append_cons] at hlog
    exact hlog

/-- When one of the handles or the first query fails, the service is not started. -/
theorem startService_quiet {outcome : StartOutcome}
    (hfails : outcome.openSCManager ≠ none ∨ outcome.openService ≠ none ∨
      ∀ serviceStatus, outcome.queryServiceStatusEx ≠ .answered serviceStatus) :
    Quiet (startService outcome polls .fresh).world.log := by
  obtain ⟨openSCManager, openService, queryServiceStatusEx, lastError⟩ := outcome
  cases openSCManager with
  | some dwError =>
    simp [Quiet, startService, Progress.world, World.fresh, ScCall.isStart]
  | none =>
    cases openService with
    | some dwError =>
      simp [Quiet, startService, startFromManager, Progress.world, World.fresh, ScCall.isStart]
    | none =>
      cases queryServiceStatusEx with
      | failed dwError =>
        simp [Quiet, startService, startFromManager, Progress.world, World.fresh, ScCall.isStart]
      | answered serviceStatus => simp at hfails

/-- **Start only what is stopped.**  In a run of `Start_Service`, finished or still waiting,
`StartService` is called at most once and only when the most recent successful query has answered
`SERVICE_STOPPED`, exactly when the state the command was entered with, or the one that has ended
its waiting, allows it. -/
theorem startsOnlyStopped_iff (outcome : StartOutcome) (polls : Polls) :
    StartsOnlyStopped (startService outcome polls .fresh).world.log ↔
      StartsStopped outcome polls := by
  by_cases hopened : outcome.openSCManager = none ∧ outcome.openService = none ∧
      ∃ serviceStatus, outcome.queryServiceStatusEx = .answered serviceStatus
  · obtain ⟨hmanager, hservice, serviceStatus, hquery⟩ := hopened
    rw [(startService_starts hmanager hservice hquery).onlyStopped_iff,
      startState_stopped_iff]
    constructor
    · intro hstate _ _ other hother
      have hsame : serviceStatus = other := Query.answered.inj (hquery.symm.trans hother)
      rw [← hsame]
      exact hstate
    · intro hstarts
      exact hstarts hmanager hservice serviceStatus hquery
  · have hfails : outcome.openSCManager ≠ none ∨ outcome.openService ≠ none ∨
        ∀ serviceStatus, outcome.queryServiceStatusEx ≠ .answered serviceStatus := by
      grind
    apply iff_of_true (startService_quiet hfails).startsOnlyStopped
    intro hmanager hservice serviceStatus hquery
    exact absurd ⟨hmanager, hservice, serviceStatus, hquery⟩ hopened

/-- A paused service is started as well. -/
theorem paused_not_startsOnlyStopped :
    ¬ StartsOnlyStopped
      (startService ⟨none, none, .answered ⟨servicePaused, 0⟩, none⟩ [] .fresh).world.log := by
  intro honly
  have hlaw := honly.stopped
    [.openSCManager none, .openService .openedManager none,
      .queryServiceStatusEx .openedService (.answered ⟨servicePaused, 0⟩)]
    (.startService .openedService none)
    [.closeServiceHandle .openedService, .closeServiceHandle .openedManager] rfl
  cases hlaw

end WinProcessThread.ServiceControl

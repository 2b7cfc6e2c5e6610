import WinProcessThread.ServiceControl.Starting
import WinProcessThread.HexParser.CommandLine

/-!
# Invocations of the service program

`main` runs the command that its first argument names, in any mix of upper and lower case, and
becomes the service itself without an argument.  The four tests do not exclude each other in the
code, but no argument passes two of them.
-/

namespace WinProcessThread.ServiceControl

open HexParser (SameText)
open Service Transition

/-- What the calls of one invocation return. -/
structure InvocationOutcome where
  startServiceCtrlDispatcher : Option DWORD
  /-- The last error behind a dispatcher that has failed. -/
  getLastError : DWORD
  create : CreateOutcome
  start : StartOutcome
  polls : Polls
  uninstall : UninstallOutcome
  stop : StopOutcome
deriving DecidableEq, Repr

/-- `ServiceDispatcherTable`. -/
def serviceDispatcherTable (lastError : Option DWORD) (world : World) : Bool × World :=
  match lastError with
  | none => (true, world.print "stServiceCtrlDispatcher Success \n")
  | some dwError =>
    (false, world.print ("stServiceCtrlDispatcher FAILD :" ++ toString dwError.toNat ++ "\n"))

/-- `main` without an argument. -/
def dispatchService (outcome : InvocationOutcome) (world : World) : World :=
  let (success, world) := serviceDispatcherTable outcome.startServiceCtrlDispatcher world
  if success then world else world.print ("ERROR :" ++ toString outcome.getLastError.toNat)

/-- `main` with an argument.  `Start_Service` may wait for ever. -/
def runOption (option : List Char) (outcome : InvocationOutcome) (world : World) : Progress Unit :=
  let world :=
    if SameText option "install".toList then createService outcome.create world else world
  let progress : Progress Unit :=
    if SameText option "start".toList then startService outcome.start outcome.polls world
    else .left outcome.polls () world
  match progress with
  | .waiting world => .waiting world
  | .left polls () world =>
    let world :=
      if SameText option "uninstall".toList then uninstallService outcome.uninstall world else world
    let world :=
      if SameText option "stop".toList then stopService outcome.stop world else world
    .left polls () world

/-- `main` of the service program. -/
def main (argv : List (List Char)) (outcome : InvocationOutcome) : Progress Unit :=
  match argv with
  | _ :: option :: _ => runOption option outcome .fresh
  | _ => .left outcome.polls () (dispatchService outcome .fresh)

/-! ## One command at most -/

theorem sameText_unique {option word other : List Char} (hword : SameText option word)
    (hother : SameText option other) : SameText word other :=
  hword.symm.trans hother

/-- What an invocation with an argument comes to. -/
theorem runOption_cases (option : List Char) (outcome : InvocationOutcome) (world : World) :
    (SameText option "install".toList ∧
        runOption option outcome world =
          .left outcome.polls () (createService outcome.create world)) ∨
      (SameText option "start".toList ∧
        runOption option outcome world = startService outcome.start outcome.polls world) ∨
      (SameText option "uninstall".toList ∧
        runOption option outcome world =
          .left outcome.polls () (uninstallService outcome.uninstall world)) ∨
      (SameText option "stop".toList ∧
        runOption option outcome world =
          .left outcome.polls () (stopService outcome.stop world)) ∨
      runOption option outcome world = .left outcome.polls () world := by
  have hdistinct : ∀ word other : List Char, ¬ SameText word other → SameText option word →
      ¬ SameText option other :=
    fun word other hne hword hother ↦ hne (sameText_unique hword hother)
  by_cases hinstall : SameText option "install".toList
  · have hstart := hdistinct _ "start".toList (by decide) hinstall
    have huninstall := hdistinct _ "uninstall".toList (by decide) hinstall
    have hstop := hdistinct _ "stop".toList (by decide) hinstall
    exact .inl ⟨hinstall, by
      simp only [runOption, if_pos hinstall, if_neg hstart, if_neg huninstall, if_neg hstop]⟩
  · by_cases hstart : SameText option "start".toList
    · have huninstall := hdistinct _ "uninstall".toList (by decide) hstart
      have hstop := hdistinct _ "stop".toList (by decide) hstart
      refine .inr (.inl ⟨hstart, ?_⟩)
      simp only [runOption, if_neg hinstall, if_pos hstart, if_neg huninstall, if_neg hstop]
      cases startService outcome.start outcome.polls world with
      | waiting waits => rfl
      | left polls value left => rfl
    · by_cases huninstall : SameText option "uninstall".toList
      · have hstop := hdistinct _ "stop".toList (by decide) huninstall
        refine .inr (.inr (.inl ⟨huninstall, ?_⟩))
        simp only [runOption, if_neg hinstall, if_neg hstart, if_pos huninstall, if_neg hstop]
      · by_cases hstop : SameText option "stop".toList
        · refine .inr (.inr (.inr (.inl ⟨hstop, ?_⟩)))
          simp only [runOption, if_neg hinstall, if_neg hstart, if_neg huninstall, if_pos hstop]
        · refine .inr (.inr (.inr (.inr ?_)))
          simp only [runOption, if_neg hinstall, if_neg hstart, if_neg huninstall, if_neg hstop]

/-! ## Requests for a change -/

/-- A request to create, start, stop or remove the service. -/
def ScCall.isChange : ScCall → Bool
  | .createService _ _ | .startService _ _ | .controlService _ _ | .deleteService _ _ => true
  | _ => false

/-- The state behind one call that the last query has answered. -/
def stateAfter (last : Option DWORD) : ScCall → Option DWORD
  | .queryServiceStatus _ (.answered dwCurrentState) => some dwCurrentState
  | .queryServiceStatusEx _ (.answered status) => some status.dwCurrentState
  | _ => last

/-- The state that the most recent query has answered. -/
def lastState (log : List ScCall) : Option DWORD :=
  log.foldl stateAfter none

/-- A change is requested by its option only; the service is removed when it is stopped and told to
stop when it is neither stopped nor starting. -/
def changeLaw (option : List Char) (earlier : List ScCall) : ScCall → Prop
  | .createService _ _ => SameText option "install".toList
  | .startService _ _ => SameText option "start".toList
  | .deleteService _ _ =>
    SameText option "uninstall".toList ∧ lastState earlier = some serviceStopped
  | .controlService _ _ =>
    SameText option "stop".toList ∧
      ∃ state, lastState earlier = some state ∧ state ≠ serviceStopped ∧
        state ≠ serviceStartPending
  | _ => True

/-- The changes that an invocation requests. -/
structure ChangesRight (option : List Char) (log : List ScCall) : Prop where
  lawful : Throughout (changeLaw option) log
  at_most_once : log.countP ScCall.isChange ≤ 1

variable {option : List Char} {log : List ScCall} {world : World}

/-- No change has been requested. -/
def NoChange (log : List ScCall) : Prop :=
  ∀ call ∈ log, call.isChange = false

theorem noChange_nil : NoChange [] :=
  List.forall_mem_nil _

theorem changeLaw_of_not_isChange {call : ScCall} (hcall : call.isChange = false)
    (earlier : List ScCall) : changeLaw option earlier call := by
  cases call <;> trivial

theorem NoChange.call (hlog : NoChange log) {call : ScCall} (hcall : call.isChange = false) :
    NoChange (log ++ [call]) :=
  List.forall_mem_append.mpr ⟨hlog, List.forall_mem_singleton.mpr hcall⟩

theorem NoChange.countP (hlog : NoChange log) : log.countP ScCall.isChange = 0 :=
  List.countP_eq_zero.mpr fun call hcall ↦ by simp [hlog call hcall]

theorem NoChange.changesRight (hlog : NoChange log) (option : List Char) :
    ChangesRight option log := by
  refine ⟨fun earlier call later hsplit ↦ changeLaw_of_not_isChange ?_ earlier, ?_⟩
  · exact hlog call (by rw [hsplit]; simp)
  · rw [hlog.countP]
    exact Nat.zero_le 1

/-- The first change has to be the right one. -/
theorem NoChange.change (hlog : NoChange log) {call : ScCall} (hlaw : changeLaw option log call) :
    ChangesRight option (log ++ [call]) := by
  refine ⟨throughout_snoc.mpr ⟨(hlog.changesRight option).lawful, hlaw⟩, ?_⟩
  rw [List.countP_append, hlog.countP, Nat.zero_add]
  exact List.countP_le_length

/-- A call that requests no change may be made at any time. -/
theorem ChangesRight.call (hright : ChangesRight option log) {call : ScCall}
    (hcall : call.isChange = false) : ChangesRight option (log ++ [call]) := by
  refine ⟨throughout_snoc.mpr ⟨hright.lawful, changeLaw_of_not_isChange hcall log⟩, ?_⟩
  simpa [hcall] using hright.at_most_once

theorem ChangesRight.close (hright : ChangesRight option world.log) (service manager : SC_HANDLE) :
    ChangesRight option
      ((world.closeServiceHandle service).closeServiceHandle manager).log :=
  (hright.call rfl).call rfl

/-! ## The commands -/

theorem createService_changesRight (hoption : SameText option "install".toList)
    (outcome : CreateOutcome) : ChangesRight option (createService outcome .fresh).log := by
  obtain ⟨openSCManager, getModuleFileName, lastError⟩ := outcome
  have hopened : NoChange [.openSCManager openSCManager] := noChange_nil.call rfl
  cases openSCManager with
  | some dwError => exact hopened.changesRight option
  | none =>
    cases getModuleFileName with
    | false => exact ((hopened.call rfl).call rfl).changesRight option
    | true =>
      have hlaw : changeLaw option [.openSCManager none]
          (.createService .openedManager lastError) :=
        hoption
      have hcreated := hopened.change hlaw
      cases lastError with
      | none => exact (((hcreated.call rfl).call rfl).call rfl).call rfl
      | some dwError => exact ((hcreated.call rfl).call rfl).call rfl

/-- The `switch` of `Uninstall_Service` asks for the removal of a stopped service. -/
theorem uninstallInState_changesRight (hoption : SameText option "uninstall".toList)
    {dwCurrentState : DWORD} (hlog : NoChange world.log)
    (hstate : lastState world.log = some dwCurrentState) (lastError : Option DWORD)
    (service : SC_HANDLE) :
    ChangesRight option (uninstallInState dwCurrentState lastError service world).log := by
  unfold uninstallInState
  split_ifs with hstopped
  · have hcall : ChangesRight option (world.call (.deleteService service lastError)).log := by
      apply hlog.change
      exact ⟨hoption, by rw [hstate, hstopped]⟩
    cases lastError with
    | none => exact hcall
    | some dwError => exact hcall
  all_goals exact hlog.changesRight option

theorem uninstallService_changesRight (hoption : SameText option "uninstall".toList)
    (outcome : UninstallOutcome) : ChangesRight option (uninstallService outcome .fresh).log := by
  obtain ⟨openSCManager, openService, queryServiceStatus, lastError⟩ := outcome
  have hopened : NoChange [.openSCManager openSCManager] := noChange_nil.call rfl
  cases openSCManager with
  | some dwError => exact ((hopened.call rfl).call rfl).changesRight option
  | none =>
    cases openService with
    | some dwError => exact (((hopened.call rfl).call rfl).call rfl).changesRight option
    | none =>
      cases queryServiceStatus with
      | failed dwError =>
        exact (((((hopened.call rfl).call rfl).call rfl).call rfl).call rfl).changesRight option
      | answered dwCurrentState =>
        refine ChangesRight.close (uninstallInState_changesRight hoption ?_ rfl lastError _) _ _
        exact (hopened.call rfl).call rfl

theorem controlStop_changesRight (hoption : SameText option "stop".toList) {dwCurrentState : DWORD}
    (hlog : NoChange world.log) (hstate : lastState world.log = some dwCurrentState)
    (hstopped : dwCurrentState ≠ serviceStopped)
    (hstartPending : dwCurrentState ≠ serviceStartPending) (done : String)
    (lastError : Option DWORD) (service : SC_HANDLE) :
    ChangesRight option (controlStop done lastError service world).log := by
  have hlaw : changeLaw option world.log (.controlService service lastError) :=
    ⟨hoption, dwCurrentState, hstate, hstopped, hstartPending⟩
  unfold controlStop
  cases lastError with
  | none => exact hlog.change hlaw
  | some dwError => exact hlog.change hlaw

/-- The `switch` of `Stop_Service` tells the service to stop unless it is stopped or starting. -/
theorem stopInState_changesRight (hoption : SameText option "stop".toList) {dwCurrentState : DWORD}
    (hlog : NoChange world.log) (hstate : lastState world.log = some dwCurrentState)
    (lastError : Option DWORD) (service : SC_HANDLE) :
    ChangesRight option (stopInState dwCurrentState lastError service world).log := by
  have hcontrol : dwCurrentState ≠ serviceStopped → dwCurrentState ≠ serviceStartPending →
      ∀ done line,
        ChangesRight option (controlStop done lastError service (world.print line)).log :=
    fun hstopped hstartPending done line ↦
      controlStop_changesRight hoption (show NoChange (world.print line).log from hlog) hstate
        hstopped hstartPending done lastError service
  unfold stopInState
  split_ifs with hstopped hstopPending hstartPending hrunning
  · exact hlog.changesRight option
  · exact hcontrol hstopped (by rw [hstopPending]; decide) _ _
  · exact hlog.changesRight option
  · exact controlStop_changesRight hoption hlog hstate hstopped hstartPending _ _ _
  all_goals exact hcontrol hstopped hstartPending _ _

theorem stopService_changesRight (hoption : SameText option "stop".toList)
    (outcome : StopOutcome) : ChangesRight option (stopService outcome .fresh).log := by
  obtain ⟨openSCManager, openService, queryServiceStatusEx, lastError⟩ := outcome
  have hopened : NoChange [.openSCManager openSCManager] := noChange_nil.call rfl
  cases openSCManager with
  | some dwError => exact hopened.changesRight option
  | none =>
    cases openService with
    | some dwError => exact ((hopened.call rfl).call rfl).changesRight option
    | none =>
      cases queryServiceStatusEx with
      | failed dwError =>
        exact ((((hopened.call rfl).call rfl).call rfl).call rfl).changesRight option
      | answered serviceStatus =>
        refine ChangesRight.close (stopInState_changesRight hoption ?_ rfl lastError _) _ _
        exact (hopened.call rfl).call rfl

/-! ## `Start_Service` -/

/-- No other change than a start has been requested. -/
def OnlyStarts (log : List ScCall) : Prop :=
  ∀ call ∈ log, call.isChange = true → call.isStart = true

theorem OnlyStarts.call (hlog : OnlyStarts log) {call : ScCall}
    (hcall : call.isChange = false ∨ call.isStart = true) : OnlyStarts (log ++ [call]) := by
  refine List.forall_mem_append.mpr ⟨hlog, List.forall_mem_singleton.mpr fun hchange ↦ ?_⟩
  rcases hcall with hnone | hstart
  · rw [hnone] at hchange
    cases hchange
  · exact hstart

variable {polls : Polls} {pending : DWORD} {service hOpenSCManager : SC_HANDLE}
variable {serviceStatus : ServiceStatusProcess} {lastError : Option DWORD}

theorem OnlyStarts.close (hlog : OnlyStarts world.log) (service manager : SC_HANDLE) :
    OnlyStarts ((world.closeServiceHandle service).closeServiceHandle manager).log :=
  (hlog.call (.inl rfl)).call (.inl rfl)

theorem OnlyStarts.poll (hlog : OnlyStarts world.log) (query : Query ServiceStatusProcess) :
    OnlyStarts (poll service hOpenSCManager query serviceStatus world).2.log := by
  cases query with
  | failed dwError => exact OnlyStarts.close (hlog.call (.inl rfl)) _ _
  | answered status => exact hlog.call (.inl rfl)

theorem OnlyStarts.pollLoop (hlog : OnlyStarts world.log) :
    OnlyStarts (pollLoop pending service hOpenSCManager polls serviceStatus world).world.log := by
  induction polls generalizing serviceStatus world with
  | nil =>
    unfold ServiceControl.pollLoop
    split_ifs
    · exact hlog
    · exact hlog
  | cons query polls ih =>
    unfold ServiceControl.pollLoop
    split_ifs
    · exact ih (hlog.poll query)
    · exact hlog

theorem OnlyStarts.startTheService (hlog : OnlyStarts world.log) :
    OnlyStarts (startTheService lastError service hOpenSCManager world).log := by
  have hcall : OnlyStarts (world.call (.startService service lastError)).log :=
    hlog.call (.inr rfl)
  cases lastError with
  | none => exact hcall
  | some dwError => exact OnlyStarts.close hcall _ _

theorem OnlyStarts.afterPending (hlog : OnlyStarts world.log) {next : World → World}
    (hnext : ∀ world : World, OnlyStarts world.log → OnlyStarts (next world).log) :
    OnlyStarts
      (afterPending pending service hOpenSCManager polls serviceStatus next world).world.log := by
  have hloop : OnlyStarts
      (ServiceControl.pollLoop pending service hOpenSCManager polls serviceStatus
        world).world.log :=
    hlog.pollLoop
  unfold ServiceControl.afterPending
  cases hprogress :
      ServiceControl.pollLoop pending service hOpenSCManager polls serviceStatus world with
  | waiting middle =>
    rw [hprogress] at hloop
    exact hloop
  | left rest status middle =>
    rw [hprogress] at hloop
    exact hnext middle hloop

theorem OnlyStarts.startInState (hlog : OnlyStarts world.log) :
    OnlyStarts
      (startInState serviceStatus lastError service hOpenSCManager polls world).world.log := by
  obtain ⟨shown, hshown, hbranch⟩ :=
    startInState_branch serviceStatus lastError service hOpenSCManager polls world
  rw [← hshown] at hlog
  generalize ServiceControl.startInState serviceStatus lastError service hOpenSCManager polls world
    = progress at hbranch ⊢
  cases hbranch with
  | running hrunning => exact hlog
  | starting hstartPending => exact hlog.afterPending fun _ hworld ↦ hworld
  | awaited pending hpending hawaited =>
    exact hlog.afterPending fun _ hworld ↦ hworld.startTheService
  | atOnce hrunning hstartPending hawaited => exact hlog.startTheService

theorem startService_onlyStarts (outcome : StartOutcome) (polls : Polls) :
    OnlyStarts (startService outcome polls .fresh).world.log := by
  obtain ⟨openSCManager, openService, queryServiceStatusEx, lastError⟩ := outcome
  have hnil : OnlyStarts [] := List.forall_mem_nil _
  have hopened : OnlyStarts [.openSCManager openSCManager] := hnil.call (.inl rfl)
  cases openSCManager with
  | some dwError => exact (hopened.call (.inl rfl)).call (.inl rfl)
  | none =>
    have hservice : OnlyStarts [.openSCManager none, .openService .openedManager openService] :=
      hopened.call (.inl rfl)
    cases openService with
    | some dwError => exact ((hservice.call (.inl rfl)).call (.inl rfl)).call (.inl rfl)
    | none =>
      have hqueried : OnlyStarts [.openSCManager none, .openService .openedManager none,
          .queryServiceStatusEx .openedService queryServiceStatusEx] := hservice.call (.inl rfl)
      cases queryServiceStatusEx with
      | failed dwError =>
        exact (((hqueried.call (.inl rfl)).call (.inl rfl)).call (.inl rfl)).call (.inl rfl)
      | answered serviceStatus =>
        have hswitch : OnlyStarts (startInState serviceStatus lastError .openedService
            .openedManager polls (queriedWorld serviceStatus)).world.log :=
          OnlyStarts.startInState hqueried
        rw [startService_of_answered rfl rfl rfl]
        cases hprogress : startInState serviceStatus lastError .openedService .openedManager polls
            (queriedWorld serviceStatus) with
        | waiting middle =>
          rw [hprogress] at hswitch
          exact hswitch
        | left rest value middle =>
          rw [hprogress] at hswitch
          exact OnlyStarts.close hswitch _ _

theorem Starts.countP_le {state : Option DWORD} (hstarts : Starts log state) :
    log.countP ScCall.isStart ≤ 1 := by
  cases state with
  | none =>
    rw [Quiet.countP_isStart hstarts]
    exact Nat.zero_le 1
  | some state =>
    obtain ⟨front, call, back, rfl, -, hfront, hback, -⟩ := hstarts
    have hsingle : [call].countP ScCall.isStart ≤ 1 := List.countP_le_length
    calc
      (front ++ call :: back).countP ScCall.isStart =
          front.countP ScCall.isStart + [call].countP ScCall.isStart +
            back.countP ScCall.isStart := by
        rw [List.append_cons, List.countP_append, List.countP_append]
      _ = [call].countP ScCall.isStart := by
        rw [hfront.countP_isStart, hback.countP_isStart, Nat.zero_add, Nat.add_zero]
      _ ≤ 1 := hsingle

/-- The service is started at most once. -/
theorem startService_countP_le (outcome : StartOutcome) (polls : Polls) :
    (startService outcome polls .fresh).world.log.countP ScCall.isStart ≤ 1 := by
  by_cases hopened : outcome.openSCManager = none ∧ outcome.openService = none ∧
      ∃ serviceStatus, outcome.queryServiceStatusEx = .answered serviceStatus
  · obtain ⟨hmanager, hservice, serviceStatus, hquery⟩ := hopened
    exact (startService_starts hmanager hservice hquery).countP_le
  · have hfails : outcome.openSCManager ≠ none ∨ outcome.openService ≠ none ∨
        ∀ serviceStatus, outcome.queryServiceStatusEx ≠ .answered serviceStatus := by
      grind
    rw [(startService_quiet hfails).countP_isStart]
    exact Nat.zero_le 1

theorem startService_changesRight (hoption : SameText option "start".toList)
    (outcome : StartOutcome) (polls : Polls) :
    ChangesRight option (startService outcome polls .fresh).world.log := by
  have honly := startService_onlyStarts outcome polls
  constructor
  · intro earlier call later hsplit
    by_cases hchange : call.isChange = true
    · have hstart := honly call (by rw [hsplit]; simp) hchange
      cases call <;> first | exact hoption | cases hstart
    · exact changeLaw_of_not_isChange (Bool.eq_false_of_not_eq_true hchange) earlier
  · calc (startService outcome polls .fresh).world.log.countP ScCall.isChange
        ≤ (startService outcome polls .fresh).world.log.countP ScCall.isStart :=
          List.countP_mono_left honly
      _ ≤ 1 := startService_countP_le outcome polls

/-! ## One invocation -/

/-- The option an invocation is called with. -/
def optionOf : List (List Char) → List Char
  | _ :: option :: _ => option
  | _ => []

/-- **Changes.**  Whatever its argument is and whatever the calls return, an invocation requests one
change at most: the one its option stands for, the removal on a stopped service only, and the stop
on a service that is neither stopped nor starting. -/
theorem main_changesRight (argv : List (List Char)) (outcome : InvocationOutcome) :
    ChangesRight (optionOf argv) (main argv outcome).world.log := by
  have hdispatched : NoChange (dispatchService outcome .fresh).log := by
    unfold dispatchService serviceDispatcherTable
    cases outcome.startServiceCtrlDispatcher with
    | none => exact noChange_nil
    | some dwError => exact noChange_nil
  match argv with
  | [] => exact hdispatched.changesRight _
  | [_] => exact hdispatched.changesRight _
  | _ :: option :: _ =>
    rcases runOption_cases option outcome .fresh with ⟨hoption, hrun⟩ | ⟨hoption, hrun⟩ |
      ⟨hoption, hrun⟩ | ⟨hoption, hrun⟩ | hrun
    · rw [main, hrun]
      exact createService_changesRight hoption outcome.create
    · rw [main, hrun]
      exact startService_changesRight hoption outcome.start outcome.polls
    · rw [main, hrun]
      exact uninstallService_changesRight hoption outcome.uninstall
    · rw [main, hrun]
      exact stopService_changesRight hoption outcome.stop
    · rw [main, hrun]
      exact noChange_nil.changesRight option

end WinProcessThread.ServiceControl

import WinProcessThread.ServiceControl.Polling
import Mathlib.Tactic.SplitIfs

/-!
# Handle discipline of the service commands

Only `Stop_Service` closes its handles where it has opened them.  The other commands close both
handles at their end whatever has happened before, and many of their error branches close them too.
-/

namespace WinProcessThread.ServiceControl

open Resource Service

variable {world after : World} {handle : SC_HANDLE} {polls : Polls} {pending : DWORD}
variable {serviceStatus : ServiceStatusProcess}

/-! ## The state of a handle -/

/-- What has become of a handle. -/
def World.owned (world : World) (handle : SC_HANDLE) : Ownership :=
  ownership (accesses world.log) handle

@[simp]
theorem owned_fresh : World.fresh.owned handle = .unknown := rfl

@[simp]
theorem owned_print (line : String) : (world.print line).owned handle = world.owned handle := rfl

theorem owned_append {calls : List ScCall} (hlog : after.log = world.log ++ calls) :
    after.owned handle = (accesses calls).foldl (Ownership.after handle) (world.owned handle) := by
  rw [World.owned, hlog, accesses, List.flatMap_append, ownership_append]
  rfl

theorem owned_call (call : ScCall) :
    (world.call call).owned handle =
      call.accesses.foldl (Ownership.after handle) (world.owned handle) := by
  rw [owned_append (world.call_log call), accesses, List.flatMap_singleton]

theorem owned_closeServiceHandle (closing : SC_HANDLE) :
    (world.closeServiceHandle closing).owned handle =
      (world.owned handle).after handle (.release closing) :=
  owned_call (.closeServiceHandle closing)

/-- Nothing that is done later brings a lost handle back. -/
theorem lost_call (hlost : (world.owned handle).Lost) (call : ScCall) :
    ((world.call call).owned handle).Lost := by
  rw [owned_call]
  exact hlost.foldl _

theorem lost_append {calls : List ScCall} (hlost : (world.owned handle).Lost)
    (hlog : after.log = world.log ++ calls) : (after.owned handle).Lost := by
  rw [owned_append hlog]
  exact hlost.foldl _

/-- The discipline of a command, handle by handle. -/
theorem disciplined_iff_owned :
    Disciplined (accesses world.log) ↔
      ∀ handle, world.owned handle = .unknown ∨ world.owned handle = .released :=
  disciplined_iff

theorem not_disciplined_of_misused (hmisused : world.owned handle = .misused) :
    ¬ Disciplined (accesses world.log) := by
  intro hdisciplined
  exact hdisciplined.ne_misused handle hmisused

/-! ## Both handles open -/

/-- Both handles are open, and nothing else has been touched. -/
structure HoldsBoth (world : World) : Prop where
  manager : world.owned .openedManager = .held
  service : world.owned .openedService = .held
  null : world.owned .null = .unknown
  indeterminate : world.owned .indeterminate = .unknown

/-- A call on the open service changes nothing. -/
theorem HoldsBoth.call (hboth : HoldsBoth world) {call : ScCall}
    (huses : call.accesses = [.use .openedService]) : HoldsBoth (world.call call) := by
  constructor
  · rw [owned_call, huses, hboth.manager]
    rfl
  · rw [owned_call, huses, hboth.service]
    rfl
  · rw [owned_call, huses, hboth.null]
    rfl
  · rw [owned_call, huses, hboth.indeterminate]
    rfl

/-- Only the calls count. -/
theorem HoldsBoth.of_log (hboth : HoldsBoth world) (hlog : after.log = world.log) :
    HoldsBoth after := by
  have howned : ∀ handle, after.owned handle = world.owned handle := by
    intro handle
    rw [World.owned, hlog]
    rfl
  refine ⟨?_, ?_, ?_, ?_⟩ <;> rw [howned]
  exacts [hboth.manager, hboth.service, hboth.null, hboth.indeterminate]

theorem HoldsBoth.print (hboth : HoldsBoth world) (line : String) :
    HoldsBoth (world.print line) :=
  hboth.of_log rfl

/-- Closing both handles once is all that is due. -/
theorem HoldsBoth.close (hboth : HoldsBoth world) :
    Disciplined (accesses
      ((world.closeServiceHandle .openedService).closeServiceHandle .openedManager).log) := by
  apply disciplined_iff_owned.mpr
  intro handle
  rw [owned_closeServiceHandle, owned_closeServiceHandle]
  cases handle with
  | null =>
    rw [hboth.null]
    exact .inl rfl
  | indeterminate =>
    rw [hboth.indeterminate]
    exact .inl rfl
  | openedManager =>
    rw [hboth.manager]
    exact .inr rfl
  | openedService =>
    rw [hboth.service]
    exact .inr rfl

/-- Closing a service handle that is lost already is a misuse. -/
theorem misused_of_lost (hlost : (world.owned .openedService).Lost) :
    ((world.closeServiceHandle .openedService).closeServiceHandle .openedManager).owned
      .openedService = .misused := by
  rw [owned_closeServiceHandle, owned_closeServiceHandle]
  rcases hlost with hstate | hstate
  · rw [hstate]
    rfl
  · rw [hstate]
    rfl

/-! ## The commands without waiting loops -/

theorem createService_disciplined_iff (outcome : CreateOutcome) :
    Disciplined (accesses (createService outcome .fresh).log) ↔ outcome.openSCManager ≠ none := by
  obtain ⟨openSCManager, getModuleFileName, lastError⟩ := outcome
  cases openSCManager with
  | some dwError =>
    refine iff_of_true (disciplined_iff_owned.mpr fun handle ↦ ?_) (Option.some_ne_none dwError)
    exact .inl rfl
  | none =>
    apply iff_of_false _ (not_not_intro rfl)
    cases getModuleFileName with
    | false => exact not_disciplined_of_misused (show World.owned _ .null = .misused from rfl)
    | true =>
      cases lastError with
      | none =>
        exact not_disciplined_of_misused (show World.owned _ .openedService = .misused from rfl)
      | some dwError =>
        exact not_disciplined_of_misused (show World.owned _ .null = .misused from rfl)

theorem HoldsBoth.uninstallInState (hboth : HoldsBoth world) (dwCurrentState : DWORD)
    (lastError : Option DWORD) :
    HoldsBoth (uninstallInState dwCurrentState lastError .openedService world) := by
  have hdelete : HoldsBoth (world.call (.deleteService .openedService lastError)) :=
    hboth.call rfl
  unfold ServiceControl.uninstallInState
  split_ifs
  · cases lastError with
    | none => exact hdelete.print _
    | some dwError => exact hdelete.print _
  all_goals exact hboth.print _

theorem uninstallService_disciplined_iff (outcome : UninstallOutcome) :
    Disciplined (accesses (uninstallService outcome .fresh).log) ↔
      outcome.openSCManager = none ∧ outcome.openService = none ∧
        ∃ dwCurrentState, outcome.queryServiceStatus = .answered dwCurrentState := by
  obtain ⟨openSCManager, openService, queryServiceStatus, lastError⟩ := outcome
  cases openSCManager with
  | some dwError =>
    refine iff_of_false ?_ (by simp)
    exact not_disciplined_of_misused (show World.owned _ .null = .misused from rfl)
  | none =>
    cases openService with
    | some dwError =>
      refine iff_of_false ?_ (by simp)
      exact not_disciplined_of_misused (show World.owned _ .null = .misused from rfl)
    | none =>
      cases queryServiceStatus with
      | failed dwError =>
        refine iff_of_false ?_ (by simp)
        exact not_disciplined_of_misused (show World.owned _ .openedManager = .misused from rfl)
      | answered dwCurrentState =>
        refine iff_of_true ?_ ⟨rfl, rfl, dwCurrentState, rfl⟩
        have hopened : HoldsBoth
            (((World.fresh.call (.openSCManager none)).call (.openService .openedManager none)).call
              (.queryServiceStatus .openedService (.answered dwCurrentState))) :=
          ⟨rfl, rfl, rfl, rfl⟩
        exact (hopened.uninstallInState dwCurrentState lastError).close

theorem HoldsBoth.stopInState (hboth : HoldsBoth world) (dwCurrentState : DWORD)
    (lastError : Option DWORD) :
    HoldsBoth (stopInState dwCurrentState lastError .openedService world) := by
  have hcontrol : ∀ done world, HoldsBoth world →
      HoldsBoth (controlStop done lastError .openedService world) := by
    intro done world hopened
    have hsent : HoldsBoth (world.call (.controlService .openedService lastError)) :=
      hopened.call rfl
    unfold controlStop
    cases lastError with
    | none => exact hsent.print _
    | some dwError => exact hsent.print _
  unfold ServiceControl.stopInState
  split_ifs
  · exact hboth.print _
  · exact hcontrol _ _ (hboth.print _)
  · exact hboth.print _
  · exact hcontrol _ _ hboth
  all_goals exact hcontrol _ _ (hboth.print _)

theorem stopService_disciplined (outcome : StopOutcome) :
    Disciplined (accesses (stopService outcome .fresh).log) := by
  obtain ⟨openSCManager, openService, queryServiceStatusEx, lastError⟩ := outcome
  cases openSCManager with
  | some dwError => exact disciplined_iff_owned.mpr fun handle ↦ .inl rfl
  | none =>
    cases openService with
    | some dwError =>
      apply disciplined_iff_owned.mpr
      intro handle
      cases handle with
      | openedManager => exact .inr rfl
      | _ => exact .inl rfl
    | none =>
      have hopened : HoldsBoth
          (((World.fresh.call (.openSCManager none)).call (.openService .openedManager none)).call
            (.queryServiceStatusEx .openedService queryServiceStatusEx)) :=
        ⟨rfl, rfl, rfl, rfl⟩
      cases queryServiceStatusEx with
      | failed dwError => exact (hopened.print _).close
      | answered serviceStatus =>
        exact (hopened.stopInState serviceStatus.dwCurrentState lastError).close

/-! ## `Start_Service` -/

/-- The command still holds both handles if it has kept them, and has lost the service otherwise. -/
structure Fate (kept : Prop) (world : World) : Prop where
  holds : kept → HoldsBoth world
  lost : ¬ kept → (world.owned .openedService).Lost

/-- The closings at the end are all that is due exactly when the handles have been kept. -/
theorem Fate.disciplined_iff {kept : Prop} (hfate : Fate kept world) :
    Disciplined (accesses
        ((world.closeServiceHandle .openedService).closeServiceHandle .openedManager).log) ↔
      kept := by
  by_cases hkept : kept
  · exact iff_of_true (hfate.holds hkept).close hkept
  · exact iff_of_false (not_disciplined_of_misused (misused_of_lost (hfate.lost hkept))) hkept

theorem HoldsBoth.fate (hboth : HoldsBoth world) {kept : Prop} (hkept : kept) :
    Fate kept world :=
  ⟨fun _ ↦ hboth, fun hnot ↦ absurd hkept hnot⟩

/-- No query of the list has failed. -/
def AllAnswered (polls : Polls) : Prop :=
  ∀ query ∈ polls, ∃ status, query = .answered status

theorem fate_polls (hboth : HoldsBoth world)
    (hlog : after.log = world.log ++ polls.flatMap (pollCalls .openedService .openedManager)) :
    Fate (AllAnswered polls) after := by
  induction polls generalizing world with
  | nil =>
    have hsame : after.log = world.log := by simpa using hlog
    exact (hboth.of_log hsame).fate (by simp [AllAnswered])
  | cons query polls ih =>
    cases query with
    | answered status =>
      have hmiddle : HoldsBoth
          (world.call (.queryServiceStatusEx .openedService (.answered status))) :=
        hboth.call rfl
      have hrest := ih hmiddle (by rw [hlog]; simp [pollCalls])
      have hsame : AllAnswered (.answered status :: polls) ↔ AllAnswered polls := by
        simp [AllAnswered]
      exact ⟨fun hall ↦ hrest.holds (hsame.mp hall), fun hnot ↦ hrest.lost (mt hsame.mpr hnot)⟩
    | failed dwError =>
      -- The failure branch closes the service, whatever the later queries answer.
      have hclosed : (((world.call (.queryServiceStatusEx .openedService (.failed dwError))
          ).closeServiceHandle .openedService).owned .openedService).Lost := by
        rw [owned_closeServiceHandle, owned_call, hboth.service]
        exact .inl rfl
      have hrest : after.log =
          (((world.call (.queryServiceStatusEx .openedService (.failed dwError))
            ).closeServiceHandle .openedService).closeServiceHandle .openedManager).log ++
              polls.flatMap (pollCalls .openedService .openedManager) := by
        rw [hlog]
        simp [pollCalls]
      have hlost : (after.owned .openedService).Lost :=
        lost_append (lost_call hclosed (.closeServiceHandle .openedManager)) hrest
      refine ⟨fun hall ↦ ?_, fun _ ↦ hlost⟩
      obtain ⟨status, hstatus⟩ := hall _ List.mem_cons_self
      cases hstatus

/-- A start that fails closes both handles. -/
theorem Fate.startTheService {kept : Prop} (hfate : Fate kept world)
    (lastError : Option DWORD) :
    Fate (kept ∧ lastError = none)
      (startTheService lastError .openedService .openedManager world) := by
  have hcall : kept → HoldsBoth (world.call (.startService .openedService lastError)) :=
    fun hkept ↦ (hfate.holds hkept).call rfl
  have hlostCall : ¬ kept →
      ((world.call (.startService .openedService lastError)).owned .openedService).Lost :=
    fun hnot ↦ lost_call (hfate.lost hnot) _
  unfold ServiceControl.startTheService
  cases lastError with
  | none =>
    refine ⟨fun hkept ↦ (hcall hkept.1).print _, fun hnot ↦ ?_⟩
    exact hlostCall fun hkept ↦ hnot ⟨hkept, rfl⟩
  | some dwError =>
    refine ⟨fun hkept ↦ absurd hkept.2 (Option.some_ne_none dwError), fun _ ↦ ?_⟩
    apply lost_call
    by_cases hkept : kept
    · rw [owned_closeServiceHandle, owned_print, (hcall hkept).service]
      exact .inl rfl
    · exact lost_call (hlostCall hkept) _

/-- A branch that waits has used up the outcomes when it is left without any of them. -/
theorem afterPending_fate (hboth : HoldsBoth world)
    (hpending : serviceStatus.dwCurrentState = pending) {next : World → World}
    (hleft : afterPending pending .openedService .openedManager polls serviceStatus next world =
      .left [] () after) :
    ∃ middle, after = next middle ∧ Fate (AllAnswered polls) middle := by
  unfold afterPending at hleft
  rcases waits_or_answers pending polls with hall | ⟨used, status, rest, rfl, hused, hother⟩
  · obtain ⟨middle, hloop, -⟩ :=
      pollLoop_of_waits hall hpending .openedService .openedManager world
    rw [hloop] at hleft
    cases hleft
  · obtain ⟨middle, hloop, hlog⟩ :=
      pollLoop_of_answers hused hother hpending .openedService .openedManager world rest
    rw [hloop] at hleft
    cases hleft
    refine ⟨middle, rfl, fate_polls hboth ?_⟩
    rw [hlog, List.flatMap_append, List.append_assoc]
    rfl

/-- The handles are kept when no query fails and `StartService`, where it is called, succeeds. -/
theorem startInState_fate (hboth : HoldsBoth world) {lastError : Option DWORD}
    (hleft : startInState serviceStatus lastError .openedService .openedManager polls world =
      .left [] () after) :
    Fate (AllAnswered polls ∧
      (serviceStatus.dwCurrentState = serviceStartPending ∨
        serviceStatus.dwCurrentState = serviceRunning ∨ lastError = none)) after := by
  obtain ⟨shown, hlog, hbranch⟩ := startInState_branch serviceStatus lastError .openedService
    .openedManager polls world
  have hshown : HoldsBoth shown := hboth.of_log hlog
  rw [hleft] at hbranch
  generalize hprogress : Progress.left [] () after = progress at hbranch
  cases hbranch with
  | running hrunning =>
    cases hprogress
    exact hshown.fate ⟨by simp [AllAnswered], .inr (.inl hrunning)⟩
  | starting hstartPending =>
    obtain ⟨middle, rfl, hfate⟩ := afterPending_fate hshown hstartPending hprogress.symm
    simpa [hstartPending] using hfate
  | awaited pending hpending hawaited =>
    obtain ⟨middle, rfl, hfate⟩ := afterPending_fate hshown hpending hprogress.symm
    have hdistinct : pending ≠ serviceStartPending ∧ pending ≠ serviceRunning := by
      rcases hawaited with rfl | rfl | rfl <;> decide
    simpa [hpending, hdistinct] using hfate.startTheService lastError
  | atOnce hrunning hstartPending hawaited =>
    cases hprogress
    have hkept : Fate (AllAnswered []) shown := hshown.fate (by simp [AllAnswered])
    simpa [hrunning, hstartPending] using hkept.startTheService lastError

/-- `Start_Service` returns in the world that it has left with all queries made. -/
theorem startService_left {outcome : StartOutcome}
    (hreturned : (ScCommand.startService outcome polls).returned = some world) :
    startService outcome polls .fresh = .left [] () world := by
  unfold ScCommand.returned at hreturned
  dsimp only at hreturned
  split at hreturned
  · next after hleft =>
    rw [hleft, Option.some.inj hreturned]
  · cases hreturned

theorem startService_disciplined_iff {outcome : StartOutcome}
    (hreturned : (ScCommand.startService outcome polls).returned = some world) :
    Disciplined (accesses world.log) ↔
      outcome.openSCManager = none ∧ outcome.openService = none ∧
        ∃ serviceStatus, outcome.queryServiceStatusEx = .answered serviceStatus ∧
          AllAnswered polls ∧
          (serviceStatus.dwCurrentState = serviceStartPending ∨
            serviceStatus.dwCurrentState = serviceRunning ∨ outcome.startService = none) := by
  have hleft := startService_left hreturned
  obtain ⟨openSCManager, openService, queryServiceStatusEx, lastError⟩ := outcome
  cases openSCManager with
  | some dwError =>
    cases hleft
    refine iff_of_false ?_ (by simp)
    exact not_disciplined_of_misused (show World.owned _ .indeterminate = .misused from rfl)
  | none =>
    cases openService with
    | some dwError =>
      cases hleft
      refine iff_of_false ?_ (by simp)
      exact not_disciplined_of_misused (show World.owned _ .null = .misused from rfl)
    | none =>
      cases queryServiceStatusEx with
      | failed dwError =>
        cases hleft
        refine iff_of_false ?_ (by simp)
        exact not_disciplined_of_misused (show World.owned _ .openedService = .misused from rfl)
      | answered serviceStatus =>
        rw [startService_of_answered rfl rfl rfl] at hleft
        have hboth : HoldsBoth (queriedWorld serviceStatus) := ⟨rfl, rfl, rfl, rfl⟩
        cases hprogress : startInState serviceStatus lastError .openedService .openedManager polls
            (queriedWorld serviceStatus) with
        | waiting middle =>
          rw [hprogress] at hleft
          cases hleft
        | left rest value middle =>
          rw [hprogress] at hleft
          cases hleft
          rw [(startInState_fate hboth hprogress).disciplined_iff]
          simp

/-! ## All commands -/

/-- The results with which a command leaves its handles in order. -/
def ScCommand.KeepsHandles : ScCommand → Prop
  | .createService outcome => outcome.openSCManager ≠ none
  | .uninstallService outcome =>
    outcome.openSCManager = none ∧ outcome.openService = none ∧
      ∃ dwCurrentState, outcome.queryServiceStatus = .answered dwCurrentState
  | .stopService _ => True
  | .startService outcome polls =>
    outcome.openSCManager = none ∧ outcome.openService = none ∧
      ∃ serviceStatus, outcome.queryServiceStatusEx = .answered serviceStatus ∧
        AllAnswered polls ∧
        (serviceStatus.dwCurrentState = serviceStartPending ∨
          serviceStatus.dwCurrentState = serviceRunning ∨ outcome.startService = none)

/-- **Handle discipline.**  A command that returns has closed every handle it obtained once, has
used none behind that and has closed nothing else, exactly when its calls went as it needs. -/
theorem disciplined_iff_keepsHandles {command : ScCommand}
    (hreturned : command.returned = some world) :
    Disciplined (accesses world.log) ↔ command.KeepsHandles := by
  cases command with
  | createService outcome =>
    rw [← Option.some.inj hreturned]
    exact createService_disciplined_iff outcome
  | uninstallService outcome =>
    rw [← Option.some.inj hreturned]
    exact uninstallService_disciplined_iff outcome
  | stopService outcome =>
    rw [← Option.some.inj hreturned]
    exact iff_of_true (stopService_disciplined outcome) trivial
  | startService outcome polls => exact startService_disciplined_iff hreturned

/-- The service is stopping when it is to be started, and stopped at the second query. -/
def startWhileStopping : ScCommand :=
  .startService ⟨none, none, .answered ⟨serviceStopPending, 0⟩, none⟩
    [.answered ⟨serviceStopPending, 0⟩, .answered ⟨serviceStopped, 0⟩]

theorem startWhileStopping_disciplined :
    ∃ world, startWhileStopping.returned = some world ∧ Disciplined (accesses world.log) := by
  have hreturns : startWhileStopping.returned.isSome = true := rfl
  obtain ⟨world, hreturned⟩ := Option.isSome_iff_exists.mp hreturns
  refine ⟨world, hreturned, (disciplined_iff_keepsHandles hreturned).mpr ?_⟩
  exact ⟨rfl, rfl, _, rfl, by simp [AllAnswered], .inr (.inr rfl)⟩

/-- A service that was created is closed twice. -/
theorem created_not_disciplined :
    ∃ world, (ScCommand.createService ⟨none, true, none⟩).returned = some world ∧
      ¬ Disciplined (accesses world.log) := by
  refine ⟨createService ⟨none, true, none⟩ .fresh, rfl, ?_⟩
  exact not_disciplined_of_misused (show World.owned _ .openedService = .misused from rfl)

end WinProcessThread.ServiceControl

import WinProcessThread.ServiceControl.Commands

/-!
# The waiting loops of `Start_Service`

The four loops are copies of one loop.  Its condition reads a status that only a successful query
refreshes, and its failure branch closes both handles and goes on, so a failed query leaves it
waiting: with closed handles, for ever.
-/

namespace WinProcessThread.ServiceControl

open Service

variable {polls : Polls} {service hOpenSCManager : SC_HANDLE} {pending : DWORD}
variable {serviceStatus : ServiceStatusProcess} {world after : World}

/-- The loop goes on behind this query: a failure leaves the status as it was. -/
def Waits (pending : DWORD) : Query ServiceStatusProcess → Prop
  | .failed _ => True
  | .answered status => status.dwCurrentState = pending

/-- The first answer in another state than the awaited one. -/
def firstOther (pending : DWORD) : Polls → Option ServiceStatusProcess
  | [] => none
  | .failed _ :: rest => firstOther pending rest
  | .answered status :: rest =>
    if status.dwCurrentState = pending then firstOther pending rest else some status

theorem firstOther_append {used : Polls} (hused : ∀ query ∈ used, Waits pending query)
    (rest : Polls) : firstOther pending (used ++ rest) = firstOther pending rest := by
  induction used with
  | nil => rfl
  | cons query used ih =>
    have hrest := ih fun query hquery ↦ hused query (List.mem_cons_of_mem _ hquery)
    have hfirst := hused query List.mem_cons_self
    cases query with
    | failed dwError => exact hrest
    | answered status => exact (if_pos hfirst).trans hrest

/-- Either every outcome keeps the loop waiting, or there is a first answer in another state. -/
theorem waits_or_answers (pending : DWORD) (polls : Polls) :
    (∀ query ∈ polls, Waits pending query) ∨
      ∃ used status rest, polls = used ++ Query.answered status :: rest ∧
        (∀ query ∈ used, Waits pending query) ∧ status.dwCurrentState ≠ pending := by
  induction polls with
  | nil => exact .inl (by simp)
  | cons query polls ih =>
    by_cases hwaits : Waits pending query
    · rcases ih with hall | ⟨used, status, rest, hpolls, hused, hother⟩
      · exact .inl (List.forall_mem_cons.mpr ⟨hwaits, hall⟩)
      · refine .inr ⟨query :: used, status, rest, by rw [hpolls]; rfl, ?_, hother⟩
        exact List.forall_mem_cons.mpr ⟨hwaits, hused⟩
    · cases query with
      | failed dwError => exact absurd trivial hwaits
      | answered status => exact .inr ⟨[], status, polls, rfl, by simp, hwaits⟩

/-- The calls of one round of a waiting loop. -/
def pollCalls (service hOpenSCManager : SC_HANDLE) (query : Query ServiceStatusProcess) :
    List ScCall :=
  match query with
  | .failed _ =>
    [.queryServiceStatusEx service query, .closeServiceHandle service,
      .closeServiceHandle hOpenSCManager]
  | .answered _ => [.queryServiceStatusEx service query]

theorem poll_log (query : Query ServiceStatusProcess) :
    (poll service hOpenSCManager query serviceStatus world).2.log =
      world.log ++ pollCalls service hOpenSCManager query := by
  cases query <;> simp [poll, pollCalls]

theorem poll_waits {query : Query ServiceStatusProcess} (hwaits : Waits pending query)
    (hpending : serviceStatus.dwCurrentState = pending) (service hOpenSCManager : SC_HANDLE)
    (world : World) :
    (poll service hOpenSCManager query serviceStatus world).1.dwCurrentState = pending := by
  cases query with
  | failed dwError => exact hpending
  | answered status => exact hwaits

theorem pollLoop_cons (hpending : serviceStatus.dwCurrentState = pending)
    (query : Query ServiceStatusProcess) (polls : Polls) :
    pollLoop pending service hOpenSCManager (query :: polls) serviceStatus world =
      pollLoop pending service hOpenSCManager polls
        (poll service hOpenSCManager query serviceStatus world).1
        (poll service hOpenSCManager query serviceStatus world).2 := by
  rw [pollLoop, if_pos hpending]

/-- As long as the outcomes keep it waiting, the loop takes them one after the other. -/
theorem pollLoop_waits {used : Polls} (hused : ∀ query ∈ used, Waits pending query)
    (hpending : serviceStatus.dwCurrentState = pending) (service hOpenSCManager : SC_HANDLE)
    (world : World) (rest : Polls) :
    ∃ status middle, status.dwCurrentState = pending ∧
      middle.log = world.log ++ used.flatMap (pollCalls service hOpenSCManager) ∧
      pollLoop pending service hOpenSCManager (used ++ rest) serviceStatus world =
        pollLoop pending service hOpenSCManager rest status middle := by
  induction used generalizing serviceStatus world with
  | nil => exact ⟨serviceStatus, world, hpending, by simp, rfl⟩
  | cons query used ih =>
    obtain ⟨hfirst, hothers⟩ := List.forall_mem_cons.mp hused
    obtain ⟨status, middle, hstatus, hlog, hloop⟩ :=
      ih hothers (poll_waits hfirst hpending service hOpenSCManager world) _
    refine ⟨status, middle, hstatus, ?_, (pollLoop_cons hpending query _).trans hloop⟩
    calc
      middle.log = world.log ++ pollCalls service hOpenSCManager query ++
          used.flatMap (pollCalls service hOpenSCManager) := by
        rw [hlog, poll_log]
      _ = world.log ++ (query :: used).flatMap (pollCalls service hOpenSCManager) := by
        rw [List.flatMap_cons, List.append_assoc]

/-- Without an answer in another state the loop is still waiting behind all outcomes. -/
theorem pollLoop_of_waits (hpolls : ∀ query ∈ polls, Waits pending query)
    (hpending : serviceStatus.dwCurrentState = pending) (service hOpenSCManager : SC_HANDLE)
    (world : World) :
    ∃ middle, pollLoop pending service hOpenSCManager polls serviceStatus world =
        .waiting middle ∧
      middle.log = world.log ++ polls.flatMap (pollCalls service hOpenSCManager) := by
  obtain ⟨status, middle, hstatus, hlog, hloop⟩ :=
    pollLoop_waits hpolls hpending service hOpenSCManager world []
  refine ⟨middle, ?_, hlog⟩
  rw [List.append_nil] at hloop
  rw [hloop, pollLoop, if_pos hstatus]

/-- The loop is left with the first answer in another state. -/
theorem pollLoop_of_answers {used : Polls} {status : ServiceStatusProcess}
    (hused : ∀ query ∈ used, Waits pending query) (hother : status.dwCurrentState ≠ pending)
    (hpending : serviceStatus.dwCurrentState = pending) (service hOpenSCManager : SC_HANDLE)
    (world : World) (rest : Polls) :
    ∃ middle, pollLoop pending service hOpenSCManager (used ++ .answered status :: rest)
        serviceStatus world = .left rest status middle ∧
      middle.log = world.log ++ used.flatMap (pollCalls service hOpenSCManager) ++
        [.queryServiceStatusEx service (.answered status)] := by
  obtain ⟨last, middle, hlast, hlog, hloop⟩ :=
    pollLoop_waits hused hpending service hOpenSCManager world (.answered status :: rest)
  refine ⟨(poll service hOpenSCManager (.answered status) last middle).2, ?_, ?_⟩
  · rw [hloop, pollLoop, if_pos hlast]
    unfold pollLoop
    exact if_neg hother
  · rw [poll_log, hlog]
    rfl

/-- The states that `Start_Service` waits to be left before it starts the service. -/
def IsAwaited (dwCurrentState : DWORD) : Prop :=
  dwCurrentState = serviceStopPending ∨ dwCurrentState = servicePausePending ∨
    dwCurrentState = serviceContinuePending

instance (dwCurrentState : DWORD) : Decidable (IsAwaited dwCurrentState) :=
  inferInstanceAs (Decidable (_ ∨ _))

/-- What the `switch` does in a world: leave a running service alone, wait for a starting one, wait
and start the service, or start it at once. -/
inductive Branch (serviceStatus : ServiceStatusProcess) (lastError : Option DWORD)
    (service hOpenSCManager : SC_HANDLE) (polls : Polls) (world : World) : Progress Unit → Prop
  | running (hrunning : serviceStatus.dwCurrentState = serviceRunning) :
      Branch serviceStatus lastError service hOpenSCManager polls world (.left polls () world)
  | starting (hstartPending : serviceStatus.dwCurrentState = serviceStartPending) :
      Branch serviceStatus lastError service hOpenSCManager polls world
        (afterPending serviceStartPending service hOpenSCManager polls serviceStatus id world)
  | awaited (pending : DWORD) (hpending : serviceStatus.dwCurrentState = pending)
      (hawaited : IsAwaited pending) :
      Branch serviceStatus lastError service hOpenSCManager polls world
        (afterPending pending service hOpenSCManager polls serviceStatus
          (startTheService lastError service hOpenSCManager) world)
  | atOnce (hrunning : serviceStatus.dwCurrentState ≠ serviceRunning)
      (hstartPending : serviceStatus.dwCurrentState ≠ serviceStartPending)
      (hawaited : ¬ IsAwaited serviceStatus.dwCurrentState) :
      Branch serviceStatus lastError service hOpenSCManager polls world
        (.left polls () (startTheService lastError service hOpenSCManager world))

/-- The `switch` prints a line in most of its cases and then takes one of these four branches. -/
theorem startInState_branch (serviceStatus : ServiceStatusProcess) (lastError : Option DWORD)
    (service hOpenSCManager : SC_HANDLE) (polls : Polls) (world : World) :
    ∃ shown : World, shown.log = world.log ∧
      Branch serviceStatus lastError service hOpenSCManager polls shown
        (startInState serviceStatus lastError service hOpenSCManager polls world) := by
  have hatOnce : ∀ state, serviceStatus.dwCurrentState = state → state ≠ serviceRunning →
      state ≠ serviceStartPending → ¬ IsAwaited state → ∀ shown : World,
      Branch serviceStatus lastError service hOpenSCManager polls shown
        (.left polls () (startTheService lastError service hOpenSCManager shown)) := by
    intro state hstate hrunning hstartPending hawaited shown
    subst hstate
    exact .atOnce hrunning hstartPending hawaited
  unfold startInState
  split_ifs with hstopped hstopPending hstartPending hrunning hany hpaused hpausePending
    hcontinuePending
  · exact ⟨world, rfl, hatOnce _ hstopped (by decide) (by decide) (by decide) _⟩
  · exact ⟨world.print _, rfl, .awaited _ hstopPending (.inl rfl)⟩
  · exact ⟨world.print _, rfl, .starting hstartPending⟩
  · exact ⟨(world.print _).print _, rfl, .running hrunning⟩
  · exact ⟨(world.print _).print _, rfl, .running hrunning⟩
  · exact ⟨world.print _, rfl, hatOnce _ hpaused (by decide) (by decide) (by decide) _⟩
  · exact ⟨world.print _, rfl, .awaited _ hpausePending (.inr (.inl rfl))⟩
  · exact ⟨world.print _, rfl, .awaited _ hcontinuePending (.inr (.inr rfl))⟩
  · have hawaited : ¬ IsAwaited serviceStatus.dwCurrentState := by
      simp only [IsAwaited]
      tauto
    exact ⟨world.print _, rfl, .atOnce hrunning hstartPending hawaited⟩

/-- The first outcomes of a sequence. -/
def firstOutcomes (outcomes : ℕ → Query ServiceStatusProcess) (count : ℕ) : Polls :=
  (List.range count).map outcomes

/-- The query has answered with the awaited state. -/
def AwaitedState (pending : DWORD) (query : Query ServiceStatusProcess) : Prop :=
  ∃ status, query = .answered status ∧ status.dwCurrentState = pending

/-- The loop is left when it has made exactly this many queries. -/
def LeftAfter (pending : DWORD) (outcomes : ℕ → Query ServiceStatusProcess)
    (serviceStatus : ServiceStatusProcess) (world : World) (count : ℕ) : Prop :=
  ∃ status after,
    pollLoop pending .openedService .openedManager (firstOutcomes outcomes count) serviceStatus
      world = .left [] status after

/-- The loop is left right after the first outcome that is a failure or another state. -/
def PollingEnds (pending : DWORD) (outcomes : ℕ → Query ServiceStatusProcess)
    (serviceStatus : ServiceStatusProcess) (world : World) : Prop :=
  ∀ count, (∀ index < count, AwaitedState pending (outcomes index)) →
    ¬ AwaitedState pending (outcomes count) →
      LeftAfter pending outcomes serviceStatus world (count + 1)

variable {outcomes : ℕ → Query ServiceStatusProcess}

theorem firstOutcomes_succ (count : ℕ) :
    firstOutcomes outcomes (count + 1) = firstOutcomes outcomes count ++ [outcomes count] := by
  simp [firstOutcomes, List.range_succ]

theorem forall_mem_firstOutcomes {count : ℕ} {accepts : Query ServiceStatusProcess → Prop} :
    (∀ query ∈ firstOutcomes outcomes count, accepts query) ↔
      ∀ index < count, accepts (outcomes index) := by
  simp [firstOutcomes]

theorem AwaitedState.waits {query : Query ServiceStatusProcess}
    (hawaited : AwaitedState pending query) : Waits pending query := by
  obtain ⟨status, rfl, hstatus⟩ := hawaited
  exact hstatus

theorem not_leftAfter_of_waits {count : ℕ}
    (hwaits : ∀ index < count, Waits pending (outcomes index))
    (hpending : serviceStatus.dwCurrentState = pending) :
    ¬ LeftAfter pending outcomes serviceStatus world count := by
  intro hleft
  obtain ⟨status, after, hafter⟩ := hleft
  obtain ⟨middle, hwaiting, -⟩ :=
    pollLoop_of_waits (forall_mem_firstOutcomes.mpr hwaits) hpending .openedService .openedManager
      world
  rw [hwaiting] at hafter
  cases hafter

/-- A query that is made when the handle of the service has been closed fails. -/
def ClosedHandleFails (pending : DWORD) (outcomes : ℕ → Query ServiceStatusProcess)
    (serviceStatus : ServiceStatusProcess) (world : World) : Prop :=
  ∀ count middle,
    pollLoop pending .openedService .openedManager (firstOutcomes outcomes count) serviceStatus
      world = .waiting middle →
    .closeServiceHandle .openedService ∈ middle.log →
      ∃ lastError, outcomes count = .failed lastError

/-- Once a query has failed, and queries on a closed handle fail, the loop is never left. -/
theorem not_leftAfter_of_failed {failure : ℕ} {lastError : DWORD}
    (hpending : serviceStatus.dwCurrentState = pending)
    (hclosed : ClosedHandleFails pending outcomes serviceStatus world)
    (hawaited : ∀ index < failure, AwaitedState pending (outcomes index))
    (hfailed : outcomes failure = .failed lastError) (count : ℕ) :
    ¬ LeftAfter pending outcomes serviceStatus world count := by
  have hwaits : ∀ index, Waits pending (outcomes index) := by
    intro index
    induction index using Nat.strongRecOn with
    | ind index ih =>
      rcases Nat.lt_trichotomy index failure with hbefore | rfl | hbehind
      · exact (hawaited index hbefore).waits
      · rw [hfailed]
        trivial
      · -- The failure has closed the handle this query is made on.
        obtain ⟨middle, hwaiting, hlog⟩ :=
          pollLoop_of_waits (forall_mem_firstOutcomes.mpr ih) hpending .openedService
            .openedManager world
        have hclose : .closeServiceHandle .openedService ∈ middle.log := by
          rw [hlog]
          apply List.mem_append_right
          refine List.mem_flatMap.mpr ⟨outcomes failure, ?_, by simp [hfailed, pollCalls]⟩
          exact List.mem_map.mpr ⟨failure, List.mem_range.mpr hbehind, rfl⟩
        obtain ⟨code, hcode⟩ := hclosed index middle hwaiting hclose
        rw [hcode]
        trivial
  exact not_leftAfter_of_waits (fun index _ ↦ hwaits index) hpending

/-- **Polling ends.**  A waiting loop that is entered in its pending state is left right after the
first outcome that is a failure or another state exactly when this outcome is no failure. -/
theorem pollingEnds_iff (pending dwServiceFlags : DWORD)
    (outcomes : ℕ → Query ServiceStatusProcess) (world : World) :
    PollingEnds pending outcomes ⟨pending, dwServiceFlags⟩ world ↔
      ∀ count, (∀ index < count, AwaitedState pending (outcomes index)) →
        ∀ lastError, outcomes count ≠ .failed lastError := by
  constructor
  · intro hends count hawaited lastError hfailed
    have hleft := hends count hawaited (by rw [hfailed]; simp [AwaitedState])
    have hwaits : ∀ index < count + 1, Waits pending (outcomes index) := by
      intro index hindex
      rcases Nat.lt_succ_iff_lt_or_eq.mp hindex with hlt | rfl
      · exact (hawaited index hlt).waits
      · rw [hfailed]
        trivial
    exact not_leftAfter_of_waits hwaits rfl hleft
  · intro hanswers count hawaited hother
    cases houtcome : outcomes count with
    | failed lastError => exact absurd houtcome (hanswers count hawaited lastError)
    | answered status =>
      have hstate : status.dwCurrentState ≠ pending := fun hstate ↦
        hother ⟨status, houtcome, hstate⟩
      have hwaits : ∀ query ∈ firstOutcomes outcomes count, Waits pending query :=
        forall_mem_firstOutcomes.mpr fun index hindex ↦ (hawaited index hindex).waits
      have hentered : (ServiceStatusProcess.mk pending dwServiceFlags).dwCurrentState = pending :=
        rfl
      obtain ⟨after, hafter, -⟩ :=
        pollLoop_of_answers hwaits hstate hentered .openedService .openedManager world []
      refine ⟨status, after, ?_⟩
      rw [firstOutcomes_succ, houtcome]
      exact hafter

/-- Behind the first failure all queries fail, because the failure branch has closed the handle. -/
def failsAtOnce (index : ℕ) : Query ServiceStatusProcess :=
  .failed (if index = 0 then errorAccessDenied else errorInvalidHandle)

theorem failsAtOnce_not_pollingEnds :
    ¬ PollingEnds serviceStopPending failsAtOnce ⟨serviceStopPending, 0⟩ .fresh := by
  intro hends
  have hother : ¬ AwaitedState serviceStopPending (failsAtOnce 0) := by
    simp [AwaitedState, failsAtOnce]
  have hwaits : ∀ index < 1, Waits serviceStopPending (failsAtOnce index) := fun _ _ ↦ trivial
  exact not_leftAfter_of_waits hwaits rfl (hends 0 (by simp) hother)

end WinProcessThread.ServiceControl

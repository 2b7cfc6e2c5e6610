import WinProcessThread.ServiceControl.Calls

/-!
# The service commands

`Create_Service`, `Uninstall_Service`, `Stop_Service` and `Start_Service`.  The results of the calls
to the service control manager are inputs; the outcomes of the queries that `Start_Service` makes
while it waits are a list, and a run that needs more of them than the list has is still waiting at
its end.  No command looks at a handle again once it has opened it, so closing a handle changes
nothing about what the command does next.

`int Create_Service()` has no `return`.  It is taken to return to `main` all the same, which does
not look at the value.
-/

namespace WinProcessThread.ServiceControl

open Service

def serviceName : String := "cLp 0.1"

structure CreateOutcome where
  openSCManager : Option DWORD
  /-- `GetModuleFileName` has returned a path. -/
  getModuleFileName : Bool
  createService : Option DWORD
deriving DecidableEq, Repr

/-- The call of `CreateService` with what follows it, and the value of `service` behind that. -/
def createServiceObject (lastError : Option DWORD) (openControlManager : SC_HANDLE)
    (world : World) : SC_HANDLE × World :=
  let world := world.call (.createService openControlManager lastError)
  match lastError with
  | none =>
    let service := SC_HANDLE.openedService
    (service, (world.call (.changeServiceConfig2 service)).closeServiceHandle service)
  | some dwError =>
    -- Every branch of the `switch` closes the manager.
    (.null, (world.print (createServiceError dwError)).closeServiceHandle openControlManager)

/-- `Create_Service`. -/
def createService (outcome : CreateOutcome) (world : World) : World :=
  let world := world.call (.openSCManager outcome.openSCManager)
  let world :=
    match outcome.openSCManager with
    | none =>
      let openControlManager := SC_HANDLE.openedManager
      let (service, world) :=
        if outcome.getModuleFileName then
          createServiceObject outcome.createService openControlManager world
        else
          (.null, world)
      (world.closeServiceHandle service).closeServiceHandle openControlManager
    | some dwError => world.print (openSCManagerError dwError)
  world.print ("Service was created :" ++ serviceName ++ "\n")

structure UninstallOutcome where
  openSCManager : Option DWORD
  openService : Option DWORD
  queryServiceStatus : Query DWORD
  deleteService : Option DWORD
deriving DecidableEq, Repr

/-- The `switch` over the state of the service. -/
def uninstallInState (dwCurrentState : DWORD) (lastError : Option DWORD) (service : SC_HANDLE)
    (world : World) : World :=
  if dwCurrentState = serviceStopped then
    let world := world.call (.deleteService service lastError)
    match lastError with
    | none =>
      world.print ("Service was removed from SC manager:" ++ serviceName ++
        toString dwCurrentState.toNat ++ " \n")
    | some _ => world.print ("Can't  removed service from SC manager:" ++ serviceName ++ " \n")
  else if dwCurrentState = serviceStopPending then
    world.print ("The service is stopping:" ++ serviceName ++ " \n")
  else if dwCurrentState = serviceStartPending then
    world.print ("The service is starting. :" ++ serviceName ++ " \n")
  else if dwCurrentState = serviceRunning then
    world.print ("The service is running.:" ++ serviceName ++ " \n")
  else if dwCurrentState = servicePaused then
    world.print ("The service is paused. :" ++ serviceName ++ " \n")
  else if dwCurrentState = servicePausePending then
    world.print ("The service pause is pending. :" ++ serviceName ++ " \n")
  else if dwCurrentState = serviceContinuePending then
    world.print ("The service continue is pending. :" ++ serviceName ++ " \n")
  else
    world.print " UNKNOWN STATUS OF THE SERVICE TRY TO REMOVE IT MANUALY with command line.\n"

/-- What is done while the manager is open, and the value of `service` behind it. -/
def uninstallFromManager (outcome : UninstallOutcome) (openControlManager : SC_HANDLE)
    (world : World) : SC_HANDLE × World :=
  let world := world.call (.openService openControlManager outcome.openService)
  match outcome.openService with
  | none =>
    let service := SC_HANDLE.openedService
    let world := world.call (.queryServiceStatus service outcome.queryServiceStatus)
    match outcome.queryServiceStatus with
    | .answered dwCurrentState =>
      (service, uninstallInState dwCurrentState outcome.deleteService service world)
    | .failed dwError =>
      (service,
        (world.print (queryServiceStatusError dwError)).closeServiceHandle openControlManager)
  | some dwError => (.null, world.print (openServiceError dwError))

/-- `Uninstall_Service`. -/
def uninstallService (outcome : UninstallOutcome) (world : World) : World :=
  let world := world.call (.openSCManager outcome.openSCManager)
  let (openControlManager, service, world) : SC_HANDLE × SC_HANDLE × World :=
    match outcome.openSCManager with
    | none => (.openedManager, uninstallFromManager outcome .openedManager world)
    | some dwError => (.null, .null, world.print (openSCManagerError dwError))
  (world.closeServiceHandle service).closeServiceHandle openControlManager

structure StopOutcome where
  openSCManager : Option DWORD
  openService : Option DWORD
  queryServiceStatusEx : Query ServiceStatusProcess
  controlService : Option DWORD
deriving DecidableEq, Repr

/-- `SERVICE_CONTROL_STOP` is sent. -/
def controlStop (done : String) (lastError : Option DWORD) (service : SC_HANDLE) (world : World) :
    World :=
  let world := world.call (.controlService service lastError)
  match lastError with
  | none => world.print done
  | some dwError => world.print ("ControlService failed " ++ toString dwError.toNat ++ "\n")

/-- The `switch` over the state of the service. -/
def stopInState (dwCurrentState : DWORD) (lastError : Option DWORD) (service : SC_HANDLE)
    (world : World) : World :=
  if dwCurrentState = serviceStopped then
    world.print ("Service was stoped :" ++ serviceName ++ " \n")
  else if dwCurrentState = serviceStopPending then
    controlStop "Service stopped\n" lastError service
      (world.print ("The service is stopping:" ++ serviceName ++ " \n"))
  else if dwCurrentState = serviceStartPending then
    world.print ("The service is starting status :" ++ serviceName ++ " \n")
  else if dwCurrentState = serviceRunning then
    controlStop "Service stopped\n" lastError service world
  else if dwCurrentState = servicePaused then
    controlStop "Service was stopped\n" lastError service
      (world.print ("The service is paused. :" ++ serviceName ++ " \n"))
  else if dwCurrentState = servicePausePending then
    controlStop "Service stopped\n" lastError service
      (world.print ("The service pause is pending. :" ++ serviceName ++ " \n"))
  else if dwCurrentState = serviceContinuePending then
    controlStop "Service stopped\n" lastError service
      (world.print ("The service continue is pending. :" ++ serviceName ++ " \n"))
  else
    controlStop "Service stopped\n" lastError service
      (world.print (" UNKNOWN STATUS OF THE SERVICE TRY TO STOP IT MANUALY with command line. " ++
        "SC -Manager if stop service unsuccessful\n"))

/-- What is done while the manager is open. -/
def stopFromManager (outcome : StopOutcome) (openControlManager : SC_HANDLE) (world : World) :
    World :=
  let world := world.call (.openService openControlManager outcome.openService)
  match outcome.openService with
  | none =>
    let service := SC_HANDLE.openedService
    let world := world.call (.queryServiceStatusEx service outcome.queryServiceStatusEx)
    let world :=
      match outcome.queryServiceStatusEx with
      | .answered serviceStatus =>
        stopInState serviceStatus.dwCurrentState outcome.controlService service world
      | .failed dwError => world.print (queryServiceStatusError dwError)
    world.closeServiceHandle service
  | some dwError => world.print (openServiceError dwError)

/-- `Stop_Service`. -/
def stopService (outcome : StopOutcome) (world : World) : World :=
  let world := world.call (.openSCManager outcome.openSCManager)
  match outcome.openSCManager with
  | none => (stopFromManager outcome .openedManager world).closeServiceHandle .openedManager
  | some dwError => world.print (openSCManagerError dwError)

/-- The outcomes of the queries that are still to come. -/
abbrev Polls := List (Query ServiceStatusProcess)

/-- A part of `Start_Service` with its waiting loops: it waits for another query, or it has been
left with these outcomes unused. -/
inductive Progress (Value : Type)
  | waiting (world : World)
  | left (polls : Polls) (value : Value) (world : World)
deriving DecidableEq, Repr

def Progress.world {Value : Type} : Progress Value → World
  | .waiting world => world
  | .left _ _ world => world

structure StartOutcome where
  openSCManager : Option DWORD
  openService : Option DWORD
  queryServiceStatusEx : Query ServiceStatusProcess
  startService : Option DWORD
deriving DecidableEq, Repr

/-- One round of a waiting loop: a query and what is done about its result. -/
def poll (service hOpenSCManager : SC_HANDLE) (query : Query ServiceStatusProcess)
    (serviceStatus : ServiceStatusProcess) (world : World) : ServiceStatusProcess × World :=
  let world := world.call (.queryServiceStatusEx service query)
  match query with
  | .failed dwError =>
    let world := world.print ("QueryServiceStatusEx failed :" ++ toString dwError.toNat ++ "\n")
    (serviceStatus, (world.closeServiceHandle service).closeServiceHandle hOpenSCManager)
  | .answered serviceStatus =>
    (serviceStatus,
      world.print ("Service Query success" ++ toString serviceStatus.dwServiceFlags.toNat ++ "\n"))

/-- `while (serviceStatus.dwCurrentState == pending)`. -/
def pollLoop (pending : DWORD) (service hOpenSCManager : SC_HANDLE) (polls : Polls)
    (serviceStatus : ServiceStatusProcess) (world : World) : Progress ServiceStatusProcess :=
  if serviceStatus.dwCurrentState = pending then
    match polls with
    | [] => .waiting world
    | query :: rest =>
      let (serviceStatus, world) := poll service hOpenSCManager query serviceStatus world
      pollLoop pending service hOpenSCManager rest serviceStatus world
  else
    .left polls serviceStatus world

/-- The block between the comments `START THE SERVICE` and `START SERVICE`. -/
def startTheService (lastError : Option DWORD) (service hOpenSCManager : SC_HANDLE)
    (world : World) : World :=
  let world := world.call (.startService service lastError)
  match lastError with
  | none => world.print "Start service success \n"
  | some dwError =>
    let world := world.print (startServiceError dwError)
    (world.closeServiceHandle service).closeServiceHandle hOpenSCManager

/-- The branch of a pending state: wait until the service has left it, then go on. -/
def afterPending (pending : DWORD) (service hOpenSCManager : SC_HANDLE) (polls : Polls)
    (serviceStatus : ServiceStatusProcess) (next : World → World) (world : World) :
    Progress Unit :=
  match pollLoop pending service hOpenSCManager polls serviceStatus world with
  | .waiting world => .waiting world
  | .left polls _ world => .left polls () (next world)

/-- The `switch` over the state of the service. -/
def startInState (serviceStatus : ServiceStatusProcess) (lastError : Option DWORD)
    (service hOpenSCManager : SC_HANDLE) (polls : Polls) (world : World) : Progress Unit :=
  let start := startTheService lastError service hOpenSCManager
  if serviceStatus.dwCurrentState = serviceStopped then
    .left polls () (start world)
  else if serviceStatus.dwCurrentState = serviceStopPending then
    afterPending serviceStopPending service hOpenSCManager polls serviceStatus start
      (world.print ("The service is stopping status:" ++ serviceName ++ " \n"))
  else if serviceStatus.dwCurrentState = serviceStartPending then
    afterPending serviceStartPending service hOpenSCManager polls serviceStatus id
      (world.print ("The service is starting status:" ++ serviceName ++ " \n"))
  else if serviceStatus.dwCurrentState = serviceRunning then
    let world := world.print ("The service is running status:" ++ serviceName ++ " \n")
    -- One of the two comparisons always holds, so the other branch is never taken.
    if serviceStatus.dwCurrentState ≠ serviceStopped ∨
        serviceStatus.dwCurrentState ≠ serviceStopPending then
      .left polls () (world.print "Service is already running\n")
    else
      .left polls () (world.print "Cannot start the service because it is stopped")
  else if serviceStatus.dwCurrentState = servicePaused then
    .left polls ()
      (start (world.print ("The service is paused status :" ++ serviceName ++ " \n")))
  else if serviceStatus.dwCurrentState = servicePausePending then
    afterPending servicePausePending service hOpenSCManager polls serviceStatus start
      (world.print ("The service pause is pending status :" ++ serviceName ++ " \n"))
  else if serviceStatus.dwCurrentState = serviceContinuePending then
    afterPending serviceContinuePending service hOpenSCManager polls serviceStatus start
      (world.print ("The service continue is pending status :" ++ serviceName ++ " \n"))
  else
    .left polls ()
      (start (world.print (" UNKNOWN STATUS OF THE SERVICE TRY TO START IT MANUALY with command " ++
        "line. SC -Manager if start service unsuccessful\n")))

/-- What is done while the manager is open, and the value of `service` behind it. -/
def startFromManager (outcome : StartOutcome) (hOpenSCManager : SC_HANDLE) (polls : Polls)
    (world : World) : SC_HANDLE × Progress Unit :=
  let world := world.call (.openService hOpenSCManager outcome.openService)
  match outcome.openService with
  | none =>
    let service := SC_HANDLE.openedService
    let world := world.call (.queryServiceStatusEx service outcome.queryServiceStatusEx)
    match outcome.queryServiceStatusEx with
    | .answered serviceStatus =>
      (service,
        startInState serviceStatus outcome.startService service hOpenSCManager polls world)
    | .failed dwError =>
      let world := world.print (queryServiceStatusError dwError)
      (service,
        .left polls () ((world.closeServiceHandle service).closeServiceHandle hOpenSCManager))
  | some dwError =>
    let world := world.print (openServiceError dwError)
    (.null, .left polls () (world.closeServiceHandle hOpenSCManager))

/-- `Start_Service`. -/
def startService (outcome : StartOutcome) (polls : Polls) (world : World) : Progress Unit :=
  let world := world.call (.openSCManager outcome.openSCManager)
  let (hOpenSCManager, service, progress) : SC_HANDLE × SC_HANDLE × Progress Unit :=
    match outcome.openSCManager with
    | none => (.openedManager, startFromManager outcome .openedManager polls world)
    | some dwError =>
      (.null, .indeterminate, .left polls () (world.print (openSCManagerError dwError)))
  match progress with
  | .waiting world => .waiting world
  | .left polls () world =>
    .left polls () ((world.closeServiceHandle service).closeServiceHandle hOpenSCManager)

/-- The world in which the `switch` is entered. -/
def queriedWorld (serviceStatus : ServiceStatusProcess) : World :=
  ((World.fresh.call (.openSCManager none)).call (.openService .openedManager none)).call
    (.queryServiceStatusEx .openedService (.answered serviceStatus))

/-- When both handles are opened and the first query answers, the command is its `switch` with the
two closings behind it. -/
theorem startService_of_answered {outcome : StartOutcome} {polls : Polls}
    {serviceStatus : ServiceStatusProcess} (hmanager : outcome.openSCManager = none)
    (hservice : outcome.openService = none)
    (hquery : outcome.queryServiceStatusEx = .answered serviceStatus) :
    startService outcome polls .fresh =
      match startInState serviceStatus outcome.startService .openedService .openedManager polls
        (queriedWorld serviceStatus) with
      | .waiting world => .waiting world
      | .left polls () world =>
        .left polls ()
          ((world.closeServiceHandle .openedService).closeServiceHandle .openedManager) := by
  obtain ⟨openSCManager, openService, queryServiceStatusEx, lastError⟩ := outcome
  subst hmanager hservice hquery
  rfl

/-- A command with the results of the calls it may make. -/
inductive ScCommand
  | createService (outcome : CreateOutcome)
  | uninstallService (outcome : UninstallOutcome)
  | stopService (outcome : StopOutcome)
  | startService (outcome : StartOutcome) (polls : Polls)
deriving DecidableEq, Repr

/-- The world in which the command returns.  `Start_Service` does so when the outcomes are just the
queries it makes while it waits. -/
def ScCommand.returned : ScCommand → Option World
  | .createService outcome => some (ServiceControl.createService outcome .fresh)
  | .uninstallService outcome => some (ServiceControl.uninstallService outcome .fresh)
  | .stopService outcome => some (ServiceControl.stopService outcome .fresh)
  | .startService outcome polls =>
    match ServiceControl.startService outcome polls .fresh with
    | .left [] () world => some world
    | _ => none

end WinProcessThread.ServiceControl

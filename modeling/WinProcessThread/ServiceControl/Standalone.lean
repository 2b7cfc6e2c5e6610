import WinProcessThread.ServiceControl.Handles

/-!
# The standalone programs

`create_service_exp.cpp` and `uninstall_service.cpp` do for one service what two of the commands do
for another.  They make their requests in the same order, but register the service with another
type, start and error control, set no description and open the service with fewer rights.  They
close each handle where it has been opened, and the removal is reported without a look at the result
of `DeleteService`.

`uninstall_service.cpp` lacks the semicolon behind the `break` of line 41; it is read as if it stood
there.
-/

namespace WinProcessThread.ServiceControl

open Resource Service

namespace Standalone

def serviceName : String := "testcomm 0.2"

/-- `Create_Service` of `create_service_exp.cpp`. -/
def createService (outcome : CreateOutcome) (world : World) : World :=
  let world := world.call (.openSCManager outcome.openSCManager)
  match outcome.openSCManager with
  | none =>
    let openControlManager := SC_HANDLE.openedManager
    let world :=
      if outcome.getModuleFileName then
        let world := world.call (.createService openControlManager outcome.createService)
        match outcome.createService with
        | none => world.closeServiceHandle .openedService
        | some dwError => world.print (createServiceError dwError)
      else
        world
    world.closeServiceHandle openControlManager
  | some dwError => world.print (openSCManagerError dwError)

def removedLine : String :=
  "Service was removed from SC manager:" ++ serviceName ++ " \n"

/-- The `switch` over the state of the service. -/
def uninstallInState (dwCurrentState : DWORD) (lastError : Option DWORD) (service : SC_HANDLE)
    (world : World) : World :=
  if dwCurrentState = serviceStopped then
    (world.call (.deleteService service lastError)).print removedLine
  else if dwCurrentState = serviceStopPending then
    world.print ("The service is stopping:" ++ serviceName ++ " \n")
  else if dwCurrentState = serviceStartPending then
    world.print ("The service is starting. :" ++ serviceName ++ " \n")
  else if dwCurrentState = serviceRunning then
    world.print ("The service is running.:" ++ serviceName ++ " \n")
  else if dwCurrentState = servicePaused then
    world.print ("The service is paused. :" ++ serviceName ++ " \n")
  else if dwCurrentState = servicePausePending then
    world.print ("The service pause is pending. :" ++ serviceName ++ " \n")
  else if dwCurrentState = serviceContinuePending then
    world.print ("The service continue is pending. :" ++ serviceName ++ " \n")
  else
    world.print " UNKNOWN STATUS OF THE SERVICE TRY TO REMOVE IT MANUALY with command line.\n"

/-- What is done while the manager is open. -/
def uninstallFromManager (outcome : UninstallOutcome) (openControlManager : SC_HANDLE)
    (world : World) : World :=
  let world := world.call (.openService openControlManager outcome.openService)
  match outcome.openService with
  | none =>
    let service := SC_HANDLE.openedService
    let world := world.call (.queryServiceStatus service outcome.queryServiceStatus)
    let world :=
      match outcome.queryServiceStatus with
      | .answered dwCurrentState =>
        uninstallInState dwCurrentState outcome.deleteService service world
      | .failed dwError => world.print (queryServiceStatusError dwError)
    world.closeServiceHandle service
  | some dwError => world.print (openServiceError dwError)

/-- `UninstallService` of `uninstall_service.cpp`. -/
def uninstallService (outcome : UninstallOutcome) (world : World) : World :=
  let world := world.call (.openSCManager outcome.openSCManager)
  match outcome.openSCManager with
  | none => (uninstallFromManager outcome .openedManager world).closeServiceHandle .openedManager
  | some dwError => world.print (openSCManagerError dwError)

end Standalone

variable {world after : World} {handle : SC_HANDLE}

def serviceQueryStatus : DWORD := 0x0004
def delete : DWORD := 0x10000
def serviceAllAccess : DWORD := 0xF01FF
def serviceInteractiveProcess : DWORD := 0x100
def serviceAutoStart : DWORD := 2
def serviceDemandStart : DWORD := 3
def serviceErrorIgnore : DWORD := 0
def serviceErrorNormal : DWORD := 1

/-- A call that is no closing, with the constants that are passed to it. -/
inductive Request
  | openSCManager (dwDesiredAccess : DWORD)
  | createService (lpServiceName : String)
      (dwDesiredAccess dwServiceType dwStartType dwErrorControl : DWORD)
  | openService (lpServiceName : String) (dwDesiredAccess : DWORD)
  | changeServiceConfig2 (lpDescription : String)
  | queryServiceStatus
  | deleteService
deriving DecidableEq, Repr

/-- The constants in which the programs differ. -/
structure Arguments where
  lpServiceName : String
  dwServiceType : DWORD
  dwStartType : DWORD
  dwErrorControl : DWORD
  /-- The rights with which the service is opened to be removed. -/
  openService : DWORD
deriving DecidableEq, Repr

/-- What `Create_Service` and `Uninstall_Service` of the service program pass. -/
def arguments : Arguments where
  lpServiceName := serviceName
  dwServiceType := serviceWin32OwnProcess
  dwStartType := serviceAutoStart ||| serviceDemandStart
  dwErrorControl := serviceErrorNormal
  openService := serviceAllAccess ||| delete

def Standalone.arguments : Arguments where
  lpServiceName := Standalone.serviceName
  dwServiceType := serviceWin32OwnProcess ||| serviceInteractiveProcess
  dwStartType := serviceAutoStart
  dwErrorControl := serviceErrorIgnore
  openService := serviceQueryStatus ||| delete

/-- The request of a call in a program with these constants, which opens the manager with these
rights.  The other calls are not made by the functions that are compared. -/
def ScCall.request (manager : DWORD) (arguments : Arguments) : ScCall → Option Request
  | .openSCManager _ => some (.openSCManager manager)
  | .createService _ _ => some (.createService arguments.lpServiceName serviceAllAccess
      arguments.dwServiceType arguments.dwStartType arguments.dwErrorControl)
  | .openService _ _ => some (.openService arguments.lpServiceName arguments.openService)
  | .changeServiceConfig2 _ => some (.changeServiceConfig2 "The service description.")
  | .queryServiceStatus _ _ => some .queryServiceStatus
  | .deleteService _ _ => some .deleteService
  | _ => none

def requests (manager : DWORD) (arguments : Arguments) (log : List ScCall) : List Request :=
  log.filterMap (ScCall.request manager arguments)

theorem log_uninstallInState (dwCurrentState : DWORD) (lastError : Option DWORD)
    (service : SC_HANDLE) (world : World) :
    (uninstallInState dwCurrentState lastError service world).log =
      world.log ++
        if dwCurrentState = serviceStopped then [.deleteService service lastError] else [] := by
  unfold uninstallInState
  split_ifs
  · cases lastError with
    | none => rw [World.print_log, World.call_log]
    | some dwError => rw [World.print_log, World.call_log]
  all_goals rw [World.print_log, List.append_nil]

end WinProcessThread.ServiceControl

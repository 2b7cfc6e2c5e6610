import WinProcessThread.Service.Status
import WinProcessThread.Resource.Handles

/-!
# Calls to the service control manager

The four service commands talk to the service control manager through two handles, one of the
manager's database and one of the service.  Each command opens either of them at most once, so a
handle is named by what it stands for; the two other values of a handle variable are `NULL` and
whatever was in memory before the variable is assigned.

A command appends its calls, with their results, to a log and its output to a list of lines.  For a
call that fails the result is the code that `GetLastError` gives.
-/

namespace WinProcessThread.ServiceControl

open Resource Service

inductive SC_HANDLE
  | null
  /-- The variable has not been assigned. -/
  | indeterminate
  | openedManager
  | openedService
deriving DecidableEq, Repr

/-- The fields of `SERVICE_STATUS_PROCESS` that are read. -/
structure ServiceStatusProcess where
  dwCurrentState : DWORD
  dwServiceFlags : DWORD
deriving DecidableEq, Repr

/-- The result of a status query. -/
inductive Query (Status : Type)
  | failed (lastError : DWORD)
  | answered (status : Status)
deriving DecidableEq, Repr

inductive ScCall
  | openSCManager (lastError : Option DWORD)
  | createService (manager : SC_HANDLE) (lastError : Option DWORD)
  | openService (manager : SC_HANDLE) (lastError : Option DWORD)
  | changeServiceConfig2 (service : SC_HANDLE)
  /-- The answer is `dwCurrentState`. -/
  | queryServiceStatus (service : SC_HANDLE) (query : Query DWORD)
  | queryServiceStatusEx (service : SC_HANDLE) (query : Query ServiceStatusProcess)
  | controlService (service : SC_HANDLE) (lastError : Option DWORD)
  | startService (service : SC_HANDLE) (lastError : Option DWORD)
  | deleteService (service : SC_HANDLE) (lastError : Option DWORD)
  | closeServiceHandle (handle : SC_HANDLE)
deriving DecidableEq, Repr

/-- What a call does with the handles. -/
def ScCall.accesses : ScCall → List (Access SC_HANDLE)
  | .openSCManager none => [.obtain .openedManager]
  | .openSCManager (some _) => []
  | .createService manager none | .openService manager none =>
    [.use manager, .obtain .openedService]
  | .createService manager (some _) | .openService manager (some _) => [.use manager]
  | .changeServiceConfig2 service | .queryServiceStatus service _
  | .queryServiceStatusEx service _ | .controlService service _ | .startService service _
  | .deleteService service _ => [.use service]
  | .closeServiceHandle handle => [.release handle]

/-- The accesses of a whole log. -/
def accesses (log : List ScCall) : List (Access SC_HANDLE) :=
  log.flatMap ScCall.accesses

structure World where
  log : List ScCall
  printed : List String
deriving DecidableEq, Repr

/-- A command starts with an empty log. -/
def World.fresh : World where
  log := []
  printed := []

namespace World

variable (world : World)

def call (call : ScCall) : World :=
  { world with log := world.log ++ [call] }

def print (line : String) : World :=
  { world with printed := world.printed ++ [line] }

def closeServiceHandle (handle : SC_HANDLE) : World :=
  world.call (.closeServiceHandle handle)

@[simp]
theorem call_log (call : ScCall) : (world.call call).log = world.log ++ [call] := rfl

@[simp]
theorem print_log (line : String) : (world.print line).log = world.log := rfl

@[simp]
theorem closeServiceHandle_log (handle : SC_HANDLE) :
    (world.closeServiceHandle handle).log = world.log ++ [.closeServiceHandle handle] := rfl

end World

def errorPathNotFound : DWORD := 3
def errorAccessDenied : DWORD := 5
def errorInvalidHandle : DWORD := 6
def errorInvalidParameter : DWORD := 87
def errorInvalidName : DWORD := 123
def errorServiceRequestTimeout : DWORD := 1053
def errorServiceNoThread : DWORD := 1054
def errorServiceDatabaseLocked : DWORD := 1055
def errorServiceAlreadyRunning : DWORD := 1056
def errorInvalidServiceAccount : DWORD := 1057
def errorServiceDisabled : DWORD := 1058
def errorCircularDependency : DWORD := 1059
def errorServiceDoesNotExist : DWORD := 1060
def errorDatabaseDoesNotExist : DWORD := 1065
def errorServiceDependencyFail : DWORD := 1068
def errorServiceLogonFailed : DWORD := 1069
def errorServiceMarkedForDelete : DWORD := 1072
def errorServiceExists : DWORD := 1073
def errorServiceDependencyDeleted : DWORD := 1075
def errorDuplicateServiceName : DWORD := 1078

/-- A `switch` over an error code whose branches print a text and the code as an `int`. -/
def errorLine (cases : List (DWORD × String)) (unknown : String) (dwError : DWORD) : String :=
  (cases.lookup dwError).getD unknown ++ toString dwError.toInt32.toInt ++ "\n"

def openSCManagerError : DWORD → String :=
  errorLine
    [(errorAccessDenied, " Connection to Service Manager (SC_Manager) ERROR: Access Deny"),
      (errorDatabaseDoesNotExist,
        " Connection to Service Manager (SC_Manager) ERROR: DATABSE OF SERVICE MANAGER NOT EXISTS"),
      (errorInvalidParameter,
        " Connection to Service Manager (SC_Manager) ERROR: INVALID PARAMETERS")]
    " Connection to Service Manager (SC_Manager) ERROR: UNKOWN ERROR "

def openServiceError : DWORD → String :=
  errorLine
    [(errorAccessDenied, " Open Service (SC_Manager) ERROR: Access Deny."),
      (errorServiceDoesNotExist, " Open Service (SC_Manager) ERROR: SERVICE DOSE NOT EXIST."),
      (errorInvalidHandle, " Open Service (SC_Manager) ERROR: INVALID HANDLER. "),
      (errorInvalidName,
        " Open Service (SC_Manager) ERROR: Specific Service name is invalid. ")]
    " Open Service (SC_Manager) ERROR: UNKOWN ERROR. "

def queryServiceStatusError : DWORD → String :=
  errorLine
    [(errorAccessDenied,
        " Query Service Status (SC_Manager) ERROR: The handle does not have the " ++
        "SERVICE_QUERY_STATUS access right."),
      (errorInvalidHandle,
        " Query to Service Status (SC_Manager) ERROR: The handle is invalid.")]
    " Query to Service Status (SC_Manager) ERROR: UNKOWN ERROR "

/-- The errors of `CreateService` have their common beginning in front of each text. -/
def createServiceError (dwError : DWORD) : String :=
  " Create Service Object and add to SC_manager database (SC_Manager) ERROR: " ++
    errorLine
      [(errorAccessDenied, "Handle haven't  ACCESS RIGHTS."),
        (errorCircularDependency, "A circular service dependency was specified."),
        (errorDuplicateServiceName,
          "Service Name already exists in the service control manager database."),
        (errorInvalidHandle,
          "Handler to the specific control manager database is invalid."),
        (errorInvalidName, "The specific service name is invalid."),
        (errorInvalidParameter, "A parameter that was specified is invalid."),
        (errorInvalidServiceAccount, "The user account name specified in the " ++
          "lpServiceStartName parameter does not exist."),
        (errorServiceExists, "The specified service already exists in this database."),
        (errorServiceMarkedForDelete, "The specified service already exists in this database " ++
          "and has been marked for deletion.")]
      "UNKOWN ERROR " dwError

def startServiceError : DWORD → String :=
  errorLine
    [(errorAccessDenied, " The handle does not have the SERVICE_START access right."),
      (errorInvalidHandle, "The handle is invalid. "),
      (errorPathNotFound, "The service binary file could not be found. "),
      (errorServiceAlreadyRunning, "An instance of the service is already running. "),
      (errorServiceDatabaseLocked, "The database is locked. "),
      (errorServiceDependencyDeleted, "The service depends on a service that does not exist or " ++
        "has been marked for deletion. "),
      (errorServiceDependencyFail,
        "The service depends on another service that has failed to start. "),
      (errorServiceDisabled, "The service has been disabled. "),
      (errorServiceLogonFailed, "The service did not start due to a logon failure.\n " ++
        "This error occurs if the service is configured to run under  \nan account that does " ++
        "not have the Log on as a service right."),
      (errorServiceMarkedForDelete, "The service has been marked for deletion. "),
      (errorServiceNoThread, "A thread could not be created for the service. "),
      (errorServiceRequestTimeout, "The process for the service was started, but it did not " ++
        "call StartServiceCtrlDispatcher,\nor the thread that called " ++
        "StartServiceCtrlDispatcher may be blocked in a control handler function. ")]
    " Connection to Service Manager (SC_Manager) ERROR: UNKOWN ERROR "

end WinProcessThread.ServiceControl

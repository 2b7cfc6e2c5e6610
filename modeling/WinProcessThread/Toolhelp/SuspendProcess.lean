import WinProcessThread.Resource.Rounds
import WinProcessThread.Service.Status

/-!
# Suspending and resuming processes

`suspend_process` looks up both functions of the native library, and calls the one that it needs
without regard to whether it was found.  The library is loaded in every call and never freed.

The handles of a call are named by the number of the call.  A handle that could not be opened is
`NULL`, and so never obtained; to close it counts as a misuse here.
-/

namespace WinProcessThread.Toolhelp

open Resource
open Service (DWORD)

inductive SuspendHandle
  | processHandle (call : ℕ)
  | ntdll (call : ℕ)
deriving DecidableEq, Repr

/-- The call of `suspend_process` that a handle belongs to. -/
def SuspendHandle.call : SuspendHandle → ℕ
  | .processHandle call => call
  | .ntdll call => call

def SuspendHandle.obtainedIn (handle : SuspendHandle) : Option ℕ := some handle.call

inductive SuspendCall
  | openProcess (processHandle : SuspendHandle) (processId : DWORD) (lastError : Option DWORD)
  | loadLibrary (ntdll : SuspendHandle) (loaded : Bool)
  | getProcAddress (ntdll : SuspendHandle) (name : String) (found : Bool)
  | ntSuspendProcess (processHandle : SuspendHandle)
  | ntResumeProcess (processHandle : SuspendHandle)
  | closeHandle (processHandle : SuspendHandle)
deriving DecidableEq, Repr

def SuspendCall.accesses : SuspendCall → List (Access SuspendHandle)
  | .openProcess processHandle _ none => [.obtain processHandle]
  | .openProcess _ _ (some _) => []
  | .loadLibrary ntdll loaded => if loaded then [.obtain ntdll] else []
  | .getProcAddress ntdll _ _ => [.use ntdll]
  | .ntSuspendProcess processHandle => [.use processHandle]
  | .ntResumeProcess processHandle => [.use processHandle]
  | .closeHandle processHandle => [.release processHandle]

/-- The arguments of a call of `suspend_process`, and what the calls in it return. -/
structure SuspendRequest where
  processId : DWORD
  isEnable : Bool
  openProcess : Option DWORD
  loadLibrary : Bool
  ntSuspendProcess : Bool
  ntResumeProcess : Bool
deriving DecidableEq, Repr

def ntSuspendProcessName : String := "NtSuspendProcess"
def ntResumeProcessName : String := "NtResumeProcess"

def noAddressLine (name : String) : String :=
  "Unable to get address of " ++ name ++ "\n"

/-- The function that is called has been found.  Otherwise a null pointer is called, and the process
ends. -/
def SuspendRequest.returns (request : SuspendRequest) : Bool :=
  if request.isEnable then request.ntSuspendProcess else request.ntResumeProcess

/-- `suspend_process`: the calls it makes and the lines it prints. -/
def suspendProcess (call : ℕ) (request : SuspendRequest) : List SuspendCall × List String :=
  let processHandle := SuspendHandle.processHandle call
  let ntdll := SuspendHandle.ntdll call
  let lookups :=
    [.openProcess processHandle request.processId request.openProcess,
      .loadLibrary ntdll request.loadLibrary,
      .getProcAddress ntdll ntSuspendProcessName request.ntSuspendProcess,
      .getProcAddress ntdll ntResumeProcessName request.ntResumeProcess]
  let lines :=
    (if request.loadLibrary then [] else ["Unable to load ntdll\n"]) ++
      (if request.ntSuspendProcess then [] else [noAddressLine ntSuspendProcessName]) ++
        if request.ntResumeProcess then [] else [noAddressLine ntResumeProcessName]
  let native :=
    if request.isEnable then SuspendCall.ntSuspendProcess processHandle
    else SuspendCall.ntResumeProcess processHandle
  (lookups ++ if request.returns then [native, .closeHandle processHandle] else [], lines)

/-- What one call does with its handles. -/
def suspendTrace (call : ℕ) (request : SuspendRequest) : List (Access SuspendHandle) :=
  (suspendProcess call request).1.flatMap SuspendCall.accesses

/-- Calls of `suspend_process` one after the other, up to the first that ends the process. -/
def suspendRun (requests : List SuspendRequest) : List (Access SuspendHandle) :=
  rounds suspendTrace 0 (takeThrough SuspendRequest.returns requests)

variable {request : SuspendRequest} {requests : List SuspendRequest} {handle : SuspendHandle}
variable {call : ℕ}

/-- What becomes of the handles of a call. -/
def SuspendRequest.state (request : SuspendRequest) : SuspendHandle → Ownership
  | .processHandle _ =>
    match request.openProcess, request.returns with
    | none, true => .released
    | none, false => .held
    | some _, true => .misused
    | some _, false => .unknown
  | .ntdll _ => if request.loadLibrary then .held else .unknown

theorem suspendTrace_eq (call : ℕ) (request : SuspendRequest) :
    suspendTrace call request =
      SuspendCall.accesses
          (.openProcess (.processHandle call) request.processId request.openProcess) ++
        SuspendCall.accesses (.loadLibrary (.ntdll call) request.loadLibrary) ++
          [.use (.ntdll call), .use (.ntdll call)] ++
            if request.returns then
              [.use (.processHandle call), .release (.processHandle call)]
            else
              [] := by
  cases henable : request.isEnable <;> cases hreturns : request.returns <;>
    simp [suspendTrace, suspendProcess, SuspendCall.accesses, henable, hreturns]

theorem keepsToRounds_suspendTrace :
    KeepsToRounds SuspendHandle.obtainedIn suspendTrace := by
  intro call request
  rw [suspendTrace_eq]
  cases request.openProcess <;> cases request.loadLibrary <;> cases request.returns <;>
    simp [SuspendCall.accesses, Access.subject, SuspendHandle.obtainedIn, SuspendHandle.call]

theorem ownership_suspendTrace (hcall : handle.call = call) (request : SuspendRequest) :
    ownership (suspendTrace call request) handle = request.state handle := by
  subst hcall
  rw [suspendTrace_eq]
  cases handle <;> cases hopened : request.openProcess <;> cases hloaded : request.loadLibrary <;>
    cases hreturns : request.returns <;>
      simp [SuspendCall.accesses, SuspendRequest.state, SuspendHandle.call, ownership,
        Ownership.after, hopened, hloaded, hreturns]

/-- **Suspending.**  In any sequence of calls a handle comes to nothing when its call is not
reached, because an earlier one has called a null pointer.  Otherwise a process handle that was
opened is closed unless its own call does so, one that was not opened is closed all the same, and a
library that was loaded stays loaded. -/
theorem suspendRun_state (requests : List SuspendRequest) (handle : SuspendHandle) :
    ownership (suspendRun requests) handle =
      if ∀ request ∈ requests.take handle.call, request.returns = true then
        (requests[handle.call]?).elim .unknown fun request ↦ request.state handle
      else
        .unknown := by
  have howner : handle.obtainedIn = some (0 + handle.call) := by
    rw [SuspendHandle.obtainedIn, Nat.zero_add]
  have hrounds := keepsToRounds_suspendTrace.ownership_rounds howner
    (takeThrough SuspendRequest.returns requests)
  rw [suspendRun, hrounds, getElem?_takeThrough]
  split_ifs with hearlier
  · congr 1
    funext request
    exact ownership_suspendTrace (Nat.zero_add _).symm request
  · rfl

end WinProcessThread.Toolhelp

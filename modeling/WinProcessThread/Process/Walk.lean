import WinProcessThread.FileHash.Crypto
import WinProcessThread.Process.CommandLine
import WinProcessThread.Process.Record
import WinProcessThread.Toolhelp.EnumProcesses

/-!
# The walk over all processes

`Processid_CommandLine_PEB_PBI` opens every process of a snapshot and closes none.  Of the tokens
that are opened for a process, `IsProcessUAC` closes its own, and `EnableWindowsPrivilege` closes
its own only when a call fails.  Without a snapshot that can be read the loop runs once all the
same.

A call on `NULL` or `INVALID_HANDLE_VALUE` fails and touches no handle, and to close one of them is
taken to do nothing.  The functions of `main.h` that read the process are taken to return, to open
nothing and to print some text.
-/

namespace WinProcessThread.Process

open FileHash (onHandle errorInvalidHandle)
open Resource
open Service (DWORD)
open Toolhelp (Snapshot ProcessEntry32 errorNoMoreFiles)

/-- Handles by the variable and the round in which they are obtained. -/
inductive WalkHandle
  | hProcessSnap
  | hprocess (round : ℕ)
  /-- `hToken` of `IsProcessUAC`. -/
  | queryToken (round : ℕ)
  /-- `hToken` of `EnableWindowsPrivilege`. -/
  | adjustToken (round : ℕ)
deriving DecidableEq, Repr

/-- The value of a handle variable; `none` stands for `NULL` and `INVALID_HANDLE_VALUE`. -/
abbrev HANDLE := Option WalkHandle

inductive WalkCall
  | createToolhelp32Snapshot (lastError : Option DWORD)
  | process32First (hSnapshot : HANDLE) (lastError : Option DWORD)
  | process32Next (hSnapshot : HANDLE) (lastError : Option DWORD)
  | openProcess (dwDesiredAccess : DWORD) (PID : Int32) (opened : WalkHandle)
      (lastError : Option DWORD)
  | openProcessToken (hprocess : HANDLE) (desiredAccess : DWORD) (opened : WalkHandle)
      (lastError : Option DWORD)
  | getTokenInformation (hToken : HANDLE) (lastError : Option DWORD)
  | lookupPrivilegeValue (lastError : Option DWORD)
  | adjustTokenPrivileges (hToken : HANDLE) (Luid : UInt64) (Attributes : DWORD)
      (lastError : Option DWORD)
  /-- One of the functions that read the memory of the process. -/
  | readProcess (hprocess : HANDLE)
  | closeHandle (handle : HANDLE)
deriving DecidableEq, Repr

def uses (handle : HANDLE) : List (Access WalkHandle) :=
  handle.toList.map .use

/-- What a call that opens something makes of the handle. -/
def obtains (opened : WalkHandle) (lastError : Option DWORD) : List (Access WalkHandle) :=
  if lastError = none then [.obtain opened] else []

def WalkCall.accesses : WalkCall → List (Access WalkHandle)
  | .createToolhelp32Snapshot lastError => obtains .hProcessSnap lastError
  | .openProcess _ _ opened lastError => obtains opened lastError
  | .openProcessToken hprocess _ opened lastError => uses hprocess ++ obtains opened lastError
  | .lookupPrivilegeValue _ => []
  | .process32First handle _ | .process32Next handle _ | .getTokenInformation handle _
  | .adjustTokenPrivileges handle _ _ _ | .readProcess handle => uses handle
  | .closeHandle handle => handle.toList.map .release

def walkAccesses (calls : List WalkCall) : List (Access WalkHandle) :=
  calls.flatMap WalkCall.accesses

/-- The results of the calls of a round. -/
structure RoundOutcome where
  openProcess : Option DWORD
  openQueryToken : Option DWORD
  /-- The answer is `TokenIsElevated`. -/
  getTokenInformation : Except DWORD DWORD
  openAdjustToken : Option DWORD
  /-- The answer is the LUID. -/
  lookupPrivilegeValue : Except DWORD UInt64
  adjustTokenPrivileges : Option DWORD
  /-- `LoadLibrary` of `readPibmemory64`. -/
  loadLibrary : Option DWORD
  /-- What `NtQueryInformationProcess` returns to `readPibmemory64`. -/
  ret : Int32
  /-- What the functions of `main.h` print. -/
  helperText : List Char
  /-- `ReadProcessMemory` of `readRTLcommandLine`. -/
  readMemory : ReadMemory
  /-- How often the functions that read the process use it. -/
  reads : ℕ
  /-- What `WCHAR_to_String` makes of the bytes that `readRTLcommandLine` returns. -/
  commandLine : List Char

/-- A round, by what `GetProcAddress` gives `readPibmemory64`. -/
inductive RoundCourse
  | found (outcome : RoundOutcome)
  /-- `NULL`, which is called all the same. -/
  | missing (outcome : RoundOutcome)

def RoundCourse.outcome : RoundCourse → RoundOutcome
  | .found outcome | .missing outcome => outcome

/-- What the function returns, if there is one. -/
def RoundCourse.ret : RoundCourse → Option Int32
  | .found outcome => some outcome.ret
  | .missing _ => none

/-- What a part of the walk does and prints, and whether it comes to its end. -/
structure WalkRun where
  calls : List WalkCall
  text : List Char
  returns : Bool

/-- A part that comes to its end is followed by the next one. -/
def WalkRun.followedBy (run next : WalkRun) : WalkRun :=
  if run.returns then ⟨run.calls ++ next.calls, run.text ++ next.text, next.returns⟩ else run

/-- A call that prints nothing. -/
def WalkRun.call (call : WalkCall) : WalkRun := ⟨[call], [], true⟩

/-- The error of a call with an answer. -/
def errorOf {Value : Type} : Except DWORD Value → Option DWORD
  | .error lastError => some lastError
  | .ok _ => none

def processAllAccess : DWORD := 0x1FFFFF
def tokenAllAccess : DWORD := 0xF01FF
def tokenQuery : DWORD := 8
def sePrivilegeEnabled : DWORD := 2
def sePrivilegeRemoved : DWORD := 4

variable (round : ℕ) (outcome : RoundOutcome) (hprocess : HANDLE)

/-- `EnableWindowsPrivilege`. -/
def enableWindowsPrivilege (State : Bool) : List WalkCall × Bool :=
  let opened := onHandle hprocess.isSome outcome.openAdjustToken
  let openToken := .openProcessToken hprocess tokenAllAccess (.adjustToken round) opened
  match opened with
  | some _ => ([openToken], false)
  | none =>
    let hToken : HANDLE := some (.adjustToken round)
    let lookedUp := errorOf outcome.lookupPrivilegeValue
    let Luid := outcome.lookupPrivilegeValue.toOption.getD 0
    let Attributes := if State then sePrivilegeEnabled else sePrivilegeRemoved
    -- When the privilege is not found the token is closed, and adjusted all the same.
    let adjusted := onHandle (lookedUp = none) outcome.adjustTokenPrivileges
    ([openToken, .lookupPrivilegeValue lookedUp] ++
      (if lookedUp = none then [] else [.closeHandle hToken]) ++
      [.adjustTokenPrivileges hToken Luid Attributes adjusted] ++
      (if adjusted = none then [] else [.closeHandle hToken]), true)

/-- A failure that `IsProcessUAC` prints with its last error. -/
def failureText (text : String) (lastError : DWORD) : List Char :=
  text.toList ++ (toString lastError.toNat).toList ++ "\n".toList

/-- `IsProcessUAC`, with the text that is printed and the value that is returned. -/
def isProcessUAC : List WalkCall × List Char × DWORD :=
  let opened := onHandle hprocess.isSome outcome.openQueryToken
  let openToken := .openProcessToken hprocess tokenQuery (.queryToken round) opened
  match opened with
  | some lastError => ([openToken], failureText "\n Failed to get Process Token : " lastError, 0)
  | none =>
    let hToken : HANDLE := some (.queryToken round)
    let calls := [openToken, .getTokenInformation hToken (errorOf outcome.getTokenInformation),
      .closeHandle hToken]
    match outcome.getTokenInformation with
    | .error lastError =>
      (calls, failureText "\n Failed to get Token Information : " lastError, 0)
    | .ok TokenIsElevated => (calls, [], TokenIsElevated)

/-- `readPibmemory64`, with what it prints and whether it returns: the call of a null pointer ends
the process. -/
def readPibmemory64 (loadLibrary : Option DWORD) (ret : Option Int32) : List Char × Bool :=
  let ntdllText := if loadLibrary = none then [] else "Unable to load ntdll\n".toList
  match ret with
  | none =>
    (ntdllText ++ "Unable to get address of NtQueryInformationProcess\n".toList, false)
  | some ret =>
    if ret = 0 then
      (ntdllText, true)
    else
      (ntdllText ++ "Error at : NtQueryInformationProcess ret : ".toList ++
        (toString ret.toInt).toList, true)

/-- The function that reads the `PROCESS_BASIC_INFORMATION`.  In the 32-bit build it is one of
`main.h`. -/
def readPib (build : Build) (course : RoundCourse) : List Char × Bool :=
  match build with
  | .win64 => readPibmemory64 course.outcome.loadLibrary course.ret
  | .win32 => ([], true)

/-- The body of the loop. -/
def walkRound (build : Build) (course : RoundCourse) (pe32 : ProcessEntry32) : WalkRun :=
  let outcome := course.outcome
  let PID := pe32.th32ProcessID.toInt32
  let hprocess : HANDLE := if outcome.openProcess = none then some (.hprocess round) else none
  let (uacCalls, uacText, fIsElevated) := isProcessUAC round outcome hprocess
  let (debugCalls, _) := enableWindowsPrivilege round outcome hprocess true
  let (pibText, pibReturns) := readPib build course
  let begins : WalkRun :=
    ⟨.openProcess processAllAccess PID (.hprocess round) outcome.openProcess ::
        (uacCalls ++ debugCalls), uacText ++ pibText, pibReturns⟩
  begins.followedBy
    ⟨List.replicate outcome.reads (.readProcess hprocess),
      outcome.helperText ++ outcome.readMemory.printed.flatMap String.toList ++
        spnamex build (fIsElevated = 1) PID pe32.szExeFile.toList outcome.commandLine, true⟩

/-- The loop.  Its condition calls `Process32Next`. -/
def walkLoop (build : Build) (courses : ℕ → RoundCourse) (hProcessSnap : HANDLE) (round : ℕ)
    (pe32 : ProcessEntry32) : Snapshot ProcessEntry32 → WalkRun
  | .delivers next rest =>
    (walkRound round build (courses round) pe32).followedBy
      ((WalkRun.call (.process32Next hProcessSnap none)).followedBy
        (walkLoop build courses hProcessSnap (round + 1) next rest))
  | .ends =>
    (walkRound round build (courses round) pe32).followedBy
      (.call (.process32Next hProcessSnap (some errorNoMoreFiles)))
  | .fails lastError _ =>
    (walkRound round build (courses round) pe32).followedBy
      (.call (.process32Next hProcessSnap (some lastError)))

/-- `PROCESSENTRY32 pe32={0}`. -/
def zeroEntry : ProcessEntry32 := ⟨0, 0, 0, ""⟩

/-- A handle that is invalid or closed delivers nothing. -/
def noSnapshot : Snapshot ProcessEntry32 := .fails errorInvalidHandle []

/-- `Processid_CommandLine_PEB_PBI`, from the call of `Process32First` on. -/
def walkSnapshot (build : Build) (courses : ℕ → RoundCourse) (hProcessSnap : HANDLE) :
    Snapshot ProcessEntry32 → WalkRun
  | .delivers pe32 rest =>
    (WalkRun.call (.process32First hProcessSnap none)).followedBy
      ((walkLoop build courses hProcessSnap 0 pe32 rest).followedBy
        (.call (.closeHandle hProcessSnap)))
  | .ends => afterFailure errorNoMoreFiles
  | .fails lastError _ => afterFailure lastError
where
  /-- The snapshot is closed and the loop is entered all the same. -/
  afterFailure (lastError : DWORD) : WalkRun :=
    let fails : WalkRun :=
      ⟨[.process32First hProcessSnap (some lastError), .closeHandle hProcessSnap],
        "Process32First".toList, true⟩
    fails.followedBy
      ((walkLoop build courses hProcessSnap 0 zeroEntry noSnapshot).followedBy
        (.call (.closeHandle hProcessSnap)))

/-- `Processid_CommandLine_PEB_PBI`. -/
def processidCommandLinePEBPBI (build : Build) (courses : ℕ → RoundCourse)
    (created : Except DWORD (Snapshot ProcessEntry32)) : WalkRun :=
  match created with
  | .error lastError =>
    let fails : WalkRun :=
      ⟨[.createToolhelp32Snapshot (some lastError)],
        "CreateToolhelp32Snapshot (of processes)".toList, true⟩
    fails.followedBy (walkSnapshot build courses none noSnapshot)
  | .ok snapshot =>
    (WalkRun.call (.createToolhelp32Snapshot none)).followedBy
      (walkSnapshot build courses (some .hProcessSnap) snapshot)

@[simp]
theorem WalkRun.call_followedBy (call : WalkCall) (next : WalkRun) :
    (WalkRun.call call).followedBy next = ⟨call :: next.calls, next.text, next.returns⟩ := rfl

theorem WalkRun.followedBy_of_returns {run : WalkRun} (hreturns : run.returns = true)
    (next : WalkRun) :
    run.followedBy next = ⟨run.calls ++ next.calls, run.text ++ next.text, next.returns⟩ :=
  if_pos hreturns

end WinProcessThread.Process

import WinProcessThread.Enumeration.Cursor
import WinProcessThread.Resource.Handles
import WinProcessThread.Service.Status

/-!
# The list of all processes

`ToolHelp_EnumProcesses` reports an error of the first query.  Behind the first entry every query
that returns `FALSE` ends the list, whatever the last error is, and `NO_ERROR` is returned.

`wcout` is taken to write every image name.  A character that its locale cannot convert would fail
the stream, and nothing more would be shown.
-/

namespace WinProcessThread.Toolhelp

open Enumeration (Cursor)
open Resource
open Service (DWORD noError)

/-- A snapshot as `Process32First` and `Process32Next`, or those for threads, deliver it. -/
abbrev Snapshot (Entry : Type) := Cursor Entry DWORD

/-- `ERROR_NO_MORE_FILES`. -/
def errorNoMoreFiles : DWORD := 18

/-- The fields of `PROCESSENTRY32` that are read. -/
structure ProcessEntry32 where
  th32ProcessID : DWORD
  cntThreads : DWORD
  th32ParentProcessID : DWORD
  szExeFile : String
deriving DecidableEq, Repr

inductive SnapshotHandle
  | hSnapshot
deriving DecidableEq, Repr

/-- The list behind the call, with the returned code and what was done with the snapshot. -/
structure Enumerated where
  dwRet : DWORD
  listProcessInfo : List ProcessEntry32
  accesses : List (Access SnapshotHandle)
deriving DecidableEq, Repr

/-- `std::list::clear`. -/
def clear (_ : List ProcessEntry32) : List ProcessEntry32 := []

/-- The loop.  Its condition calls `Process32Next`. -/
def pushLoop (listProcessInfo : List ProcessEntry32) (processEntry : ProcessEntry32) :
    Snapshot ProcessEntry32 → List ProcessEntry32 × List (Access SnapshotHandle)
  | .delivers next rest =>
    let after := pushLoop (listProcessInfo ++ [processEntry]) next rest
    (after.1, .use .hSnapshot :: after.2)
  | .ends => (listProcessInfo ++ [processEntry], [.use .hSnapshot])
  | .fails _ _ => (listProcessInfo ++ [processEntry], [.use .hSnapshot])

/-- `ToolHelp_EnumProcesses`, with the last error when no snapshot is created. -/
def toolHelpEnumProcesses (created : Except DWORD (Snapshot ProcessEntry32))
    (listProcessInfo : List ProcessEntry32) : Enumerated :=
  match created with
  | .error lastError => ⟨lastError, clear listProcessInfo, []⟩
  | .ok (.delivers processEntry rest) =>
    let stored := pushLoop (clear listProcessInfo) processEntry rest
    ⟨noError, stored.1,
      [.obtain .hSnapshot, .use .hSnapshot] ++ stored.2 ++ [.release .hSnapshot]⟩
  | .ok .ends =>
    ⟨errorNoMoreFiles, clear listProcessInfo,
      [.obtain .hSnapshot, .use .hSnapshot, .release .hSnapshot]⟩
  | .ok (.fails lastError _) =>
    ⟨lastError, clear listProcessInfo,
      [.obtain .hSnapshot, .use .hSnapshot, .release .hSnapshot]⟩

/-- What `main_function` shows of a process. -/
def processLines (processEntry : ProcessEntry32) : List String :=
  ["Process ID: " ++ toString processEntry.th32ProcessID.toNat ++ "\n",
    "Exe file name: " ++ processEntry.szExeFile ++ "\n",
    "Parent process ID: " ++ toString processEntry.th32ParentProcessID.toNat ++ "\n",
    "Threads count: " ++ toString processEntry.cntThreads.toNat ++ "\n"]

def errorLine (dwRet : DWORD) : String :=
  "ToolHelp_EnumProcesses falied. Error: " ++ toString dwRet.toNat ++ "\n"

/-- One round of `main_function`. -/
def showProcesses (created : Except DWORD (Snapshot ProcessEntry32)) : List String :=
  let enumerated := toolHelpEnumProcesses created []
  if enumerated.dwRet = noError then
    enumerated.listProcessInfo.flatMap processLines
  else
    [errorLine enumerated.dwRet]

/-- `main_function`, round by round until the program is told to end. -/
def mainFunction (rounds : List (Except DWORD (Snapshot ProcessEntry32))) : List String :=
  rounds.flatMap showProcesses

/-- `NO_ERROR` stands for the whole snapshot, and the snapshot is closed. -/
structure CompleteOrError (created : Except DWORD (Snapshot ProcessEntry32))
    (enumerated : Enumerated) : Prop where
  complete : enumerated.dwRet = noError →
    ∃ snapshot, created = .ok snapshot ∧ enumerated.listProcessInfo = snapshot.entries
  closed : Disciplined enumerated.accesses

/-- No entry is missed, or the first call that can fail does so and leaves a last error. -/
def LossReported : Except DWORD (Snapshot ProcessEntry32) → Prop
  | .error lastError => lastError ≠ noError
  | .ok snapshot =>
    snapshot.missed = [] ∨ ∃ lastError missed, snapshot = .fails lastError missed ∧
      lastError ≠ noError

variable {created : Except DWORD (Snapshot ProcessEntry32)} {snapshot : Snapshot ProcessEntry32}
variable {listProcessInfo : List ProcessEntry32} {processEntry : ProcessEntry32}

/-- The loop stores what the snapshot delivers. -/
theorem pushLoop_fst (listProcessInfo : List ProcessEntry32) (processEntry : ProcessEntry32)
    (snapshot : Snapshot ProcessEntry32) :
    (pushLoop listProcessInfo processEntry snapshot).1 =
      listProcessInfo ++ processEntry :: snapshot.delivered := by
  induction snapshot generalizing listProcessInfo processEntry with
  | ends => rfl
  | fails lastError missed => rfl
  | delivers next rest ih =>
    calc (pushLoop listProcessInfo processEntry (.delivers next rest)).1
        = (pushLoop (listProcessInfo ++ [processEntry]) next rest).1 := rfl
      _ = listProcessInfo ++ [processEntry] ++ next :: rest.delivered := ih _ _
      _ = listProcessInfo ++ processEntry :: next :: rest.delivered := List.append_assoc _ _ _

/-- The loop only queries the snapshot. -/
theorem pushLoop_uses :
    ∀ access ∈ (pushLoop listProcessInfo processEntry snapshot).2,
      ∃ other, access = .use other := by
  induction snapshot generalizing listProcessInfo processEntry with
  | ends => exact List.forall_mem_singleton.mpr ⟨.hSnapshot, rfl⟩
  | fails lastError missed => exact List.forall_mem_singleton.mpr ⟨.hSnapshot, rfl⟩
  | delivers next rest ih => exact List.forall_mem_cons.mpr ⟨⟨.hSnapshot, rfl⟩, ih⟩

/-- The list holds what was delivered, whatever it held before. -/
theorem listProcessInfo_eq (snapshot : Snapshot ProcessEntry32)
    (listProcessInfo : List ProcessEntry32) :
    (toolHelpEnumProcesses (.ok snapshot) listProcessInfo).listProcessInfo =
      snapshot.delivered := by
  cases snapshot with
  | ends => rfl
  | fails lastError missed => rfl
  | delivers processEntry rest => exact pushLoop_fst [] processEntry rest

/-- Nothing but entries of the snapshot is listed, in their order. -/
theorem listProcessInfo_prefix (snapshot : Snapshot ProcessEntry32)
    (listProcessInfo : List ProcessEntry32) :
    (toolHelpEnumProcesses (.ok snapshot) listProcessInfo).listProcessInfo <+:
      snapshot.entries := by
  rw [listProcessInfo_eq]
  exact snapshot.delivered_prefix

/-- The snapshot is closed on every path that opened it. -/
theorem disciplined_toolHelpEnumProcesses (created : Except DWORD (Snapshot ProcessEntry32))
    (listProcessInfo : List ProcessEntry32) :
    Disciplined (toolHelpEnumProcesses created listProcessInfo).accesses := by
  have hquery : ∀ access ∈ [Access.use SnapshotHandle.hSnapshot], ∃ other, access = .use other :=
    List.forall_mem_singleton.mpr ⟨.hSnapshot, rfl⟩
  cases created with
  | error lastError => exact disciplined_iff.mpr fun handle ↦ .inl rfl
  | ok snapshot =>
    cases snapshot with
    | ends => exact disciplined_bracket hquery
    | fails lastError missed => exact disciplined_bracket hquery
    | delivers processEntry rest =>
      exact disciplined_bracket (List.forall_mem_cons.mpr ⟨⟨.hSnapshot, rfl⟩, pushLoop_uses⟩)

/-- The list is that of the whole snapshot when no entry is missed. -/
theorem listProcessInfo_eq_entries_iff :
    (toolHelpEnumProcesses (.ok snapshot) listProcessInfo).listProcessInfo = snapshot.entries ↔
      snapshot.missed = [] := by
  rw [listProcessInfo_eq, Cursor.delivered_eq_entries_iff]

theorem LossReported.complete (hreported : LossReported created)
    (hnoError : (toolHelpEnumProcesses created listProcessInfo).dwRet = noError) :
    ∃ snapshot, created = .ok snapshot ∧
      (toolHelpEnumProcesses created listProcessInfo).listProcessInfo = snapshot.entries := by
  cases created with
  | error lastError => exact absurd hnoError hreported
  | ok snapshot =>
    refine ⟨snapshot, rfl, listProcessInfo_eq_entries_iff.mpr ?_⟩
    rcases hreported with hmissed | ⟨lastError, missed, rfl, herror⟩
    · exact hmissed
    · exact absurd hnoError herror

/-- A loss that is not reported is returned as `NO_ERROR`. -/
theorem lossReported_of_complete
    (hcomplete : (toolHelpEnumProcesses created listProcessInfo).dwRet = noError →
      ∃ snapshot, created = .ok snapshot ∧
        (toolHelpEnumProcesses created listProcessInfo).listProcessInfo = snapshot.entries) :
    LossReported created := by
  cases created with
  | error lastError =>
    intro hnoError
    obtain ⟨snapshot, hcreated, -⟩ := hcomplete hnoError
    cases hcreated
  | ok snapshot =>
    by_cases hmissed : snapshot.missed = []
    · exact .inl hmissed
    · have herror : (toolHelpEnumProcesses (.ok snapshot) listProcessInfo).dwRet ≠ noError := by
        intro hnoError
        obtain ⟨other, hcreated, hlist⟩ := hcomplete hnoError
        cases hcreated
        exact hmissed (listProcessInfo_eq_entries_iff.mp hlist)
      cases snapshot with
      | ends => exact absurd rfl hmissed
      | fails lastError missed => exact .inr ⟨lastError, missed, rfl, herror⟩
      | delivers processEntry rest => exact absurd rfl herror

/-- `NO_ERROR` stands for the whole snapshot exactly when no entry is missed behind one that was
delivered, and a failure before them leaves an error. -/
theorem completeOrError_iff (created : Except DWORD (Snapshot ProcessEntry32))
    (listProcessInfo : List ProcessEntry32) :
    CompleteOrError created (toolHelpEnumProcesses created listProcessInfo) ↔
      LossReported created := by
  constructor
  · intro hcomplete
    exact lossReported_of_complete hcomplete.complete
  · intro hreported
    exact ⟨hreported.complete, disciplined_toolHelpEnumProcesses created listProcessInfo⟩

/-- Two processes, of which the second is not delivered for want of memory. -/
def interrupted : Snapshot ProcessEntry32 :=
  .delivers ⟨4, 200, 0, "System"⟩ (.fails 8 [⟨7556, 3, 4, "notepad.exe"⟩])

theorem interrupted_not_completeOrError :
    ¬ CompleteOrError (.ok interrupted) (toolHelpEnumProcesses (.ok interrupted) []) := by
  intro hcomplete
  obtain ⟨snapshot, hcreated, hlist⟩ := hcomplete.complete rfl
  cases hcreated
  revert hlist
  decide

/-- All processes of a snapshot are shown, or an error. -/
def ShowsAll (created : Except DWORD (Snapshot ProcessEntry32)) (shown : List String) : Prop :=
  (∃ snapshot, created = .ok snapshot ∧ shown = snapshot.entries.flatMap processLines) ∨
    ∃ dwRet, dwRet ≠ noError ∧ shown = [errorLine dwRet]

theorem LossReported.showsAll (hreported : LossReported created) :
    ShowsAll created (showProcesses created) := by
  by_cases hnoError : (toolHelpEnumProcesses created []).dwRet = noError
  · obtain ⟨snapshot, hcreated, hlist⟩ := hreported.complete hnoError
    left
    exact ⟨snapshot, hcreated, by rw [showProcesses, if_pos hnoError, hlist]⟩
  · right
    exact ⟨_, hnoError, if_neg hnoError⟩

/-- What was delivered of a snapshot is shown as the whole of it. -/
theorem showProcesses_delivers (processEntry : ProcessEntry32) (rest : Snapshot ProcessEntry32) :
    showProcesses (.ok (.delivers processEntry rest)) =
      (processEntry :: rest.delivered).flatMap processLines := by
  have hnoError :
      (toolHelpEnumProcesses (.ok (.delivers processEntry rest)) []).dwRet = noError := rfl
  rw [showProcesses, if_pos hnoError, listProcessInfo_eq]
  rfl

/-- The rounds show whole snapshots and errors when none of them loses entries unnoticed. -/
theorem mainFunction_showsAll (rounds : List (Except DWORD (Snapshot ProcessEntry32)))
    (hreported : ∀ created ∈ rounds, LossReported created) :
    ∃ shown, List.Forall₂ ShowsAll rounds shown ∧ mainFunction rounds = shown.flatten := by
  refine ⟨rounds.map showProcesses, ?_, List.flatMap_def⟩
  rw [List.forall₂_map_right_iff, List.forall₂_same]
  intro created hcreated
  exact (hreported created hcreated).showsAll

end WinProcessThread.Toolhelp

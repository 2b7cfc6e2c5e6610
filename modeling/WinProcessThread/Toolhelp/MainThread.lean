import WinProcessThread.Toolhelp.EnumProcesses

/-!
# The main thread of a process

The loop of `GetMainThreadId` ends when the last error is `ERROR_NO_MORE_FILES`.  A query that
succeeds does not change the last error, so one that is left over from an earlier enumeration keeps
the loop from looking at any entry.
-/

namespace WinProcessThread.Toolhelp

open Enumeration (Cursor)
open Service (DWORD)

/-- The fields of `THREADENTRY32` that are read. -/
structure ThreadEntry32 where
  th32ThreadID : DWORD
  th32OwnerProcessID : DWORD
  th32ThreadID_ne_zero : th32ThreadID ≠ 0
deriving DecidableEq, Repr

/-- What the loop leaves behind. -/
structure Search where
  result : DWORD
  lastError : DWORD
  printed : List String
deriving DecidableEq, Repr

/-- The loop from the next query on, `Thread32First` or `Thread32Next`. -/
def searchLoop (cPID : DWORD) (search : Search) : Snapshot ThreadEntry32 → Search
  | .ends => { search with lastError := errorNoMoreFiles }
  | .fails lastError _ => { search with lastError := lastError }
  | .delivers TE32 rest =>
    if search.result = 0 ∧ search.lastError ≠ errorNoMoreFiles then
      if TE32.th32OwnerProcessID = cPID then
        searchLoop cPID
          { search with
            result := TE32.th32ThreadID
            printed := search.printed ++ ["Thread ID: " ++ toString TE32.th32ThreadID.toNat ++ "\n"]
          } rest
      else
        searchLoop cPID search rest
    else
      search

/-- `READ_CONTROL | THREAD_QUERY_INFORMATION`. -/
def desiredAccess : DWORD := 0x20000 ||| 0x40

/-- The arguments of `OpenThread`. -/
structure OpenThread where
  dwDesiredAccess : DWORD
  bInheritHandle : Bool
  dwThreadId : DWORD
deriving DecidableEq, Repr

/-- The call of `OpenThread`, with the last error behind it and what has been printed. -/
structure Opened where
  openThread : OpenThread
  lastError : DWORD
  printed : List String
deriving DecidableEq, Repr

/-- `GetMainThreadId`.  `threads` says with which error `OpenThread` fails on a thread id; the
exception is thrown when there is no snapshot. -/
def getMainThreadId (threads : DWORD → Option DWORD)
    (created : Except DWORD (Snapshot ThreadEntry32)) (cPID lastError : DWORD) :
    Except String Opened :=
  match created with
  | .error _ => .error "Get Thread Id : failed"
  | .ok snapshot =>
    let search := searchLoop cPID ⟨0, lastError, []⟩ snapshot
    .ok
      { openThread := ⟨desiredAccess, false, search.result⟩
        lastError := (threads search.result).getD search.lastError
        printed := search.printed }

/-- The first thread of a process. -/
def firstThread (cPID : DWORD) (entries : List ThreadEntry32) : Option ThreadEntry32 :=
  entries.find? fun TE32 ↦ TE32.th32OwnerProcessID = cPID

/-- The first thread of the process is opened whenever it has one. -/
def OpensFirstThread (threads : DWORD → Option DWORD) (snapshot : Snapshot ThreadEntry32)
    (cPID lastError : DWORD) : Prop :=
  ∀ TE32, firstThread cPID snapshot.entries = some TE32 →
    ∃ opened, getMainThreadId threads (.ok snapshot) cPID lastError = .ok opened ∧
      opened.openThread.dwThreadId = TE32.th32ThreadID

variable {threads : DWORD → Option DWORD} {snapshot : Snapshot ThreadEntry32}
variable {cPID lastError : DWORD} {search : Search}

/-- With a result, or with a last error that stands for the end, the loop looks at nothing more. -/
theorem searchLoop_result_of_end
    (hend : search.result ≠ 0 ∨ search.lastError = errorNoMoreFiles)
    (snapshot : Snapshot ThreadEntry32) :
    (searchLoop cPID search snapshot).result = search.result := by
  cases snapshot with
  | ends => rfl
  | fails lastError missed => rfl
  | delivers TE32 rest =>
    have hstops : ¬ (search.result = 0 ∧ search.lastError ≠ errorNoMoreFiles) := by
      rintro ⟨hresult, hfresh⟩
      exact hend.elim (absurd hresult) hfresh
    rw [searchLoop, if_neg hstops]

/-- With another last error the loop finds the first thread that is delivered. -/
theorem searchLoop_result (hresult : search.result = 0)
    (hfresh : search.lastError ≠ errorNoMoreFiles) (snapshot : Snapshot ThreadEntry32) :
    (searchLoop cPID search snapshot).result =
      ((firstThread cPID snapshot.delivered).map ThreadEntry32.th32ThreadID).getD 0 := by
  induction snapshot with
  | ends => exact hresult
  | fails lastError missed => exact hresult
  | delivers TE32 rest ih =>
    rw [searchLoop, if_pos ⟨hresult, hfresh⟩, firstThread, Cursor.delivered]
    by_cases howner : TE32.th32OwnerProcessID = cPID
    · rw [if_pos howner, searchLoop_result_of_end (.inl TE32.th32ThreadID_ne_zero),
        List.find?_cons_of_pos (by simpa using howner)]
      rfl
    · rw [if_neg howner, ih, List.find?_cons_of_neg (by simpa using howner)]
      rfl

theorem firstThread_eq_none_iff {entries : List ThreadEntry32} :
    firstThread cPID entries = none ↔ ∀ TE32 ∈ entries, TE32.th32OwnerProcessID ≠ cPID := by
  simp [firstThread, List.find?_eq_none]

theorem opensFirstThread_iff_result :
    OpensFirstThread threads snapshot cPID lastError ↔
      ∀ TE32, firstThread cPID snapshot.entries = some TE32 →
        (searchLoop cPID ⟨0, lastError, []⟩ snapshot).result = TE32.th32ThreadID := by
  simp [OpensFirstThread, getMainThreadId]

/-- A search that finds something starts with another last error and is delivered a thread. -/
theorem delivered_of_result_ne_zero
    (hfound : (searchLoop cPID ⟨0, lastError, []⟩ snapshot).result ≠ 0) :
    lastError ≠ errorNoMoreFiles ∧
      ∃ TE32 ∈ snapshot.delivered, TE32.th32OwnerProcessID = cPID := by
  have hfresh : lastError ≠ errorNoMoreFiles := by
    intro hstale
    exact hfound (searchLoop_result_of_end (.inr hstale) snapshot)
  constructor
  · exact hfresh
  · by_contra hnone
    push Not at hnone
    apply hfound
    rw [searchLoop_result rfl hfresh, firstThread_eq_none_iff.mpr hnone]
    rfl

/-- A search that is delivered a thread finds the first one of the whole snapshot. -/
theorem searchLoop_result_of_delivered (hfresh : lastError ≠ errorNoMoreFiles)
    (hdelivered : ∃ TE32 ∈ snapshot.delivered, TE32.th32OwnerProcessID = cPID) :
    (searchLoop cPID ⟨0, lastError, []⟩ snapshot).result =
      ((firstThread cPID snapshot.entries).map ThreadEntry32.th32ThreadID).getD 0 := by
  have hsome : (firstThread cPID snapshot.delivered).isSome := by
    rw [firstThread, List.find?_isSome]
    simpa using hdelivered
  calc (searchLoop cPID ⟨0, lastError, []⟩ snapshot).result
      = ((firstThread cPID snapshot.delivered).map ThreadEntry32.th32ThreadID).getD 0 :=
        searchLoop_result rfl hfresh snapshot
    _ = ((firstThread cPID snapshot.entries).map ThreadEntry32.th32ThreadID).getD 0 := by
        rw [firstThread, firstThread, Cursor.find?_entries hsome]

/-- The first thread of the process is opened exactly when the process has no thread at all, or the
last error is not left over from the end of another enumeration and a thread of the process is
delivered. -/
theorem opensFirstThread_iff (threads : DWORD → Option DWORD) (snapshot : Snapshot ThreadEntry32)
    (cPID lastError : DWORD) :
    OpensFirstThread threads snapshot cPID lastError ↔
      (∀ TE32 ∈ snapshot.entries, TE32.th32OwnerProcessID ≠ cPID) ∨
        lastError ≠ errorNoMoreFiles ∧
          ∃ TE32 ∈ snapshot.delivered, TE32.th32OwnerProcessID = cPID := by
  rw [opensFirstThread_iff_result]
  constructor
  · intro hopens
    cases hfirst : firstThread cPID snapshot.entries with
    | none =>
      left
      exact firstThread_eq_none_iff.mp hfirst
    | some TE32 =>
      right
      apply delivered_of_result_ne_zero
      rw [hopens TE32 hfirst]
      exact TE32.th32ThreadID_ne_zero
  · intro hcondition TE32 hfirst
    rcases hcondition with hnone | ⟨hfresh, hdelivered⟩
    · rw [firstThread_eq_none_iff.mpr hnone] at hfirst
      cases hfirst
    · rw [searchLoop_result_of_delivered hfresh hdelivered, hfirst]
      rfl

theorem mainThread_ne_zero : (1200 : DWORD) ≠ 0 := by decide

/-- The thread 1200 of process 7556. -/
def mainThread : ThreadEntry32 := ⟨1200, 7556, mainThread_ne_zero⟩

theorem staleLastError_not_opensFirstThread :
    ¬ OpensFirstThread (fun _ ↦ none) (.ofList [mainThread]) 7556 errorNoMoreFiles := by
  intro hopens
  obtain ⟨opened, hcall, hthread⟩ := hopens mainThread rfl
  cases hcall
  revert hthread
  decide

/-- A search that comes to the end of the snapshot leaves the last error of the end. -/
theorem searchLoop_lastError_of_last (hresult : search.result = 0)
    (hfresh : search.lastError ≠ errorNoMoreFiles) {before : List ThreadEntry32}
    (hbefore : ∀ other ∈ before, other.th32OwnerProcessID ≠ cPID) (TE32 : ThreadEntry32) :
    (searchLoop cPID search (.ofList (before ++ [TE32]))).lastError = errorNoMoreFiles := by
  induction before with
  | nil =>
    rw [List.nil_append, Cursor.ofList, searchLoop, if_pos ⟨hresult, hfresh⟩]
    split_ifs
    · rfl
    · rfl
  | cons other rest ih =>
    obtain ⟨hother, hrest⟩ := List.forall_mem_cons.mp hbefore
    calc
      (searchLoop cPID search (.ofList (other :: rest ++ [TE32]))).lastError =
          (searchLoop cPID search (.ofList (rest ++ [TE32]))).lastError := by
        rw [List.cons_append, Cursor.ofList, searchLoop, if_pos ⟨hresult, hfresh⟩, if_neg hother]
      _ = errorNoMoreFiles := ih hrest

/-- When the thread that is opened is the last one of the snapshot, the next call opens thread 0
whatever it is called for. -/
theorem getMainThreadId_again {before : List ThreadEntry32} {TE32 : ThreadEntry32}
    (hbefore : ∀ other ∈ before, other.th32OwnerProcessID ≠ cPID)
    (howner : TE32.th32OwnerProcessID = cPID) (hfresh : lastError ≠ errorNoMoreFiles)
    (hthread : threads TE32.th32ThreadID = none) :
    ∃ opened,
      getMainThreadId threads (.ok (.ofList (before ++ [TE32]))) cPID lastError = .ok opened ∧
        opened.openThread.dwThreadId = TE32.th32ThreadID ∧
        ∀ snapshot other, ∃ again,
          getMainThreadId threads (.ok snapshot) other opened.lastError = .ok again ∧
            again.openThread.dwThreadId = 0 := by
  have hresult : (searchLoop cPID ⟨0, lastError, []⟩ (.ofList (before ++ [TE32]))).result =
      TE32.th32ThreadID := by
    have hbeforeNone : firstThread cPID before = none := firstThread_eq_none_iff.mpr hbefore
    have hfirst : firstThread cPID (before ++ [TE32]) = some TE32 := by
      rw [firstThread, List.find?_append, ← firstThread, hbeforeNone]
      simp [howner]
    rw [searchLoop_result rfl hfresh, Cursor.delivered_ofList, hfirst]
    rfl
  refine ⟨_, rfl, hresult, ?_⟩
  intro snapshot other
  refine ⟨_, rfl, ?_⟩
  apply searchLoop_result_of_end
  right
  rw [hresult, hthread]
  exact searchLoop_lastError_of_last rfl hfresh hbefore TE32

end WinProcessThread.Toolhelp

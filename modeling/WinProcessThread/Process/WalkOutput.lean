import WinProcessThread.Process.WalkHandles

/-!
# What the walk prints

A round of the loop prints what fails in it and then the record of its process.  The processes come
in the order of the snapshot; when nothing can be read the loop complains and goes through process
0 all the same.  In the 64-bit build a round that finds no `NtQueryInformationProcess` is the last.
-/

namespace WinProcessThread.Process

open FileHash (onHandle errorInvalidHandle)
open Service (DWORD)
open Toolhelp (Snapshot ProcessEntry32 errorNoMoreFiles)

variable {outcome : RoundOutcome} {courses : ℕ → RoundCourse} {build : Build}

/-- The process and its token could be opened, and the token says so. -/
def RoundOutcome.Elevated (outcome : RoundOutcome) : Prop :=
  outcome.openProcess = none ∧ outcome.openQueryToken = none ∧
    outcome.getTokenInformation.toOption = some 1

instance (outcome : RoundOutcome) : Decidable outcome.Elevated :=
  inferInstanceAs (Decidable (_ ∧ _))

/-- The line in front of a record whose token could not be opened or read. -/
def RoundOutcome.complaint (outcome : RoundOutcome) : List Char :=
  match onHandle (outcome.openProcess = none) outcome.openQueryToken with
  | some lastError => failureText "\n Failed to get Process Token : " lastError
  | none =>
    match errorOf outcome.getTokenInformation with
    | some lastError => failureText "\n Failed to get Token Information : " lastError
    | none => []

/-- The text about one process, behind what `IsProcessUAC` and `readPibmemory64` print. -/
def RoundOutcome.record (build : Build) (outcome : RoundOutcome) (pe32 : ProcessEntry32) :
    List Char :=
  outcome.helperText ++ outcome.readMemory.printed.flatMap String.toList ++
    spnamex build outcome.Elevated pe32.th32ProcessID.toInt32 pe32.szExeFile.toList
      outcome.commandLine

/-- The null pointer is called in this round. -/
def RoundCourse.Crashes (build : Build) (course : RoundCourse) : Prop :=
  build = .win64 ∧ course.ret = none

instance (build : Build) (course : RoundCourse) : Decidable (course.Crashes build) :=
  inferInstanceAs (Decidable (_ ∧ _))

/-- What a round prints. -/
def RoundCourse.roundText (build : Build) (course : RoundCourse) (pe32 : ProcessEntry32) :
    List Char :=
  course.outcome.complaint ++ (readPib build course).1 ++
    if course.Crashes build then [] else course.outcome.record build pe32

section Readable

variable {snapshot : Snapshot ProcessEntry32}

end Readable

/-- The rounds that are begun: none follows a crash. -/
def begun (build : Build) (courses : ℕ → RoundCourse) :
    List (ProcessEntry32 × ℕ) → List (ProcessEntry32 × ℕ)
  | [] => []
  | visit :: rest =>
    visit :: if (courses visit.2).Crashes build then [] else begun build courses rest

/-- What is printed about processes, with the rounds numbered from `round` on. -/
def records (build : Build) (courses : ℕ → RoundCourse) (round : ℕ)
    (entries : List ProcessEntry32) : List Char :=
  (begun build courses (entries.zipIdx round)).flatMap fun (pe32, index) ↦
    (courses index).roundText build pe32

/-- No round of these processes crashes. -/
def AllReturn (build : Build) (courses : ℕ → RoundCourse) (round : ℕ)
    (entries : List ProcessEntry32) : Prop :=
  ∀ visit ∈ entries.zipIdx round, ¬ (courses visit.2).Crashes build

/-- What a part of the walk prints that goes through these processes, and whether it returns. -/
structure Tells (build : Build) (courses : ℕ → RoundCourse) (run : WalkRun)
    (complaint : List Char) (round : ℕ) (entries : List ProcessEntry32) : Prop where
  text : run.text = complaint ++ records build courses round entries
  returns : run.returns = true ↔ AllReturn build courses round entries

variable {run : WalkRun} {complaint : List Char} {round : ℕ} {entries : List ProcessEntry32}

/-- What precedes the loop prints its complaint. -/
theorem Tells.behind (htells : Tells build courses run complaint round entries)
    (calls : List WalkCall) (text : List Char) :
    Tells build courses (WalkRun.followedBy ⟨calls, text, true⟩ run) (text ++ complaint) round
      entries := by
  constructor
  · rw [WalkRun.followedBy_of_returns rfl, List.append_assoc, ← htells.text]
  · exact htells.returns

end WinProcessThread.Process

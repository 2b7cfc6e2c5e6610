import WinProcessThread.Process.Walk

/-!
# The handles of the walk

What becomes of a handle is decided in the round in which it is obtained.
-/

namespace WinProcessThread.Process

open Enumeration (Cursor)
open FileHash (onHandle errorInvalidHandle)
open Resource
open Service (DWORD)
open Toolhelp (Snapshot ProcessEntry32 errorNoMoreFiles)

variable {round : ℕ} {outcome : RoundOutcome} {build : Build} {pe32 : ProcessEntry32}
variable {outcomes : ℕ → RoundOutcome} {handle : WalkHandle}

@[simp]
theorem walkAccesses_nil : walkAccesses [] = [] := rfl

@[simp]
theorem walkAccesses_cons (call : WalkCall) (calls : List WalkCall) :
    walkAccesses (call :: calls) = call.accesses ++ walkAccesses calls := rfl

@[simp]
theorem walkAccesses_append (calls more : List WalkCall) :
    walkAccesses (calls ++ more) = walkAccesses calls ++ walkAccesses more :=
  List.flatMap_append

theorem walkAccesses_call (call : WalkCall) :
    walkAccesses (WalkRun.call call).calls = call.accesses :=
  List.append_nil _

/-! ## Rounds that return -/

/-- The rounds of a walk in which `GetProcAddress` finds the function, so that each comes to its
end. -/
def found (outcomes : ℕ → RoundOutcome) (round : ℕ) : RoundCourse := .found (outcomes round)

theorem readPib_returns (build : Build) (outcome : RoundOutcome) :
    (readPib build (.found outcome)).2 = true := by
  cases build with
  | win32 => rfl
  | win64 =>
    simp only [readPib, readPibmemory64, RoundCourse.ret]
    split <;> rfl

theorem walkRound_returns (round : ℕ) (outcome : RoundOutcome) (build : Build)
    (pe32 : ProcessEntry32) : (walkRound round build (.found outcome) pe32).returns = true := by
  unfold walkRound
  dsimp only
  rw [WalkRun.followedBy_of_returns (readPib_returns build outcome)]

theorem walkLoop_returns (build : Build) (outcomes : ℕ → RoundOutcome) (hProcessSnap : HANDLE)
    (round : ℕ) (pe32 : ProcessEntry32) (snapshot : Snapshot ProcessEntry32) :
    (walkLoop build (found outcomes) hProcessSnap round pe32 snapshot).returns = true := by
  have hround := walkRound_returns round (outcomes round) build pe32
  induction snapshot generalizing round pe32 with
  | ends => rw [walkLoop, found, WalkRun.followedBy_of_returns hround, WalkRun.call]
  | fails lastError missed =>
    rw [walkLoop, found, WalkRun.followedBy_of_returns hround, WalkRun.call]
  | delivers next rest ih =>
    rw [walkLoop, found, WalkRun.followedBy_of_returns hround]
    exact ih (round + 1) next (walkRound_returns _ _ _ _)

/-! ## One round -/

/-- The round in which a handle is obtained. -/
def WalkHandle.obtainedIn : WalkHandle → Option ℕ
  | .hProcessSnap => none
  | .hprocess round | .queryToken round | .adjustToken round => some round

/-- The token of `EnableWindowsPrivilege` behind the function. -/
def RoundOutcome.adjustTokenState (outcome : RoundOutcome) : Ownership :=
  if outcome.openAdjustToken ≠ none then
    .unknown
  else
    match outcome.lookupPrivilegeValue, outcome.adjustTokenPrivileges with
    | .ok _, none => .held
    | .ok _, some _ => .released
    | .error _, _ => .misused

/-- What becomes of the handles of a round. -/
def RoundOutcome.state (outcome : RoundOutcome) : WalkHandle → Ownership
  | .hProcessSnap => .unknown
  | .hprocess _ => if outcome.openProcess = none then .held else .unknown
  | .queryToken _ =>
    if outcome.openProcess = none ∧ outcome.openQueryToken = none then .released else .unknown
  | .adjustToken _ => if outcome.openProcess = none then outcome.adjustTokenState else .unknown

/-- The accesses of `IsProcessUAC`. -/
theorem isProcessUAC_accesses (round : ℕ) (outcome : RoundOutcome) (hprocess : WalkHandle) :
    walkAccesses (isProcessUAC round outcome (some hprocess)).1 =
      if outcome.openQueryToken = none then
        [.use hprocess, .obtain (.queryToken round), .use (.queryToken round),
          .release (.queryToken round)]
      else
        [.use hprocess] := by
  unfold isProcessUAC
  cases outcome.openQueryToken with
  | none => cases outcome.getTokenInformation <;> rfl
  | some lastError => rfl

theorem enableWindowsPrivilege_accesses (round : ℕ) (outcome : RoundOutcome)
    (hprocess : WalkHandle) (State : Bool) :
    walkAccesses (enableWindowsPrivilege round outcome (some hprocess) State).1 =
      if outcome.openAdjustToken = none then
        [.use hprocess, .obtain (.adjustToken round)] ++
          match outcome.lookupPrivilegeValue, outcome.adjustTokenPrivileges with
          | .ok _, none => [.use (.adjustToken round)]
          | .ok _, some _ => [.use (.adjustToken round), .release (.adjustToken round)]
          | .error _, _ =>
            [.release (.adjustToken round), .use (.adjustToken round),
              .release (.adjustToken round)]
      else
        [.use hprocess] := by
  unfold enableWindowsPrivilege
  cases outcome.openAdjustToken with
  | none =>
    cases outcome.lookupPrivilegeValue <;> cases outcome.adjustTokenPrivileges <;> rfl
  | some lastError => rfl

/-- A process that is not opened is not touched. -/
theorem walkRound_accesses_of_failure (hfails : outcome.openProcess ≠ none) (round : ℕ)
    (build : Build) (pe32 : ProcessEntry32) :
    walkAccesses (walkRound round build (.found outcome) pe32).calls = [] := by
  have hreads : walkAccesses (List.replicate outcome.reads (.readProcess none)) = [] := by
    simp [walkAccesses, WalkCall.accesses, uses]
  unfold walkRound
  dsimp only
  rw [WalkRun.followedBy_of_returns (readPib_returns build outcome)]
  simp [RoundCourse.outcome, hfails, hreads, isProcessUAC, enableWindowsPrivilege, onHandle,
    WalkCall.accesses, obtains, uses]

theorem walkRound_accesses (hopened : outcome.openProcess = none) (round : ℕ) (build : Build)
    (pe32 : ProcessEntry32) :
    walkAccesses (walkRound round build (.found outcome) pe32).calls =
      .obtain (.hprocess round) ::
        (walkAccesses (isProcessUAC round outcome (some (.hprocess round))).1 ++
          walkAccesses (enableWindowsPrivilege round outcome (some (.hprocess round)) true).1 ++
          List.replicate outcome.reads (.use (.hprocess round))) := by
  have hreads :
      walkAccesses (List.replicate outcome.reads (.readProcess (some (.hprocess round)))) =
        List.replicate outcome.reads (.use (.hprocess round)) := by
    simp [walkAccesses, WalkCall.accesses, uses, List.flatMap_replicate]
  unfold walkRound
  dsimp only
  rw [WalkRun.followedBy_of_returns (readPib_returns build outcome)]
  simp [RoundCourse.outcome, hopened, hreads, WalkCall.accesses, obtains]

theorem isProcessUAC_subject {hprocess : WalkHandle} :
    ∀ access ∈ walkAccesses (isProcessUAC round outcome (some hprocess)).1,
      access.subject = hprocess ∨ access.subject = .queryToken round := by
  rw [isProcessUAC_accesses]
  split_ifs
  · simp [Access.subject]
  · simp [Access.subject]

theorem enableWindowsPrivilege_subject {hprocess : WalkHandle} {State : Bool} :
    ∀ access ∈ walkAccesses (enableWindowsPrivilege round outcome (some hprocess) State).1,
      access.subject = hprocess ∨ access.subject = .adjustToken round := by
  rw [enableWindowsPrivilege_accesses]
  split_ifs
  · cases outcome.lookupPrivilegeValue <;> cases outcome.adjustTokenPrivileges <;>
      simp [Access.subject]
  · simp [Access.subject]

theorem reads_subject {hprocess : WalkHandle} {count : ℕ} :
    ∀ access ∈ List.replicate count (Access.use hprocess), access.subject = hprocess := by
  intro access haccess
  rw [List.eq_of_mem_replicate haccess]
  rfl

/-- A round touches no handle of another one. -/
theorem walkRound_subject :
    ∀ access ∈ walkAccesses (walkRound round build (.found outcome) pe32).calls,
      access.subject.obtainedIn = some round := by
  by_cases hopened : outcome.openProcess = none
  · have hown : ∀ {subject token : WalkHandle}, subject = .hprocess round ∨ subject = token →
        token.obtainedIn = some round → subject.obtainedIn = some round := by
      intro subject token hsubject htoken
      rcases hsubject with rfl | rfl
      · rfl
      · exact htoken
    rw [walkRound_accesses hopened, List.forall_mem_cons, List.forall_mem_append,
      List.forall_mem_append]
    refine ⟨rfl, ⟨?_, ?_⟩, ?_⟩
    · exact fun access haccess ↦ hown (isProcessUAC_subject access haccess) rfl
    · exact fun access haccess ↦ hown (enableWindowsPrivilege_subject access haccess) rfl
    · exact fun access haccess ↦ congrArg WalkHandle.obtainedIn (reads_subject access haccess)
  · rw [walkRound_accesses_of_failure hopened]
    exact List.forall_mem_nil _

/-! ## The handles of a round -/

/-- `IsProcessUAC` gives its token back. -/
theorem isProcessUAC_state (round : ℕ) (outcome : RoundOutcome) {hprocess : WalkHandle}
    (hother : hprocess ≠ .queryToken round) :
    ownership (walkAccesses (isProcessUAC round outcome (some hprocess)).1) (.queryToken round) =
      if outcome.openQueryToken = none then .released else .unknown := by
  rw [isProcessUAC_accesses]
  split_ifs
  · simp [ownership, Ownership.after, hother]
  · simp [ownership, Ownership.after, hother]

/-- `EnableWindowsPrivilege` gives its token back only when the privilege cannot be adjusted. -/
theorem enableWindowsPrivilege_state (round : ℕ) (outcome : RoundOutcome) {hprocess : WalkHandle}
    (State : Bool) (hother : hprocess ≠ .adjustToken round) :
    ownership (walkAccesses (enableWindowsPrivilege round outcome (some hprocess) State).1)
      (.adjustToken round) = outcome.adjustTokenState := by
  rw [enableWindowsPrivilege_accesses, RoundOutcome.adjustTokenState]
  split_ifs with hopened hclosed
  · exact absurd hopened hclosed
  · cases outcome.lookupPrivilegeValue <;> cases outcome.adjustTokenPrivileges <;>
      simp [ownership, Ownership.after, hother]
  · simp [ownership, Ownership.after, hother]

/-- Nothing closes the process. -/
theorem release_hprocess_not_mem (other : ℕ) :
    .release (.hprocess other) ∉
      walkAccesses (walkRound round build (.found outcome) pe32).calls := by
  by_cases hopened : outcome.openProcess = none
  · rw [walkRound_accesses hopened, isProcessUAC_accesses, enableWindowsPrivilege_accesses]
    cases outcome.lookupPrivilegeValue <;> cases outcome.adjustTokenPrivileges <;>
      split_ifs <;> simp [List.mem_replicate]
  · rw [walkRound_accesses_of_failure hopened]
    exact List.not_mem_nil

/-- Accesses to two other handles change nothing. -/
theorem foldl_of_subject {first second : WalkHandle} {more : List (Access WalkHandle)}
    (hsubject : ∀ access ∈ more, access.subject = first ∨ access.subject = second)
    (hfirst : first ≠ handle) (hsecond : second ≠ handle) (state : Ownership) :
    more.foldl (Ownership.after handle) state = state := by
  apply Ownership.foldl_of_ne
  intro access haccess
  rcases hsubject access haccess with hsame | hsame
  · rwa [hsame]
  · rwa [hsame]

/-- For another handle than the process the reads of it do not count. -/
theorem ownership_walkRound (hopened : outcome.openProcess = none)
    (hother : .hprocess round ≠ handle) :
    ownership (walkAccesses (walkRound round build (.found outcome) pe32).calls) handle =
      (walkAccesses (enableWindowsPrivilege round outcome (some (.hprocess round)) true).1).foldl
        (Ownership.after handle)
        (ownership (walkAccesses (isProcessUAC round outcome (some (.hprocess round))).1)
          handle) := by
  have hreads : ∀ access ∈ List.replicate outcome.reads (Access.use (WalkHandle.hprocess round)),
      access.subject ≠ handle := by
    intro access haccess
    rwa [reads_subject access haccess]
  have hobtain : Ownership.unknown.after handle (.obtain (.hprocess round)) = .unknown :=
    Ownership.after_of_ne hother
  calc
    ownership (walkAccesses (walkRound round build (.found outcome) pe32).calls) handle =
        (walkAccesses (isProcessUAC round outcome (some (.hprocess round))).1 ++
          walkAccesses (enableWindowsPrivilege round outcome (some (.hprocess round)) true).1 ++
          List.replicate outcome.reads (Access.use (WalkHandle.hprocess round))).foldl
            (Ownership.after handle) .unknown := by
      rw [walkRound_accesses hopened, ownership, List.foldl_cons, hobtain]
    _ = (walkAccesses (enableWindowsPrivilege round outcome (some (.hprocess round)) true).1).foldl
          (Ownership.after handle)
          (ownership (walkAccesses (isProcessUAC round outcome (some (.hprocess round))).1)
            handle) := by
      rw [List.foldl_append, List.foldl_append, Ownership.foldl_of_ne hreads, ownership]

/-- What a round makes of its handles. -/
theorem walkRound_state (hround : handle.obtainedIn = some round) (build : Build)
    (pe32 : ProcessEntry32) :
    ownership (walkAccesses (walkRound round build (.found outcome) pe32).calls) handle =
      outcome.state handle := by
  by_cases hopened : outcome.openProcess = none
  · cases handle with
    | hProcessSnap => cases hround
    | hprocess other =>
      cases hround
      rw [RoundOutcome.state, if_pos hopened, ownership_eq_held_iff]
      refine ⟨?_, release_hprocess_not_mem round⟩
      rw [walkRound_accesses hopened]
      exact List.mem_cons_self
    | queryToken other =>
      cases hround
      rw [ownership_walkRound hopened (by simp), isProcessUAC_state round outcome (by simp),
        foldl_of_subject enableWindowsPrivilege_subject (by simp) (by simp)]
      simp [RoundOutcome.state, hopened]
    | adjustToken other =>
      cases hround
      have hquery : ownership
          (walkAccesses (isProcessUAC round outcome (some (.hprocess round))).1)
          (.adjustToken round) = .unknown :=
        foldl_of_subject isProcessUAC_subject (by simp) (by simp) .unknown
      rw [ownership_walkRound hopened (by simp), hquery, RoundOutcome.state, if_pos hopened]
      exact enableWindowsPrivilege_state round outcome true (by simp)
  · rw [walkRound_accesses_of_failure hopened, ownership_nil]
    cases handle <;> simp [RoundOutcome.state, hopened]

/-! ## The loop -/

variable {hProcessSnap : HANDLE} {snapshot : Snapshot ProcessEntry32} {index : ℕ}

/-- A last round ends with a query. -/
theorem walkLoop_accesses_of_last (hlast : snapshot.delivered = []) :
    walkAccesses (walkLoop build (found outcomes) hProcessSnap round pe32 snapshot).calls =
      walkAccesses (walkRound round build (.found (outcomes round)) pe32).calls ++
        uses hProcessSnap := by
  have hround := walkRound_returns round (outcomes round) build pe32
  cases snapshot with
  | ends =>
    rw [walkLoop, found, WalkRun.followedBy_of_returns hround, walkAccesses_append,
      walkAccesses_call, WalkCall.accesses]
  | fails lastError missed =>
    rw [walkLoop, found, WalkRun.followedBy_of_returns hround, walkAccesses_append,
      walkAccesses_call, WalkCall.accesses]
  | delivers next rest => cases hlast

theorem walkLoop_accesses_delivers (next : ProcessEntry32) (rest : Snapshot ProcessEntry32) :
    walkAccesses
        (walkLoop build (found outcomes) hProcessSnap round pe32 (.delivers next rest)).calls =
      walkAccesses (walkRound round build (.found (outcomes round)) pe32).calls ++
        (uses hProcessSnap ++ walkAccesses
          (walkLoop build (found outcomes) hProcessSnap (round + 1) next rest).calls) := by
  have hround := walkRound_returns round (outcomes round) build pe32
  rw [walkLoop, found, WalkRun.followedBy_of_returns hround, walkAccesses_append]
  rfl

/-- Queries of the snapshot do not count for a handle of a round. -/
theorem foldl_uses_snapshot (hindex : handle.obtainedIn = some index)
    (hsnapshot : ∀ opened ∈ hProcessSnap, opened.obtainedIn = none) (state : Ownership) :
    (uses hProcessSnap).foldl (Ownership.after handle) state = state := by
  apply Ownership.foldl_of_ne
  intro access haccess hsame
  obtain ⟨opened, hopened, rfl⟩ := List.mem_map.mp haccess
  have hnone := hsnapshot opened (Option.mem_toList.mp hopened)
  rw [show opened = handle from hsame, hindex] at hnone
  cases hnone

theorem foldl_walkRound_of_ne (hindex : handle.obtainedIn = some index) (hother : index ≠ round)
    (state : Ownership) :
    (walkAccesses (walkRound round build (.found outcome) pe32).calls).foldl
      (Ownership.after handle) state = state := by
  apply Ownership.foldl_of_ne
  intro access haccess hsame
  have hround := walkRound_subject access haccess
  rw [hsame, hindex] at hround
  exact hother (Option.some.inj hround)

/-- The handles of earlier rounds are left as they are. -/
theorem foldl_walkLoop_of_lt (hindex : handle.obtainedIn = some index)
    (hsnapshot : ∀ opened ∈ hProcessSnap, opened.obtainedIn = none) (hearlier : index < round)
    (pe32 : ProcessEntry32) (snapshot : Snapshot ProcessEntry32) (state : Ownership) :
    (walkAccesses (walkLoop build (found outcomes) hProcessSnap round pe32 snapshot).calls).foldl
      (Ownership.after handle) state = state := by
  induction snapshot generalizing round pe32 with
  | ends =>
    rw [walkLoop_accesses_of_last rfl, List.foldl_append,
      foldl_walkRound_of_ne hindex hearlier.ne, foldl_uses_snapshot hindex hsnapshot]
  | fails lastError missed =>
    rw [walkLoop_accesses_of_last rfl, List.foldl_append,
      foldl_walkRound_of_ne hindex hearlier.ne, foldl_uses_snapshot hindex hsnapshot]
  | delivers next rest ih =>
    rw [walkLoop_accesses_delivers, List.foldl_append, List.foldl_append,
      foldl_walkRound_of_ne hindex hearlier.ne, foldl_uses_snapshot hindex hsnapshot]
    exact ih (Nat.lt_succ_of_lt hearlier) next

/-- A handle of a last round. -/
theorem walkLoop_state_of_last (hindex : handle.obtainedIn = some index)
    (hsnapshot : ∀ opened ∈ hProcessSnap, opened.obtainedIn = none)
    (hlast : snapshot.delivered = []) :
    ownership (walkAccesses
        (walkLoop build (found outcomes) hProcessSnap round pe32 snapshot).calls) handle =
      if index = round then (outcomes index).state handle else .unknown := by
  rw [walkLoop_accesses_of_last hlast, ownership_append, foldl_uses_snapshot hindex hsnapshot]
  split_ifs with hround
  · subst hround
    exact walkRound_state hindex build pe32
  · exact foldl_walkRound_of_ne hindex hround .unknown

/-- What the loop makes of a handle of one of its rounds. -/
theorem walkLoop_state (hindex : handle.obtainedIn = some index)
    (hsnapshot : ∀ opened ∈ hProcessSnap, opened.obtainedIn = none) (round : ℕ)
    (pe32 : ProcessEntry32) (snapshot : Snapshot ProcessEntry32) :
    ownership (walkAccesses
        (walkLoop build (found outcomes) hProcessSnap round pe32 snapshot).calls) handle =
      if round ≤ index ∧ index ≤ round + snapshot.delivered.length then
        (outcomes index).state handle
      else
        .unknown := by
  have hsingle : round ≤ index ∧ index ≤ round ↔ index = round := by omega
  induction snapshot generalizing round pe32 with
  | ends =>
    rw [walkLoop_state_of_last hindex hsnapshot rfl]
    exact if_congr hsingle.symm rfl rfl
  | fails lastError missed =>
    rw [walkLoop_state_of_last hindex hsnapshot rfl]
    exact if_congr hsingle.symm rfl rfl
  | delivers next rest ih =>
    rw [walkLoop_accesses_delivers, ownership_append, List.foldl_append,
      foldl_uses_snapshot hindex hsnapshot]
    by_cases hround : index = round
    · subst hround
      rw [walkRound_state hindex, foldl_walkLoop_of_lt hindex hsnapshot index.lt_succ_self,
        if_pos ⟨le_rfl, Nat.le_add_right _ _⟩]
    · have hlater : ownership
          (walkAccesses (walkRound round build (.found (outcomes round)) pe32).calls) handle =
            .unknown := foldl_walkRound_of_ne hindex hround .unknown
      have hrange : round + 1 ≤ index ∧ index ≤ round + 1 + rest.delivered.length ↔
          round ≤ index ∧ index ≤ round + (next :: rest.delivered).length := by
        rw [List.length_cons]
        omega
      rw [hlater]
      exact (ih (round + 1) next (by omega)).trans (if_congr hrange rfl rfl)

/-! ## The snapshot -/

theorem foldl_walkRound_snapshot (state : Ownership) :
    (walkAccesses (walkRound round build (.found outcome) pe32).calls).foldl
      (Ownership.after .hProcessSnap) state = state := by
  apply Ownership.foldl_of_ne
  intro access haccess hsame
  have hround := walkRound_subject access haccess
  rw [hsame] at hround
  cases hround

/-- The loop keeps the snapshot open. -/
theorem foldl_walkLoop_snapshot (round : ℕ) (pe32 : ProcessEntry32)
    (snapshot : Snapshot ProcessEntry32) :
    (walkAccesses
        (walkLoop build (found outcomes) (some .hProcessSnap) round pe32 snapshot).calls).foldl
      (Ownership.after .hProcessSnap) .held = .held := by
  induction snapshot generalizing round pe32 with
  | ends =>
    rw [walkLoop_accesses_of_last rfl, List.foldl_append, foldl_walkRound_snapshot]
    rfl
  | fails lastError missed =>
    rw [walkLoop_accesses_of_last rfl, List.foldl_append, foldl_walkRound_snapshot]
    rfl
  | delivers next rest ih =>
    rw [walkLoop_accesses_delivers, List.foldl_append, foldl_walkRound_snapshot]
    exact ih (round + 1) next

/-! ## The function -/

/-- How often the body of the loop runs. -/
def visited : Except DWORD (Snapshot ProcessEntry32) → ℕ
  | .error _ => 1
  | .ok snapshot => max 1 snapshot.delivered.length

variable {created : Except DWORD (Snapshot ProcessEntry32)}

/-- All that is done with the handles. -/
def walkTrace (build : Build) (outcomes : ℕ → RoundOutcome)
    (created : Except DWORD (Snapshot ProcessEntry32)) : List (Access WalkHandle) :=
  walkAccesses (processidCommandLinePEBPBI build (found outcomes) created).calls

/-- A snapshot that cannot be read is closed in front of the loop and behind it. -/
theorem walkAccesses_afterFailure (build : Build) (outcomes : ℕ → RoundOutcome)
    (hProcessSnap : HANDLE) (lastError : DWORD) :
    walkAccesses (walkSnapshot.afterFailure build (found outcomes) hProcessSnap lastError).calls =
      uses hProcessSnap ++ hProcessSnap.toList.map .release ++
        walkAccesses (walkLoop build (found outcomes) hProcessSnap 0 zeroEntry noSnapshot).calls ++
        hProcessSnap.toList.map .release := by
  have hloop := walkLoop_returns build outcomes hProcessSnap 0 zeroEntry noSnapshot
  unfold walkSnapshot.afterFailure
  dsimp only
  rw [WalkRun.followedBy_of_returns rfl, WalkRun.followedBy_of_returns hloop]
  simp [walkAccesses_call, WalkCall.accesses]

theorem walkTrace_error (lastError : DWORD) :
    walkTrace build outcomes (.error lastError) =
      walkAccesses (walkLoop build (found outcomes) none 0 zeroEntry noSnapshot).calls := by
  have hfailure := walkAccesses_afterFailure build outcomes none errorInvalidHandle
  rw [walkTrace, processidCommandLinePEBPBI, WalkRun.followedBy_of_returns rfl,
    walkAccesses_append]
  simpa [walkSnapshot, noSnapshot, WalkCall.accesses, obtains, uses] using hfailure

theorem walkTrace_delivers (pe32 : ProcessEntry32) (rest : Snapshot ProcessEntry32) :
    walkTrace build outcomes (.ok (.delivers pe32 rest)) =
      [.obtain .hProcessSnap, .use .hProcessSnap] ++
        walkAccesses (walkLoop build (found outcomes) (some .hProcessSnap) 0 pe32 rest).calls ++
        [.release .hProcessSnap] := by
  have hloop := walkLoop_returns build outcomes (some .hProcessSnap) 0 pe32 rest
  simp [walkTrace, processidCommandLinePEBPBI, walkSnapshot, WalkRun.followedBy_of_returns hloop,
    walkAccesses_call, WalkCall.accesses, obtains, uses]

/-- When the first query delivers nothing the snapshot is closed before the loop. -/
theorem walkTrace_of_unreadable (hnone : snapshot.delivered = []) :
    walkTrace build outcomes (.ok snapshot) =
      [.obtain .hProcessSnap, .use .hProcessSnap, .release .hProcessSnap] ++
        walkAccesses
          (walkLoop build (found outcomes) (some .hProcessSnap) 0 zeroEntry noSnapshot).calls ++
        [.release .hProcessSnap] := by
  rw [walkTrace, processidCommandLinePEBPBI, WalkRun.call_followedBy, walkAccesses_cons]
  cases snapshot with
  | ends =>
    exact congrArg (_ ++ ·) (walkAccesses_afterFailure build outcomes _ errorNoMoreFiles)
  | fails lastError missed =>
    exact congrArg (_ ++ ·) (walkAccesses_afterFailure build outcomes _ lastError)
  | delivers next rest => cases hnone

/-- What is done with the snapshot outside the loop does not count for a handle of a round. -/
theorem ownership_around_loop (hindex : handle.obtainedIn = some index)
    {before after : List (Access WalkHandle)}
    (hbefore : ∀ access ∈ before, access.subject = .hProcessSnap)
    (hafter : ∀ access ∈ after, access.subject = .hProcessSnap) (loop : List (Access WalkHandle)) :
    ownership (before ++ loop ++ after) handle = ownership loop handle := by
  have hother : .hProcessSnap ≠ handle := by
    rintro rfl
    cases hindex
  have hbeforeOther : ∀ access ∈ before, access.subject ≠ handle :=
    fun access haccess ↦ (hbefore access haccess).trans_ne hother
  have hafterOther : ∀ access ∈ after, access.subject ≠ handle :=
    fun access haccess ↦ (hafter access haccess).trans_ne hother
  calc ownership (before ++ loop ++ after) handle
      = after.foldl (Ownership.after handle)
          (loop.foldl (Ownership.after handle) (ownership before handle)) := by
        rw [ownership_append, ownership_append]
    _ = loop.foldl (Ownership.after handle) (ownership before handle) :=
        Ownership.foldl_of_ne hafterOther _
    _ = ownership loop handle := by
        rw [ownership, Ownership.foldl_of_ne hbeforeOther]
        rfl

/-- What becomes of the handles of a round. -/
theorem walkTrace_state (hindex : handle.obtainedIn = some index) (build : Build)
    (outcomes : ℕ → RoundOutcome) (created : Except DWORD (Snapshot ProcessEntry32)) :
    ownership (walkTrace build outcomes created) handle =
      if index < visited created then (outcomes index).state handle else .unknown := by
  have hsnapshot : ∀ opened ∈ some WalkHandle.hProcessSnap, opened.obtainedIn = none := by
    rintro opened ⟨⟩
    rfl
  have hrelease : ∀ access ∈ [Access.release WalkHandle.hProcessSnap],
      access.subject = .hProcessSnap := List.forall_mem_singleton.mpr rfl
  cases created with
  | error lastError =>
    have hnone : ∀ opened ∈ (none : HANDLE), opened.obtainedIn = none := by simp
    have hrange : 0 ≤ index ∧ index ≤ 0 + noSnapshot.delivered.length ↔ index < 1 := by
      rw [noSnapshot, Cursor.delivered, List.length_nil]
      omega
    rw [walkTrace_error, walkLoop_state hindex hnone]
    exact if_congr hrange rfl rfl
  | ok snapshot =>
    by_cases hunread : snapshot.delivered = []
    · have hrange : 0 ≤ index ∧ index ≤ 0 + noSnapshot.delivered.length ↔
          index < visited (.ok snapshot) := by
        rw [visited, hunread, noSnapshot, Cursor.delivered, List.length_nil]
        omega
      rw [walkTrace_of_unreadable hunread, ownership_around_loop hindex (by simp [Access.subject])
        hrelease, walkLoop_state hindex hsnapshot]
      exact if_congr hrange rfl rfl
    · obtain ⟨pe32, rest, rfl⟩ := Cursor.exists_delivers hunread
      have hrange : 0 ≤ index ∧ index ≤ 0 + rest.delivered.length ↔
          index < visited (.ok (.delivers pe32 rest)) := by
        rw [visited, Cursor.delivered, List.length_cons]
        omega
      rw [walkTrace_delivers, ownership_around_loop hindex (by simp [Access.subject]) hrelease,
        walkLoop_state hindex hsnapshot]
      exact if_congr hrange rfl rfl

/-- What becomes of the snapshot. -/
theorem walkTrace_snapshot (build : Build) (outcomes : ℕ → RoundOutcome)
    (snapshot : Snapshot ProcessEntry32) :
    ownership (walkTrace build outcomes (.ok snapshot)) .hProcessSnap =
      if snapshot.delivered = [] then .misused else .released := by
  split_ifs with hnone
  · have hunread : (noSnapshot : Snapshot ProcessEntry32).delivered = [] := rfl
    rw [walkTrace_of_unreadable hnone, ownership_append, ownership_append,
      walkLoop_accesses_of_last hunread, List.foldl_append, foldl_walkRound_snapshot]
    rfl
  · obtain ⟨pe32, rest, rfl⟩ := Cursor.exists_delivers hnone
    have hheld : ownership [.obtain WalkHandle.hProcessSnap, .use .hProcessSnap] .hProcessSnap =
        .held := rfl
    rw [walkTrace_delivers, ownership_append, ownership_append, hheld, foldl_walkLoop_snapshot]
    rfl

/-- The tokens of `IsProcessUAC` are given back in every walk. -/
theorem clean_queryToken (build : Build) (outcomes : ℕ → RoundOutcome)
    (created : Except DWORD (Snapshot ProcessEntry32)) (round : ℕ) :
    Clean (walkTrace build outcomes created) (.queryToken round) := by
  rw [Clean, walkTrace_state rfl]
  split_ifs
  · rw [RoundOutcome.state]
    split_ifs
    · exact .inr rfl
    · exact .inl rfl
  · exact .inl rfl

/-- Every process that is opened stays open. -/
theorem hprocess_held_iff :
    ownership (walkTrace build outcomes created) (.hprocess round) = .held ↔
      round < visited created ∧ (outcomes round).openProcess = none := by
  rw [walkTrace_state rfl, RoundOutcome.state]
  split_ifs with hround hopened
  · exact iff_of_true rfl ⟨hround, hopened⟩
  · exact iff_of_false nofun fun hboth ↦ hopened hboth.2
  · exact iff_of_false nofun fun hboth ↦ hround hboth.1

/-- The snapshot can be read, if there is one, and none of the processes can be opened. -/
structure OpensNoProcess (outcomes : ℕ → RoundOutcome)
    (created : Except DWORD (Snapshot ProcessEntry32)) : Prop where
  delivers : ∀ snapshot, created = .ok snapshot → snapshot.delivered ≠ []
  openProcess : ∀ round < visited created, (outcomes round).openProcess ≠ none

theorem not_disciplined_of_openProcess (hround : round < visited created)
    (hopened : (outcomes round).openProcess = none) :
    ¬ Disciplined (walkTrace build outcomes created) := by
  intro hdisciplined
  exact hdisciplined.ne_held (.hprocess round) (hprocess_held_iff.mpr ⟨hround, hopened⟩)

/-- A snapshot that cannot be read is closed twice. -/
theorem not_disciplined_of_unreadable (hunread : snapshot.delivered = []) :
    ¬ Disciplined (walkTrace build outcomes (.ok snapshot)) := by
  intro hdisciplined
  apply hdisciplined.ne_misused .hProcessSnap
  rw [walkTrace_snapshot, if_pos hunread]

/-- Without a process nothing of a round is open. -/
theorem state_of_openProcess (hfails : outcome.openProcess ≠ none) (handle : WalkHandle) :
    outcome.state handle = .unknown := by
  cases handle <;> simp [RoundOutcome.state, hfails]

theorem OpensNoProcess.clean (hopens : OpensNoProcess outcomes created) (build : Build)
    (handle : WalkHandle) : Clean (walkTrace build outcomes created) handle := by
  cases hindex : handle.obtainedIn with
  | some index =>
    left
    rw [walkTrace_state hindex]
    split_ifs with hround
    · exact state_of_openProcess (hopens.openProcess index hround) handle
    · rfl
  | none =>
    cases handle with
    | hprocess round => cases hindex
    | queryToken round => cases hindex
    | adjustToken round => cases hindex
    | hProcessSnap =>
      cases created with
      | error lastError =>
        have hunread : noSnapshot.delivered = [] := rfl
        left
        rw [walkTrace_error, walkLoop_accesses_of_last hunread, ownership_append, ownership,
          foldl_walkRound_snapshot]
        rfl
      | ok snapshot =>
        right
        rw [walkTrace_snapshot, if_neg (hopens.delivers snapshot rfl)]

/-- The handles of a walk that returns are disciplined exactly when the snapshot can be read, if
there is one, and none of the processes can be opened. -/
theorem disciplined_walk_iff (build : Build) (outcomes : ℕ → RoundOutcome)
    (created : Except DWORD (Snapshot ProcessEntry32)) :
    Disciplined (walkAccesses (processidCommandLinePEBPBI build (found outcomes) created).calls) ↔
      OpensNoProcess outcomes created := by
  rw [← walkTrace]
  constructor
  · intro hdisciplined
    constructor
    · rintro snapshot rfl hunread
      exact not_disciplined_of_unreadable hunread hdisciplined
    · intro round hround hopened
      exact not_disciplined_of_openProcess hround hopened hdisciplined
  · intro hopens
    exact disciplined_iff.mpr (hopens.clean build)

/-- Every call succeeds for a process that is not elevated. -/
def roundSucceeds : RoundOutcome where
  openProcess := none
  openQueryToken := none
  getTokenInformation := .ok 0
  openAdjustToken := none
  lookupPrivilegeValue := .ok 20
  adjustTokenPrivileges := none
  loadLibrary := none
  ret := 0
  helperText := []
  readMemory := .succeeded
  reads := 5
  commandLine := ['a']

/-- A snapshot of a single process. -/
def oneProcess : Snapshot ProcessEntry32 := .ofList [⟨4, 200, 0, "System"⟩]

theorem oneProcess_not_disciplined :
    ¬ Disciplined (walkAccesses (processidCommandLinePEBPBI .win64 (found fun _ ↦ roundSucceeds)
      (.ok oneProcess)).calls) := by
  have hround : 0 < visited (.ok oneProcess) := lt_max_of_lt_left Nat.one_pos
  exact not_disciplined_of_openProcess hround rfl

end WinProcessThread.Process

import WinProcessThread.HexParser.Meaning

/-!
# What a run prints

Each report of `main` calls `file_append_log`, which returns, reads for ever or copies from a null
pointer.  So a run prints its reports one after the other up to the first call that does not
return.  The calls are taken as they come: the file that stands under the name at that moment, what
the uninitialised `bytes` holds, what `malloc` returns and what the reads deliver.
-/

namespace WinProcessThread.HexParser

open Service (DWORD)
open Transition (firstActions exists_firstActions_eq_append)

/-- A call of `file_append_log` with all it depends on. -/
structure FileCall where
  file : Option (List UInt8)
  bytes : DWORD
  fileB : Option (List UInt8)
  reads : Reads file

def Report.fileName : Report → List Char
  | .compares fileName _ => fileName
  | .hexAll fileName => fileName

/-- How a run of `main` goes on. -/
inductive MainEnd
  /-- There is nothing left to report. -/
  | ended
  /-- The call under way is about to read again. -/
  | reading
  /-- The call under way has copied from a null pointer. -/
  | crashed
deriving DecidableEq, Repr

/-- What has been printed, and how the run goes on. -/
structure MainRun where
  printed : List Char
  finish : MainEnd
deriving DecidableEq, Repr

def MainRun.behind (text : List Char) (run : MainRun) : MainRun where
  printed := text ++ run.printed
  finish := run.finish

/-- The message of a buffer that is missing or empty. -/
def bufferNull : List Char :=
  "buffer NULL".toList

def textOf (messages : List String) : List Char :=
  messages.flatMap String.toList

/-- What the call has come to when it has made as many reads. -/
def FileCall.run (call : FileCall) (count : ℕ) : FileRun :=
  fileAppendLog call.file call.bytes call.fileB (firstActions call.reads.outcome count)

/-- The reports from the `n`-th on, with as many reads for each call.  `calls n` is the `n`-th call,
on the name it is made with. -/
def runReports (calls : ℕ → List Char → FileCall) (count n : ℕ) : List Report → MainRun
  | [] => ⟨[], .ended⟩
  | report :: rest =>
    match (calls n report.fileName).run count with
    | .returned state =>
      (runReports calls count (n + 1) rest).behind (textOf state.printed ++ report.text state.hstr)
    | .reading state => ⟨textOf state.printed, .reading⟩
    -- the message stands in front of the copy from the null pointer
    | .crashed => ⟨bufferNull, .crashed⟩

/-- `main` with the calls it makes. -/
def runMain (behind : ℕ → List Char) (calls : ℕ → List Char → FileCall) (count : ℕ)
    (argv : List (List Char)) : MainRun :=
  runReports calls count 0 (main behind argv)

namespace FileCall

variable (call : FileCall)

def size : DWORD :=
  getFileSize call.file

/-- The call returns with the renderings of these bytes: of none when it does not enter its loop,
and otherwise of those that the first read of `GetFileSize` bytes delivers. -/
def Renders (buffer : List UInt8) : Prop :=
  call.bytes = call.size ∧ buffer = [] ∨
    call.bytes ≠ call.size ∧ HasBuffer call.size call.fileB ∧
      ∃ index, call.reads.FirstFull index ∧
        buffer = ((call.file.getD []).drop
          (delivered (firstActions call.reads.outcome index))).take call.size.toNat

/-- The call reads for ever. -/
def Hangs : Prop :=
  call.bytes ≠ call.size ∧ HasBuffer call.size call.fileB ∧
    ∀ index, (call.reads.outcome index).bytesRead ≠ call.size

/-- The call copies from a null pointer. -/
def Crashes : Prop :=
  call.bytes ≠ call.size ∧ ¬ HasBuffer call.size call.fileB

/-- What the call itself prints. -/
def message : List Char :=
  if call.bytes ≠ call.size ∧ (call.fileB = none ∨ call.size = 0) then bufferNull else []

end FileCall

/-- What the reports from the `n`-th on print, up to the first call that does not return. -/
inductive Prints (calls : ℕ → List Char → FileCall) : ℕ → List Report → MainRun → Prop
  | none (n : ℕ) : Prints calls n [] ⟨[], .ended⟩
  | returns {n : ℕ} {report : Report} {rest : List Report} {buffer : List UInt8} {run : MainRun}
      (hrenders : (calls n report.fileName).Renders buffer)
      (hrest : Prints calls (n + 1) rest run) :
      Prints calls n (report :: rest)
        (run.behind ((calls n report.fileName).message ++ report.text (renderings buffer)))
  | hangs {n : ℕ} {report : Report} {rest : List Report}
      (hhangs : (calls n report.fileName).Hangs) :
      Prints calls n (report :: rest) ⟨[], .reading⟩
  | crashes {n : ℕ} {report : Report} {rest : List Report}
      (hcrashes : (calls n report.fileName).Crashes) :
      Prints calls n (report :: rest) ⟨bufferNull, .crashed⟩

variable {content : List UInt8} {dwSize : DWORD} {state final : ReadState} {call : FileCall}
variable {outcomes : List ReadOutcome}

/-- More reads do not change a call that has returned. -/
theorem readLoop_append_of_returned (hreturned : readLoop content dwSize outcomes state =
    .returned final) (more : List ReadOutcome) :
    readLoop content dwSize (outcomes ++ more) state = .returned final := by
  induction outcomes generalizing state with
  | nil =>
    rw [readLoop] at hreturned
    split at hreturned
    next hbytes =>
      rw [readLoop_of_equal hbytes]
      exact hreturned
    next => cases hreturned
  | cons outcome rest ih =>
    rw [List.cons_append]
    rw [readLoop] at hreturned ⊢
    split at hreturned
    next hbytes => rw [if_pos hbytes, hreturned]
    next hbytes =>
      rw [if_neg hbytes]
      cases hround : readRound content dwSize outcome state with
      | none => simp [hround] at hreturned
      | some next =>
        rw [hround] at hreturned
        exact ih hreturned

/-- A file that is not empty is read to a buffer that exists, and nothing is printed. -/
theorem printed_of_readRound {outcome : ReadOutcome} {next : ReadState} (hsize : dwSize ≠ 0)
    (hround : readRound content dwSize outcome state = some next) :
    next.printed = state.printed := by
  cases hfileB : state.fileB with
  | none =>
    rw [readRound_of_null hfileB hsize] at hround
    cases hround
  | some memory =>
    simp only [readRound, hfileB, Option.map_some, Option.some.injEq] at hround
    rw [← hround]
    simp [hsize]

theorem printed_of_readLoop (hsize : dwSize ≠ 0)
    (hloop : readLoop content dwSize outcomes state = .returned final ∨
      readLoop content dwSize outcomes state = .reading final) :
    final.printed = state.printed := by
  induction outcomes generalizing state with
  | nil =>
    rw [readLoop] at hloop
    split at hloop
    · rcases hloop with hreturned | hreading
      · rw [FileRun.returned.inj hreturned]
      · cases hreading
    · rcases hloop with hreturned | hreading
      · cases hreturned
      · rw [FileRun.reading.inj hreading]
  | cons outcome rest ih =>
    rw [readLoop] at hloop
    split at hloop
    · rcases hloop with hreturned | hreading
      · rw [FileRun.returned.inj hreturned]
      · cases hreading
    · cases hround : readRound content dwSize outcome state with
      | none => simp [hround] at hloop
      | some next =>
        rw [hround] at hloop
        exact (ih hloop).trans (printed_of_readRound hsize hround)

/-- A call that has returned with some reads has returned so with any more. -/
theorem FileCall.run_of_returned {earlier count : ℕ} (hle : earlier ≤ count)
    (hreturned : call.run earlier = .returned final) : call.run count = .returned final := by
  rcases hle.eq_or_lt with rfl | hlt
  · exact hreturned
  · obtain ⟨rest, hrest⟩ := exists_firstActions_eq_append call.reads.outcome hlt
    rw [FileCall.run, fileAppendLog, hrest]
    exact readLoop_append_of_returned hreturned _

/-- The only round for an empty file prints the message. -/
theorem FileCall.printed_of_empty {count : ℕ} (hsize : call.size = 0)
    (hbytes : call.bytes ≠ call.size) (hreturned : call.run count = .returned final) :
    final.printed = ["buffer NULL"] := by
  have hentered : (enterLoop call.bytes call.fileB).bytes ≠ call.size := hbytes
  have hbuffer : HasBuffer call.size (enterLoop call.bytes call.fileB).fileB := fun _ ↦ hsize
  have hread : (call.reads.outcome 0).bytesRead = call.size := by
    rw [hsize]
    exact UInt32.le_zero_iff.mp ((call.reads.le_size 0).trans_eq hsize)
  cases count with
  | zero =>
    change readLoop (call.file.getD []) call.size [] _ = _ at hreturned
    rw [readLoop, if_neg hentered] at hreturned
    cases hreturned
  | succ count =>
    obtain ⟨next, hround, -, hnextBytes, -⟩ :=
      readRound_of_hasBuffer (call.file.getD []) hbuffer (call.reads.outcome 0)
    have hnext : call.run (count + 1) = .returned next := by
      change readLoop _ call.size (firstActions call.reads.outcome (count + 1)) _ = _
      rw [Transition.firstActions_succ, readLoop, if_neg hentered, hround]
      exact readLoop_of_equal (hnextBytes.trans hread) _
    have hfinal : final = next := FileRun.returned.inj (hreturned.symm.trans hnext)
    rw [hfinal]
    cases hfileB : call.fileB with
    | none =>
      simp [readRound, enterLoop, hfileB, hsize] at hround
      rw [← hround]
    | some memory =>
      simp [readRound, enterLoop, hfileB, hsize] at hround
      rw [← hround]

/-- What a call has printed when it returns. -/
theorem FileCall.printed_of_returned {count : ℕ} (hreturned : call.run count = .returned final) :
    textOf final.printed = call.message := by
  have hstate : Returned call.bytes call.fileB call.reads final := ⟨count, hreturned⟩
  unfold FileCall.message
  by_cases hbytes : call.bytes = call.size
  · rw [(returned_iff_of_equal hbytes call.reads).mp hstate, if_neg (fun hrule ↦ hrule.1 hbytes)]
    rfl
  · by_cases hsize : call.size = 0
    · rw [call.printed_of_empty hsize hbytes hreturned, if_pos ⟨hbytes, .inr hsize⟩]
      rfl
    · have hmemory : call.fileB ≠ none := by
        intro hnone
        have hnull : ¬ HasBuffer call.size call.fileB := fun hbuffer ↦ hsize (hbuffer hnone)
        exact not_returned_of_null hbytes hnull call.reads hstate
      rw [printed_of_readLoop hsize (.inl hreturned),
        if_neg (fun hrule ↦ hrule.2.elim hmemory hsize)]
      rfl

/-- A call that is to render some bytes does so, once it has made enough reads. -/
theorem FileCall.Renders.run {buffer : List UInt8} (hrenders : call.Renders buffer) :
    ∃ bound, ∀ count, bound ≤ count → ∃ state, call.run count = .returned state ∧
      textOf state.printed = call.message ∧ state.hstr = renderings buffer := by
  obtain ⟨state, ⟨bound, hbound⟩, hhstr⟩ : ∃ state,
      Returned call.bytes call.fileB call.reads state ∧ state.hstr = renderings buffer := by
    rcases hrenders with ⟨hbytes, hempty⟩ | ⟨hbytes, hbuffer, index, hfull, hall⟩
    · rw [hempty]
      exact ⟨_, (returned_iff_of_equal hbytes call.reads).mpr rfl, rfl⟩
    · obtain ⟨state, hstate, hhstr⟩ := returned_of_firstFull hfull hbytes hbuffer
      rw [hall]
      exact ⟨state, (hstate state).mpr rfl, hhstr⟩
  refine ⟨bound, fun count hcount ↦ ?_⟩
  have hreturned : call.run count = .returned state := call.run_of_returned hcount hbound
  exact ⟨state, hreturned, call.printed_of_returned hreturned, hhstr⟩

/-- A call that hangs prints nothing, however many reads it makes. -/
theorem FileCall.Hangs.run (hhangs : call.Hangs) (count : ℕ) :
    ∃ state, call.run count = .reading state ∧ state.printed = [] := by
  obtain ⟨hbytes, hbuffer, hshort⟩ := hhangs
  have hsize : call.size ≠ 0 := by
    intro hzero
    apply hshort 0
    rw [hzero]
    exact UInt32.le_zero_iff.mp ((call.reads.le_size 0).trans_eq hzero)
  have hreads : ∀ index < count, (call.reads.outcome index).bytesRead ≠ getFileSize call.file :=
    fun index _ ↦ hshort index
  obtain ⟨middle, hloop, hmiddle, -⟩ := call.reads.readLoop_append hreads hbytes hbuffer
  have hreading : call.run count = .reading middle := by
    have hall := hloop []
    rw [List.append_nil, readLoop, if_neg hmiddle] at hall
    exact hall
  exact ⟨middle, hreading, printed_of_readLoop hsize (.inr hreading)⟩

theorem FileCall.Crashes.run (hcrashes : call.Crashes) {count : ℕ} (hcount : 1 ≤ count) :
    call.run count = .crashed := by
  obtain ⟨hbytes, hbuffer⟩ := hcrashes
  obtain ⟨hfileB, hsize⟩ := Classical.not_imp.mp hbuffer
  have hentered : (enterLoop call.bytes call.fileB).bytes ≠ call.size := hbytes
  obtain ⟨reads, rfl⟩ : ∃ reads, count = reads + 1 := ⟨count - 1, by omega⟩
  change readLoop _ call.size (firstActions call.reads.outcome (reads + 1)) _ = _
  rw [Transition.firstActions_succ, readLoop, if_neg hentered, readRound_of_null hfileB hsize]

/-- A call returns, hangs or crashes. -/
theorem FileCall.ends (call : FileCall) :
    (∃ buffer, call.Renders buffer) ∨ call.Hangs ∨ call.Crashes := by
  by_cases hbytes : call.bytes = call.size
  · exact .inl ⟨[], .inl ⟨hbytes, rfl⟩⟩
  by_cases hbuffer : HasBuffer call.size call.fileB
  · by_cases hexists : ∃ index, (call.reads.outcome index).bytesRead = call.size
    · obtain ⟨_, hsome⟩ := hexists
      obtain ⟨index, hfull⟩ := Reads.exists_firstFull hsome
      exact .inl ⟨_, .inr ⟨hbytes, hbuffer, index, hfull, rfl⟩⟩
    · push Not at hexists
      exact .inr (.inl ⟨hbytes, hbuffer, hexists⟩)
  · exact .inr (.inr ⟨hbytes, hbuffer⟩)

/-- A file that cannot be opened is read for ever, unless the uninitialised variable happens to hold
the error value. -/
theorem FileCall.hangs_of_unopened (hfile : call.file = none)
    (hbytes : call.bytes ≠ invalidFileSize) (hfileB : call.fileB ≠ none) : call.Hangs := by
  have hsize : call.size = invalidFileSize := by
    rw [FileCall.size, hfile]
    rfl
  rw [FileCall.Hangs, hsize]
  refine ⟨hbytes, fun hnone ↦ absurd hnone hfileB, fun index ↦ ?_⟩
  obtain ⟨lastError, hfailed⟩ := call.reads.opened hfile index
  have hzero : (0 : DWORD) ≠ invalidFileSize := by decide
  rw [hfailed]
  exact hzero

/-- A file whose first read delivers all of it is rendered as a whole. -/
theorem FileCall.renders_of_readAtOnce (hfile : call.file = some content)
    (hshort : content.length < 2 ^ 32) (hbytes : call.bytes ≠ call.size)
    (hfileB : call.fileB ≠ none) (hread : (call.reads.outcome 0).bytesRead = call.size) :
    call.Renders content := by
  have hsize : call.size.toNat = content.length := by
    rw [FileCall.size, hfile]
    exact UInt32.toNat_ofNat_of_lt' hshort
  have hcontent : call.file.getD [] = content := by rw [hfile, Option.getD_some]
  refine .inr ⟨hbytes, fun hnone ↦ absurd hnone hfileB, 0, ⟨nofun, hread⟩, ?_⟩
  rw [hcontent, hsize]
  exact List.take_length.symm

theorem exists_prints (calls : ℕ → List Char → FileCall) (n : ℕ) (reports : List Report) :
    ∃ run, Prints calls n reports run ∧
      ∃ bound, ∀ count, bound ≤ count → runReports calls count n reports = run := by
  induction reports generalizing n with
  | nil => exact ⟨_, .none n, 0, fun _ _ ↦ rfl⟩
  | cons report rest ih =>
    rcases (calls n report.fileName).ends with ⟨buffer, hrenders⟩ | hhangs | hcrashes
    · obtain ⟨run, hrest, bound, hbound⟩ := ih (n + 1)
      obtain ⟨enough, hcall⟩ := hrenders.run
      refine ⟨_, .returns hrenders hrest, max bound enough, fun count hcount ↦ ?_⟩
      obtain ⟨state, hstate, hprinted, hhstr⟩ := hcall count ((le_max_right _ _).trans hcount)
      rw [runReports, hstate]
      dsimp only
      rw [hbound count ((le_max_left _ _).trans hcount), hprinted, hhstr]
    · refine ⟨_, .hangs hhangs, 0, fun count _ ↦ ?_⟩
      obtain ⟨state, hstate, hprinted⟩ := hhangs.run count
      rw [runReports, hstate]
      dsimp only
      rw [hprinted]
      rfl
    · refine ⟨_, .crashes hcrashes, 1, fun count hcount ↦ ?_⟩
      rw [runReports, hcrashes.run hcount]

/-- **The output of a command line.**  Whatever the calls of `file_append_log` meet, with enough
reads a run has printed what the arguments and these calls mean, report by report up to the first
call that does not return. -/
theorem main_prints (behind : ℕ → List Char) (calls : ℕ → List Char → FileCall)
    (argv : List (List Char)) :
    ∃ run,
      Prints calls 0 ((List.range (argv.drop 1).length).flatMap (reportsAt behind (argv.drop 1)))
        run ∧
      ∃ bound, ∀ count, bound ≤ count → runMain behind calls count argv = run := by
  rw [← main_eq_reportsAt]
  exact exists_prints calls 0 (main behind argv)

end WinProcessThread.HexParser

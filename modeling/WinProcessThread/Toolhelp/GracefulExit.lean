import WinProcessThread.Toolhelp.EnumProcesses
import WinProcessThread.Transition.Fair

/-!
# The graceful exit

`main` starts a thread that runs `main_function`, waits for a key, clears the flag that the loop of
`main_function` tests, and joins the thread.  The flag is atomic and is all the two threads share,
so a run interleaves their operations on the flag and what they write, line by line.

A key stands for whatever makes `cin.get` return, the end of the input included.
-/

namespace WinProcessThread.Toolhelp

open Service (DWORD)
open Transition

/-- Where `main` stands. -/
inductive MainThread
  | greet
  | startThread
  | get
  | clearFlag
  | join
  | returned
deriving DecidableEq, Repr

/-- Where the thread stands in `main_function`. -/
inductive UpdateThread
  | notStarted
  | testFlag
  | enumerate
  /-- The lines of a round that are still to be written.  Behind the last one the thread sleeps. -/
  | write (lines : List String)
  | finished
deriving DecidableEq, Repr

structure Program where
  running : Bool
  main : MainThread
  update : UpdateThread
  printed : List String
deriving DecidableEq, Repr

def Program.initial : Program where
  running := true
  main := .greet
  update := .notStarted
  printed := []

def greeting : String := "*** press enter to exit the program gracefully\n\n"

inductive Action
  | main
  /-- `cin.get` returns. -/
  | key
  | update
  /-- `ToolHelp_EnumProcesses` in a round of `main_function`. -/
  | enumerate (created : Except DWORD (Snapshot ProcessEntry32))

/-- `main`, which waits in `join` until the thread has ended. -/
def mainStep (program : Program) : Option Program :=
  match program.main with
  | .greet => some { program with printed := program.printed ++ [greeting], main := .startThread }
  | .startThread => some { program with update := .testFlag, main := .get }
  | .get => none
  | .clearFlag => some { program with running := false, main := .join }
  | .join => if program.update = .finished then some { program with main := .returned } else none
  | .returned => none

/-- `main_function` but for the enumeration. -/
def updateStep (program : Program) : Option Program :=
  match program.update with
  | .notStarted => none
  | .testFlag => some { program with update := if program.running then .enumerate else .finished }
  | .enumerate => none
  | .write [] => some { program with update := .testFlag }
  | .write (line :: rest) =>
    some { program with printed := program.printed ++ [line], update := .write rest }
  | .finished => none

def programStep (program : Program) : Action → Option Program
  | .main => mainStep program
  | .key => if program.main = .get then some { program with main := .clearFlag } else none
  | .update => updateStep program
  | .enumerate created =>
    if program.update = .enumerate then
      some { program with update := .write (showProcesses created) }
    else
      none

/-- One step of the program. -/
abbrev ProgramStep : Program → Action → Program → Prop := ofPartial programStep

/-- The enumerations of a run. -/
def enumerations (actions : List Action) : List (Except DWORD (Snapshot ProcessEntry32)) :=
  actions.filterMap fun
    | .enumerate created => some created
    | _ => none

@[simp]
theorem enumerations_append (actions more : List Action) :
    enumerations (actions ++ more) = enumerations actions ++ enumerations more :=
  List.filterMap_append

variable {program after : Program} {action : Action} {actions : List Action}
variable {created : Except DWORD (Snapshot ProcessEntry32)}

/-! ## What a step does -/

/-- What one step can do. -/
inductive Moves (program : Program) : Action → Program → Prop
  | greet (hmain : program.main = .greet) :
    Moves program .main
        { program with printed := program.printed ++ [greeting], main := .startThread }
  | start (hmain : program.main = .startThread) :
    Moves program .main { program with update := .testFlag, main := .get }
  | key (hmain : program.main = .get) : Moves program .key { program with main := .clearFlag }
  | clear (hmain : program.main = .clearFlag) :
    Moves program .main { program with running := false, main := .join }
  | join (hmain : program.main = .join) (hupdate : program.update = .finished) :
    Moves program .main { program with main := .returned }
  | goOn (hupdate : program.update = .testFlag) (hrunning : program.running = true) :
    Moves program .update { program with update := .enumerate }
  | finish (hupdate : program.update = .testFlag) (hrunning : program.running = false) :
    Moves program .update { program with update := .finished }
  | enumerate (created : Except DWORD (Snapshot ProcessEntry32))
      (hupdate : program.update = .enumerate) :
    Moves program (.enumerate created) { program with update := .write (showProcesses created) }
  | write (line : String) (rest : List String) (hupdate : program.update = .write (line :: rest)) :
    Moves program .update
      { program with printed := program.printed ++ [line], update := .write rest }
  | wake (hupdate : program.update = .write []) :
    Moves program .update { program with update := .testFlag }

theorem moves_of_mainStep (hstep : mainStep program = some after) : Moves program .main after := by
  unfold mainStep at hstep
  split at hstep
  · cases hstep
    exact .greet ‹_›
  · cases hstep
    exact .start ‹_›
  · cases hstep
  · cases hstep
    exact .clear ‹_›
  · split_ifs at hstep with hupdate
    cases hstep
    exact .join ‹_› hupdate
  · cases hstep

theorem moves_of_updateStep (hstep : updateStep program = some after) :
    Moves program .update after := by
  unfold updateStep at hstep
  split at hstep
  · cases hstep
  · by_cases hrunning : program.running = true
    · rw [if_pos hrunning] at hstep
      cases hstep
      exact .goOn ‹_› hrunning
    · rw [if_neg hrunning] at hstep
      cases hstep
      exact .finish ‹_› (Bool.eq_false_of_not_eq_true hrunning)
  · cases hstep
  · cases hstep
    exact .wake ‹_›
  · cases hstep
    exact .write _ _ ‹_›
  · cases hstep

theorem moves_of_step (hstep : ProgramStep program action after) : Moves program action after := by
  unfold ProgramStep ofPartial at hstep
  cases action with
  | main => exact moves_of_mainStep hstep
  | update => exact moves_of_updateStep hstep
  | key =>
    simp only [programStep] at hstep
    split_ifs at hstep with hmain
    cases hstep
    exact .key hmain
  | enumerate created =>
    simp only [programStep] at hstep
    split_ifs at hstep with hupdate
    cases hstep
    exact .enumerate created hupdate

/-! ## Whole rounds -/

/-- What is left of the current round. -/
def UpdateThread.unwritten : UpdateThread → List String
  | .write lines => lines
  | _ => []

def MainThread.greeted : MainThread → List String
  | .greet => []
  | _ => [greeting]

/-- How the two threads go together. -/
structure Coordinated (program : Program) : Prop where
  notStarted : program.update = .notStarted ↔ program.main = .greet ∨ program.main = .startThread
  running : program.running = true ↔ program.main ≠ .join ∧ program.main ≠ .returned
  finished : program.update = .finished → program.running = false
  joined : program.main = .returned → program.update = .finished

theorem coordinated_initial : Coordinated .initial := by
  constructor <;> simp [Program.initial]

theorem Coordinated.step (hcoordinated : Coordinated program)
    (hstep : ProgramStep program action after) : Coordinated after := by
  obtain ⟨hnotStarted, hrunning, hfinished, hjoined⟩ := hcoordinated
  cases moves_of_step hstep <;> constructor <;> simp_all

theorem coordinated_of_run (hrun : Run ProgramStep .initial actions program) :
    Coordinated program :=
  hrun.invariant Coordinated coordinated_initial fun _ _ _ hbefore hstep ↦ hbefore.step hstep

theorem enumerations_of_notStarted (hrun : Run ProgramStep .initial actions program)
    (hnotStarted : program.update = .notStarted) : enumerations actions = [] := by
  induction hrun with
  | refl => rfl
  | snoc hearlier hlast ih =>
    rw [enumerations_append]
    cases moves_of_step hlast <;> simp_all [enumerations]

/-- What has been written and what is left of the current round are the rounds so far. -/
theorem printed_of_run (hrun : Run ProgramStep .initial actions program) :
    program.printed ++ program.update.unwritten =
      program.main.greeted ++ mainFunction (enumerations actions) := by
  induction hrun with
  | refl => rfl
  | @snoc actions action middle finish hearlier hlast ih =>
    have hcoordinated := coordinated_of_run hearlier
    rw [enumerations_append]
    cases moves_of_step hlast with
    | greet hmain =>
      have hnotStarted := hcoordinated.notStarted.mpr (.inl hmain)
      have hnone := enumerations_of_notStarted hearlier hnotStarted
      simp_all [enumerations, MainThread.greeted, UpdateThread.unwritten, mainFunction]
    | start hmain =>
      have hnotStarted := hcoordinated.notStarted.mpr (.inr hmain)
      simp_all [enumerations, MainThread.greeted, UpdateThread.unwritten]
    | enumerate created hupdate =>
      have hwritten : middle.printed =
          middle.main.greeted ++ mainFunction (enumerations actions) := by
        simpa [hupdate, UpdateThread.unwritten] using ih
      calc middle.printed ++ showProcesses created
          = middle.main.greeted ++
            (mainFunction (enumerations actions) ++ showProcesses created) := by
            rw [hwritten, List.append_assoc]
        _ = middle.main.greeted ++ mainFunction (enumerations actions ++ [created]) := by
            simp [mainFunction]
    | _ => simp_all [enumerations, MainThread.greeted, UpdateThread.unwritten]

/-- Once the flag is cleared, the thread enumerates once more at most, and only where it has tested
the flag before. -/
theorem enumerations_of_cleared (hrun : Run ProgramStep program actions after)
    (hcleared : program.running = false) :
    after.running = false ∧
      (enumerations actions).length + (if after.update = .enumerate then 1 else 0) ≤
        if program.update = .enumerate then 1 else 0 := by
  induction hrun with
  | refl => exact ⟨hcleared, by simp [enumerations]⟩
  | snoc hearlier hlast ih =>
    obtain ⟨hstill, hbound⟩ := ih
    rw [enumerations_append]
    cases moves_of_step hlast with
    | goOn hupdate hrunning => exact absurd (hrunning.symm.trans hstill) (by simp)
    | _ => simp_all [enumerations] <;> omega

/-- Nothing happens once `main` has returned. -/
theorem not_step_of_returned (hcoordinated : Coordinated program)
    (hreturned : program.main = .returned) : ¬ ProgramStep program action after := by
  intro hstep
  have hfinished := hcoordinated.joined hreturned
  cases moves_of_step hstep <;> simp_all

/-- **Graceful exit.**  Once the flag has been cleared there is at most one more enumeration, and
when `main` returns all rounds have been written as a whole, in order, and nothing follows. -/
theorem graceful_exit {before later : List Action}
    (hbefore : Run ProgramStep .initial before program)
    (hcleared : program.running = false) (hlater : Run ProgramStep program later after) :
    (enumerations later).length ≤ 1 ∧
      (after.main = .returned →
        after.printed = greeting :: mainFunction (enumerations (before ++ later)) ∧
          ∀ action next, ¬ ProgramStep after action next) := by
  have hbound := (enumerations_of_cleared hlater hcleared).2
  have hrun := hbefore.trans hlater
  have hcoordinated := coordinated_of_run hrun
  refine ⟨by split_ifs at hbound <;> omega, fun hreturned ↦ ⟨?_, fun _ _ ↦ ?_⟩⟩
  · have hprinted := printed_of_run hrun
    rw [hcoordinated.joined hreturned, hreturned] at hprinted
    simpa [UpdateThread.unwritten, MainThread.greeted] using hprinted
  · exact not_step_of_returned hcoordinated hreturned

/-! ## Progress -/

def Action.IsMain : Action → Prop
  | .main => True
  | _ => False

def Action.IsUpdate : Action → Prop
  | .update => True
  | .enumerate _ => True
  | _ => False

/-- Both threads get their turn. -/
structure FairProgram (exec : Execution ProgramStep .initial) : Prop where
  main : exec.WeaklyFair Action.IsMain
  update : exec.WeaklyFair Action.IsUpdate

/-- `main` waits in `join`. -/
structure Joining (program : Program) : Prop where
  main : program.main = .join
  cleared : program.running = false

variable {exec : Execution ProgramStep .initial} {n : ℕ}

theorem coordinated_state (exec : Execution ProgramStep .initial) (n : ℕ) :
    Coordinated (exec.state n) :=
  exec.invariant Coordinated coordinated_initial (fun _ _ _ hbefore hstep ↦ hbefore.step hstep) n

/-- The flag is cleared some time after the key. -/
theorem eventually_joining (hfair : exec.WeaklyFair Action.IsMain)
    (hnow : (exec.state n).main = .clearFlag) :
    ∃ m, Joining (exec.state m) ∧ (exec.state m).update ≠ .notStarted := by
  have henabled : ∀ program : Program, program.main = .clearFlag →
      ∃ action after, action.IsMain ∧ ProgramStep program action after := by
    intro program hmain
    exact ⟨.main, _, trivial, by simp [ProgramStep, ofPartial, programStep, mainStep, hmain]; rfl⟩
  have hkeep : ∀ before action after, before.main = .clearFlag → ¬ action.IsMain →
      ProgramStep before action after → after.main = .clearFlag := by
    intro before action after hmain hother hstep
    cases moves_of_step hstep <;> simp_all [Action.IsMain]
  obtain ⟨m, action, -, hmain, haction, hthread⟩ :=
    exec.eventually_takes hfair (fun program ↦ program.main = .clearFlag) henabled hkeep hnow
  have hstep := exec.moves m action haction
  have hstarted := coordinated_state exec (m + 1)
  have hjoining : Joining (exec.state (m + 1)) := by
    generalize exec.state (m + 1) = after at hstep
    cases moves_of_step hstep <;> simp_all [Action.IsMain]
    exact ⟨rfl, rfl⟩
  refine ⟨m + 1, hjoining, fun hnotStarted ↦ ?_⟩
  have hearly := hstarted.notStarted.mp hnotStarted
  rw [hjoining.main] at hearly
  simp at hearly

theorem exists_update_step (hstarted : program.update ≠ .notStarted)
    (hrunning : program.update ≠ .finished) :
    ∃ action after, action.IsUpdate ∧ ProgramStep program action after := by
  cases hupdate : program.update with
  | notStarted => exact absurd hupdate hstarted
  | finished => exact absurd hupdate hrunning
  | enumerate =>
    exact ⟨.enumerate (.error 0), _, trivial,
      by simp [ProgramStep, ofPartial, programStep, hupdate]; rfl⟩
  | testFlag =>
    exact ⟨.update, _, trivial,
      by simp [ProgramStep, ofPartial, programStep, updateStep, hupdate]; rfl⟩
  | write lines =>
    cases lines with
    | nil =>
      exact ⟨.update, _, trivial,
        by simp [ProgramStep, ofPartial, programStep, updateStep, hupdate]; rfl⟩
    | cons line rest =>
      exact ⟨.update, _, trivial,
        by simp [ProgramStep, ofPartial, programStep, updateStep, hupdate]; rfl⟩

theorem Joining.step (hjoining : Joining program) (hunfinished : program.update ≠ .finished)
    (hstep : ProgramStep program action after) : Joining after := by
  obtain ⟨hmain, hcleared⟩ := hjoining
  cases moves_of_step hstep <;> constructor <;> simp_all

/-- While `main` waits, the thread takes its next step some time. -/
theorem update_eventually_steps (hfair : exec.WeaklyFair Action.IsUpdate) {point : UpdateThread}
    (hstarted : point ≠ .notStarted) (hunfinished : point ≠ .finished)
    (hjoining : Joining (exec.state n)) (hnow : (exec.state n).update = point) :
    ∃ m action, Joining (exec.state m) ∧ (exec.state m).update = point ∧ action.IsUpdate ∧
      Moves (exec.state m) action (exec.state (m + 1)) ∧ Joining (exec.state (m + 1)) := by
  have henabled : ∀ program : Program, Joining program ∧ program.update = point →
      ∃ action after, action.IsUpdate ∧ ProgramStep program action after := by
    rintro program ⟨-, rfl⟩
    exact exists_update_step hstarted hunfinished
  have hkeep : ∀ before action after, Joining before ∧ before.update = point →
      ¬ action.IsUpdate → ProgramStep before action after →
        Joining after ∧ after.update = point := by
    rintro before action after ⟨hwaits, rfl⟩ hother hstep
    refine ⟨hwaits.step hunfinished hstep, ?_⟩
    have hmain := hwaits.main
    cases moves_of_step hstep <;> simp_all [Action.IsUpdate]
  obtain ⟨m, action, -, ⟨hstill, hpoint⟩, haction, hthread⟩ :=
    exec.eventually_takes hfair (fun program ↦ Joining program ∧ program.update = point) henabled
      hkeep ⟨hjoining, hnow⟩
  have hstep := exec.moves m action haction
  exact ⟨m, action, hstill, hpoint, hthread, moves_of_step hstep,
    hstill.step (by rwa [hpoint]) hstep⟩

/-- The thread ends some time. -/
def Finishes (exec : Execution ProgramStep .initial) : Prop :=
  ∃ m, Joining (exec.state m) ∧ (exec.state m).update = .finished

/-- At the test the thread finds the flag cleared. -/
theorem finishes_of_testFlag (hfair : exec.WeaklyFair Action.IsUpdate)
    (hjoining : Joining (exec.state n)) (hnow : (exec.state n).update = .testFlag) :
    Finishes exec := by
  obtain ⟨m, action, hstill, hpoint, hthread, hmoves, hnext⟩ :=
    update_eventually_steps hfair (by simp) (by simp) hjoining hnow
  have hcleared := hstill.cleared
  refine ⟨m + 1, hnext, ?_⟩
  generalize exec.state (m + 1) = after at hmoves
  cases hmoves <;> simp_all [Action.IsUpdate]

/-- The lines that are left are written one by one. -/
theorem finishes_of_write (hfair : exec.WeaklyFair Action.IsUpdate) {lines : List String}
    (hjoining : Joining (exec.state n)) (hnow : (exec.state n).update = .write lines) :
    Finishes exec := by
  induction lines generalizing n with
  | nil =>
    obtain ⟨m, action, -, hpoint, hthread, hmoves, hnext⟩ :=
      update_eventually_steps hfair (by simp) (by simp) hjoining hnow
    have htest : (exec.state (m + 1)).update = .testFlag := by
      generalize exec.state (m + 1) = after at hmoves
      cases hmoves <;> simp_all [Action.IsUpdate]
    exact finishes_of_testFlag hfair hnext htest
  | cons line rest ih =>
    obtain ⟨m, action, -, hpoint, hthread, hmoves, hnext⟩ :=
      update_eventually_steps hfair (by simp) (by simp) hjoining hnow
    have hrest : (exec.state (m + 1)).update = .write rest := by
      generalize exec.state (m + 1) = after at hmoves
      cases hmoves <;> simp_all [Action.IsUpdate]
    exact ih hnext hrest

theorem finishes_of_enumerate (hfair : exec.WeaklyFair Action.IsUpdate)
    (hjoining : Joining (exec.state n)) (hnow : (exec.state n).update = .enumerate) :
    Finishes exec := by
  obtain ⟨m, action, -, hpoint, hthread, hmoves, hnext⟩ :=
    update_eventually_steps hfair (by simp) (by simp) hjoining hnow
  have hwrite : ∃ lines, (exec.state (m + 1)).update = .write lines := by
    generalize exec.state (m + 1) = after at hmoves
    cases hmoves <;> simp_all [Action.IsUpdate]
  obtain ⟨lines, hlines⟩ := hwrite
  exact finishes_of_write hfair hnext hlines

theorem finishes_of_joining (hfair : exec.WeaklyFair Action.IsUpdate)
    (hjoining : Joining (exec.state n)) (hstarted : (exec.state n).update ≠ .notStarted) :
    Finishes exec := by
  cases hnow : (exec.state n).update with
  | notStarted => exact absurd hnow hstarted
  | testFlag => exact finishes_of_testFlag hfair hjoining hnow
  | enumerate => exact finishes_of_enumerate hfair hjoining hnow
  | write lines => exact finishes_of_write hfair hjoining hnow
  | finished => exact ⟨n, hjoining, hnow⟩

theorem eventually_returned (hfair : exec.WeaklyFair Action.IsMain) (hfinishes : Finishes exec) :
    ∃ m, (exec.state m).main = .returned := by
  obtain ⟨n, ⟨hmain, hcleared⟩, hfinished⟩ := hfinishes
  have henabled : ∀ program : Program, program.main = .join ∧ program.update = .finished →
      ∃ action after, action.IsMain ∧ ProgramStep program action after := by
    rintro program ⟨hjoin, hupdate⟩
    exact ⟨.main, _, trivial,
      by simp [ProgramStep, ofPartial, programStep, mainStep, hjoin, hupdate]; rfl⟩
  have hkeep : ∀ before action after, before.main = .join ∧ before.update = .finished →
      ¬ action.IsMain → ProgramStep before action after →
        after.main = .join ∧ after.update = .finished := by
    rintro before action after ⟨hjoin, hupdate⟩ hother hstep
    cases moves_of_step hstep <;> simp_all [Action.IsMain]
  obtain ⟨m, action, -, ⟨hjoin, hupdate⟩, haction, hthread⟩ :=
    exec.eventually_takes hfair (fun program ↦ program.main = .join ∧ program.update = .finished)
      henabled hkeep ⟨hmain, hfinished⟩
  have hmoves := moves_of_step (exec.moves m action haction)
  refine ⟨m + 1, ?_⟩
  generalize exec.state (m + 1) = after at hmoves
  cases hmoves <;> simp_all [Action.IsMain]

/-- Without a key `main` does not get past `cin.get`. -/
theorem before_key (hnever : ∀ n, exec.action n ≠ some .key) (n : ℕ) :
    (exec.state n).main ∈ [MainThread.greet, .startThread, .get] := by
  refine exec.invariant_of_actions
    (fun program ↦ program.main ∈ [MainThread.greet, .startThread, .get])
    (fun _ action ↦ action ≠ .key) (by simp [Program.initial]) ?_ ?_ n
  · rintro n action haction rfl
    exact hnever n haction
  · intro before action after hbefore hother hstep
    cases moves_of_step hstep <;> simp_all

/-- **The program ends with a key.**  In a fair execution `main` returns exactly when a key is
pressed. -/
theorem returns_iff_key (exec : Execution ProgramStep .initial) (hfair : FairProgram exec) :
    (∃ n, (exec.state n).main = .returned) ↔ ∃ n, exec.action n = some .key := by
  constructor
  · rintro ⟨n, hreturned⟩
    by_contra hnever
    push Not at hnever
    have hearly := before_key hnever n
    rw [hreturned] at hearly
    simp at hearly
  · rintro ⟨n, hkey⟩
    have hmoves := moves_of_step (exec.moves n .key hkey)
    have hclear : (exec.state (n + 1)).main = .clearFlag := by
      generalize exec.state (n + 1) = after at hmoves
      cases hmoves
      rfl
    obtain ⟨m, hjoining, hstarted⟩ := eventually_joining hfair.main hclear
    exact eventually_returned hfair.main (finishes_of_joining hfair.update hjoining hstarted)

/-! ## One round -/

/-- A round in which the snapshot cannot be taken, a key, and the end. -/
def oneRound : List Action :=
  [.main, .main, .update, .enumerate (.error 5), .key, .main, .update, .update, .update, .main]

def afterKey : Program where
  running := false
  main := .join
  update := .write [errorLine 5]
  printed := [greeting]

def afterReturn : Program where
  running := false
  main := .returned
  update := .finished
  printed := [greeting, errorLine 5]

theorem oneRound_graceful_exit :
    (enumerations (oneRound.drop 6)).length ≤ 1 ∧
      (afterReturn.main = .returned →
        afterReturn.printed =
            greeting :: mainFunction (enumerations (oneRound.take 6 ++ oneRound.drop 6)) ∧
          ∀ action next, ¬ ProgramStep afterReturn action next) :=
  graceful_exit (show Run ProgramStep .initial (oneRound.take 6) afterKey from
    run_ofPartial_iff.mpr rfl) rfl (run_ofPartial_iff.mpr rfl)

/-- An execution that comes to its end is fair. -/
theorem fairProgram_of_returned {exec : Execution ProgramStep .initial}
    (hreturned : (exec.state n).main = .returned) : FairProgram exec := by
  have hstill : ∀ offset, (exec.state (n + offset)).main = .returned := by
    intro offset
    induction offset with
    | zero => exact hreturned
    | succ offset ih =>
      cases haction : exec.action (n + offset) with
      | none =>
        rw [← Nat.add_assoc, exec.idles _ haction]
        exact ih
      | some action =>
        have hstep := exec.moves _ action haction
        exact absurd hstep (not_step_of_returned (coordinated_state exec _) ih)
  have hidle : ∀ thread : Action → Prop, exec.WeaklyFair thread := by
    intro thread index henabled
    obtain ⟨action, after, -, hstep⟩ := henabled (n + index) (by omega)
    exact absurd hstep (not_step_of_returned (coordinated_state exec _) (hstill index))
  exact ⟨hidle _, hidle _⟩

def oneRoundExecution : Execution ProgramStep .initial :=
  scheduled programStep .initial fun n ↦ oneRound.getD n .main

theorem oneRoundExecution_returns :
    (∃ n, (oneRoundExecution.state n).main = .returned) ↔
      ∃ n, oneRoundExecution.action n = some .key := by
  have hreturned : (oneRoundExecution.state 10).main = .returned := rfl
  exact returns_iff_key oneRoundExecution (fairProgram_of_returned hreturned)

end WinProcessThread.Toolhelp

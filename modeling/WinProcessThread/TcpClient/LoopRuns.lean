import WinProcessThread.TcpClient.CommandLoop
import WinProcessThread.TcpClient.Connection
import WinProcessThread.TcpClient.ObjectStore
import Mathlib.Tactic.SplitIfs

/-!
# Runs of the command loop are runs of commands

A round of the loop performs at most one command of the client and prints something around it.
What the client prints has no influence on its commands, so whatever holds of the client and of the
socket calls after every run of commands holds after every run of the loop.
-/

namespace WinProcessThread.TcpClient

open Text Transition

variable {loop next : CommandLoop} {outcome : RoundOutcome}

/-- The worlds differ in what they have printed at most. -/
structure SameCore (world other : World) : Prop where
  client : world.client = other.client
  log : world.log = other.log

theorem SameCore.symm {world other : World} (hsame : SameCore world other) :
    SameCore other world :=
  ⟨hsame.client.symm, hsame.log.symm⟩

theorem SameCore.trans {world middle other : World} (hfirst : SameCore world middle)
    (hsecond : SameCore middle other) : SameCore world other :=
  ⟨hfirst.client.trans hsecond.client, hfirst.log.trans hsecond.log⟩

theorem SameCore.calls {world other : World} (hsame : SameCore world other) (command : Command) :
    calls world command = TcpClient.calls other command := by
  obtain ⟨client, log, printed⟩ := world
  obtain ⟨otherClient, otherLog, otherPrinted⟩ := other
  obtain ⟨rfl, rfl⟩ := hsame
  cases command <;> rfl

/-- A command does the same to worlds that differ in their output only. -/
theorem SameCore.exec {world other after : World} {command : Command}
    (hsame : SameCore world other) (hexec : exec world command = some after) :
    ∃ result, TcpClient.exec other command = some result ∧ SameCore after result := by
  have hsome : ∃ result, TcpClient.exec other command = some result := by
    cases command with
    | create nType szName indeterminate pending =>
      by_cases hname : szName.length < 32
      · exact ⟨_, if_pos hname⟩
      · have hends : TcpClient.exec world (.create nType szName indeterminate pending) = none :=
          if_neg hname
        rw [hends] at hexec
        cases hexec
    | _ => exact ⟨_, rfl⟩
  obtain ⟨result, hresult⟩ := hsome
  refine ⟨result, hresult, ?_, ?_⟩
  · rw [exec_client hexec, exec_client hresult, hsame.client]
  · calc
      after.log = world.log ++ TcpClient.calls world command := exec_log hexec
      _ = other.log ++ TcpClient.calls other command := by
        rw [hsame.log, hsame.calls]
      _ = result.log := (exec_log hresult).symm

/-- What a round does to the client: nothing, or one command. -/
def OneCommand (world after : World) : Prop :=
  SameCore world after ∨
    ∃ command result, exec world command = some result ∧ SameCore result after

/-- A command that starts behind some output. -/
theorem oneCommand_of_exec {world printed after : World} (command : Command)
    (hsame : SameCore world printed) (hexec : exec printed command = some after) :
    OneCommand world after := by
  obtain ⟨result, hresult, hcore⟩ := hsame.symm.exec hexec
  exact .inr ⟨command, result, hresult, hcore.symm⟩

theorem oneCommand_connectS {world printed : World} {ip : List Char} {port : Int32}
    {connect : ConnectOutcome} (hsame : SameCore world printed) :
    OneCommand world (connectS ip port connect printed) :=
  oneCommand_of_exec (.connectS ip port connect) hsame rfl

theorem oneCommand_connectRound (hround : connectRound outcome loop = .running next) :
    OneCommand loop.world next.world := by
  unfold connectRound at hround
  dsimp only at hround
  split at hround
  · cases hround
  · split at hround
    · cases hround
    · split at hround
      · obtain rfl := RoundEnd.running.inj hround
        exact oneCommand_connectS ⟨rfl, rfl⟩
      · obtain rfl := RoundEnd.running.inj hround
        exact .inl ⟨rfl, rfl⟩

theorem oneCommand_create {world printed after : World} {nType : Int32} {szName : List Char}
    {indeterminate pending : Int32}
    (hcreate : create nType szName indeterminate pending printed = some after)
    (hsame : SameCore world printed) : OneCommand world after :=
  oneCommand_of_exec (.create nType szName indeterminate pending) hsame hcreate

theorem oneCommand_createRound (hround : createRound outcome loop = .running next) :
    OneCommand loop.world next.world := by
  unfold createRound at hround
  dsimp only at hround
  split at hround
  · next world hcreate =>
    obtain rfl := RoundEnd.running.inj hround
    exact oneCommand_create hcreate ⟨rfl, rfl⟩
  · cases hround

theorem oneCommand_destroyRound (hround : destroyRound loop = .running next) :
    OneCommand loop.world next.world := by
  obtain rfl := RoundEnd.running.inj hround
  have hsame : SameCore loop.world (loop.print destroyHelp).readId.world := ⟨rfl, rfl⟩
  exact oneCommand_of_exec (.destroy _) hsame rfl

theorem oneCommand_statusRound (hround : statusRound outcome loop = .running next) :
    OneCommand loop.world next.world := by
  obtain rfl := RoundEnd.running.inj hround
  have hsame : SameCore loop.world (loop.print statusHelp).world := ⟨rfl, rfl⟩
  exact oneCommand_of_exec (.status outcome.first outcome.second) hsame rfl

theorem oneCommand_disconnectRound (hround : disconnectRound outcome loop = .running next) :
    OneCommand loop.world next.world := by
  obtain rfl := RoundEnd.running.inj hround
  have hsame : SameCore loop.world (loop.print disconnectHelp).world := ⟨rfl, rfl⟩
  exact oneCommand_of_exec (.disconnectS outcome.first outcome.second outcome.shutdown) hsame rfl

theorem oneCommand_dispatch (hround : dispatch outcome loop = .running next) :
    OneCommand loop.world next.world := by
  unfold dispatch at hround
  split_ifs at hround
  · exact oneCommand_connectRound hround
  · exact oneCommand_createRound hround
  · exact oneCommand_destroyRound hround
  · exact oneCommand_statusRound hround
  · exact oneCommand_disconnectRound hround
  · cases hround
  · obtain rfl := RoundEnd.running.inj hround
    exact .inl ⟨rfl, rfl⟩

theorem OneCommand.of_sameCore {world printed after : World} (hsame : SameCore world printed)
    (hone : OneCommand printed after) : OneCommand world after := by
  rcases hone with hnone | ⟨command, result, hexec, hcore⟩
  · exact .inl (hsame.trans hnone)
  · obtain ⟨moved, hmoved, hcommand⟩ := hsame.symm.exec hexec
    exact .inr ⟨command, moved, hmoved, hcommand.symm.trans hcore⟩

/-- A round that goes on performs at most one command. -/
theorem oneCommand_of_loopStep (hstep : loopStep loop outcome = some next) :
    OneCommand loop.world next.world := by
  have hround : round outcome loop = .running next := running_of_loopStep hstep
  unfold round at hround
  split at hround
  · have hprompt : SameCore loop.world (loop.print prompt).readCommand.world := ⟨rfl, rfl⟩
    exact .of_sameCore hprompt (oneCommand_dispatch hround)
  · cases hround

/-- **The loop refines the commands.**  Whatever a run of the loop does to the client and with the
socket calls, a run of commands does from the same start, with one command a round at most. -/
theorem commands_of_loopRun {start : World} {outcomes : List RoundOutcome} {last : CommandLoop}
    (hrun : Run (ofPartial loopStep) loop outcomes last) (hstart : SameCore start loop.world) :
    ∃ commands world, Run (ofPartial exec) start commands world ∧
      commands.length ≤ outcomes.length ∧ SameCore world last.world := by
  induction hrun with
  | refl => exact ⟨[], start, .refl, le_rfl, hstart⟩
  | snoc hearlier hlast ih =>
    obtain ⟨commands, world, hcommands, hlength, hsame⟩ := ih
    rcases OneCommand.of_sameCore hsame (oneCommand_of_loopStep hlast) with
      hnone | ⟨command, result, hexec, hcore⟩
    · refine ⟨commands, world, hcommands, ?_, hnone⟩
      rw [List.length_append]
      exact Nat.le_add_right_of_le hlength
    · refine ⟨commands ++ [command], result, .snoc hcommands hexec, ?_, hcore⟩
      rw [List.length_append, List.length_append]
      exact Nat.add_le_add_right hlength 1

theorem SameCore.linkTracked {world other : World} (hsame : SameCore world other)
    (htracked : LinkTracked world) : LinkTracked other := by
  obtain ⟨client, log, printed⟩ := world
  obtain ⟨otherClient, otherLog, otherPrinted⟩ := other
  obtain ⟨rfl, rfl⟩ := hsame
  exact ⟨htracked.isOpen, htracked.address⟩

variable {serverPort : Int32} {connectSocket : SOCKET} {bufferSizePriv : Int32}
variable {szName : CharArray 32} {stdin : List Char} {nType nId : Int32}
variable {outcomes : List RoundOutcome} {last : CommandLoop}

/-- The loop prints its greeting before the first round. -/
theorem sameCore_newLoop (world : World) :
    SameCore world (newLoop world szName nType nId stdin).world :=
  ⟨rfl, rfl⟩

theorem linkTracked_of_loopRun
    (hrun : Run (ofPartial loopStep)
      (newLoop (newClient serverPort connectSocket bufferSizePriv) szName nType nId stdin)
      outcomes last) : LinkTracked last.world := by
  obtain ⟨commands, world, hcommands, -, hsame⟩ := commands_of_loopRun hrun (sameCore_newLoop _)
  exact hsame.linkTracked (linkTracked_of_run hcommands)

/-- Before the counter can wrap, whatever has been typed in, the identifiers in the store increase
and lie below `next_id`. -/
theorem objects_of_loopRun
    (hrun : Run (ofPartial loopStep)
      (newLoop (newClient serverPort connectSocket bufferSizePriv) szName nType nId stdin)
      outcomes last) (hrounds : outcomes.length < 2 ^ 31) :
    (last.world.client.objects.Pairwise fun earlier later ↦ earlier.nId < later.nId) ∧
      ∀ obj ∈ last.world.client.objects, 0 ≤ obj.nId ∧ obj.nId < last.world.client.nextId := by
  obtain ⟨commands, world, hcommands, hlength, hsame⟩ :=
    commands_of_loopRun hrun (sameCore_newLoop _)
  have hcreates : creates commands ≤ commands.length := List.countP_le_length
  have hfresh : (0 : ℤ) + creates commands < 2 ^ 31 := by omega
  obtain ⟨issuer, htracks, -, -⟩ :=
    (tracks_newClient serverPort connectSocket bufferSizePriv).run hcommands hfresh
  rw [← hsame.client]
  exact ⟨htracks.increasing, fun _ ↦ htracks.bounded⟩

end WinProcessThread.TcpClient

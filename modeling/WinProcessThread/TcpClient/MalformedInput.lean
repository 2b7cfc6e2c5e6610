import WinProcessThread.TcpClient.CommandLoop
import WinProcessThread.Transition.Run
import Mathlib.Tactic.SplitIfs

/-!
# Commands whose argument does not parse

No branch of the command loop looks at the state of the stream it has read from.  A `connect`
without a colon leaves the loop and one without a port number ends the process; a `destroy` without
a number destroys whatever the failed extraction has stored, on a stream that reads nothing any
more; and a `create` without a type creates an object all the same.
-/

namespace WinProcessThread.TcpClient

open Text Transition

variable {loop : CommandLoop} {outcome : RoundOutcome}

/-- The loop when the round has read its command. -/
def heard (loop : CommandLoop) : CommandLoop :=
  (loop.print prompt).readCommand

/-- The word has no colon, or no number in range follows the first one. -/
def BadWord (input : List Char) : Prop :=
  input.findIdx? (· = ':') = none ∨
    ∃ pos, input.findIdx? (· = ':') = some pos ∧ stoi (input.drop (pos + 1)) = none

/-- The word behind `connect` is no address with a port. -/
def BadEndpoint (loop : CommandLoop) : Prop :=
  BadWord (extractWord loop.cin loop.stdin []).value

/-- The command the loop has just read has an argument that does not parse. -/
def MalformedArgument (loop : CommandLoop) : Prop :=
  loop.command = "connect".toList ∧ BadEndpoint loop ∨
    loop.command = "create".toList ∧
      (extractInt loop.wcin loop.stdin loop.nType).stream.fail = true ∨
    loop.command = "destroy".toList ∧
      (extractInt loop.cin loop.stdin loop.nId).stream.fail = true

/-- The round reads a command with an argument that does not parse. -/
def Malformed (loop : CommandLoop) : Prop :=
  loop.command ≠ "exit".toList ∧ (heard loop).cin.fail = false ∧ MalformedArgument (heard loop)

/-- The objects, `next_id` and the connection are as they were. -/
structure SameClient (before after : World) : Prop where
  objects : after.client.objects = before.client.objects
  nextId : after.client.nextId = before.client.nextId
  serverIp : after.client.serverIp = before.client.serverIp
  serverPort : after.client.serverPort = before.client.serverPort
  connectSocket : after.client.connectSocket = before.client.connectSocket
  handles : ∀ socket, handleState after.log socket = handleState before.log socket

/-- The round changes nothing about the client and the loop goes on reading commands: it is still
running, and the stream it reads them from has not failed. -/
def Ignored (loop : CommandLoop) (roundEnd : RoundEnd) : Prop :=
  ∃ next, roundEnd = .running next ∧ SameClient loop.world next.world ∧ next.cin.fail = false

theorem connectRound_not_ignored (hbad : BadEndpoint loop) (before : CommandLoop) :
    ¬ Ignored before (connectRound outcome loop) := by
  rintro ⟨next, hround, -, -⟩
  unfold connectRound at hround
  rcases hbad with hcolon | ⟨pos, hcolon, hport⟩
  · simp [CommandLoop.print, hcolon] at hround
  · simp [CommandLoop.print, hcolon, hport] at hround

theorem destroyRound_not_ignored
    (hfail : (extractInt loop.cin loop.stdin loop.nId).stream.fail = true)
    (before : CommandLoop) : ¬ Ignored before (destroyRound loop) := by
  rintro ⟨next, hround, -, hcin⟩
  have hnext : next.cin = (extractInt loop.cin loop.stdin loop.nId).stream := by
    rw [← RoundEnd.running.inj hround]
    rfl
  rw [hnext, hfail] at hcin
  cases hcin

theorem createRound_not_ignored {before : CommandLoop}
    (hobjects : loop.world.client.objects = before.world.client.objects) :
    ¬ Ignored before (createRound outcome loop) := by
  rintro ⟨next, hround, hsame, -⟩
  unfold createRound at hround
  dsimp only at hround
  split at hround
  next world hcreate =>
    have hclient := (create_effect hcreate).1
    have hworld : next.world = world := by rw [← RoundEnd.running.inj hround]
    have hlength := congrArg List.length hsame.objects
    rw [hworld, hclient] at hlength
    simp [clientAfter, CommandLoop.readTypeAndName, CommandLoop.print, hobjects] at hlength
  next => cases hround

/-- **Malformed arguments.**  No round with a malformed argument leaves the client as it is and goes
on reading commands. -/
theorem malformed_not_ignored (outcome : RoundOutcome) (hmalformed : Malformed loop) :
    ¬ Ignored loop (round outcome loop) := by
  obtain ⟨hexit, -, hargument⟩ := hmalformed
  rw [round, if_pos hexit]
  change ¬ Ignored loop (dispatch outcome (heard loop))
  unfold dispatch
  rcases hargument with ⟨hcommand, hbad⟩ | ⟨hcommand, -⟩ | ⟨hcommand, hfail⟩
  · rw [if_pos hcommand]
    exact connectRound_not_ignored hbad loop
  · rw [if_neg (by rw [hcommand]; decide), if_pos hcommand]
    exact createRound_not_ignored rfl
  · rw [if_neg (by rw [hcommand]; decide), if_neg (by rw [hcommand]; decide), if_pos hcommand]
    exact destroyRound_not_ignored hfail loop

/-- The branch keeps the command, and a failed stream stays failed. -/
def KeepsFailure (loop next : CommandLoop) : Prop :=
  next.command = loop.command ∧ (loop.cin.fail = true → next.cin.fail = true)

theorem keepsFailure_connectRound {next : CommandLoop}
    (hround : connectRound outcome loop = .running next) : KeepsFailure loop next := by
  have hstream : loop.cin.fail = true →
      (extractWord loop.cin loop.stdin []).stream.fail = true := by
    intro hfail
    rw [extractWord, formatted_of_fail hfail]
    exact hfail
  unfold connectRound at hround
  dsimp only at hround
  split at hround
  · cases hround
  · split at hround
    · cases hround
    · split at hround
      · rw [← RoundEnd.running.inj hround]
        exact ⟨rfl, hstream⟩
      · rw [← RoundEnd.running.inj hround]
        exact ⟨rfl, hstream⟩

theorem keepsFailure_createRound {next : CommandLoop}
    (hround : createRound outcome loop = .running next) : KeepsFailure loop next := by
  unfold createRound at hround
  dsimp only at hround
  split at hround
  · rw [← RoundEnd.running.inj hround]
    exact ⟨rfl, id⟩
  · cases hround

theorem keepsFailure_destroyRound {next : CommandLoop}
    (hround : destroyRound loop = .running next) : KeepsFailure loop next := by
  rw [← RoundEnd.running.inj hround]
  refine ⟨rfl, fun hfail ↦ ?_⟩
  have hstream : (extractInt loop.cin loop.stdin loop.nId).stream.fail = true := by
    rw [extractInt, formatted_of_fail hfail]
    exact hfail
  exact hstream

theorem keepsFailure_dispatch {next : CommandLoop}
    (hround : dispatch outcome loop = .running next) : KeepsFailure loop next := by
  unfold dispatch at hround
  split_ifs at hround
  · exact keepsFailure_connectRound hround
  · exact keepsFailure_createRound hround
  · exact keepsFailure_destroyRound hround
  · rw [← RoundEnd.running.inj hround]
    exact ⟨rfl, id⟩
  · rw [← RoundEnd.running.inj hround]
    exact ⟨rfl, id⟩
  · cases hround
  · rw [← RoundEnd.running.inj hround]
    exact ⟨rfl, id⟩

/-- On a failed stream a round goes on with the command of the round before. -/
theorem round_of_fail (hfail : loop.cin.fail = true) {next : CommandLoop}
    (hround : round outcome loop = .running next) :
    next.cin.fail = true ∧ next.command = loop.command := by
  have hheard : heard loop = loop.print prompt := by
    simp [heard, CommandLoop.readCommand, CommandLoop.print, extractWord, formatted_of_fail hfail]
  unfold round at hround
  split at hround
  · have hkeeps : KeepsFailure (loop.print prompt) next := by
      apply keepsFailure_dispatch
      rw [← hheard]
      exact hround
    exact ⟨hkeeps.2 hfail, hkeeps.1⟩
  · cases hround

/-- Once the stream has failed, no run of the loop reads another command. -/
theorem command_of_run_of_fail {outcomes : List RoundOutcome} {last : CommandLoop}
    (hrun : Run (ofPartial loopStep) loop outcomes last) (hfail : loop.cin.fail = true) :
    last.cin.fail = true ∧ last.command = loop.command := by
  apply hrun.invariant fun last ↦ last.cin.fail = true ∧ last.command = loop.command
  · exact ⟨hfail, rfl⟩
  · intro before outcome after hbefore hstep
    have hround : round outcome before = .running after := running_of_loopStep hstep
    obtain ⟨hafter, hcommand⟩ := round_of_fail hbefore.1 hround
    exact ⟨hafter, hcommand.trans hbefore.2⟩

/-- Every socket call succeeds. -/
def allSucceed : RoundOutcome where
  connect := ⟨0, 4, 0, none⟩
  first := 0
  second := 0
  shutdown := none
  indeterminate := 0

/-- The loop of a new client on this input. -/
def loopOn (stdin : String) : CommandLoop :=
  newLoop (newClient 0 invalidSocket 0) ⟨[], by decide⟩ 0 0 stdin.toList

theorem destroyWord_not_ignored :
    ¬ Ignored (loopOn "destroy abc\nstatus\n")
      (round allSucceed (loopOn "destroy abc\nstatus\n")) :=
  malformed_not_ignored allSucceed
    ⟨by decide, by decide, .inr (.inr ⟨by decide, by decide⟩)⟩

/-- With an object in the store, `destroy abc` destroys it: the failed extraction has stored the
identifier zero. -/
theorem destroyWord_destroys :
    ∃ loop next, Run (ofPartial loopStep) (loopOn "create 1 a\ndestroy abc\nstatus\n") [allSucceed]
        loop ∧
      Malformed loop ∧ round allSucceed loop = .running next ∧
      loop.world.client.objects.length = 1 ∧ next.world.client.objects = [] ∧
      ¬ Ignored loop (round allSucceed loop) := by
  have hloop : ∃ loop, Run (ofPartial loopStep)
      (loopOn "create 1 a\ndestroy abc\nstatus\n") [allSucceed] loop ∧
        decide (loop.command ≠ "exit".toList ∧ (heard loop).cin.fail = false ∧
          (heard loop).command = "destroy".toList ∧
          (extractInt (heard loop).cin (heard loop).stdin (heard loop).nId).stream.fail = true ∧
          loop.world.client.objects.length = 1 ∧
          (loopStep loop allSucceed).map (fun next ↦ next.world.client.objects) = some []) = true :=
    exists_run_of_any (by decide)
  obtain ⟨loop, hrun, htest⟩ := hloop
  obtain ⟨hexit, hcin, hcommand, hfail, hone, hnone⟩ := of_decide_eq_true htest
  obtain ⟨next, hstep, hempty⟩ := Option.map_eq_some_iff.mp hnone
  have hround : round allSucceed loop = .running next := running_of_loopStep hstep
  refine ⟨loop, next, hrun, ⟨hexit, hcin, .inr (.inr ⟨hcommand, hfail⟩)⟩, hround, hone, hempty, ?_⟩
  rintro ⟨other, hother, hsame, -⟩
  have hnext : other = next := RoundEnd.running.inj (hother.symm.trans hround)
  have hobjects := hsame.objects
  rw [hnext, hempty] at hobjects
  rw [← hobjects] at hone
  cases hone

end WinProcessThread.TcpClient

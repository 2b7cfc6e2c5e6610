import WinProcessThread.TcpClient.MalformedInput
import WinProcessThread.Transition.Termination

/-!
# When the command loop ends

How a round ends depends on what it reads only: neither the client nor a socket call has a say in
it.  So the input is taken apart into the requests the loop will read from it.  As long as the
stream has not failed, the loop ends with a request that leaves it or ends the process; afterwards
it repeats the last command for ever, unless that is `connect`, which then reads an empty address.
-/

namespace WinProcessThread.TcpClient

open Text Transition

variable {loop : CommandLoop} {outcome : RoundOutcome}

/-! ## Requests -/

/-- The streams and what they have not read yet. -/
structure Reader where
  cin : InputStream
  wcin : InputStream
  stdin : List Char
deriving DecidableEq, Repr

/-- A command with the word that `connect` reads; the other commands read no word that matters. -/
structure Request where
  command : List Char
  word : List Char
deriving DecidableEq, Repr

namespace Reader

/-- What a round reads behind its command. -/
def readArgument (command : List Char) (reader : Reader) : List Char × Reader :=
  if command = "connect".toList then
    let read := extractWord reader.cin reader.stdin []
    (read.value, { reader with cin := read.stream, stdin := read.unread })
  else if command = "create".toList then
    let readType := extractInt reader.wcin reader.stdin 0
    let noName : CharArray 32 := ⟨[], Nat.succ_pos 31⟩
    let readName := extractArray readType.stream readType.unread noName
    ([], { reader with wcin := readName.stream, stdin := readName.unread })
  else if command = "destroy".toList then
    let read := extractInt reader.cin reader.stdin 0
    ([], { reader with cin := read.stream, stdin := read.unread })
  else
    ([], reader)

/-- The next request; `none` when no command can be read. -/
def next (reader : Reader) : Option (Request × Reader) :=
  let read := extractWord reader.cin reader.stdin []
  if read.stream.fail = true then
    none
  else
    let (word, rest) :=
      readArgument read.value { reader with cin := read.stream, stdin := read.unread }
    some (⟨read.value, word⟩, rest)

/-- The requests up to the first failure to read a command, or as many as `fuel` says. -/
def requests : ℕ → Reader → List Request
  | 0, _ => []
  | fuel + 1, reader =>
    match reader.next with
    | none => []
    | some (request, rest) => request :: requests fuel rest

end Reader

/-- A request with which the loop is left or the process ends. -/
def Request.EndsLoop (request : Request) : Prop :=
  request.command = "exit".toList ∨
    request.command = "connect".toList ∧ BadWord request.word

def CommandLoop.reader (loop : CommandLoop) : Reader where
  cin := loop.cin
  wcin := loop.wcin
  stdin := loop.stdin

/-- The request of a loop that has just read its command. -/
def CommandLoop.request (loop : CommandLoop) : Request where
  command := loop.command
  word := (loop.reader.readArgument loop.command).1

/-! ## One round -/

/-- A good word has a colon with a port behind it. -/
theorem exists_port_of_not_badWord {input : List Char} (hword : ¬ BadWord input) :
    ∃ pos port, input.findIdx? (· = ':') = some pos ∧ stoi (input.drop (pos + 1)) = some port := by
  cases hcolon : input.findIdx? (· = ':') with
  | none => exact absurd (.inl hcolon) hword
  | some pos =>
    cases hport : stoi (input.drop (pos + 1)) with
    | none => exact absurd (.inr ⟨pos, hcolon, hport⟩) hword
    | some port => exact ⟨pos, port, rfl, hport⟩

/-- The word that `connect` reads. -/
def connectWord (loop : CommandLoop) : Extraction (List Char) :=
  extractWord loop.cin loop.stdin []

theorem connectRound_reader (hword : ¬ BadWord (connectWord loop).value) :
    ∃ next, connectRound outcome loop = .running next ∧ next.command = loop.command ∧
      next.reader =
        { loop.reader with
          cin := (connectWord loop).stream
          stdin := (connectWord loop).unread } := by
  obtain ⟨pos, port, hcolon, hport⟩ := exists_port_of_not_badWord hword
  change (connectWord (loop.print connectHelp)).value.findIdx? _ = some pos at hcolon
  change stoi ((connectWord (loop.print connectHelp)).value.drop _) = some port at hport
  unfold connectWord at hcolon hport
  unfold connectRound
  simp only [hcolon, hport]
  split
  · exact ⟨_, rfl, rfl, rfl⟩
  · exact ⟨_, rfl, rfl, rfl⟩

theorem connectRound_of_badWord (hword : BadWord (connectWord loop).value) (next : CommandLoop) :
    connectRound outcome loop ≠ .running next := by
  unfold connectWord at hword
  unfold connectRound
  rcases hword with hcolon | ⟨pos, hcolon, hport⟩
  · simp [CommandLoop.print, hcolon]
  · simp [CommandLoop.print, hcolon, hport]

/-- The name in the array always fits, so `create` returns. -/
theorem createRound_reader :
    ∃ next, createRound outcome loop = .running next ∧ next.command = loop.command ∧
      next.reader = loop.readTypeAndName.reader := by
  have hfits : loop.readTypeAndName.szName.text.length < 32 := loop.readTypeAndName.szName.fits
  unfold createRound
  dsimp only
  generalize hcreate : create _ _ _ _ _ = result
  cases result with
  | none => exact absurd (hcreate.symm.trans (if_pos hfits)) (by simp)
  | some world => exact ⟨_, rfl, rfl, rfl⟩

/-- The argument that a branch reads is the one of the request. -/
theorem readArgument_create (hcommand : loop.command = "create".toList) :
    loop.reader.readArgument loop.command = ([], loop.readTypeAndName.reader) := by
  obtain ⟨htype, hunread⟩ := extractInt_target loop.wcin loop.stdin loop.nType 0
  obtain ⟨hname, hrest⟩ := extractArray_target (extractInt loop.wcin loop.stdin 0).stream
    (extractInt loop.wcin loop.stdin 0).unread loop.szName ⟨[], by decide⟩
  rw [hcommand, Reader.readArgument, if_neg (by decide), if_pos rfl]
  simp only [CommandLoop.reader, CommandLoop.readTypeAndName, htype, hunread, hname, hrest]

theorem readArgument_connect (hcommand : loop.command = "connect".toList) :
    loop.reader.readArgument loop.command =
      ((connectWord loop).value,
        { loop.reader with
          cin := (connectWord loop).stream
          stdin := (connectWord loop).unread }) := by
  rw [hcommand, Reader.readArgument, if_pos rfl]
  rfl

theorem readArgument_destroy (hcommand : loop.command = "destroy".toList) :
    loop.reader.readArgument loop.command = ([], loop.readId.reader) := by
  obtain ⟨hstream, hunread⟩ := extractInt_target loop.cin loop.stdin loop.nId 0
  rw [hcommand, Reader.readArgument, if_neg (by decide), if_neg (by decide), if_pos rfl]
  simp only [CommandLoop.reader, CommandLoop.readId, hstream, hunread]

theorem readArgument_other {command : List Char} {reader : Reader}
    (hconnect : command ≠ "connect".toList) (hcreate : command ≠ "create".toList)
    (hdestroy : command ≠ "destroy".toList) :
    reader.readArgument command = ([], reader) := by
  rw [Reader.readArgument, if_neg hconnect, if_neg hcreate, if_neg hdestroy]

theorem dispatch_of_endsLoop (hends : loop.request.EndsLoop) (next : CommandLoop) :
    dispatch outcome loop ≠ .running next := by
  unfold dispatch
  rcases hends with hexit | ⟨hconnect, hword⟩
  · change loop.command = _ at hexit
    simp [hexit, exitRound]
  · change loop.command = _ at hconnect
    rw [if_pos hconnect]
    rw [CommandLoop.request, readArgument_connect hconnect] at hword
    exact connectRound_of_badWord hword next

/-- A request that does not end the loop is followed by the rest of the input. -/
theorem dispatch_reader (outcome : RoundOutcome) (hgoes : ¬ loop.request.EndsLoop) :
    ∃ next, dispatch outcome loop = .running next ∧ next.command = loop.command ∧
      next.reader = (loop.reader.readArgument loop.command).2 := by
  unfold dispatch
  split_ifs with hconnect hcreate hdestroy hstatus hdisconnect hexit
  · have hread := readArgument_connect hconnect
    have hword : ¬ BadWord (connectWord loop).value := by
      intro hbad
      refine hgoes (.inr ⟨hconnect, ?_⟩)
      rw [CommandLoop.request, hread]
      exact hbad
    rw [hread]
    exact connectRound_reader hword
  · rw [readArgument_create hcreate]
    exact createRound_reader
  · rw [readArgument_destroy hdestroy]
    exact ⟨_, rfl, rfl, rfl⟩
  · rw [readArgument_other hconnect hcreate hdestroy]
    exact ⟨_, rfl, rfl, rfl⟩
  · rw [readArgument_other hconnect hcreate hdestroy]
    exact ⟨_, rfl, rfl, rfl⟩
  · exact absurd (.inl hexit) hgoes
  · rw [readArgument_other hconnect hcreate hdestroy]
    exact ⟨_, rfl, rfl, rfl⟩

theorem loopStep_of_endsLoop (outcome : RoundOutcome) (hends : (heard loop).request.EndsLoop) :
    loopStep loop outcome = none := by
  cases hstep : loopStep loop outcome with
  | none => rfl
  | some next =>
    have hround := running_of_loopStep hstep
    unfold round at hround
    split at hround
    · exact absurd hround (dispatch_of_endsLoop hends next)
    · cases hround

theorem loopStep_reader (outcome : RoundOutcome) (hexit : loop.command ≠ "exit".toList)
    (hgoes : ¬ (heard loop).request.EndsLoop) :
    ∃ next, loopStep loop outcome = some next ∧ next.command = (heard loop).command ∧
      next.reader = ((heard loop).reader.readArgument (heard loop).command).2 := by
  obtain ⟨next, hdispatch, hnext⟩ := dispatch_reader outcome hgoes
  refine ⟨next, ?_, hnext⟩
  have hround : round outcome loop = .running next := (if_pos hexit).trans hdispatch
  rw [loopStep, hround]

/-! ## The end of the input -/

/-- No command can be read any more, and the one that is held does not end the loop. -/
structure Stuck (loop : CommandLoop) : Prop where
  fail : loop.cin.fail = true
  exit : loop.command ≠ "exit".toList
  connect : loop.command ≠ "connect".toList

theorem stuck_heard (hstuck : Stuck loop) : Stuck (heard loop) := by
  have hheard : heard loop = loop.print prompt := by
    simp [heard, CommandLoop.readCommand, CommandLoop.print, extractWord,
      formatted_of_fail hstuck.fail]
  rw [hheard]
  exact ⟨hstuck.fail, hstuck.exit, hstuck.connect⟩

theorem Stuck.not_endsLoop (hstuck : Stuck loop) : ¬ loop.request.EndsLoop := by
  rintro (hexit | ⟨hconnect, -⟩)
  · exact hstuck.exit hexit
  · exact hstuck.connect hconnect

theorem loopStep_of_stuck (hstuck : Stuck (heard loop)) (hexit : loop.command ≠ "exit".toList)
    (outcome : RoundOutcome) : ∃ next, loopStep loop outcome = some next ∧ Stuck next := by
  obtain ⟨next, hstep, hcommand, -⟩ := loopStep_reader outcome hexit hstuck.not_endsLoop
  have hround : dispatch outcome (heard loop) = .running next :=
    (if_pos hexit).symm.trans (running_of_loopStep hstep)
  have hfail : next.cin.fail = true := (keepsFailure_dispatch hround).2 hstuck.fail
  refine ⟨next, hstep, hfail, ?_, ?_⟩
  · rw [hcommand]
    exact hstuck.exit
  · rw [hcommand]
    exact hstuck.connect

/-- When no command can be read and the one that is held does not end the loop, it goes on for
ever. -/
theorem not_terminates_of_stuck (hstuck : Stuck (heard loop))
    (hexit : loop.command ≠ "exit".toList) (outcomes : ℕ → RoundOutcome) :
    ¬ Terminates loopStep loop outcomes := by
  apply not_terminates_of_invariant fun loop ↦
    Stuck (heard loop) ∧ loop.command ≠ "exit".toList
  · exact ⟨hstuck, hexit⟩
  · rintro state outcome ⟨hstate, hcommand⟩
    obtain ⟨next, hstep, hnext⟩ := loopStep_of_stuck hstate hcommand outcome
    exact ⟨next, hstep, stuck_heard hnext, hnext.exit⟩

/-- A last `connect` reads an empty address, which leaves the loop. -/
theorem endsLoop_of_connect (hfail : loop.cin.fail = true)
    (hconnect : loop.command = "connect".toList) : loop.request.EndsLoop := by
  have hword : (connectWord loop).value = [] := by
    rw [connectWord, extractWord, formatted_of_fail hfail]
  refine .inr ⟨hconnect, .inl ?_⟩
  rw [CommandLoop.request, readArgument_connect hconnect, hword]
  rfl

/-! ## Reading the input -/

theorem heard_eq {read : Extraction (List Char)}
    (hread : extractWord loop.cin loop.stdin loop.command = read) :
    heard loop =
      { loop.print prompt with
        command := read.value
        cin := read.stream
        stdin := read.unread } := by
  rw [← hread]
  rfl

/-- The command cannot be read, and the loop holds the one it had. -/
theorem heard_of_next_none (hnext : loop.reader.next = none) :
    (heard loop).cin.fail = true ∧ (heard loop).command = loop.command := by
  rcases extractWord_cases loop.cin loop.stdin with hread | ⟨_, _, _, -, hread⟩
  · obtain ⟨hvalue, hfail⟩ := hread loop.command
    rw [heard_eq rfl]
    exact ⟨hfail, hvalue⟩
  · simp [Reader.next, CommandLoop.reader, hread] at hnext

/-- The command is read, and it takes at least one character. -/
theorem heard_of_next_some {request : Request} {rest : Reader}
    (hnext : loop.reader.next = some (request, rest)) :
    (heard loop).request = request ∧
      ((heard loop).reader.readArgument (heard loop).command).2 = rest ∧
      (heard loop).stdin.length < loop.stdin.length := by
  rcases extractWord_cases loop.cin loop.stdin with hread | ⟨word, eof, unread, hlength, hread⟩
  · simp [Reader.next, CommandLoop.reader, (hread []).2] at hnext
  · simp only [Reader.next, CommandLoop.reader, hread, Bool.false_eq_true, if_false,
      Option.some.injEq, Prod.mk.injEq] at hnext
    obtain ⟨hrequest, hrest⟩ := hnext
    rw [heard_eq (hread loop.command)]
    exact ⟨hrequest, hrest, hlength⟩

/-- No argument gives characters back. -/
theorem length_readArgument (command : List Char) (reader : Reader) :
    (reader.readArgument command).2.stdin.length ≤ reader.stdin.length := by
  unfold Reader.readArgument
  split_ifs with hconnect hcreate hdestroy
  · exact length_extractWord_unread _ _ _
  · calc
      _ ≤ (extractInt reader.wcin reader.stdin 0).unread.length :=
        length_extractArray_unread _ _ _
      _ ≤ reader.stdin.length := length_extractInt_unread _ _ _
  · exact length_extractInt_unread _ _ _
  · exact le_rfl

/-- A request that does not end the loop leads to the next one, with less of the input left. -/
theorem loopStep_of_goesOn {request : Request} {rest : Reader}
    (hexit : loop.command ≠ "exit".toList) (hnext : loop.reader.next = some (request, rest))
    (hgoes : ¬ request.EndsLoop) (outcome : RoundOutcome) :
    ∃ next, loopStep loop outcome = some next ∧ next.command = request.command ∧
      next.reader = rest ∧ next.stdin.length < loop.stdin.length := by
  obtain ⟨hrequest, hrest, hlength⟩ := heard_of_next_some hnext
  obtain ⟨next, hstep, hcommand, hreader⟩ := loopStep_reader outcome hexit (by rwa [hrequest])
  have hheard : (heard loop).command = request.command := congrArg Request.command hrequest
  have hargument := length_readArgument (heard loop).command (heard loop).reader
  rw [← hreader] at hargument
  exact ⟨next, hstep, hcommand.trans hheard, hreader.trans hrest, hargument.trans_lt hlength⟩

/-! ## The condition -/

/-- The last command of the requests, or the one that was held before. -/
def lastCommand (command : List Char) (requests : List Request) : List Char :=
  requests.foldl (fun _ request ↦ request.command) command

/-- From a loop that has not been left, it ends exactly when one of the requests it will read ends
it or when the last command is `connect`. -/
theorem terminates_iff_requests {fuel : ℕ} (hexit : loop.command ≠ "exit".toList)
    (hfuel : loop.stdin.length < fuel) (outcomes : ℕ → RoundOutcome) :
    Terminates loopStep loop outcomes ↔
      (∃ request ∈ loop.reader.requests fuel, request.EndsLoop) ∨
        lastCommand loop.command (loop.reader.requests fuel) = "connect".toList := by
  induction fuel generalizing loop outcomes with
  | zero => exact absurd hfuel (Nat.not_lt_zero _)
  | succ fuel ih =>
    cases hnext : loop.reader.next with
    | none =>
      have hrequests : loop.reader.requests (fuel + 1) = [] := by simp [Reader.requests, hnext]
      obtain ⟨hfail, hcommand⟩ := heard_of_next_none hnext
      rw [hrequests]
      by_cases hconnect : loop.command = "connect".toList
      · have hends := endsLoop_of_connect hfail (hcommand.trans hconnect)
        exact iff_of_true (terminates_of_none (loopStep_of_endsLoop _ hends)) (.inr hconnect)
      · have hstuck : Stuck (heard loop) := by
          refine ⟨hfail, ?_, ?_⟩
          · rw [hcommand]
            exact hexit
          · rw [hcommand]
            exact hconnect
        refine iff_of_false (not_terminates_of_stuck hstuck hexit outcomes) ?_
        rintro (⟨request, hrequest, -⟩ | hlast)
        · exact List.not_mem_nil hrequest
        · exact hconnect hlast
    | some read =>
      obtain ⟨request, rest⟩ := read
      have hrequests : loop.reader.requests (fuel + 1) = request :: rest.requests fuel := by
        simp [Reader.requests, hnext]
      rw [hrequests]
      obtain ⟨hrequest, -⟩ := heard_of_next_some hnext
      by_cases hends : request.EndsLoop
      · refine iff_of_true (terminates_of_none (loopStep_of_endsLoop _ ?_)) (.inl ?_)
        · rwa [hrequest]
        · exact ⟨request, List.mem_cons_self, hends⟩
      · obtain ⟨next, hstep, hcommand, hreader, hlength⟩ :=
          loopStep_of_goesOn hexit hnext hends (outcomes 0)
        have hafter : next.command ≠ "exit".toList := by
          rw [hcommand]
          exact fun hleft ↦ hends (.inl hleft)
        have hmem : (∃ other ∈ request :: rest.requests fuel, other.EndsLoop) ↔
            ∃ other ∈ rest.requests fuel, other.EndsLoop := by
          simp [hends]
        have hlast : lastCommand loop.command (request :: rest.requests fuel) =
            lastCommand next.command (rest.requests fuel) := by
          rw [hcommand]
          rfl
        calc
          Terminates loopStep loop outcomes ↔
              Terminates loopStep next fun index ↦ outcomes (index + 1) :=
            terminates_iff_of_some hstep
          _ ↔ (∃ other ∈ next.reader.requests fuel, other.EndsLoop) ∨
                lastCommand next.command (next.reader.requests fuel) = "connect".toList :=
            ih hafter (by omega) _
          _ ↔ _ := by
            rw [hmem, hlast, hreader]

/-- The requests in an input, which the loop reads one after the other. -/
def inputRequests (stdin : List Char) : List Request :=
  Reader.requests (stdin.length + 1) ⟨.fresh, .fresh, stdin⟩

/-- What does not fit in the array of the name is read as the next command. -/
example : inputRequests "create 1 abcdefghijklmnopqrstuvwxyz01234exit".toList =
    [⟨"create".toList, []⟩, ⟨"exit".toList, []⟩] := by
  decide

/-- **Termination.**  Whatever the client is and the socket calls return, the loop ends on an input
exactly when a request in it ends the loop, or its last command is `connect`. -/
theorem loop_terminates_iff (world : World) (szName : CharArray 32) (nType nId : Int32)
    (stdin : List Char) (outcomes : ℕ → RoundOutcome) :
    Terminates loopStep (newLoop world szName nType nId stdin) outcomes ↔
      (∃ request ∈ inputRequests stdin, request.EndsLoop) ∨
        lastCommand [] (inputRequests stdin) = "connect".toList := by
  have hexit : (newLoop world szName nType nId stdin).command ≠ "exit".toList := by
    simp [newLoop]
  exact terminates_iff_requests hexit (Nat.lt_succ_self _) outcomes

/-- After `status` the input is at its end, and the loop prints the status for ever. -/
theorem status_not_terminates :
    ¬ Terminates loopStep (loopOn "status
") fun _ ↦ allSucceed := by
  have hrequests : inputRequests "status
".toList = [⟨"status".toList, []⟩] := by decide
  have hexit : (loopOn "status
").command ≠ "exit".toList := by simp [loopOn, newLoop]
  rw [terminates_iff_requests hexit (Nat.lt_succ_self _)]
  change ¬ ((∃ request ∈ inputRequests "status
".toList, request.EndsLoop) ∨
    lastCommand [] (inputRequests "status
".toList) = "connect".toList)
  rw [hrequests]
  simp [Request.EndsLoop, lastCommand]

end WinProcessThread.TcpClient

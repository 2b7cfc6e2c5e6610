import WinProcessThread.TcpClient.Disconnect

/-!
# The connection that `status` reports

The client keeps no flag that says whether it is connected.  `status` asks the socket for its
pending error instead, and an open socket without one counts as connected.  The link below is what
the calls have really made of the connection; it agrees with the report except behind a successful
shutdown, which leaves the socket open.
-/

namespace WinProcessThread.TcpClient

open Transition

variable {world next : World} {commands : List Command}

inductive Link
  | down
  | up (serverAddress : ServerAddress)
  /-- The sending side is shut down and the socket is still open. -/
  | halfClosed
deriving DecidableEq, Repr

/-- What one call does to the link.  A call that fails here is followed by closing the socket. -/
def Link.after (link : Link) : Call → Link
  | .connect _ serverAddress none => .up serverAddress
  | .connect _ _ (some _) => .down
  | .shutdown _ none => .halfClosed
  | .shutdown _ (some _) => .down
  | _ => link

/-- The link when these calls have been made: up from a `connect` that succeeded until a shutdown
or a `connect` that fails. -/
def link (log : List Call) : Link :=
  log.foldl Link.after .down

@[simp]
theorem link_append (log new : List Call) : link (log ++ new) = new.foldl Link.after (link log) :=
  List.foldl_append

/-- The handle is open exactly when the link is not down, and a link that is up goes to the address
the client has stored. -/
structure LinkTracked (world : World) : Prop where
  isOpen : world.IsOpen ↔ link world.log ≠ .down
  address : ∀ serverAddress, link world.log = .up serverAddress →
    serverAddress = ⟨world.client.serverIp, world.client.serverPort⟩

theorem linkTracked_newClient (serverPort : Int32) (connectSocket : SOCKET)
    (bufferSizePriv : Int32) :
    LinkTracked (newClient serverPort connectSocket bufferSizePriv) := by
  constructor
  · simp [World.IsOpen, newClient, link]
  · intro serverAddress hup
    cases hup

theorem link_append_silent {log new : List Call} (hsilent : Silent new) :
    link (log ++ new) = link log := by
  rw [link_append]
  exact hsilent.foldl_eq (fun _ _ _ ↦ rfl) _

theorem LinkTracked.of_down (hdown : link next.log = .down) (hclosed : ¬ next.IsOpen) :
    LinkTracked next where
  isOpen := iff_of_false hclosed fun hlink ↦ hlink hdown
  address serverAddress hup := by
    rw [hdown] at hup
    cases hup

theorem LinkTracked.of_up
    (hup : link next.log = .up ⟨next.client.serverIp, next.client.serverPort⟩)
    (hopen : next.IsOpen) : LinkTracked next where
  isOpen := by
    apply iff_of_true hopen
    rw [hup]
    exact Link.noConfusion
  address serverAddress hother := by
    rw [hup] at hother
    exact (Link.up.inj hother).symm

theorem LinkTracked.of_halfClosed (hhalf : link next.log = .halfClosed) (hopen : next.IsOpen) :
    LinkTracked next where
  isOpen := by
    apply iff_of_true hopen
    rw [hhalf]
    exact Link.noConfusion
  address serverAddress hup := by
    rw [hhalf] at hup
    cases hup

theorem LinkTracked.connect {ip : List Char} {port : Int32} {outcome : ConnectOutcome}
    (hclient : next.client = clientAfter world.client (.connectS ip port outcome))
    (hlog : next.log =
      world.log ++ connectCalls world.client.connectSocket ip port outcome) :
    LinkTracked next := by
  have hsocket : next.client.connectSocket = outcome.socket := by
    rw [hclient]
    rfl
  by_cases hinvalid : outcome.socket = invalidSocket
  · apply LinkTracked.of_down
    · rw [hlog]
      simp [connectCalls, hinvalid, closingOnError, Link.after]
    · rw [World.IsOpen, hsocket, hinvalid, handleState_invalidSocket]
      exact Handle.noConfusion
  · cases hconnect : outcome.connect with
    | none =>
      apply LinkTracked.of_up
      · rw [hlog, hclient]
        simp [connectCalls, hinvalid, hconnect, closingOnError, Link.after, clientAfter]
      · rw [World.IsOpen, hsocket, hlog]
        simp [connectCalls, hinvalid, hconnect, closingOnError, handleState_append, Handle.after]
    | some code =>
      apply LinkTracked.of_down
      · rw [hlog]
        simp [connectCalls, hinvalid, hconnect, closingOnError, Link.after]
      · rw [World.IsOpen, hsocket, hlog]
        simp [connectCalls, hinvalid, hconnect, closingOnError, handleState_append, Handle.after]

/-- A shutdown half-closes the open socket, or closes it when it fails. -/
theorem LinkTracked.shutdown {first second : Int32} {lastError : Option Int32}
    (hopen : world.IsOpen)
    (hsocket : next.client.connectSocket = world.client.connectSocket)
    (hlog : next.log = world.log ++ (checkCalls world first second ++
      closingOnError world.client.connectSocket (.shutdown world.client.connectSocket)
        lastError)) :
    LinkTracked next := by
  have hstate : handleState world.log world.client.connectSocket = .opened := hopen
  have hsilent := silent_checkCalls world first second
  have hhandle : handleState next.log next.client.connectSocket =
      (closingOnError world.client.connectSocket (.shutdown world.client.connectSocket)
        lastError).foldl (Handle.after world.client.connectSocket) .opened := by
    calc
      handleState next.log next.client.connectSocket =
          handleState ((world.log ++ checkCalls world first second) ++
            closingOnError world.client.connectSocket (.shutdown world.client.connectSocket)
              lastError) world.client.connectSocket := by
        rw [hsocket, hlog, ← List.append_assoc]
      _ = (closingOnError world.client.connectSocket (.shutdown world.client.connectSocket)
            lastError).foldl (Handle.after world.client.connectSocket) .opened := by
        rw [handleState_append, handleState_checkCalls, hstate]
  have hlink : link next.log =
      (closingOnError world.client.connectSocket (.shutdown world.client.connectSocket)
        lastError).foldl Link.after (link world.log) := by
    rw [hlog, ← List.append_assoc, link_append, link_append_silent hsilent]
  cases lastError with
  | none => exact .of_halfClosed hlink hhandle
  | some code =>
    apply LinkTracked.of_down hlink
    rw [World.IsOpen, hhandle]
    simp [closingOnError, Handle.after]

theorem LinkTracked.step {command : Command} (htracked : LinkTracked world)
    (hexec : exec world command = some next) : LinkTracked next := by
  have hclient := exec_client hexec
  have hlog := exec_log hexec
  rcases command_cases world command with ⟨ip, port, outcome, rfl⟩ |
    ⟨first, second, shutdown, rfl, hempty, husable⟩ | ⟨hsilent, hsocket, hip, hport⟩
  · exact .connect hclient hlog
  · have hsocket : next.client.connectSocket = world.client.connectSocket := by
      rw [hclient]
      rfl
    rw [calls, if_pos hempty, disconnectCalls, if_pos husable] at hlog
    exact .shutdown husable.1 hsocket hlog
  · rw [← hclient] at hsocket hip hport
    have hlink : link next.log = link world.log := by
      rw [hlog, link_append_silent hsilent]
    constructor
    · rw [hlink, World.IsOpen, hsocket, hlog, handleState_append_silent hsilent]
      exact htracked.isOpen
    · rw [hlink, hip, hport]
      exact htracked.address

theorem linkTracked_of_run {serverPort : Int32} {connectSocket : SOCKET} {bufferSizePriv : Int32}
    (hrun : Run (ofPartial exec) (newClient serverPort connectSocket bufferSizePriv)
      commands world) : LinkTracked world := by
  apply hrun.invariant LinkTracked
  · exact linkTracked_newClient serverPort connectSocket bufferSizePriv
  · intro before command after htracked hexec
    exact htracked.step hexec

end WinProcessThread.TcpClient

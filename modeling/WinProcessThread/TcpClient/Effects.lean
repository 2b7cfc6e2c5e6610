import WinProcessThread.TcpClient.Client
import Mathlib.Tactic.Tauto

/-!
# What a command does

For every function of the client, the socket calls it adds to the log and the fields of the client
it changes.  `exec_log` and `exec_client` collect them for the five commands; the modules that
follow read a step of a run off these two and do not unfold the commands again.
-/

namespace WinProcessThread.TcpClient

variable {world after : World} {socket : SOCKET}

/-- The handle the client holds is an open socket. -/
def World.IsOpen (world : World) : Prop :=
  handleState world.log world.client.connectSocket = .opened

instance (world : World) : Decidable world.IsOpen :=
  inferInstanceAs (Decidable (_ = _))

/-! ## Checking the connection -/

/-- The query of the socket error that `check_connection_state` makes. -/
def checkCall (world : World) (pending : Int32) : Call :=
  .getsockopt world.client.connectSocket (if world.IsOpen then some pending else none)

theorem checkConnectionState_eq (world : World) (pending : Int32) :
    checkConnectionState world.client.connectSocket pending world =
      (if world.IsOpen ∧ pending = 0 then 0 else 1, world.call (checkCall world pending)) := by
  by_cases hopen : world.IsOpen
  · have hstate : handleState world.log world.client.connectSocket = .opened := hopen
    by_cases hpending : pending = 0
    · simp [checkConnectionState, checkCall, hstate, hopen, hpending]
    · simp [checkConnectionState, checkCall, hstate, hopen, hpending]
  · have hstate : handleState world.log world.client.connectSocket ≠ .opened := hopen
    simp [checkConnectionState, checkCall, hstate, hopen]

/-- Querying the error of a socket neither opens nor closes one. -/
@[simp]
theorem after_checkCall (world : World) (pending : Int32) (handle : Handle) :
    Handle.after socket handle (checkCall world pending) = handle := rfl

@[simp]
theorem isOpen_check (world : World) (pending : Int32) :
    (world.call (checkCall world pending)).IsOpen ↔ world.IsOpen := by
  simp only [World.IsOpen, World.call_log, World.call_client, handleState_snoc, after_checkCall]

@[simp]
theorem checkCall_check (world : World) (pending second : Int32) :
    checkCall (world.call (checkCall world pending)) second = checkCall world second := by
  unfold checkCall
  rw [World.call_client]
  exact congrArg _ (if_congr (isOpen_check world pending) rfl rfl)

/-- One of the two checks of `status` and `disconnect_s` reports a usable socket. -/
def Usable (world : World) (first second : Int32) : Prop :=
  world.IsOpen ∧ (first = 0 ∨ second = 0)

instance (world : World) (first second : Int32) : Decidable (Usable world first second) :=
  inferInstanceAs (Decidable (_ ∧ _))

/-- The queries of `checkTwice`: the second one is made when the first reports an error. -/
def checkCalls (world : World) (first second : Int32) : List Call :=
  if world.IsOpen ∧ first = 0 then
    [checkCall world first]
  else
    [checkCall world first, checkCall world second]

theorem checkTwice_eq (world : World) (first second : Int32) :
    checkTwice first second world =
      (decide (Usable world first second),
        { world with log := world.log ++ checkCalls world first second }) := by
  have hsecond := checkConnectionState_eq (world.call (checkCall world first)) second
  simp only [World.call_client, isOpen_check, checkCall_check] at hsecond
  rw [checkTwice, checkConnectionState_eq]
  by_cases hfirst : world.IsOpen ∧ first = 0
  · simp [hfirst, Usable, checkCalls, World.call]
  · have hcalls : (world.call (checkCall world first)).call (checkCall world second) =
        { world with log := world.log ++ checkCalls world first second } := by
      simp [World.call, checkCalls, hfirst]
    have husable : Usable world first second ↔ world.IsOpen ∧ second = 0 := by
      unfold Usable
      tauto
    simp only [hfirst, if_false, World.call_client, hsecond, hcalls, husable, ne_eq,
      not_true_eq_false]
    by_cases hnext : world.IsOpen ∧ second = 0
    · simp [hnext]
    · simp [hnext]

theorem silent_checkCalls (world : World) (first second : Int32) :
    Silent (checkCalls world first second) := by
  intro call hcall
  unfold checkCalls at hcall
  split at hcall
  · rw [List.mem_singleton.mp hcall]
    exact ⟨_, _, rfl⟩
  · rcases List.mem_pair.mp hcall with hfirst | hsecond
    · exact ⟨_, _, hfirst⟩
    · exact ⟨_, _, hsecond⟩

@[simp]
theorem handleState_checkCalls (world : World) (first second : Int32) :
    handleState (world.log ++ checkCalls world first second) socket =
      handleState world.log socket :=
  handleState_append_silent (silent_checkCalls world first second) socket

/-! ## Connecting and shutting down -/

/-- A call on a socket that is closed, with the clean-up, when the call fails. -/
def closingOnError (socket : SOCKET) (call : Option Int32 → Call) : Option Int32 → List Call
  | none => [call none]
  | some code => [call (some code), .closesocket socket, .wsaCleanup]

@[simp]
theorem wsta_client (iResult : Int32) (world : World) :
    (wsta iResult world).client = world.client := by
  unfold wsta
  split <;> rfl

@[simp]
theorem wsta_log (iResult : Int32) (world : World) :
    (wsta iResult world).log = world.log ++ [.wsaStartup iResult] := by
  unfold wsta
  split <;> rfl

@[simp]
theorem sockCli_client (result : SOCKET) (lastError : Int32) (world : World) :
    (sockCli result lastError world).client =
      { world.client with connectSocket := result } := by
  unfold sockCli
  dsimp only
  split <;> rfl

@[simp]
theorem sockCli_log (result : SOCKET) (lastError : Int32) (world : World) :
    (sockCli result lastError world).log =
      world.log ++ .socket world.client.connectSocket result ::
        (if result = invalidSocket then [.wsaCleanup] else []) := by
  unfold sockCli
  dsimp only
  split <;> simp

@[simp]
theorem callOrClose_client (connectSocket : SOCKET) (call : Option Int32 → Call)
    (errorText : String) (lastError : Option Int32) (world : World) :
    (callOrClose connectSocket call errorText lastError world).2.client = world.client := by
  unfold callOrClose
  dsimp only
  split <;> rfl

@[simp]
theorem callOrClose_log (connectSocket : SOCKET) (call : Option Int32 → Call)
    (errorText : String) (lastError : Option Int32) (world : World) :
    (callOrClose connectSocket call errorText lastError world).2.log =
      world.log ++ closingOnError connectSocket call
        (onSocket connectSocket lastError world) := by
  unfold callOrClose
  dsimp only
  split <;> simp [closingOnError, *]

/-- The calls of one `connect_s`.  Without a socket, both `sock_cli` and `connect_too` clean up. -/
def connectCalls (held : SOCKET) (ip : List Char) (port : Int32) (outcome : ConnectOutcome) :
    List Call :=
  let opening := [.wsaStartup outcome.wsaStartup, .socket held outcome.socket]
  if outcome.socket = invalidSocket then
    opening ++ [.wsaCleanup] ++
      closingOnError invalidSocket (.connect invalidSocket ⟨ip, port⟩) (some wsaENotSock)
  else
    opening ++ closingOnError outcome.socket (.connect outcome.socket ⟨ip, port⟩) outcome.connect

@[simp]
theorem connectS_client (ip : List Char) (port : Int32) (outcome : ConnectOutcome)
    (world : World) :
    (connectS ip port outcome world).client =
      { world.client with
        serverIp := ip
        serverPort := port
        connectSocket := outcome.socket } := by
  unfold connectS connectToo
  dsimp only
  split <;> simp

@[simp]
theorem connectS_log (ip : List Char) (port : Int32) (outcome : ConnectOutcome) (world : World) :
    (connectS ip port outcome world).log =
      world.log ++ connectCalls world.client.connectSocket ip port outcome := by
  unfold connectS connectToo connectCalls
  dsimp only
  by_cases hinvalid : outcome.socket = invalidSocket
  · split <;> simp [hinvalid, onSocket]
  · split <;> simp [hinvalid, onSocket, handleState_append, Handle.after]

/-! ## The client behind a command -/

/-- The object a `create` appends. -/
def newObject (client : Client) (nType : Int32) (szName : List Char) (indeterminate : Int32) :
    Object :=
  ⟨client.nextId, szName, nType, [], indeterminate⟩

/-- The client behind one command. -/
def clientAfter (client : Client) : Command → Client
  | .connectS ip port outcome =>
    { client with
      serverIp := ip
      serverPort := port
      connectSocket := outcome.socket }
  | .create nType szName indeterminate _ =>
    { client with
      objects := client.objects ++ [newObject client nType szName indeterminate]
      nextId := client.nextId + 1
      bufferSizePriv := sizeofObject }
  | .destroy id =>
    { client with
      objects := client.objects.eraseP fun obj ↦ obj.nId = id }
  | .status _ _ => client
  | .disconnectS _ _ _ => { client with objects := client.objects.tail }

theorem transmit_eq (obj buffer : Object) (pending : Int32) (world : World) :
    transmit obj buffer pending world =
      if world.IsOpen ∧ pending = 0 then
        ((world.call (checkCall world pending)).print sendFailed).print
          (objectSendTo world.client.serverIp world.client.serverPort)
      else
        world.call (checkCall world pending) := by
  rw [transmit, checkConnectionState_eq]
  by_cases hopen : world.IsOpen ∧ pending = 0
  · simp [hopen, sendSock]
  · simp [hopen]

theorem create_effect {nType : Int32} {szName : List Char} {indeterminate pending : Int32}
    (hcreate : create nType szName indeterminate pending world = some after) :
    after.client = clientAfter world.client (.create nType szName indeterminate pending) ∧
      after.log = world.log ++ [checkCall world pending] := by
  unfold create at hcreate
  by_cases hname : szName.length < 32
  · simp only [if_pos hname, transmit_eq, Option.some.injEq] at hcreate
    -- Whether the object is sent or not, the client and the calls are the same.
    split at hcreate
    · rw [← hcreate]
      exact ⟨rfl, rfl⟩
    · rw [← hcreate]
      exact ⟨rfl, rfl⟩
  · simp [hname] at hcreate

@[simp]
theorem destroy_client (id : Int32) (world : World) :
    (destroy id world).client = clientAfter world.client (.destroy id) := by
  have herase : world.client.objects.eraseP (fun obj ↦ obj.nId = id) = _ :=
    List.eraseP_eq_eraseIdx
  cases hfind : world.client.objects.findIdx? fun obj ↦ obj.nId = id with
  | none =>
    rw [hfind] at herase
    by_cases hempty : world.client.objects.length = 0
    · simp [destroy, clientAfter, hempty, herase]
    · simp [destroy, clientAfter, hempty, hfind, herase]
  | some i =>
    rw [hfind] at herase
    by_cases hempty : world.client.objects.length = 0
    · have hnil : world.client.objects = [] := List.length_eq_zero_iff.mp hempty
      simp [hnil] at hfind
    · simp [destroy, clientAfter, hempty, hfind, herase]

@[simp]
theorem destroy_log (id : Int32) (world : World) : (destroy id world).log = world.log := by
  unfold destroy
  dsimp only
  split
  · rfl
  · split <;> rfl

/-- The messages of the listing part of `status`. -/
def listing (size : ℕ) : List Message :=
  if size = 0 then
    [numberOfObjects 0, newline]
  else
    (List.range size).map objectWithId ++ [numberOfObjects size, newline]

theorem foldl_print {Index : Type*} (message : Index → Message) (indices : List Index)
    (world : World) :
    indices.foldl (fun world i ↦ world.print (message i)) world =
      { world with printed := world.printed ++ indices.map message } := by
  induction indices generalizing world with
  | nil => simp
  | cons index rest ih =>
    rw [List.foldl_cons, ih]
    simp [World.print]

/-- `status` prints the endpoint when one of its checks succeeds, then the listing. -/
theorem status_eq (first second : Int32) (world : World) :
    status first second world =
      { world with
        log := world.log ++ checkCalls world first second
        printed := world.printed ++
          (if Usable world first second then
            [connectedTo world.client.serverIp world.client.serverPort] else []) ++
          listing world.client.objects.length } := by
  unfold status
  rw [checkTwice_eq]
  simp only [foldl_print]
  by_cases husable : Usable world first second
  · by_cases hempty : world.client.objects.length = 0
    · simp [husable, hempty, listing, World.print]
    · simp [husable, hempty, listing, World.print]
  · by_cases hempty : world.client.objects.length = 0
    · simp [husable, hempty, listing, World.print]
    · simp [husable, hempty, listing, World.print]

/-- The calls of the second half of `disconnect_s`. -/
def disconnectCalls (world : World) (first second : Int32) (shutdown : Option Int32) : List Call :=
  if Usable world first second then
    checkCalls world first second ++
      closingOnError world.client.connectSocket (.shutdown world.client.connectSocket) shutdown
  else
    checkCalls world first second

theorem onSocket_checkCalls (hopen : world.IsOpen) (first second : Int32)
    (lastError : Option Int32) :
    onSocket world.client.connectSocket lastError
        { world with log := world.log ++ checkCalls world first second } = lastError := by
  unfold onSocket
  rw [handleState_checkCalls]
  exact if_pos hopen

@[simp]
theorem disconnectSocket_client (first second : Int32) (shutdown : Option Int32) (world : World) :
    (disconnectSocket first second shutdown world).client = world.client := by
  rw [disconnectSocket, checkTwice_eq]
  dsimp only
  split <;> simp [disconnect]

@[simp]
theorem disconnectSocket_log (first second : Int32) (shutdown : Option Int32) (world : World) :
    (disconnectSocket first second shutdown world).log =
      world.log ++ disconnectCalls world first second shutdown := by
  rw [disconnectSocket, checkTwice_eq, disconnectCalls]
  by_cases husable : Usable world first second
  · simp [husable, disconnect, onSocket_checkCalls husable.1]
  · simp [husable]

theorem disconnectS_of_empty (hempty : world.client.objects = []) (first second : Int32)
    (shutdown : Option Int32) :
    disconnectS first second shutdown world =
      disconnectSocket first second shutdown (world.print (numberOfObjects 0)) := by
  simp [disconnectS, hempty]

theorem disconnectS_of_ne_nil (hobjects : world.client.objects ≠ []) (first second : Int32)
    (shutdown : Option Int32) :
    disconnectS first second shutdown world =
      { world with client := { world.client with objects := world.client.objects.tail } }.print
        (destroyedObject 0) := by
  simp [disconnectS, hobjects]

/-! ## The five commands -/

/-- The socket calls of one command. -/
def calls (world : World) : Command → List Call
  | .connectS ip port outcome => connectCalls world.client.connectSocket ip port outcome
  | .create _ _ _ pending => [checkCall world pending]
  | .destroy _ => []
  | .status first second => checkCalls world first second
  | .disconnectS first second shutdown =>
    if world.client.objects = [] then disconnectCalls world first second shutdown else []

theorem disconnectS_effect (first second : Int32) (shutdown : Option Int32) (world : World) :
    (disconnectS first second shutdown world).client =
        clientAfter world.client (.disconnectS first second shutdown) ∧
      (disconnectS first second shutdown world).log =
        world.log ++ calls world (.disconnectS first second shutdown) := by
  rw [clientAfter, calls]
  by_cases hempty : world.client.objects = []
  · have hsame : world.client.objects.tail = world.client.objects := by
      rw [hempty]
      rfl
    rw [disconnectS_of_empty hempty, disconnectSocket_client, disconnectSocket_log, if_pos hempty,
      hsame]
    exact ⟨rfl, rfl⟩
  · rw [disconnectS_of_ne_nil hempty, if_neg hempty, List.append_nil]
    exact ⟨rfl, rfl⟩

theorem exec_client {command : Command} (hexec : exec world command = some after) :
    after.client = clientAfter world.client command := by
  cases command with
  | connectS ip port outcome =>
    rw [← Option.some.inj hexec, connectS_client]
    rfl
  | create nType szName indeterminate pending => exact (create_effect hexec).1
  | destroy id => rw [← Option.some.inj hexec, destroy_client]
  | status first second =>
    rw [← Option.some.inj hexec, status_eq]
    rfl
  | disconnectS first second shutdown =>
    rw [← Option.some.inj hexec]
    exact (disconnectS_effect first second shutdown world).1

theorem exec_log {command : Command} (hexec : exec world command = some after) :
    after.log = world.log ++ calls world command := by
  cases command with
  | connectS ip port outcome =>
    rw [← Option.some.inj hexec, connectS_log]
    rfl
  | create nType szName indeterminate pending => exact (create_effect hexec).2
  | destroy id =>
    rw [← Option.some.inj hexec, destroy_log]
    simp [calls]
  | status first second =>
    rw [← Option.some.inj hexec, status_eq]
    rfl
  | disconnectS first second shutdown =>
    rw [← Option.some.inj hexec]
    exact (disconnectS_effect first second shutdown world).2

/-- A command connects, or shuts the open socket down, or makes no call but error queries and
keeps the handle and the address of the client. -/
theorem command_cases (world : World) (command : Command) :
    (∃ ip port outcome, command = .connectS ip port outcome) ∨
      (∃ first second shutdown, command = .disconnectS first second shutdown ∧
        world.client.objects = [] ∧ Usable world first second) ∨
      (Silent (calls world command) ∧
        (clientAfter world.client command).connectSocket = world.client.connectSocket ∧
        (clientAfter world.client command).serverIp = world.client.serverIp ∧
        (clientAfter world.client command).serverPort = world.client.serverPort) := by
  cases command with
  | connectS ip port outcome => exact .inl ⟨ip, port, outcome, rfl⟩
  | create nType szName indeterminate pending =>
    refine .inr (.inr ⟨?_, rfl, rfl, rfl⟩)
    intro call hcall
    rw [List.mem_singleton.mp hcall]
    exact ⟨_, _, rfl⟩
  | destroy id =>
    refine .inr (.inr ⟨?_, rfl, rfl, rfl⟩)
    simp [Silent, calls]
  | status first second => exact .inr (.inr ⟨silent_checkCalls world first second, rfl, rfl, rfl⟩)
  | disconnectS first second shutdown =>
    by_cases hends : world.client.objects = [] ∧ Usable world first second
    · exact .inr (.inl ⟨first, second, shutdown, rfl, hends⟩)
    · refine .inr (.inr ⟨?_, rfl, rfl, rfl⟩)
      rw [calls]
      by_cases hempty : world.client.objects = []
      · have husable : ¬ Usable world first second := fun h ↦ hends ⟨hempty, h⟩
        rw [if_pos hempty, disconnectCalls, if_neg husable]
        exact silent_checkCalls world first second
      · rw [if_neg hempty]
        simp [Silent]

end WinProcessThread.TcpClient

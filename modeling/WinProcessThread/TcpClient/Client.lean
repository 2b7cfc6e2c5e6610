import WinProcessThread.TcpClient.Winsock

/-!
# The client and its commands

Each definition follows one member function of `Client`.  A world is a client together with the
socket calls it has made and the messages it has printed.  Outcomes of socket calls are inputs of
the function that makes the call; a call on a handle that is no open socket fails whatever its
input says.

The server half of the class (`sock_server`, `socket_bind`, `listen_serv`, `accept_serv` and the
two handles they use) is not reachable from any command and is left out.
-/

namespace WinProcessThread.TcpClient

/-- `szName` is the text in the array up to its terminating NUL. -/
structure Object where
  nId : Int32
  szName : List Char
  nType : Int32
  serverIp : List Char
  serverPort : Int32
deriving DecidableEq, Repr

structure Client where
  serverIp : List Char
  serverPort : Int32
  objects : List Object
  nextId : Int32
  connectSocket : SOCKET
  bufferSizePriv : Int32
deriving DecidableEq, Repr

inductive Console
  | cout
  | cerr
  | wcout
deriving DecidableEq, Repr

/-- The output of one statement that inserts into a console stream. -/
structure Message where
  console : Console
  text : List Char
deriving DecidableEq, Repr

structure World where
  client : Client
  log : List Call
  printed : List Message
deriving DecidableEq, Repr

/-- A client that was just constructed.  Only `next_id` has an initialiser; the other numbers and
the handle are whatever was in memory. -/
def newClient (serverPort : Int32) (connectSocket : SOCKET) (bufferSizePriv : Int32) : World where
  client :=
    { serverIp := []
      serverPort := serverPort
      objects := []
      nextId := 0
      connectSocket := connectSocket
      bufferSizePriv := bufferSizePriv }
  log := []
  printed := []

namespace World

variable (world : World)

def call (call : Call) : World :=
  { world with log := world.log ++ [call] }

def print (message : Message) : World :=
  { world with printed := world.printed ++ [message] }

@[simp]
theorem call_client (call : Call) : (world.call call).client = world.client := rfl

@[simp]
theorem call_log (call : Call) : (world.call call).log = world.log ++ [call] := rfl

@[simp]
theorem print_client (message : Message) : (world.print message).client = world.client := rfl

@[simp]
theorem print_log (message : Message) : (world.print message).log = world.log := rfl

end World

def decimal (value : Int32) : List Char :=
  (toString value.toInt).toList

def endpoint (ip : List Char) (port : Int32) : List Char :=
  ip ++ ":".toList ++ decimal port

def nowConnected (ip : List Char) (port : Int32) : Message :=
  ⟨.cout, "[+]Connected to ".toList ++ endpoint ip port ++ "\n".toList⟩

def notConnected (ip : List Char) (port : Int32) : Message :=
  ⟨.cout, "[-]NOT Connected to ".toList ++ endpoint ip port ++ "\n".toList⟩

def connectedTo (ip : List Char) (port : Int32) : Message :=
  ⟨.cout, "Connected to ".toList ++ endpoint ip port ++ "\n".toList⟩

def disconnectedFrom (ip : List Char) (port : Int32) : Message :=
  ⟨.cout, "Disconnected from ".toList ++ endpoint ip port ++ "\n".toList⟩

def noConnections : Message :=
  ⟨.cout, "No connectinons \n".toList⟩

def createdObject (id : Int32) (name : List Char) : Message :=
  ⟨.wcout, "Created object with id ".toList ++ decimal id ++ " and name ".toList ++ name ++
    "\n".toList⟩

def objectSendTo (ip : List Char) (port : Int32) : Message :=
  ⟨.cout, "object send to :".toList ++ endpoint ip port ++ "\n".toList⟩

def numberOfObjects (size : ℕ) : Message :=
  ⟨.cout, "Number of objects: ".toList ++ (toString size).toList ++ "\n".toList⟩

def destroyedObject (id : ℤ) : Message :=
  ⟨.cout, "Destroyed object with id ".toList ++ (toString id).toList ++ "\n".toList⟩

def objectNotFound (id : Int32) : Message :=
  ⟨.cout, "Object with id ".toList ++ decimal id ++ " not found\n".toList⟩

/-- `status` prints the index of the loop here. -/
def objectWithId (i : ℕ) : Message :=
  ⟨.cout, "Object with id ".toList ++ (toString i).toList ++ " , ".toList⟩

def newline : Message :=
  ⟨.cout, "\n".toList⟩

def sendFailed : Message :=
  ⟨.cout, "Send failed\n".toList⟩

/-- The messages on `cerr` that end in an error code. -/
def apiError (text : String) (code : Int32) : Message :=
  ⟨.cerr, text.toList ++ decimal code ++ "\n".toList⟩

/-- `WSTA`.  Its result is never used. -/
def wsta (iResult : Int32) (world : World) : World :=
  let world := world.call (.wsaStartup iResult)
  if iResult ≠ 0 then
    world.print (apiError "WSAStartup failed: " iResult)
  else
    world

/-- `sock_cli`.  Its result is never used. -/
def sockCli (result : SOCKET) (lastError : Int32) (world : World) : World :=
  let world := world.call (.socket world.client.connectSocket result)
  let world := { world with client := { world.client with connectSocket := result } }
  if result = invalidSocket then
    (world.print (apiError "socket() error: " lastError)).call .wsaCleanup
  else
    world

/-- The outcome of a call that needs an open socket. -/
def onSocket (connectSocket : SOCKET) (lastError : Option Int32) (world : World) : Option Int32 :=
  if handleState world.log connectSocket = .opened then lastError else some wsaENotSock

/-- A call on a socket.  When it fails, the socket is closed and Winsock is cleaned up. -/
def callOrClose (connectSocket : SOCKET) (call : Option Int32 → Call) (errorText : String)
    (lastError : Option Int32) (world : World) : Int32 × World :=
  let iResult := onSocket connectSocket lastError world
  let world := world.call (call iResult)
  match iResult with
  | some code =>
    let world := world.print (apiError errorText code)
    (1, (world.call (.closesocket connectSocket)).call .wsaCleanup)
  | none => (0, world)

/-- `connect_too`. -/
def connectToo (connectSocket : SOCKET) (ip : List Char) (port : Int32) (lastError : Option Int32)
    (world : World) : Int32 × World :=
  callOrClose connectSocket (.connect connectSocket ⟨ip, port⟩) "Error at connect(): " lastError
    world

/-- `send_sock`.  `iResult` is still zero when it is compared with `SOCKET_ERROR`, so the branch
that closes the socket is not taken, and the other branch returns before the sending loop. -/
def sendSock (_connectSocket : SOCKET) (_buffer : Object) (_bufferSize : Int32) (world : World) :
    Int32 × World :=
  (1, world.print sendFailed)

/-- `disconnect`. -/
def disconnect (connectSocket : SOCKET) (lastError : Option Int32) (world : World) :
    Int32 × World :=
  callOrClose connectSocket (.shutdown connectSocket) "Error at shutdown(): " lastError world

/-- `check_connection_state`.  An open socket reports its pending error. -/
def checkConnectionState (connectSocket : SOCKET) (pending : Int32) (world : World) :
    Int32 × World :=
  let val := if handleState world.log connectSocket = .opened then some pending else none
  let world := world.call (.getsockopt connectSocket val)
  match val with
  | none => (1, world)
  | some val => if val = 0 then (0, world) else (1, world)

/-- What the socket calls of one `connect_s` return. -/
structure ConnectOutcome where
  wsaStartup : Int32
  socket : SOCKET
  socketError : Int32
  connect : Option Int32
deriving DecidableEq, Repr

/-- `connect_s`. -/
def connectS (ip : List Char) (port : Int32) (outcome : ConnectOutcome) (world : World) : World :=
  let world := { world with client := { world.client with serverIp := ip, serverPort := port } }
  let world := wsta outcome.wsaStartup world
  let world := sockCli outcome.socket outcome.socketError world
  let (iResult, world) := connectToo world.client.connectSocket ip port outcome.connect world
  if iResult = 0 then
    world.print (nowConnected world.client.serverIp world.client.serverPort)
  else
    world.print (notConnected world.client.serverIp world.client.serverPort)

/-- `sizeof Object` in a 64-bit build. -/
def sizeofObject : Int32 := 112

/-- `serialize`: the copied bytes are taken as the record itself. -/
def serialize (obj : Object) (world : World) : Object × World :=
  (obj, { world with client := { world.client with bufferSizePriv := sizeofObject } })

/-- The end of `create`: the object is sent when the connection is in order.  The buffer and the
stored copy were made before the two assignments to `obj`. -/
def transmit (obj buffer : Object) (pending : Int32) (world : World) : World :=
  let (state, world) := checkConnectionState world.client.connectSocket pending world
  if state = 0 then
    let _obj :=
      { obj with serverIp := world.client.serverIp, serverPort := world.client.serverPort }
    let (_, world) := sendSock world.client.connectSocket buffer world.client.bufferSizePriv world
    world.print (objectSendTo world.client.serverIp world.client.serverPort)
  else
    world

/-- `create`.  The local object has an empty `server_ip` and an indeterminate `server_port`.
`wcscpy_s` ends the process when the name does not fit. -/
def create (nType : Int32) (szName : List Char) (indeterminate : Int32) (pending : Int32)
    (world : World) : Option World :=
  let nId := world.client.nextId
  let world := { world with client := { world.client with nextId := nId + 1 } }
  if szName.length < 32 then
    let obj : Object := ⟨nId, szName, nType, [], indeterminate⟩
    let world :=
      { world with client := { world.client with objects := world.client.objects ++ [obj] } }
    let world := world.print (createdObject obj.nId obj.szName)
    let (buffer, world) := serialize obj world
    some (transmit obj buffer pending world)
  else
    none

/-- `destroy`. -/
def destroy (id : Int32) (world : World) : World :=
  let objects := world.client.objects
  if objects.length = 0 then
    (world.print (numberOfObjects 0)).print (objectNotFound id)
  else
    match objects.findIdx? fun obj ↦ obj.nId = id with
    | some i =>
      { world with client := { world.client with objects := objects.eraseIdx i } }.print
        (destroyedObject id.toInt)
    | none => world.print (objectNotFound id)

/-- `check_connection_state(ConnectSocket) != 1 || check_connection_state(ConnectSocket) != 1`. -/
def checkTwice (first second : Int32) (world : World) : Bool × World :=
  let (state, world) := checkConnectionState world.client.connectSocket first world
  if state ≠ 1 then
    (true, world)
  else
    let (state, world) := checkConnectionState world.client.connectSocket second world
    (state ≠ 1, world)

/-- `status`. -/
def status (first second : Int32) (world : World) : World :=
  let (connected, world) := checkTwice first second world
  let world :=
    if connected then
      world.print (connectedTo world.client.serverIp world.client.serverPort)
    else
      world
  let size := world.client.objects.length
  let world :=
    if size = 0 then
      world.print (numberOfObjects 0)
    else
      ((List.range size).foldl (fun world i ↦ world.print (objectWithId i)) world).print
        (numberOfObjects size)
  world.print newline

/-- The second half of `disconnect_s`, which deals with the socket. -/
def disconnectSocket (first second : Int32) (shutdown : Option Int32) (world : World) : World :=
  let (connected, world) := checkTwice first second world
  if connected then
    let (_, world) := disconnect world.client.connectSocket shutdown world
    world.print (disconnectedFrom world.client.serverIp world.client.serverPort)
  else
    world.print noConnections

/-- `disconnect_s`.  The body of its loop ends in `return`, so the loop leaves the function in its
first round and the socket is reached only when there is no object. -/
def disconnectS (first second : Int32) (shutdown : Option Int32) (world : World) : World :=
  let objects := world.client.objects
  if objects.length = 0 then
    disconnectSocket first second shutdown (world.print (numberOfObjects 0))
  else
    let i := 0
    { world with client := { world.client with objects := objects.eraseIdx i } }.print
      (destroyedObject i)

/-- A call of one of the five commands with what its socket calls return. -/
inductive Command
  | connectS (ip : List Char) (port : Int32) (outcome : ConnectOutcome)
  | create (nType : Int32) (szName : List Char) (indeterminate pending : Int32)
  | destroy (id : Int32)
  | status (first second : Int32)
  | disconnectS (first second : Int32) (shutdown : Option Int32)
deriving DecidableEq, Repr

/-- One command; `none` when it ends the process. -/
def exec (world : World) : Command → Option World
  | .connectS ip port outcome => some (connectS ip port outcome world)
  | .create nType szName indeterminate pending => create nType szName indeterminate pending world
  | .destroy id => some (destroy id world)
  | .status first second => some (status first second world)
  | .disconnectS first second shutdown => some (disconnectS first second shutdown world)

end WinProcessThread.TcpClient

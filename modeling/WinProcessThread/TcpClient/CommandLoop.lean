import WinProcessThread.TcpClient.Effects
import WinProcessThread.Text.InputStream
import WinProcessThread.Text.Regex

/-!
# The command loop

`ThreadProc` reads one command after another from the standard input.  The narrow and the wide
stream share the characters of the input, and each has its own state.  The variables of the
function live across the rounds of its loop, so an extraction that leaves its target alone leaves
it as an earlier round did.

The name goes to `wchar_t m_szName[32]`.  For an array the extraction operator of C++20 stops when
31 characters are stored and leaves the rest of a longer word to the next extraction; the operator
of earlier standards takes a pointer and writes behind the array, and what the program does then is
undefined.  The model follows C++20.  It also takes the array to hold a terminator before anything
is read to it: printing it without one is undefined as well.

One round is a function of the loop's state and of the outcomes of the socket calls it may make.
-/

namespace WinProcessThread.TcpClient

open Text

structure CommandLoop where
  world : World
  command : List Char
  szName : CharArray 32
  nType : Int32
  nId : Int32
  cin : InputStream
  wcin : InputStream
  /-- What has not been read yet. -/
  stdin : List Char
deriving DecidableEq, Repr

/-- What the socket calls of a round return, for every call it may make, and the memory that the
local object of `create` finds. -/
structure RoundOutcome where
  connect : ConnectOutcome
  first : Int32
  second : Int32
  shutdown : Option Int32
  indeterminate : Int32
deriving DecidableEq, Repr

/-- How a round ends. -/
inductive RoundEnd
  | running (loop : CommandLoop)
  /-- The loop is left and the thread returns. -/
  | left (world : World)
  /-- `exit(0)`. -/
  | exited (world : World)
  /-- The process has ended by an exception nobody catches or by an invalid parameter. -/
  | terminated
deriving DecidableEq, Repr

namespace CommandLoop

variable (loop : CommandLoop)

def print (message : Message) : CommandLoop :=
  { loop with world := loop.world.print message }

/-- `std::cin >> command`. -/
def readCommand : CommandLoop :=
  let read := extractWord loop.cin loop.stdin loop.command
  { loop with
    command := read.value
    cin := read.stream
    stdin := read.unread }

/-- `std::cin >> m_nId`. -/
def readId : CommandLoop :=
  let read := extractInt loop.cin loop.stdin loop.nId
  { loop with
    nId := read.value
    cin := read.stream
    stdin := read.unread }

/-- `std::wcin >> m_nType >> m_szName`. -/
def readTypeAndName : CommandLoop :=
  let readType := extractInt loop.wcin loop.stdin loop.nType
  let readName := extractArray readType.stream readType.unread loop.szName
  { loop with
    nType := readType.value
    szName := readName.value
    wcin := readName.stream
    stdin := readName.unread }

end CommandLoop

def coutLine (text : String) : Message :=
  ⟨.cout, text.toList ++ "\n".toList⟩

def prompt : Message :=
  ⟨.cout, "> ".toList⟩

def connectHelp : Message :=
  coutLine "<IPv4:Port> --connect to a server"

def createHelp : Message :=
  coutLine
    "<type> <name> --create an object with the specified data, and transmit it to the server : "

def destroyHelp : Message :=
  coutLine "[+]  <object id> -- destroy the object assigned with the specified identifier : "

def statusHelp : Message :=
  coutLine "[+] status -- print information ip and port if connected and all objects"

def disconnectHelp : Message :=
  coutLine
    "disconnect -- should request / notify the server about termination, destroy all objects : "

def exitHelp : Message :=
  coutLine "exit -- request / notify the server about termination, destroy all objects: "

def invalidInput : Message :=
  ⟨.cerr, "Invalid input\n".toList⟩

def connectionLine (ip : List Char) (port : Int32) : Message :=
  ⟨.cout, "Connection  IP: ".toList ++ ip ++ " Port: ".toList ++ decimal port ++ "\n".toList⟩

def notIPv4 : Message :=
  coutLine "Not IPv4 address"

def typeLine (nType : Int32) : Message :=
  ⟨.wcout, "ID: ".toList ++ decimal nType ++ "\n".toList⟩

def nameLine (szName : List Char) : Message :=
  ⟨.wcout, "Name: ".toList ++ szName ++ "\n".toList⟩

/-- `25[0-5]|2[0-4][0-9]|[01]?[0-9][0-9]?`. -/
def octetPattern : Regex :=
  .alt (.seq (.literal "25".toList) (.range '0' '5'))
    (.alt (.seq (.literal "2".toList) (.seq (.range '0' '4') (.range '0' '9')))
      (.seq (.optional (.range '0' '1')) (.seq (.range '0' '9') (.optional (.range '0' '9')))))

/-- The pattern of `ThreadProc` between its two anchors. -/
def addressPattern : Regex :=
  .seq (.times (.seq octetPattern (.literal ".".toList)) 3) octetPattern

/-- `std::regex_search(ip, match, pattern) && match.size() > 1`.  The pattern is anchored at both
ends, and a match has an entry for each group, so its size is never one. -/
def isIPv4 (ip : List Char) : Bool :=
  addressPattern.fullMatch ip

theorem isIPv4_iff_matches {ip : List Char} :
    isIPv4 ip = true ↔ addressPattern.Matches ip :=
  Regex.fullMatch_iff

example : isIPv4 "192.168.0.255".toList = true ∧ isIPv4 "192.168.0.256".toList = false := by
  decide

/-- `connect`: the address stands before the first colon and the port behind it. -/
def connectRound (outcome : RoundOutcome) (loop : CommandLoop) : RoundEnd :=
  let loop := loop.print connectHelp
  let read := extractWord loop.cin loop.stdin []
  let loop := { loop with cin := read.stream, stdin := read.unread }
  match read.value.findIdx? (· = ':') with
  | none => .left (loop.world.print invalidInput)
  | some pos =>
    let ip := read.value.take pos
    match stoi (read.value.drop (pos + 1)) with
    | none => .terminated
    | some port =>
      if isIPv4 ip then
        let loop := loop.print (connectionLine ip port)
        .running { loop with world := connectS ip port outcome.connect loop.world }
      else
        .running (loop.print notIPv4)

def createRound (outcome : RoundOutcome) (loop : CommandLoop) : RoundEnd :=
  let loop := (loop.print createHelp).readTypeAndName
  let loop := (loop.print (typeLine loop.nType)).print (nameLine loop.szName.text)
  match create loop.nType loop.szName.text outcome.indeterminate outcome.first loop.world with
  | some world => .running { loop with world := world }
  | none => .terminated

def destroyRound (loop : CommandLoop) : RoundEnd :=
  let loop := (loop.print destroyHelp).readId
  .running { loop with world := destroy loop.nId loop.world }

def statusRound (outcome : RoundOutcome) (loop : CommandLoop) : RoundEnd :=
  let loop := loop.print statusHelp
  .running { loop with world := status outcome.first outcome.second loop.world }

def disconnectRound (outcome : RoundOutcome) (loop : CommandLoop) : RoundEnd :=
  let loop := loop.print disconnectHelp
  .running
    { loop with
      world := disconnectS outcome.first outcome.second outcome.shutdown loop.world }

def exitRound (outcome : RoundOutcome) (loop : CommandLoop) : RoundEnd :=
  let loop := loop.print exitHelp
  let world := disconnectS outcome.first outcome.second outcome.shutdown loop.world
  .exited (world.print (coutLine "application terminated"))

/-- The chain of comparisons in the body of the loop. -/
def dispatch (outcome : RoundOutcome) (loop : CommandLoop) : RoundEnd :=
  if loop.command = "connect".toList then connectRound outcome loop
  else if loop.command = "create".toList then createRound outcome loop
  else if loop.command = "destroy".toList then destroyRound loop
  else if loop.command = "status".toList then statusRound outcome loop
  else if loop.command = "disconnect".toList then disconnectRound outcome loop
  else if loop.command = "exit".toList then exitRound outcome loop
  else .running (loop.print (coutLine "command unknown"))

/-- The state in which `ThreadProc` enters its loop.  Apart from the client, `command` and the
streams the variables are not initialised. -/
def newLoop (world : World) (szName : CharArray 32) (nType nId : Int32) (stdin : List Char) :
    CommandLoop where
  world := world.print (coutLine "Thread running in background")
  command := []
  szName := szName
  nType := nType
  nId := nId
  cin := .fresh
  wcin := .fresh
  stdin := stdin

/-- One round of the loop, with its condition. -/
def round (outcome : RoundOutcome) (loop : CommandLoop) : RoundEnd :=
  if loop.command ≠ "exit".toList then
    dispatch outcome (loop.print prompt).readCommand
  else
    .left loop.world

/-- The loop as a step function: `none` when it is left or the process has ended. -/
def loopStep (loop : CommandLoop) (outcome : RoundOutcome) : Option CommandLoop :=
  match round outcome loop with
  | .running next => some next
  | _ => none

theorem running_of_loopStep {loop next : CommandLoop} {outcome : RoundOutcome}
    (hstep : loopStep loop outcome = some next) :
    round outcome loop = .running next := by
  unfold loopStep at hstep
  split at hstep
  next other hother => rw [hother, Option.some.inj hstep]
  next => cases hstep

end WinProcessThread.TcpClient

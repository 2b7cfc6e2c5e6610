import Mathlib.Data.UInt
import Mathlib.Data.List.Induction

/-!
# The socket calls of the client

The client talks to Winsock through six calls.  They are recorded in a log, in the order they are
made and with their results; the log is all the client's environment remembers, so whether a handle
is an open socket is computed from it.  A handle is opened by the `socket` call that returns it and
closed by `closesocket`.  `WSACleanup` releases what is left when its count runs out, which this
model need not follow: the client calls it only when the handle it holds is no open socket.
-/

namespace WinProcessThread.TcpClient

abbrev SOCKET := UInt64

def invalidSocket : SOCKET := 0xFFFFFFFFFFFFFFFF

/-- The error of a call that is given something that is no socket. -/
def wsaENotSock : Int32 := 10038

/-- The address `connect_too` builds: the text it hands to `inet_pton` and the number it hands to
`htons`. -/
structure ServerAddress where
  ip : List Char
  port : Int32
deriving DecidableEq, Repr

/-- A call with its result.  Where a call fails with `SOCKET_ERROR`, the result is the code that
`WSAGetLastError` gives. -/
inductive Call
  | wsaStartup (iResult : Int32)
  | wsaCleanup
  /-- The result replaces the handle held so far. -/
  | socket (held result : SOCKET)
  | connect (socket : SOCKET) (serverAddress : ServerAddress) (lastError : Option Int32)
  | closesocket (socket : SOCKET)
  | shutdown (socket : SOCKET) (lastError : Option Int32)
  /-- `SO_ERROR` is queried; `none` is a failed query. -/
  | getsockopt (socket : SOCKET) (val : Option Int32)
deriving DecidableEq, Repr

inductive Handle
  | unknown
  | opened
  | closed
deriving DecidableEq, Repr

/-- What one call does to the state of a handle.  Closing something that is not open fails and
changes nothing. -/
def Handle.after (socket : SOCKET) (handle : Handle) : Call → Handle
  | .socket _ result => if result = socket ∧ result ≠ invalidSocket then .opened else handle
  | .closesocket closing => if closing = socket ∧ handle = .opened then .closed else handle
  | _ => handle

/-- The state of a handle when these calls have been made. -/
def handleState (log : List Call) (socket : SOCKET) : Handle :=
  log.foldl (Handle.after socket) .unknown

@[simp]
theorem handleState_nil (socket : SOCKET) : handleState [] socket = .unknown := rfl

theorem handleState_append (log calls : List Call) (socket : SOCKET) :
    handleState (log ++ calls) socket =
      calls.foldl (Handle.after socket) (handleState log socket) :=
  List.foldl_append

@[simp]
theorem handleState_snoc (log : List Call) (call : Call) (socket : SOCKET) :
    handleState (log ++ [call]) socket = Handle.after socket (handleState log socket) call :=
  handleState_append log [call] socket

/-- `INVALID_SOCKET` is never the handle of a socket. -/
@[simp]
theorem handleState_invalidSocket (log : List Call) :
    handleState log invalidSocket = .unknown := by
  induction log using List.reverseRecOn with
  | nil => rfl
  | append_singleton log call ih =>
    rw [handleState_snoc, ih]
    cases call <;> simp [Handle.after]

/-- Calls that only query socket errors. -/
def Silent (new : List Call) : Prop :=
  ∀ call ∈ new, ∃ socket val, call = .getsockopt socket val

/-- A fold over silent calls that ignores queries changes nothing. -/
theorem Silent.foldl_eq {State : Type*} {new : List Call} (hsilent : Silent new)
    {step : State → Call → State}
    (hstep : ∀ state socket val, step state (.getsockopt socket val) = state) (state : State) :
    new.foldl step state = state := by
  induction new with
  | nil => rfl
  | cons call rest ih =>
    obtain ⟨socket, val, rfl⟩ := hsilent call List.mem_cons_self
    rw [List.foldl_cons, hstep]
    exact ih fun call hcall ↦ hsilent call (List.mem_cons_of_mem _ hcall)

theorem handleState_append_silent {log new : List Call} (hsilent : Silent new)
    (socket : SOCKET) : handleState (log ++ new) socket = handleState log socket := by
  rw [handleState_append]
  exact hsilent.foldl_eq (fun _ _ _ ↦ rfl) _

end WinProcessThread.TcpClient

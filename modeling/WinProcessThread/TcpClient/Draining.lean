import WinProcessThread.TcpClient.Disconnect

/-!
# Disconnecting again and again

A `disconnect` on a store with objects takes one object and leaves the connection alone.  A user who
goes on typing `disconnect` therefore empties the store first, front to back, and only the attempts
behind that deal with the socket.
-/

namespace WinProcessThread.TcpClient

open Transition

variable {world after : World}

/-- What the socket calls of one `disconnect_s` return. -/
structure DisconnectOutcome where
  first : Int32
  second : Int32
  shutdown : Option Int32
deriving DecidableEq, Repr

def DisconnectOutcome.command (outcome : DisconnectOutcome) : Command :=
  .disconnectS outcome.first outcome.second outcome.shutdown

end WinProcessThread.TcpClient

import ChatHub.Config.Basic
import ChatHub.Hub.Operation
import ChatHub.Metrics.Registry
/-!
The server as one value: its settings, its hub, what it has measured, and the sockets that are
open.
-/

namespace ChatHub

/-- A socket that is open, and the connection to the hub that belongs to it. -/
structure Session where
  socket : Nat
  peer : Peer
deriving DecidableEq, Repr

structure Server where
  config : Config
  hub : Hub
  metrics : Metrics.Registry
  /-- The server takes part in the work. -/
  ready : Bool
  /-- The sessions that are running. -/
  sessions : List Session
  /-- How many sockets have been opened; their numbers start at zero. -/
  opened : Nat

namespace Server

def version : String := "0.1.0"

/-- A server that is not ready yet. -/
def new (config : Config) : Server := ⟨config, .new config.limits, .empty, false, [], 0⟩

def session? (s : Server) (socket : Nat) : Option Session :=
  s.sessions.find? fun x => x.socket == socket

/-- What time it is, and how long things have taken. -/
structure Moment where
  /-- Seconds since the beginning of 1970. -/
  now : Nat
  /-- Seconds since the server was started. -/
  uptime : Nat
  /-- Seconds that the answer to the present request took. -/
  took : Float

end Server

end ChatHub

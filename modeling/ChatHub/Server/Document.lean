import ChatHub.Json.Writer
import ChatHub.Server.State
/-!
The documents that the server hands out about itself.
-/

namespace ChatHub.Server

open Json (object quote nat)

/-- Whether something works. -/
inductive Health where
  | up
  | down
deriving DecidableEq, Repr

namespace Health

def name : Health → String
  | up => "up"
  | down => "down"

def ofBool (b : Bool) : Health := if b then .up else .down

/-- The status of a document that tells it. -/
def status : Health → Nat
  | up => 200
  | down => 503

def write (h : Health) : List Char := quote h.name

end Health

/-- The hub is down once it would take no further connection. -/
def hubHealth (s : Server) : Health :=
  .ofBool (s.hub.registered.length < s.hub.limits.maxConnections)

/-- The server is up if it is ready and its hub is up. -/
def health (s : Server) : Health := .ofBool (s.ready && s.hubHealth = .up)

def hubDetails (s : Server) : List Char :=
  object
    [("connections", nat s.hub.registered.length),
     ("max_connections", nat s.hub.limits.maxConnections),
     ("voice_rooms", nat s.hub.rooms.count)]

def healthDocument (uptime : Nat) (s : Server) : List Char :=
  object
    [("status", s.health.write), ("version", quote version), ("uptime_seconds", nat uptime),
     ("checks", object
       [("realtime", object [("status", s.hubHealth.write), ("details", s.hubDetails)])])]

/-- That the server answers at all is all it tells. -/
def livenessDocument (uptime : Nat) : List Char :=
  object [("status", Health.up.write), ("uptime_seconds", nat uptime)]

def readinessDocument (s : Server) : List Char :=
  object
    [("checks", object
       [("realtime", object [("details", s.hubDetails), ("status", s.hubHealth.write)])]),
     ("status", s.health.write)]

def statsDocument (n : Hub.Stats) : List Char :=
  object
    [("current_connections", nat n.currentConnections),
     ("total_connections", nat n.totalConnections), ("total_events", nat n.totalEvents),
     ("evicted_connections", nat n.evictedConnections),
     ("active_rooms", nat n.activeRooms), ("signals_relayed", nat n.signalsRelayed),
     ("signals_dropped", nat n.signalsDropped)]

/-- Every voice room with its users. -/
def roomsDocument (rooms : List (ChannelId × List UserId)) : List Char :=
  object [("rooms", object (rooms.map fun (c, users) => (c, Json.array (users.map quote))))]

def errorDocument (message : String) : List Char := object [("error", quote message)]

end ChatHub.Server

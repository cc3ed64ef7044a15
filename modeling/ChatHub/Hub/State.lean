import ChatHub.Hub.Rooms
/-!
The hub as one value: its connections, the rooms they are in and what has been counted.  A
connection is kept once, in the table; everything else refers to it by its peer.
-/

namespace ChatHub

structure Limits where
  /-- Frames that wait for one connection at most. -/
  queueCapacity : Nat
  /-- Connections registered at one time at most. -/
  maxConnections : Nat
deriving DecidableEq, Repr

def Limits.standard : Limits := ⟨256, 10000⟩

/-- What the hub counts from its start on. -/
structure Counters where
  connections : Nat
  /-- Deliveries, whoever got them. -/
  events : Nat
  /-- Connections removed because they took no more frames. -/
  evicted : Nat
  signalsRelayed : Nat
  signalsDropped : Nat
deriving DecidableEq, Repr

def Counters.zero : Counters := ⟨0, 0, 0, 0, 0⟩

structure Hub where
  limits : Limits
  /-- Every connection ever made, at the place of its number. -/
  table : List Connection
  /-- Those that broadcasts go to, no two of one name. -/
  registered : List Peer
  rooms : Rooms
  counters : Counters
  /-- Connections that refused a frame and have still to be removed, the next one first. -/
  pending : List Peer
  /-- Set while they are being removed. -/
  draining : Bool
deriving DecidableEq, Repr

namespace Hub

def new (limits : Limits) : Hub := ⟨limits, [], [], .empty, .zero, [], false⟩

def connection (h : Hub) (p : Peer) : Connection := h.table[p.handle]?.getD .absent

def update (p : Peer) (f : Connection → Connection) (h : Hub) : Hub :=
  { h with table := h.table.modify p.handle f }

/-- Connections that nobody has started to take down. -/
def openCount (h : Hub) : Nat := h.table.countP Connection.isOpen

def count (f : Counters → Counters) (h : Hub) : Hub := { h with counters := f h.counters }

/-- Makes a connection without registering it. -/
def create (user : UserId) (capacity : Nat) (name : Option String) (h : Hub) : Hub × Peer :=
  let p : Peer := ⟨h.table.length, (name.map ConnectionId.named).getD (.fresh h.table.length), user⟩
  ({ h with table := h.table ++ [.new p capacity] }, p)

def isRegistered (p : Peer) (h : Hub) : Bool := h.registered.any (·.id == p.id)

/-- Registers a connection, in the place of any other of its name. -/
def register (p : Peer) (h : Hub) : Hub :=
  ({ h with registered := insertPeer p h.registered }.update p Connection.activate).count
    fun n => { n with connections := n.connections + 1 }

/-- Makes and registers a connection, unless there are as many as there may be. -/
def connect (user : UserId) (h : Hub) : Except HubError (Hub × Peer) :=
  if h.limits.maxConnections ≤ h.registered.length then
    .error (.connectionLimit h.limits.maxConnections)
  else
    let (h, p) := h.create user h.limits.queueCapacity none
    .ok (h.register p, p)

/-- Numbers that tell how the hub is doing. -/
structure Stats where
  currentConnections : Nat
  totalConnections : Nat
  totalEvents : Nat
  evictedConnections : Nat
  activeRooms : Nat
  signalsRelayed : Nat
  signalsDropped : Nat
deriving DecidableEq, Repr

def stats (h : Hub) : Stats :=
  ⟨h.registered.length, h.counters.connections, h.counters.events, h.counters.evicted,
    h.rooms.count, h.counters.signalsRelayed, h.counters.signalsDropped⟩

end Hub

end ChatHub

import ChatHub.Hub.Dispatch
import ChatHub.Hub.Publication
/-!
Everything that can be asked of a hub and of its connections, as data, so that a history of a hub
is a list.  Connections are named by their number in the table.
-/

namespace ChatHub.Hub

inductive Operation where
  | connect (user : UserId)
  | create (user : UserId) (capacity : Nat) (name : Option String)
  | register (c : Nat)
  | unregister (c : Nat)
  | activate (c : Nat)
  | beginClose (c : Nat)
  | closeQueue (c : Nat)
  | markClosed (c : Nat)
  | send (c : Nat) (frame : String)
  | view (c : Nat) (channel : Option ChannelId)
  /-- The reader of the connection takes one frame. -/
  | take (c : Nat)
  /-- The reader of the connection goes away. -/
  | abandon (c : Nat)
  | handle (c : Nat) (command : Command)
  | handleText (c : Nat) (text : String)
  | join (c : Nat) (channel : ChannelId)
  | leave (c : Nat) (channel : ChannelId)
  | relay (c : Nat) (kind : SignalKind) (signal : Signal)
  | broadcast (e : Event)
  | broadcastToChannel (channel : ChannelId) (e : Event)
  | sendToUser (user : UserId) (e : Event)
  | broadcastToRoom (channel : ChannelId) (e : Event) (exclude : Option Nat)
  | sendTo (c : Nat) (e : Event)
  | publishMessage (message : Json.Raw) (digest : Event.Activity)
  | publishEdit (channel : ChannelId) (message : Json.Raw)
  | publishDeletion (channel : ChannelId) (message : String)
  | publishReactions (channel : ChannelId) (reactions : Json.Raw)
  | publishServerEvent (e : Event)
  /-- Joins a room without a word to anyone. -/
  | enterRoom (c : Nat) (channel : ChannelId)
  /-- Leaves a room without a word to anyone. -/
  | exitRoom (c : Nat) (channel : ChannelId)
  /-- Leaves all rooms without a word to anyone. -/
  | exitRooms (c : Nat)
deriving DecidableEq, Repr

/-- What an operation answers. -/
inductive Outcome where
  | done
  /-- The number of a new connection. -/
  | made (c : Nat)
  | flag (b : Bool)
  /-- Queues that took the event. -/
  | delivered (n : Nat)
  | relayed (r : Relayed)
  | users (us : List UserId)
  | noUsers
  | channels (cs : List ChannelId)
  | taken (t : Queue.Taken)
  | failed (e : HubError)
  /-- There is no connection of that number. -/
  | unknown

def peer? (h : Hub) (c : Nat) : Option Peer := h.table[c]?.map (·.peer)

/-- Applies `f` to the peer of a number. -/
def withPeer (c : Nat) (h : Hub) (f : Peer → Hub × Outcome) : Hub × Outcome :=
  match h.peer? c with
  | some p => f p
  | none => (h, .unknown)

private def flagged (r : Hub × Bool) : Hub × Outcome := (r.1, .flag r.2)

private def counted (r : Hub × Nat) : Hub × Outcome := (r.1, .delivered r.2)

/-- Changes one connection and tells whether that made a difference. -/
def change (p : Peer) (f : Connection → Connection) (h : Hub) : Hub × Outcome :=
  (h.update p f, .flag (f (h.connection p) != h.connection p))

def perform (op : Operation) (h : Hub) : Hub × Outcome :=
  match op with
  | .connect user =>
      match h.connect user with
      | .ok (h, p) => (h, .made p.handle)
      | .error e => (h, .failed e)
  | .create user capacity name =>
      let (h, p) := h.create user capacity name
      (h, .made p.handle)
  | .register c => h.withPeer c fun p => (h.register p, .done)
  | .unregister c => h.withPeer c fun p => flagged (h.unregister p)
  | .activate c => h.withPeer c fun p => h.change p Connection.activate
  | .beginClose c => h.withPeer c fun p => h.change p Connection.beginClose
  | .closeQueue c => h.withPeer c fun p => h.change p Connection.closeQueue
  | .markClosed c => h.withPeer c fun p => (h.update p Connection.markClosed, .done)
  | .send c frame => h.withPeer c fun p =>
      match (h.connection p).queue.send (.text frame) with
      | .ok q => (h.update p fun c => { c with queue := q }, .done)
      | .error e => (h, .failed e)
  | .view c channel => h.withPeer c fun p => (h.update p (Connection.view channel), .done)
  | .take c => h.withPeer c fun p =>
      match (h.connection p).queue.take with
      | .frame f q => (h.update p fun c => { c with queue := q }, .taken (.frame f q))
      | t => (h, .taken t)
  | .abandon c => h.withPeer c fun p =>
      (h.update p fun c => { c with queue := c.queue.abandon }, .done)
  | .handle c command => h.withPeer c fun p => (h.handle p command, .done)
  | .handleText c text => h.withPeer c fun p =>
      match h.handleText p text with
      | .ok h => (h, .done)
      | .error e => (h, .failed e)
  | .join c channel => h.withPeer c fun p =>
      let (h, users) := h.joinRoom p channel
      (h, .users users)
  | .leave c channel => h.withPeer c fun p => flagged (h.leaveRoom p channel)
  | .relay c kind signal => h.withPeer c fun p =>
      let (h, r) := h.relaySignal p kind signal
      (h, .relayed r)
  | .broadcast e => counted (h.broadcast e)
  | .broadcastToChannel channel e => counted (h.broadcastToChannel channel e)
  | .sendToUser user e => counted (h.sendToUser user e)
  | .broadcastToRoom channel e none => counted (h.broadcastToRoom channel e none)
  | .broadcastToRoom channel e (some c) => h.withPeer c fun p =>
      counted (h.broadcastToRoom channel e (some p.id))
  | .sendTo c e => h.withPeer c fun p => flagged (h.sendTo p e)
  | .publishMessage message digest => (h.publishMessage message digest, .done)
  | .publishEdit channel message => counted (h.publishEdit channel message)
  | .publishDeletion channel message => counted (h.publishDeletion channel message)
  | .publishReactions channel reactions => counted (h.publishReactions channel reactions)
  | .publishServerEvent e =>
      match h.publishServerEvent e with
      | .ok r => counted r
      | .error e => (h, .failed e)
  | .enterRoom c channel => h.withPeer c fun p =>
      let (rooms, users) := h.rooms.join channel p (h.connection p).queue.closed
      ({ h with rooms }, (users.map Outcome.users).getD .noUsers)
  | .exitRoom c channel => h.withPeer c fun p =>
      let (rooms, wasMember) := h.rooms.leave channel p.id
      ({ h with rooms }, .flag wasMember)
  | .exitRooms c => h.withPeer c fun p =>
      let (rooms, channels) := h.rooms.leaveAll p.id
      ({ h with rooms }, .channels channels)

/-- The hub after a history. -/
def run (h : Hub) (ops : List Operation) : Hub := ops.foldl (fun h op => (h.perform op).1) h

end ChatHub.Hub

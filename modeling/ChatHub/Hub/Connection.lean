import ChatHub.Error
import ChatHub.Event.Envelope
/-!
Connections: who holds one, how far its life has come, and the queue of frames that wait to be
sent over it.
-/

namespace ChatHub

/-- The stages of a connection's life, in their order. -/
inductive Lifecycle where
  /-- Made, but not registered yet. -/
  | connecting
  | active
  /-- Somebody has started to take it down. -/
  | closing
  /-- Out of every room, for good. -/
  | closed
deriving DecidableEq, Repr

namespace Lifecycle

def rank : Lifecycle → Nat
  | connecting => 0
  | active => 1
  | closing => 2
  | closed => 3

/-- Before anybody started to take the connection down. -/
def isOpen (s : Lifecycle) : Bool := s.rank < closing.rank

end Lifecycle

/-- A bounded queue of frames between the hub, which puts them in, and a reader. -/
structure Queue where
  capacity : Nat
  waiting : List Frame
  /-- The hub puts nothing in any more. -/
  closed : Bool
  /-- The reader is gone. -/
  abandoned : Bool
deriving DecidableEq, Repr

namespace Queue

/-- The greatest capacity that a queue can be made with.  The attempt to make one with more breaks
off, and nothing comes of it. -/
def maxCapacity : Nat := (UInt64.size - 1) / 8

/-- An empty queue, which holds one frame at least.  The capacity is taken to be one that a queue
can be made with. -/
def new (capacity : Nat) : Queue := ⟨max 1 capacity, [], false, false⟩

/-- Frames that can still be put in. -/
def free (q : Queue) : Nat :=
  if q.closed || q.abandoned then 0 else q.capacity - q.waiting.length

def send (f : Frame) (q : Queue) : Except HubError Queue :=
  if q.closed || q.abandoned then .error .channelClosed
  else if q.capacity ≤ q.waiting.length then .error .queueFull
  else .ok { q with waiting := q.waiting ++ [f] }

def close (q : Queue) : Queue := { q with closed := true }

/-- The reader goes, and with it what it has not taken. -/
def abandon (q : Queue) : Queue := { q with waiting := [], abandoned := true }

/-- What a reader finds. -/
inductive Taken where
  | frame (f : Frame) (rest : Queue)
  /-- Nothing yet. -/
  | empty
  /-- Nothing any more. -/
  | ended

/-- Takes the frame that waits longest.  The end shows only after all of them. -/
def take (q : Queue) : Taken :=
  match q.waiting with
  | f :: rest => .frame f { q with waiting := rest }
  | [] => if q.closed || q.abandoned then .ended else .empty

end Queue

/-- The name that a connection is registered under: its number, or one that was chosen for it. -/
inductive ConnectionId where
  | fresh (n : Nat)
  | named (s : String)
deriving DecidableEq, Repr

/-- What never changes about a connection: its number in the hub's table, its name and its
user. -/
structure Peer where
  handle : Nat
  id : ConnectionId
  user : UserId
deriving DecidableEq, Repr

structure Connection where
  peer : Peer
  /-- The channel its user is looking at. -/
  viewed : Option ChannelId
  state : Lifecycle
  queue : Queue
deriving DecidableEq, Repr

namespace Connection

def new (peer : Peer) (capacity : Nat) : Connection :=
  ⟨peer, none, .connecting, .new capacity⟩

/-- Stands for a connection that was never made: it gets nothing and does nothing. -/
def absent : Connection := ⟨⟨0, .fresh 0, ""⟩, none, .closed, ⟨1, [], true, true⟩⟩

def isOpen (c : Connection) : Bool := c.state.isOpen

def isViewing (channel : ChannelId) (c : Connection) : Bool := c.viewed == some channel

/-- An empty channel stands for none. -/
def view (channel : Option ChannelId) (c : Connection) : Connection :=
  { c with viewed := channel.filter fun name => !name.isEmpty }

/-- From `connecting` to `active`, and from nowhere else. -/
def activate (c : Connection) : Connection :=
  if c.state = .connecting then { c with state := .active } else c

/-- To `closing`, for the first who asks. -/
def beginClose (c : Connection) : Connection :=
  if c.isOpen then { c with state := .closing } else c

def markClosed (c : Connection) : Connection := { c with state := .closed }

def closeQueue (c : Connection) : Connection := { c with queue := c.queue.close }

end Connection

end ChatHub

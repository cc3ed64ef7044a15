import ChatHub.Hub.Connection
/-!
Who is in which voice room.  Membership belongs to connections, while what is told about a room
names users: a user with several connections in a room is named once.
-/

namespace ChatHub

/-- Puts a peer where the one with its name was, or at the end. -/
def insertPeer (p : Peer) (ps : List Peer) : List Peer :=
  if ps.any (·.id == p.id) then ps.map fun q => if q.id == p.id then p else q
  else ps ++ [p]

/-- Takes out the peer with the given name. -/
def erasePeer (id : ConnectionId) (ps : List Peer) : List Peer :=
  ps.filter (·.id != id)

/-- Puts a name into a list in increasing order, unless it is there. -/
def insertName (s : String) : List String → List String
  | [] => [s]
  | t :: ts =>
      if s < t then s :: t :: ts
      else if s == t then t :: ts
      else t :: insertName s ts

/-- The distinct names of a list, in increasing order. -/
def distinctNames (names : List String) : List String :=
  names.foldr insertName []

/-- Puts something before the first whose name does not come before its own. -/
def insertByName {α : Type} (name : α → String) (a : α) : List α → List α
  | [] => [a]
  | b :: bs => if name a ≤ name b then a :: b :: bs else b :: insertByName name a bs

/-- A list in the order of the names; what shares a name stays in its order. -/
def sortByName {α : Type} (name : α → String) (as : List α) : List α :=
  as.foldr (insertByName name) []

/-- Names in increasing order, each as often as it is given. -/
def sortNames (names : List String) : List String := sortByName id names

/-- A voice room and the connections in it. -/
structure Room where
  channel : ChannelId
  members : List Peer
deriving DecidableEq, Repr

/-- The distinct users of a room, in increasing order. -/
def Room.users (r : Room) : List UserId := distinctNames (r.members.map (·.user))

/-- The rooms with at least one member, in no particular order. -/
structure Rooms where
  rooms : List Room
deriving DecidableEq, Repr

namespace Rooms

def empty : Rooms := ⟨[]⟩

/-- The connections in a room. -/
def members (rs : Rooms) (channel : ChannelId) : List Peer :=
  match rs.rooms.find? (·.channel == channel) with
  | some r => r.members
  | none => []

def contains (rs : Rooms) (channel : ChannelId) (id : ConnectionId) : Bool :=
  (rs.members channel).any (·.id == id)

/-- Puts a connection into a room, which is opened for it if need be. -/
def insert (channel : ChannelId) (p : Peer) : List Room → List Room
  | [] => [⟨channel, [p]⟩]
  | r :: rest =>
      if channel == r.channel then ⟨r.channel, insertPeer p r.members⟩ :: rest
      else r :: insert channel p rest

/-- Adds a connection and tells the other users who were there.  One whose queue is closed is
not added: it is being taken down, and nobody would take it out again. -/
def join (channel : ChannelId) (p : Peer) (queueClosed : Bool) (rs : Rooms) :
    Rooms × Option (List UserId) :=
  if queueClosed then (rs, none)
  else
    let others := (rs.members channel).filter fun m => m.id != p.id && m.user != p.user
    (⟨insert channel p rs.rooms⟩, some (distinctNames (others.map (·.user))))

/-- Takes a connection out of a room, and the room away if it was the last. -/
def leave (channel : ChannelId) (id : ConnectionId) (rs : Rooms) : Rooms × Bool :=
  (⟨rs.rooms.filterMap fun r =>
      if r.channel == channel then
        match erasePeer id r.members with
        | [] => none
        | members => some { r with members := members }
      else some r⟩,
    rs.contains channel id)

/-- Takes a connection out of all rooms and tells which they were, in increasing order. -/
def leaveAll (id : ConnectionId) (rs : Rooms) : Rooms × List ChannelId :=
  (⟨rs.rooms.filterMap fun r =>
      match erasePeer id r.members with
      | [] => none
      | members => some { r with members := members }⟩,
    sortNames ((rs.rooms.filter fun r => r.members.any (·.id == id)).map (·.channel)))

/-- Whether both users have a connection in the room. -/
def areCoMembers (rs : Rooms) (channel : ChannelId) (a b : UserId) : Bool :=
  (rs.members channel).any (·.user == a) && (rs.members channel).any (·.user == b)

/-- Every room with its users, in the order of the rooms' names. -/
def snapshot (rs : Rooms) : List (ChannelId × List UserId) :=
  sortByName Prod.fst (rs.rooms.map fun r => (r.channel, r.users))

def count (rs : Rooms) : Nat := rs.rooms.length

end Rooms

end ChatHub

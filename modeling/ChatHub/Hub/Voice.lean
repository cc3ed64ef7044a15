import ChatHub.Command
import ChatHub.Hub.Delivery
/-!
Voice rooms: joining, leaving, and the signals that members exchange to set up a call.
-/

namespace ChatHub.Hub

/-- Joins a room.  The one who joins gets the other users who were there; then the other members,
and then everyone, are told.  Should that first event end the connection, it has left again
and nothing more is said. -/
def joinRoom (p : Peer) (channel : ChannelId) (h : Hub) : Hub × List UserId :=
  match h.rooms.join channel p (h.connection p).queue.closed with
  | (_, none) => (h, [])
  | (rooms, some participants) =>
      let (h, delivered) :=
        { h with rooms }.sendTo p ⟨.voiceRoomState, .roomState ⟨channel, participants⟩⟩
      if !delivered && !(h.connection p).isOpen then (h, participants)
      else
        let joined := Event.joined channel p.user
        let h := (h.broadcastToRoom channel joined (some p.id)).1
        ((h.broadcast joined).1, participants)

/-- Leaves a room, which is announced if the connection was in it. -/
def leaveRoom (p : Peer) (channel : ChannelId) (h : Hub) : Hub × Bool :=
  let (rooms, wasMember) := h.rooms.leave channel p.id
  if wasMember then (announceLeft deliver p.user channel { h with rooms }, true) else (h, false)

/-- What became of a signal. -/
inductive Relayed where
  /-- So many connections of the target got it. -/
  | forwarded (n : Nat)
  | dropped
deriving DecidableEq, Repr

/-- Passes a signal on between two users who are in the room it names.  Anything else is dropped
without an answer, so that nobody learns who is in a call. -/
def relaySignal (p : Peer) (kind : SignalKind) (s : Signal) (h : Hub) : Hub × Relayed :=
  if s.target == p.user || !h.rooms.areCoMembers s.channel p.user s.target then
    (h.count fun n => { n with signalsDropped := n.signalsDropped + 1 }, .dropped)
  else
    let (h, n) :=
      h.sendToUser s.target ⟨kind.eventKind, .signal ⟨s.channel, p.user, s.payload⟩⟩
    (h.count fun n => { n with signalsRelayed := n.signalsRelayed + 1 }, .forwarded n)

end ChatHub.Hub

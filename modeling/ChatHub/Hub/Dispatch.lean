import ChatHub.Hub.Voice
/-!
What the hub does with the commands of a client.
-/

namespace ChatHub.Hub

/-- Passes the state of camera and screen on, from a member of the room to the others. -/
def reportMedia (p : Peer) (r : MediaReport) (h : Hub) : Hub :=
  if h.rooms.contains r.channel p.id then
    (h.broadcastToRoom r.channel
      ⟨.voiceMediaState, .mediaState ⟨r.channel, p.user, r.camera, r.screen⟩⟩ (some p.id)).1
  else h

/-- Handles a command.  A connection that is being taken down has no say any more. -/
def handle (p : Peer) (c : Command) (h : Hub) : Hub :=
  if (h.connection p).isOpen then
    match c with
    | .subscribe channel => h.update p (Connection.view channel)
    | .typing channel =>
        (h.broadcastToChannel channel ⟨.typing, .typing ⟨p.user, channel⟩⟩).1
    | .voiceJoin channel => (h.joinRoom p channel).1
    | .voiceLeave channel => (h.leaveRoom p channel).1
    | .signal kind s => (h.relaySignal p kind s).1
    | .mediaState report => h.reportMedia p report
    | .ping => (h.sendTo p .pong).1
    | .unknown _ => h
  else h

/-- Reads a text frame and handles the command in it. -/
def handleText (p : Peer) (text : String) (h : Hub) : Except HubError Hub :=
  (Command.decode text).map fun c => h.handle p c

end ChatHub.Hub

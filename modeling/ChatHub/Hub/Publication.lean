import ChatHub.Hub.Delivery
/-!
Events that come from the rest of the server.  The full text of a message goes to those who look
at its channel; everyone gets a digest, so that they can tell what they have not read.
-/

namespace ChatHub.Hub

def publishMessage (message : Json.Raw) (digest : Event.Activity) (h : Hub) : Hub :=
  let h := (h.broadcastToChannel digest.channel ⟨.messageNew, .raw message⟩).1
  (h.broadcast ⟨.messageActivity, .activity digest⟩).1

def publishEdit (channel : ChannelId) (message : Json.Raw) (h : Hub) : Hub × Nat :=
  h.broadcastToChannel channel ⟨.messageEdit, .raw message⟩

def publishDeletion (channel : ChannelId) (message : String) (h : Hub) : Hub × Nat :=
  h.broadcastToChannel channel ⟨.messageDelete, .deletion ⟨message, channel⟩⟩

/-- The whole new list of reactions to a message. -/
def publishReactions (channel : ChannelId) (reactions : Json.Raw) (h : Hub) : Hub × Nat :=
  h.broadcastToChannel channel ⟨.reactionUpdate, .raw reactions⟩

/-- A change of the server's own lists, and nothing else, may go to everyone. -/
def publishServerEvent (e : Event) (h : Hub) : Except HubError (Hub × Nat) :=
  if e.kind.isServerWide then .ok (h.broadcast e) else .error (.notPublishable e.kind.tag)

end ChatHub.Hub

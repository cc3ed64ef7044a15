import ChatHub.Identity
import ChatHub.Json.Record
import ChatHub.Json.Writer
/-!
What an event carries, and how each payload is written and read as JSON.
-/

namespace ChatHub.Event

/-- For one who has just joined a voice room: the users who were there already. -/
structure RoomState where
  channel : ChannelId
  participants : List UserId
deriving DecidableEq, Repr

/-- A user who joined or left a voice room. -/
structure VoicePresence where
  channel : ChannelId
  user : UserId
deriving DecidableEq, Repr

/-- A negotiation message between two members of a room.  What it carries is none of the hub's
business and stays as it was written. -/
structure SignalRelay where
  channel : ChannelId
  sender : UserId
  payload : Option Json.Raw
deriving DecidableEq, Repr

/-- Whether a member of a room shows their camera or shares their screen. -/
structure MediaState where
  channel : ChannelId
  sender : UserId
  camera : Bool
  screen : Bool
deriving DecidableEq, Repr

/-- A user who is typing in a channel. -/
structure Typing where
  user : UserId
  channel : ChannelId
deriving DecidableEq, Repr

/-- A message that was deleted. -/
structure Deletion where
  message : String
  channel : ChannelId
deriving DecidableEq, Repr

/-- The digest of a new message for those who do not look at its channel. -/
structure Activity where
  channel : ChannelId
  channelName : String
  author : UserId
  authorName : String
  preview : String
  message : String
deriving DecidableEq, Repr

/-- A member of the server. -/
structure Member where
  user : UserId
  username : String
  avatar : String
  isOwner : Bool
  roles : List String
deriving DecidableEq, Repr

inductive Payload where
  | roomState (d : RoomState)
  | presence (d : VoicePresence)
  | signal (d : SignalRelay)
  | mediaState (d : MediaState)
  | typing (d : Typing)
  | deletion (d : Deletion)
  | activity (d : Activity)
  | member (d : Member)
  /-- JSON of the sender's own making. -/
  | raw (v : Json.Raw)
deriving DecidableEq, Repr

/-- The forms that a payload can be read as. -/
inductive PayloadType where
  | roomState
  | presence
  | signal
  | mediaState
  | typing
  | deletion
  | activity
  | member
  | raw
deriving DecidableEq, Repr

namespace Payload

def type : Payload → PayloadType
  | roomState _ => .roomState
  | presence _ => .presence
  | signal _ => .signal
  | mediaState _ => .mediaState
  | typing _ => .typing
  | deletion _ => .deletion
  | activity _ => .activity
  | member _ => .member
  | raw _ => .raw

def write : Payload → List Char
  | roomState d => Json.object
      [("channel_id", Json.quote d.channel),
       ("participants", Json.array (d.participants.map Json.quote))]
  | presence d => Json.object
      [("channel_id", Json.quote d.channel), ("user_id", Json.quote d.user)]
  | signal d => Json.object
      [("channel_id", Json.quote d.channel), ("from_user_id", Json.quote d.sender),
       ("payload", Json.optional Json.raw d.payload)]
  | mediaState d => Json.object
      [("channel_id", Json.quote d.channel), ("from_user_id", Json.quote d.sender),
       ("cam_enabled", Json.bool d.camera), ("screen_sharing", Json.bool d.screen)]
  | typing d => Json.object
      [("user_id", Json.quote d.user), ("channel_id", Json.quote d.channel)]
  | deletion d => Json.object
      [("id", Json.quote d.message), ("channel_id", Json.quote d.channel)]
  | activity d => Json.object
      [("channel_id", Json.quote d.channel), ("channel_name", Json.quote d.channelName),
       ("author_id", Json.quote d.author), ("author", Json.quote d.authorName),
       ("preview", Json.quote d.preview), ("message_id", Json.quote d.message)]
  | member d => Json.object
      [("id", Json.quote d.user), ("username", Json.quote d.username),
       ("avatar", Json.quote d.avatar), ("is_owner", Json.bool d.isOwner),
       ("roles", Json.array (d.roles.map Json.quote))]
  | raw v => v.text

open Json (Record Raw)

def readRoomState? (v : Raw) : Option RoomState := do
  let r ← Record.ofText? ["channel_id", "participants"] v.text
  let channel ← r.required? "channel_id" Raw.string?
  let participants ← r.required? "participants" (Raw.list? Raw.string?)
  some ⟨channel, participants⟩

def readPresence? (v : Raw) : Option VoicePresence := do
  let r ← Record.ofText? ["channel_id", "user_id"] v.text
  let channel ← r.required? "channel_id" Raw.string?
  let user ← r.required? "user_id" Raw.string?
  some ⟨channel, user⟩

def readSignal? (v : Raw) : Option SignalRelay := do
  let r ← Record.ofText? ["channel_id", "from_user_id", "payload"] v.text
  let channel ← r.required? "channel_id" Raw.string?
  let sender ← r.required? "from_user_id" Raw.string?
  let payload ← r.optional? "payload" some
  some ⟨channel, sender, payload⟩

def readMediaState? (v : Raw) : Option MediaState := do
  let r ← Record.ofText? ["channel_id", "from_user_id", "cam_enabled", "screen_sharing"] v.text
  let channel ← r.required? "channel_id" Raw.string?
  let sender ← r.required? "from_user_id" Raw.string?
  let camera ← r.required? "cam_enabled" Raw.bool?
  let screen ← r.required? "screen_sharing" Raw.bool?
  some ⟨channel, sender, camera, screen⟩

def readTyping? (v : Raw) : Option Typing := do
  let r ← Record.ofText? ["user_id", "channel_id"] v.text
  let user ← r.required? "user_id" Raw.string?
  let channel ← r.required? "channel_id" Raw.string?
  some ⟨user, channel⟩

def readDeletion? (v : Raw) : Option Deletion := do
  let r ← Record.ofText? ["id", "channel_id"] v.text
  let message ← r.required? "id" Raw.string?
  let channel ← r.required? "channel_id" Raw.string?
  some ⟨message, channel⟩

def readActivity? (v : Raw) : Option Activity := do
  let r ← Record.ofText?
    ["channel_id", "channel_name", "author_id", "author", "preview", "message_id"] v.text
  let channel ← r.required? "channel_id" Raw.string?
  let channelName ← r.required? "channel_name" Raw.string?
  let author ← r.required? "author_id" Raw.string?
  let authorName ← r.required? "author" Raw.string?
  let preview ← r.required? "preview" Raw.string?
  let message ← r.required? "message_id" Raw.string?
  some ⟨channel, channelName, author, authorName, preview, message⟩

def readMember? (v : Raw) : Option Member := do
  let r ← Record.ofText? ["id", "username", "avatar", "is_owner", "roles"] v.text
  let user ← r.required? "id" Raw.string?
  let username ← r.required? "username" Raw.string?
  let avatar ← r.withDefault? "avatar" Raw.string? ""
  let isOwner ← r.withDefault? "is_owner" Raw.bool? false
  let roles ← r.withDefault? "roles" (Raw.list? Raw.string?) []
  some ⟨user, username, avatar, isOwner, roles⟩

/-- Reads a payload of the given form. -/
def read? : PayloadType → Raw → Option Payload
  | .roomState, v => (readRoomState? v).map .roomState
  | .presence, v => (readPresence? v).map .presence
  | .signal, v => (readSignal? v).map .signal
  | .mediaState, v => (readMediaState? v).map .mediaState
  | .typing, v => (readTyping? v).map .typing
  | .deletion, v => (readDeletion? v).map .deletion
  | .activity, v => (readActivity? v).map .activity
  | .member, v => (readMember? v).map .member
  | .raw, v => some (.raw v)

end Payload

end ChatHub.Event

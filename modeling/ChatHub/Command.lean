import ChatHub.Error
import ChatHub.Event.Kind
import ChatHub.Identity
import ChatHub.Json.Record
/-!
Commands that a client sends.  A frame is read in two steps, first the tag and the text of the
data, then the data in the form that belongs to the tag, so that an unknown tag is no error.
-/

namespace ChatHub

/-- The three messages of a negotiation between two members of a voice room. -/
inductive SignalKind where
  | offer
  | answer
  | ice
deriving DecidableEq, Repr

/-- The kind of event in which a signal is passed on. -/
def SignalKind.eventKind : SignalKind → Event.Kind
  | .offer => .voiceOffer
  | .answer => .voiceAnswer
  | .ice => .voiceIce

/-- A signal and the user it is for. -/
structure Signal where
  channel : ChannelId
  target : UserId
  payload : Option Json.Raw
deriving DecidableEq, Repr

/-- What a client says of its camera and screen in a room. -/
structure MediaReport where
  channel : ChannelId
  camera : Bool
  screen : Bool
deriving DecidableEq, Repr

inductive Command where
  /-- Look at a channel, or at none. -/
  | subscribe (channel : Option ChannelId)
  | typing (channel : ChannelId)
  | voiceJoin (channel : ChannelId)
  | voiceLeave (channel : ChannelId)
  | signal (kind : SignalKind) (signal : Signal)
  | mediaState (report : MediaReport)
  | ping
  /-- A tag without a meaning here. -/
  | unknown (tag : String)
deriving DecidableEq, Repr

namespace Command

open Json (Record Raw)

/-- The tag of the command. -/
def name : Command → String
  | subscribe _ => "subscribe"
  | typing _ => "typing"
  | voiceJoin _ => "voice.join"
  | voiceLeave _ => "voice.leave"
  | signal kind _ => kind.eventKind.tag
  | mediaState _ => "voice.media_state"
  | ping => "ping"
  | unknown tag => tag

/-- The data of a command, read in its form.  Data that is absent or `null` is missing. -/
def payload {α : Type} (read? : Raw → Option α) (data : Option Raw) : Except HubError α :=
  match data with
  | none => .error (.missingField "data")
  | some v =>
      match read? v with
      | some a => .ok a
      | none => .error .malformed

/-- A field that may be left out but must not stay empty. -/
def require (value field : String) : Except HubError Unit :=
  if value.isEmpty then .error (.missingField field) else .ok ()

def readChannel? (v : Raw) : Option ChannelId := do
  let r ← Record.ofText? ["channel_id"] v.text
  r.withDefault? "channel_id" Raw.string? ""

def readSignal? (v : Raw) : Option Signal := do
  let r ← Record.ofText? ["channel_id", "target_user_id", "payload"] v.text
  let channel ← r.withDefault? "channel_id" Raw.string? ""
  let target ← r.withDefault? "target_user_id" Raw.string? ""
  let payload ← r.withDefault? "payload" (Raw.nullable? some) none
  some ⟨channel, target, payload⟩

def readMediaReport? (v : Raw) : Option MediaReport := do
  let r ← Record.ofText? ["channel_id", "cam_enabled", "screen_sharing"] v.text
  let channel ← r.withDefault? "channel_id" Raw.string? ""
  let camera ← r.withDefault? "cam_enabled" Raw.bool? false
  let screen ← r.withDefault? "screen_sharing" Raw.bool? false
  some ⟨channel, camera, screen⟩

def decodeChannel (data : Option Raw) : Except HubError ChannelId := do
  let channel ← payload readChannel? data
  require channel "channel_id"
  .ok channel

def decodeSignal (kind : SignalKind) (data : Option Raw) : Except HubError Command := do
  let s ← payload readSignal? data
  require s.channel "channel_id"
  require s.target "target_user_id"
  .ok (.signal kind s)

def decodeMediaState (data : Option Raw) : Except HubError Command := do
  let report ← payload readMediaReport? data
  require report.channel "channel_id"
  .ok (.mediaState report)

/-- An empty channel stands for none. -/
def nonempty (channel : ChannelId) : Option ChannelId :=
  if channel.isEmpty then none else some channel

/-- The command with the given tag and data. -/
def ofTag (tag : String) (data : Option Raw) : Except HubError Command :=
  match tag with
  | "subscribe" => (payload readChannel? data).map fun c => .subscribe (nonempty c)
  | "typing" => (decodeChannel data).map .typing
  | "voice.join" => (decodeChannel data).map .voiceJoin
  | "voice.leave" => (decodeChannel data).map .voiceLeave
  | "voice.offer" => decodeSignal .offer data
  | "voice.answer" => decodeSignal .answer data
  | "voice.ice" => decodeSignal .ice data
  | "voice.media_state" => decodeMediaState data
  | "ping" => .ok .ping
  | _ => .ok (.unknown tag)

/-- Tag and data of a frame. -/
def readEnvelope? (text : List Char) : Option (String × Option Raw) := do
  let r ← Record.ofText? ["type", "data"] text
  let tag ← r.required? "type" Raw.string?
  let data ← r.withDefault? "data" (Raw.nullable? some) none
  some (tag, data)

/-- Reads one text frame. -/
def decode (text : String) : Except HubError Command :=
  match readEnvelope? text.toList with
  | some (tag, data) => ofTag tag data
  | none => .error .malformed

end Command

end ChatHub

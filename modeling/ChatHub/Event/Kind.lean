/-!
The kinds of event that the hub sends, and the tag that stands for each on the wire.
-/

namespace ChatHub.Event

inductive Kind where
  | voiceRoomState
  | voiceJoined
  | voiceLeft
  | voiceOffer
  | voiceAnswer
  | voiceIce
  | voiceMediaState
  | typing
  | pong
  | messageNew
  | messageEdit
  | messageDelete
  | messageActivity
  | reactionUpdate
  | channelNew
  | channelUpdate
  | channelDelete
  | channelsReorder
  | categoryNew
  | categoriesUpdate
  | categoryDelete
  | emojiNew
  | emojiDelete
  | memberNew
deriving DecidableEq, Repr

namespace Kind

/-- Every kind, once. -/
def all : List Kind :=
  [voiceRoomState, voiceJoined, voiceLeft, voiceOffer, voiceAnswer, voiceIce, voiceMediaState,
    typing, pong, messageNew, messageEdit, messageDelete, messageActivity, reactionUpdate,
    channelNew, channelUpdate, channelDelete, channelsReorder, categoryNew, categoriesUpdate,
    categoryDelete, emojiNew, emojiDelete, memberNew]

def tag : Kind → String
  | voiceRoomState => "voice.room_state"
  | voiceJoined => "voice.joined"
  | voiceLeft => "voice.left"
  | voiceOffer => "voice.offer"
  | voiceAnswer => "voice.answer"
  | voiceIce => "voice.ice"
  | voiceMediaState => "voice.media_state"
  | typing => "typing"
  | pong => "pong"
  | messageNew => "message.new"
  | messageEdit => "message.edit"
  | messageDelete => "message.delete"
  | messageActivity => "message.activity"
  | reactionUpdate => "reaction.update"
  | channelNew => "channel.new"
  | channelUpdate => "channel.update"
  | channelDelete => "channel.delete"
  | channelsReorder => "channels.reorder"
  | categoryNew => "category.new"
  | categoriesUpdate => "categories.update"
  | categoryDelete => "category.delete"
  | emojiNew => "emoji.new"
  | emojiDelete => "emoji.delete"
  | memberNew => "member.new"

def ofTag? (tag : String) : Option Kind := all.find? (·.tag == tag)

/-- Changes of the server's own lists, which concern everyone and may be published as such. -/
def isServerWide : Kind → Bool
  | channelNew | channelUpdate | channelDelete | channelsReorder | categoryNew
  | categoriesUpdate | categoryDelete | emojiNew | emojiDelete | memberNew => true
  | _ => false

end Kind

end ChatHub.Event

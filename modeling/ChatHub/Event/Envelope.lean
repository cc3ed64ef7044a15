import ChatHub.Event.Kind
import ChatHub.Event.Payload
/-!
Events as they travel: a tag and a payload in one JSON object.
-/

namespace ChatHub

structure Event where
  kind : Event.Kind
  data : Event.Payload
deriving DecidableEq, Repr

namespace Event

/-- The text of the event.  Its payload is written once, however many connections get it. -/
def write (e : Event) : List Char :=
  Json.object [("type", Json.quote e.kind.tag), ("data", e.data.write)]

/-- Reads an event whose payload has the given form. -/
def read? (type : PayloadType) (text : List Char) : Option Event := do
  let r ← Json.Record.ofText? ["type", "data"] text
  let kind ← r.required? "type" fun v => v.case?.bind Kind.ofTag?
  let data ← r.required? "data" (Payload.read? type)
  some ⟨kind, data⟩

/-- A payload without content. -/
def Payload.empty : Payload := .raw ⟨['\x7b', '\x7d']⟩

/-- The answer to a keepalive. -/
def pong : Event := ⟨.pong, .empty⟩

/-- A user joined a voice room. -/
def joined (channel : ChannelId) (user : UserId) : Event :=
  ⟨.voiceJoined, .presence ⟨channel, user⟩⟩

/-- A user left a voice room. -/
def left (channel : ChannelId) (user : UserId) : Event :=
  ⟨.voiceLeft, .presence ⟨channel, user⟩⟩

end Event

/-- What waits in the queue of a connection: an event, or a text handed in as it is. -/
inductive Frame where
  | event (e : Event)
  | text (s : String)
deriving DecidableEq, Repr

/-- What goes over the wire. -/
def Frame.render : Frame → String
  | .event e => String.ofList e.write
  | .text s => s

end ChatHub

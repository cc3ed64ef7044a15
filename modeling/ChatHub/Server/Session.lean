import ChatHub.Server.State
/-!
The sessions of open sockets.  A session reads what its client sends and gives the commands in it
to the hub, and it sends what the hub puts into its queue.  It ends when the client is gone or
sends more than it may, or when the hub has closed the queue.  Whatever its end, its connection is
then taken off the hub.
-/

namespace ChatHub.Server

/-- What a client sends over a socket, each in one frame. -/
inductive Message where
  | text (s : String)
  | binary (bytes : Nat)
  | ping
  | pong
  /-- The client ends the session, or is gone. -/
  | close
deriving DecidableEq, Repr

def Message.size : Message → Nat
  | text s => s.utf8ByteSize
  | binary bytes => bytes
  | ping => 0
  | pong => 0
  | close => 0

/-- The most bytes that a socket takes in one frame, whatever the settings say of messages. -/
def maxFrameSize : Nat := 16 * 1024 * 1024

/-- The most bytes that a message may have. -/
def sizeLimit (c : Config) : Nat := min c.maxMessageSize maxFrameSize

/-- What a client gets over a socket. -/
inductive Sent where
  | frame (f : Frame)
  /-- The server ends the session. -/
  | close
  /-- The session broke off without a word. -/
  | broken
deriving DecidableEq, Repr

/-- Something that was sent, and over which socket. -/
structure Emission where
  socket : Nat
  sent : Sent
deriving DecidableEq, Repr

def queue (s : Server) (x : Session) : Queue := (s.hub.connection x.peer).queue

/-- Under which name a text is counted.  All tags without a meaning have one name together, and so
have all texts that are no commands. -/
def commandLabel (text : String) : String :=
  match Command.decode text with
  | .ok (.unknown _) => "unknown"
  | .ok c => c.name
  | .error _ => "invalid"

/-- Gives the command in a text to the hub. -/
def handleText (x : Session) (text : String) (s : Server) : Server :=
  { s with
    metrics := s.metrics.recordCommand (commandLabel text)
    hub := match s.hub.handleText x.peer text with
      | .ok h => h
      | .error _ => s.hub }

/-- Reads messages one after the other until the session is over, and tells whether it is. -/
def read (x : Session) : List Message → Server → Server × Bool
  | [], s => (s, false)
  | m :: ms, s =>
      if (s.queue x).closed || sizeLimit s.config < m.size then (s, true)
      else
        match m with
        | .text t => read x ms (s.handleText x t)
        | .close => (s, true)
        | _ => read x ms s

/-- Takes the connection of a session off the hub. -/
def endSession (x : Session) (s : Server) : Server :=
  let h := (s.hub.unregister x.peer).1
  { s with
    sessions := s.sessions.erase x
    hub := h.update x.peer fun c => { c with queue := c.queue.abandon } }

/-- Sends everything that waits in the queues of the sessions. -/
def flush (s : Server) : Server × List Emission :=
  let sent := s.sessions.flatMap fun x =>
    (s.queue x).waiting.map fun f => ⟨x.socket, .frame f⟩
  let hub := s.sessions.foldl
    (fun h x => h.update x.peer fun c => { c with queue := { c.queue with waiting := [] } }) s.hub
  ({ s with hub }, sent)

/-- Sends what waits and ends the sessions whose queue is closed, until there is nothing more to
send: the end of one session may be told to others.  Clients read all that is sent to them, so that
nothing ever keeps a session from sending. -/
def settle (s : Server) : Server × List Emission :=
  let flushed := (flush s).1
  let sent := (flush s).2
  match _h : flushed.sessions.find? fun x => (flushed.queue x).closed with
  | none => (flushed, sent)
  | some x =>
      let (last, more) := settle (flushed.endSession x)
      (last, sent ++ ⟨x.socket, .close⟩ :: more)
termination_by s.sessions.length
decreasing_by
  have hm : x ∈ s.sessions := List.mem_of_find?_eq_some _h
  have hp : 0 < s.sessions.length := List.length_pos_of_mem hm
  have he : (s.sessions.erase x).length = s.sessions.length - 1 := List.length_erase_of_mem hm
  show (s.sessions.erase x).length < s.sessions.length
  omega

/-- Reads messages that come in one go, and then lets everything come to rest. -/
def receive (x : Session) (ms : List Message) (s : Server) : Server × List Emission :=
  let (s, isOver) := read x ms s
  let (s, sent) := settle s
  if isOver && s.sessions.contains x then
    let (s, more) := settle (s.endSession x)
    (s, sent ++ ⟨x.socket, .broken⟩ :: more)
  else (s, sent)

end ChatHub.Server

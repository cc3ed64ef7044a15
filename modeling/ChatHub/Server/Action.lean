import ChatHub.Server.Route
import ChatHub.Server.Session
/-!
Everything that can happen to a server, as data, so that a history of a server is a list.
-/

namespace ChatHub.Server

inductive Action where
  /-- A request that is handed in as it is, on no connection that could be upgraded. -/
  | request (r : Http.Request)
  | setReady (ready : Bool)
  /-- A request on a connection that can be upgraded. -/
  | openSocket (r : Http.Request)
  /-- Messages that come over a socket in one go. -/
  | receive (socket : Nat) (ms : List Message)
  /-- Another part of the program asks something of the hub. -/
  | hub (op : Hub.Operation)

/-- What an action answers. -/
inductive Answer where
  | response (r : Http.Response)
  | ready (b : Bool)
  /-- The answer to a handshake, and the number of the socket if it was opened. -/
  | handshake (r : Http.Response) (socket : Option Nat)
  | received
  | noSocket
  | hub (o : Hub.Outcome)

/-- Starts the session of a new socket, if the hub takes a further connection. -/
def startSession (user : UserId) (s : Server) : Server × Option Nat :=
  match s.hub.connect user with
  | .ok (hub, peer) =>
      ({ s with
         hub, metrics := s.metrics.recordSession, opened := s.opened + 1
         sessions := s.sessions ++ [⟨s.opened, peer⟩] }, some s.opened)
  | .error _ => (s, none)

/-- Opens a socket if the request for it is accepted.  That there is room for one more is seen and
the connection made in one step, with nothing in between that could take the room. -/
def openSocket (t : Moment) (r : Http.Request) (s : Server) : Server × Answer :=
  let (s, reply) := s.answer t true { r with headers := r.headers.map Http.Header.trimmed }
  match reply.opens with
  | some user =>
      let (s, socket) := s.startSession user
      (s, .handshake reply.response socket)
  | none => (s, .handshake reply.response none)

/-- Lets everything come to rest behind an answer. -/
def rest (r : Server × Answer) : Server × Answer × List Emission :=
  let (s, sent) := r.1.settle
  (s, r.2, sent)

/-- One action, and all that is sent because of it. -/
def step (t : Moment) (a : Action) (s : Server) : Server × Answer × List Emission :=
  match a with
  | .request r =>
      let (s, reply) := s.answer t false r
      rest (s, .response reply.response)
  | .setReady ready => rest ({ s with ready }, .ready ready)
  | .openSocket r => rest (s.openSocket t r)
  | .receive socket ms =>
      match s.session? socket with
      | some x =>
          let (s, sent) := s.receive x ms
          (s, .received, sent)
      | none => rest (s, .noSocket)
  | .hub op =>
      let (hub, o) := s.hub.perform op
      rest ({ s with hub }, .hub o)

/-- The server after a history. -/
def run (s : Server) (actions : List (Moment × Action)) : Server :=
  actions.foldl (fun s (t, a) => (s.step t a).1) s

end ChatHub.Server

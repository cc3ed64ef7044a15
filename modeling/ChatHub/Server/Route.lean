import ChatHub.Metrics.Exposition
import ChatHub.Server.Gate
/-!
What the server answers to a request.
-/

namespace ChatHub.Server

open Http (Request Response)

/-- What can be asked for. -/
inductive Route where
  | socket
  | voiceRooms
  | stats
  | metrics
  | health
  | liveness
  | readiness
deriving DecidableEq, Repr

namespace Route

def path : Route → String
  | socket => "/ws"
  | voiceRooms => "/api/voice/rooms"
  | stats => "/api/realtime/stats"
  | metrics => "/metrics"
  | health => "/health"
  | liveness => "/health/live"
  | readiness => "/health/ready"

def all : List Route := [socket, voiceRooms, stats, metrics, health, liveness, readiness]

/-- A path is taken as it stands, without a look at its letters' case or at escapes. -/
def ofPath? (path : String) : Option Route := all.find? fun r => r.path == path

end Route

/-- An answer, and the user for whom a socket is opened with it. -/
structure Reply where
  response : Response
  opens : Option UserId

/-- An answer without more. -/
def Reply.only (response : Response) : Reply := ⟨response, none⟩

def metricsText (s : Server) : Server × Response :=
  let m := s.metrics.observeHub s.hub.stats
  ({ s with metrics := m },
    ⟨200, some "text/plain; version=0.0.4; charset=utf-8", none, m.encode⟩)

/-- Opens a socket or counts the refusal. -/
def answerUpgrade (t : Moment) (canUpgrade : Bool) (r : Request) (s : Server) : Server × Reply :=
  match s.grant t.now canUpgrade r with
  | .ok user => (s, ⟨.bare 101, some user⟩)
  | .error refusal =>
      let metrics := match refusal.reason? with
        | some reason => s.metrics.recordRejection reason
        | none => s.metrics
      ({ s with metrics }, .only refusal.response)

def answerRooms (t : Moment) (r : Request) (s : Server) : Response :=
  match Token.authenticate s.config.secret t.now r.headers r.target with
  | .ok _ => .json 200 (roomsDocument s.hub.rooms.snapshot)
  | .error e => Refusal.response (.token e)

/-- The answer at a route, for a method that is answered there. -/
def answerAt (t : Moment) (canUpgrade : Bool) (r : Request) (s : Server) :
    Route → Server × Reply
  | .socket => s.answerUpgrade t canUpgrade r
  | .voiceRooms => (s, .only (s.answerRooms t r))
  | .stats => (s, .only (.json 200 (statsDocument s.hub.stats)))
  | .metrics =>
      let (s, response) := s.metricsText
      (s, .only response)
  | .health => (s, .only (.json s.health.status (s.healthDocument t.uptime)))
  | .liveness => (s, .only (.json 200 (livenessDocument t.uptime)))
  | .readiness => (s, .only (.json s.health.status s.readinessDocument))

/-- The answer to any request.  `HEAD` gets that to `GET` without its body. -/
def route (t : Moment) (canUpgrade : Bool) (r : Request) (s : Server) : Server × Reply :=
  match Route.ofPath? r.target.path with
  | none => (s, .only (.bare 404))
  | some place =>
      if r.method == "GET" then s.answerAt t canUpgrade r place
      else if r.method == "HEAD" then
        let (s, reply) := s.answerAt t canUpgrade r place
        (s, { reply with response := reply.response.withoutBody })
      else (s, .only { Response.bare 405 with allow := some "GET,HEAD" })

/-- Answers a request, and counts and times it.  It counts as in flight while it is answered. -/
def answer (t : Moment) (canUpgrade : Bool) (r : Request) (s : Server) : Server × Reply :=
  let arrived := { s with metrics := { s.metrics with inFlight := s.metrics.inFlight + 1 } }
  let (s, reply) := arrived.route t canUpgrade r
  let m := { s.metrics with inFlight := s.metrics.inFlight - 1 }
  ({ s with metrics := m.recordRequest r.method r.target.path reply.response.status t.took },
    reply)

end ChatHub.Server

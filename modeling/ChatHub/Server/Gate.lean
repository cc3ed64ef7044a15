import ChatHub.Http.Message
import ChatHub.Http.Origin
import ChatHub.Server.Document
import ChatHub.Token.Carrier
/-!
Who may open a socket.  The checks are made in a fixed order and the first that fails decides.
-/

namespace ChatHub.Server

open Http (Request Response Headers)

/-- Why a socket is not opened. -/
inductive Refusal where
  | token (e : AuthError)
  | origin
  | capacity
  /-- The method is not `GET`. -/
  | method
  /-- The connection is not to be upgraded. -/
  | connectionField
  /-- It is to be upgraded to something else. -/
  | upgradeField
  | keyMissing
  | protocolVersion
  /-- The connection cannot be upgraded. -/
  | fixed
deriving DecidableEq, Repr

namespace Refusal

def status : Refusal → Nat
  | token _ => 401
  | origin => 403
  | capacity => 503
  | method => 405
  | connectionField => 400
  | upgradeField => 400
  | keyMissing => 400
  | protocolVersion => 400
  | fixed => 426

def message : Refusal → String
  | token e => e.message
  | origin => "origin not allowed"
  | capacity => "server at capacity"
  | method => "Request method must be `GET`"
  | connectionField => "Connection header did not include 'upgrade'"
  | upgradeField => "`Upgrade` header did not include 'websocket'"
  | keyMissing => "`Sec-WebSocket-Key` header missing"
  | protocolVersion => "`Sec-WebSocket-Version` header did not include '13'"
  | fixed => "WebSocket request couldn't be upgraded since no upgrade state was present"

/-- Under which name a refusal is counted.  A faulty handshake is not counted. -/
def reason? : Refusal → Option String
  | token _ => some "unauthorized"
  | origin => some "origin"
  | capacity => some "capacity"
  | _ => none

def response (r : Refusal) : Response :=
  if r.reason?.isSome then .json r.status (errorDocument r.message) else .text r.status r.message

end Refusal

/-- Whether the first field of a name has a value, up to the case of letters. -/
def fieldIs (hs : Headers) (name value : String) : Bool :=
  (Headers.first? hs name).any fun h => Text.lowerCase h.value == value

/-- Whether a word stands in the first field of a name, in any case. -/
def fieldHas (hs : Headers) (name word : String) : Bool :=
  (Headers.first? hs name).any fun h =>
    Text.isInside word.toList (Text.lowerCase h.value).toList

/-- What is wrong with a handshake. -/
def handshakeFault? (canUpgrade : Bool) (r : Request) : Option Refusal :=
  if r.method != "GET" then some .method
  else if !fieldHas r.headers "connection" "upgrade" then some .connectionField
  else if !fieldIs r.headers "upgrade" "websocket" then some .upgradeField
  else if (Headers.first? r.headers "sec-websocket-key").isNone then some .keyMissing
  else if !fieldIs r.headers "sec-websocket-version" "13" then some .protocolVersion
  else if !canUpgrade then some .fixed
  else none

/-- The user for whom a socket may be opened. -/
def grant (now : Nat) (canUpgrade : Bool) (r : Request) (s : Server) : Except Refusal UserId :=
  match Token.authenticate s.config.secret now r.headers r.target with
  | .error e => .error (.token e)
  | .ok claims =>
      if !Http.originAllowed r.headers s.config.allowedOrigin then .error .origin
      else if s.hub.limits.maxConnections ≤ s.hub.registered.length then .error .capacity
      else
        match handshakeFault? canUpgrade r with
        | some fault => .error fault
        | none => .ok claims.user

end ChatHub.Server

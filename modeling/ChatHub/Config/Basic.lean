import ChatHub.Hub.State
import ChatHub.Logging.Format
import ChatHub.Net.SocketAddress
import ChatHub.Text.Blank
import ChatHub.Text.Quoted
/-!
What can be set about a server, and what has to hold of it before the server starts.
-/

namespace ChatHub

structure Config where
  /-- Where the server listens. -/
  bindAddress : Net.SocketAddress
  /-- Signs the session tokens. -/
  secret : String
  /-- The site that connections are taken from; the server's own if none is given. -/
  origin : Option String
  logLevel : String
  logFormat : String
  /-- Frames that wait for one connection at most. -/
  queueCapacity : Nat
  maxConnections : Nat
  /-- Bytes of the largest message that a client may send. -/
  maxMessageSize : Nat
deriving DecidableEq, Repr

inductive ConfigError where
  /-- A source cannot be read, or a value has not the form it needs. -/
  | load
  | insecureSecret
  | invalid (field reason : String)
deriving DecidableEq, Repr

/-- The text for a log.  That of `load` ends with a reason not given here. -/
def ConfigError.message : ConfigError → String
  | load => "failed to load configuration"
  | insecureSecret =>
      "jwt_secret is not set or uses an insecure default; generate one with `openssl rand -hex 32`"
  | invalid field reason => "invalid value for " ++ field ++ ": " ++ reason

namespace Config

def default : Config :=
  ⟨.localDefault, "", none, "info", "pretty", Limits.standard.queueCapacity,
    Limits.standard.maxConnections, 64 * 1024⟩

/-- Secrets that stand in sample files, where everybody can read them. -/
def sampleSecrets : List String :=
  ["change-this-secret-in-production", "change-me-use-a-long-random-string-here",
   "change-me-use-a-long-random-string"]

/-- Least bound on the size of messages. -/
def leastMessageSize : Nat := 1024

def validate (c : Config) : Except ConfigError Unit :=
  let secret := Text.trim c.secret
  if secret.isEmpty || sampleSecrets.contains secret then .error .insecureSecret
  else if c.queueCapacity = 0 then .error (.invalid "send_queue_capacity" "must be at least 1")
  else if c.maxConnections = 0 then .error (.invalid "max_connections" "must be at least 1")
  else if c.maxMessageSize < leastMessageSize then
    .error (.invalid "max_message_size" "must be at least 1024 bytes")
  else .ok ()

def limits (c : Config) : Limits := ⟨c.queueCapacity, c.maxConnections⟩

/-- The form in which the log is written. -/
def format (c : Config) : Logging.Format := .ofText c.logFormat

/-- The site that connections are taken from.  An empty one is none. -/
def allowedOrigin (c : Config) : Option String := c.origin.filter fun o => !o.isEmpty

def showOption : Option String → String
  | some s => "Some(" ++ Text.quoted s ++ ")"
  | none => "None"

/-- All settings for a log, except the secret. -/
def debugText (c : Config) : String :=
  let fields :=
    [("bind_addr", c.bindAddress.write), ("jwt_secret", Text.quoted "[REDACTED]"),
     ("allowed_origin", showOption c.origin), ("log_level", Text.quoted c.logLevel),
     ("log_format", Text.quoted c.logFormat),
     ("send_queue_capacity", toString c.queueCapacity),
     ("max_connections", toString c.maxConnections),
     ("max_message_size", toString c.maxMessageSize)]
  let shown := fields.map fun (name, value) => name ++ ": " ++ value
  "ServerConfig \x7b " ++ ", ".intercalate shown ++ " \x7d"

/-- Names of the settings, in their order. -/
def fieldNames : List String :=
  ["bind_addr", "jwt_secret", "allowed_origin", "log_level", "log_format", "send_queue_capacity",
   "max_connections", "max_message_size"]

end Config

end ChatHub

import ChatHub.Config.Basic
import ChatHub.Json.Record
/-!
A configuration as a JSON record, in which each setting has its own type and may be left out.
-/

namespace ChatHub.Config

open Json (Record Raw)

def ofJson? (text : List Char) : Option Config := do
  let r ← Record.ofText? fieldNames text
  let bindAddress ← r.withDefault? "bind_addr"
    (fun v => v.string?.bind Net.SocketAddress.ofText?) default.bindAddress
  let secret ← r.withDefault? "jwt_secret" Raw.string? default.secret
  let origin ← r.withDefault? "allowed_origin" (Raw.nullable? Raw.string?) default.origin
  let logLevel ← r.withDefault? "log_level" Raw.string? default.logLevel
  let logFormat ← r.withDefault? "log_format" Raw.string? default.logFormat
  let queueCapacity ← r.withDefault? "send_queue_capacity" Raw.word64? default.queueCapacity
  let maxConnections ← r.withDefault? "max_connections" Raw.word64? default.maxConnections
  let maxMessageSize ← r.withDefault? "max_message_size" Raw.word64? default.maxMessageSize
  some ⟨bindAddress, secret, origin, logLevel, logFormat, queueCapacity, maxConnections,
    maxMessageSize⟩

end ChatHub.Config

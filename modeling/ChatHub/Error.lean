/-!
What can go wrong between a client and the hub.
-/

namespace ChatHub

inductive HubError where
  /-- A frame that cannot be read. -/
  | malformed
  /-- A frame without a field that it needs. -/
  | missingField (name : String)
  /-- No more connections are taken. -/
  | connectionLimit (max : Nat)
  /-- The queue of the connection holds all it can. -/
  | queueFull
  /-- Nobody takes frames from the queue of the connection any more. -/
  | channelClosed
  /-- A kind of event that only the hub itself sends. -/
  | notPublishable (tag : String)
deriving DecidableEq, Repr

/-- The text for a client or a log.  That of `malformed` ends with a reason not given here. -/
def HubError.message : HubError → String
  | malformed => "malformed frame"
  | missingField name => "missing required field: " ++ name
  | connectionLimit max => "connection limit reached: max " ++ toString max ++ " connections"
  | queueFull => "send queue full"
  | channelClosed => "channel closed"
  | notPublishable tag => "event kind not publishable: " ++ tag

end ChatHub

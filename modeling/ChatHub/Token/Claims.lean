import ChatHub.Identity
import ChatHub.Json.Writer
import ChatHub.Token.Part
/-!
What a session token says of its holder, and the rules for reading it.
-/

namespace ChatHub

structure Claims where
  user : UserId
  username : String
  isOwner : Bool
  /-- The second in which the token expires.  It is taken for some time after that. -/
  expires : Nat
  issued : Nat
deriving DecidableEq, Repr

namespace Claims

open Json (Raw)
open Token (Ending Part)

def write (c : Claims) : List Char := Json.object
  [("user_id", Json.quote c.user), ("username", Json.quote c.username),
   ("is_owner", Json.bool c.isOwner), ("exp", Json.nat c.expires), ("iat", Json.nat c.issued)]

def read? (part : Part) : Option Claims := do
  let r ← Token.record? ["user_id", "username", "is_owner", "exp", "iat"] part
  let user ← r.required? "user_id" Token.string?
  let username ← r.required? "username" Token.string?
  let isOwner ← r.withDefault? "is_owner" Raw.bool? false
  let expires ← r.required? "exp" Raw.word64?
  let issued ← r.required? "iat" Raw.word64?
  some ⟨user, username, isOwner, expires, issued⟩

/-- Whether a claim names an audience: a string or a list of strings. -/
def namesAudience (v : Raw) : Bool :=
  Ending.ofValue Token.roomInPart v == .complete &&
    ((Token.string? v).isSome || (v.list? Token.string?).isSome)

/-- The standard claims are looked at on their own.  None may come twice.  One that cannot be read
is passed over, which fails if the attempt at it has ended inside of it.  A token for a named
audience is for somebody else. -/
def standardClaimsAllow (part : Part) : Bool :=
  match Token.record? ["exp", "nbf", "sub", "iss", "aud"] part with
  | some r =>
      !r.positional && (r.get? "nbf").all (Ending.ofScalar true · != .inside) &&
        (r.get? "sub").all (Ending.ofScalar false · != .inside) &&
        (r.get? "iss").all (Ending.ofValue Token.roomInPart · != .inside) &&
        (r.get? "aud").all fun v =>
          Ending.ofValue Token.roomInPart v != .inside && !namesAudience v
  | none => false

end Claims

end ChatHub

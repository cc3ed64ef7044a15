import ChatHub.Text.Split
import ChatHub.Token.Claims
import ChatHub.Token.Key
import ChatHub.Token.Sha256
/-!
Signed session tokens: a header, the claims and a code over both, each as text, with dots between
them.  Only one method of signing is taken, so a token cannot choose a weaker one.
-/

namespace ChatHub

inductive AuthError where
  /-- No token came with the request. -/
  | missingToken
  | invalidToken
deriving DecidableEq, Repr

def AuthError.message : AuthError → String
  | missingToken => "unauthorized"
  | invalidToken => "invalid token"

namespace Token

open Json (Raw)

def utf8 (s : String) : List UInt8 := s.toUTF8.data.toList

/-- The third part of a token whose other two are given with the dot between them. -/
def signature (secret : String) (message : List Char) : List Char :=
  Base64Url.encode (Sha256.hmac (utf8 secret) (utf8 (String.ofList message)))

/-- Reads a header and tells the method of signing it names. -/
def readMethod? (header : Part) : Option String := do
  let r ← record?
    ["typ", "alg", "cty", "jku", "jwk", "kid", "x5u", "x5c", "x5t", "x5t#S256"] header
  if !(["typ", "cty", "jku", "kid", "x5u", "x5t", "x5t#S256"].all fun name =>
    (r.optional? name string?).isSome) then none
  let _ ← r.optional? "jwk" fun v => if isKey v then some v else none
  let _ ← r.optional? "x5c" (Raw.list? string?)
  r.required? "alg" (Raw.caseWith? literal? Raw.isNull)

def method : String := "HS256"

/-- Seconds for which a token is still taken after it expired, as clocks differ. -/
def leeway : Nat := 60

/-- The claims of a token that was signed with the secret and has not expired at `now`. -/
def claims? (secret : String) (now : Nat) (token : String) : Option Claims :=
  match Text.splitAt '.' token.toList with
  | [header, payload, code] => do
      if (← readMethod? (← Part.decode? header)) != method then none
      if code != signature secret (header ++ '.' :: payload) then none
      let payload ← Part.decode? payload
      let claims ← Claims.read? payload
      if !Claims.standardClaimsAllow payload then none
      if claims.expires + leeway < now then none
      if claims.user.isEmpty then none
      some claims
  | _ => none

def validate (secret : String) (now : Nat) (token : String) : Except AuthError Claims :=
  match claims? secret now token with
  | some c => .ok c
  | none => .error .invalidToken

/-- A token for the given claims. -/
def sign (secret : String) (c : Claims) : String :=
  let header := Json.object [("typ", Json.quote "JWT"), ("alg", Json.quote method)]
  let part (text : List Char) := Base64Url.encode (utf8 (String.ofList text))
  let message := part header ++ '.' :: part c.write
  String.ofList (message ++ '.' :: signature secret message)

end Token

end ChatHub

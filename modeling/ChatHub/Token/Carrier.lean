import ChatHub.Http.Header
import ChatHub.Http.Target
import ChatHub.Text.Blank
import ChatHub.Token.Signed
/-!
Where a request carries its session token: in a cookie, in an authorization field, or in the
query of its address.
-/

namespace ChatHub.Token

open Http Text

/-- The cookie that carries the token. -/
def cookieName : String := "chirm_token"

/-- A text without the blanks and tabs at its ends. -/
def trim (cs : List Char) : List Char := trimWith isBlankOrTab cs

/-- The value of a pair of the given name. -/
def pairValue? (name : String) (pair : List Char) : Option String :=
  match cutAt '=' (trim pair) with
  | (n, some value) => if String.ofList n == name then some (String.ofList value) else none
  | (_, none) => none

/-- The first cookie of that name in all cookie fields that are texts. -/
def fromCookie? (hs : Headers) : Option String :=
  ((Headers.all hs "cookie").filterMap Header.text?).findSome? fun text =>
    (splitAt ';' text.toList).findSome? (pairValue? cookieName)

/-- What follows the scheme in the first authorization field. -/
def fromAuthorization? (hs : Headers) : Option String :=
  (Headers.text? hs "authorization").bind fun text =>
    let scheme := "Bearer ".toList
    if scheme.isPrefixOf text.toList then
      some (String.ofList (trim (text.toList.drop scheme.length)))
    else none

def fromQuery? (t : Target) : Option String := t.parameter? "token"

/-- The token of a request: the first that is there, unless it is empty. -/
def extract? (hs : Headers) (t : Target) : Option String :=
  ((fromCookie? hs).or ((fromAuthorization? hs).or (fromQuery? t))).filter fun token =>
    !token.isEmpty

/-- Who makes a request. -/
def authenticate (secret : String) (now : Nat) (hs : Headers) (t : Target) :
    Except AuthError Claims :=
  match extract? hs t with
  | some token => validate secret now token
  | none => .error .missingToken

end ChatHub.Token

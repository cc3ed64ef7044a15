import ChatHub.Http.Header
import ChatHub.Http.Target
/-!
Requests and the answers to them, as far as the server looks at the ones and decides the others.
-/

namespace ChatHub.Http

structure Request where
  method : String
  target : Target
  headers : Headers
deriving DecidableEq, Repr

/-- The mark by which a request is found again in the logs. -/
inductive RequestId where
  /-- The request came with one. -/
  | given (s : String)
  /-- A new one has to be made up. -/
  | fresh
deriving DecidableEq, Repr

/-- The mark of a request, which its answer repeats. -/
def Request.id (r : Request) : RequestId :=
  match Headers.text? r.headers "x-request-id" with
  | some s => .given s
  | none => .fresh

structure Response where
  status : Nat
  contentType : Option String
  /-- The methods that would have been answered. -/
  allow : Option String
  body : String
deriving DecidableEq, Repr

namespace Response

def json (status : Nat) (body : List Char) : Response :=
  ⟨status, some "application/json", none, String.ofList body⟩

def text (status : Nat) (body : String) : Response :=
  ⟨status, some "text/plain; charset=utf-8", none, body⟩

/-- A status and nothing else. -/
def bare (status : Nat) : Response := ⟨status, none, none, ""⟩

def withoutBody (r : Response) : Response := { r with body := "" }

end Response

end ChatHub.Http

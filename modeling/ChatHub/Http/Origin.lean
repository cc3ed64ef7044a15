import ChatHub.Http.Header
/-!
From which sites a browser may open a connection.
-/

namespace ChatHub.Http

/-- The text after `start`, if it begins with it. -/
def after? (start text : String) : Option String :=
  if start.toList.isPrefixOf text.toList then
    some (String.ofList (text.toList.drop start.toList.length))
  else none

/-- The host that an origin names, if it is one of the web. -/
def originHost? (origin : String) : Option String :=
  (after? "http://" origin).or (after? "https://" origin)

/-- Whether a connection may be opened.  A request without an origin comes from no browser and
is let in.  If an origin is set, it has to be that one; otherwise it has to be the host that the
request was sent to. -/
def originAllowed (hs : Headers) (allowed : Option String) : Bool :=
  match Headers.first? hs "origin" with
  | none => true
  | some field =>
      match field.text? with
      | none => false
      | some origin =>
          match allowed with
          | some a => origin == a
          | none =>
              match Headers.text? hs "host" with
              | some host => originHost? origin == some host
              | none => false

end ChatHub.Http

import ChatHub.Text.Case
/-!
The two forms in which a log is written.
-/

namespace ChatHub.Logging

inductive Format where
  /-- For people. -/
  | pretty
  /-- For programs. -/
  | json
deriving DecidableEq, Repr

/-- Anything but `json`, in whatever case, means the form for people. -/
def Format.ofText (s : String) : Format :=
  if Text.lowerCase s == "json" then .json else .pretty

def Format.isJson : Format → Bool
  | json => true
  | pretty => false

def Format.name : Format → String
  | json => "json"
  | pretty => "pretty"

end ChatHub.Logging

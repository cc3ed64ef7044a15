import ChatHub.Json.Writer
import ChatHub.Logging.Filter
import ChatHub.Logging.Format
/-!
Entries of a log and the lines they are written as.
-/

namespace ChatHub.Logging

structure Entry where
  level : Level
  /-- The part of the program that says it. -/
  target : String
  message : String
  fields : List (String × String)
deriving DecidableEq, Repr

namespace Entry

/-- What an entry says, with its message among the fields. -/
def allFields (e : Entry) : List (String × String) := ("message", e.message) :: e.fields

def writeJson (e : Entry) : List Char :=
  Json.object
    [("level", Json.quote e.level.name),
     ("fields", Json.object (e.allFields.map fun (name, value) => (name, Json.quote value))),
     ("target", Json.quote e.target)]

def writePretty (e : Entry) : List Char :=
  (e.level.name ++ " " ++ e.target ++ ": " ++ e.message ++
    String.join (e.fields.map fun (name, value) => ", " ++ name ++ ": " ++ value)).toList

def write (f : Format) (e : Entry) : String :=
  String.ofList (if f.isJson then e.writeJson else e.writePretty)

end Entry

/-- The entries that a filter lets through. -/
def visible (f : Filter) (entries : List Entry) : List Entry :=
  entries.filter fun e => f.allows e.level e.target (e.allFields.map Prod.fst)

end ChatHub.Logging

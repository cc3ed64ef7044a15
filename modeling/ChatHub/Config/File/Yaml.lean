import ChatHub.Config.File.Yaml.Document
import ChatHub.Config.File.Yaml.Layout
/-!
Settings from a document that is laid out by its lines and columns.
-/

namespace ChatHub.Config.File

/-- A text in which every line ends alike.  It ends itself at the first null character. -/
def Yaml.lines : List Char → List Char
  | [] => []
  | '\x00' :: _ => []
  | '\r' :: '\n' :: rest => '\n' :: lines rest
  | '\r' :: rest => '\n' :: lines rest
  | c :: rest => c :: lines rest

/-- The settings of the only document, which has to be a table.  Without one there are none. -/
def yaml? (cs : List Char) : Option Source := do
  match ← Yaml.document? (← Yaml.tokens? (Yaml.lines cs)) with
  | some n => n.source?
  | none => some []

end ChatHub.Config.File

/-!
The parts of a document, in their order and without its layout: what indentation tells is told by
parts of their own.
-/

namespace ChatHub.Config.File.Yaml

inductive Token where
  /-- A line `%YAML`, which gives a version. -/
  | version
  /-- A line `%TAG`: a short name, and the start of the tags that it stands for. -/
  | handle (name start : String)
  | documentStart
  | documentEnd
  /-- A list or a table starts that is laid out by indentation. -/
  | listStart
  | tableStart
  | blockEnd
  | bracketOpen
  | bracketClose
  | braceOpen
  | braceClose
  | comma
  /-- An item of a list that is laid out by indentation follows. -/
  | item
  | key
  | value
  | reference (name : String)
  | anchor (name : String)
  | tag (handle suffix : String)
  | scalar (isPlain : Bool) (text : List Char)
deriving DecidableEq, Repr

/-- Whether a short name of tags, which starts with a mark, is closed by one. -/
def isClosed (handle : List Char) : Bool := 2 ≤ handle.length && handle.getLast? == some '!'

end ChatHub.Config.File.Yaml

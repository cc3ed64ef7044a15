import ChatHub.Config.Setting
import ChatHub.Text.Blank
/-!
Settings from lines `name = value`.  Names before the first section are settings; a section
`[name]` is a table.  All values are texts.
-/

namespace ChatHub.Config.File.Ini

open ChatHub.Text

/-- One character of a text, which a backslash lets stand for another, or for none at the end of
a line. -/
def character : Reader (Option Char) := do
  let c ← Reader.satisfy fun _ => true
  if c ≠ '\\' then return some c
  match ← Reader.satisfy fun _ => true with
  | '0' => return some '\x00'
  | 'a' => return some '\x07'
  | 'b' => return some '\x08'
  | 't' => return some '\t'
  | 'r' => return some '\r'
  | 'n' => return some '\n'
  | '\n' => return none
  | 'x' => return some (← Reader.codePoint 4)
  | c => return some c

/-- A text up to a character of a kind, which stays. -/
def textBefore (last : Char → Bool) : Reader (List Char) := do
  let cs ← Reader.many fun cs =>
    match cs with
    | c :: _ => if last c then none else character cs
    | [] => none
  return cs.filterMap id

def isLineEnd (c : Char) : Bool := c == '\n' || c == '\r'

def isQuote (c : Char) : Bool := c == '"' || c == '\''

/-- A part of a value between quotes. -/
def quotedPart : Reader (List Char) := do
  let q ← Reader.satisfy isQuote
  let cs ← textBefore (· == q)
  Reader.char q
  return cs

/-- A value: quoted parts, and what follows them on the line without blanks at its ends.  Where a
quoted part begins it has to end. -/
def value : Reader String := do
  let _ ← Reader.takeWhile fun c => isSpace c && !isLineEnd c
  let parts ← Reader.many quotedPart
  if (← Reader.peek).any isQuote then failure
  let rest ← textBefore isLineEnd
  let rest := if parts.isEmpty then trimWith isSpace rest
    else (rest.reverse.dropWhile isSpace).reverse
  return String.ofList (parts.flatten ++ rest)

/-- What stands between two blanks. -/
inductive Entry where
  /-- A comment, or the end of a name for which there is no value. -/
  | nothing
  | header (name : String)
  | value (name value : String)

/-- Skips blank space, but not that with which a line starts.  Tells whether a line starts here. -/
def skipGap (atStart : Bool) : List Char → Bool × List Char
  | [] => (atStart, [])
  | c :: rest =>
      if c = '\n' then skipGap true rest
      else if isSpace c && !(atStart && isBlankOrTab c) then skipGap false rest
      else (atStart, c :: rest)

def comment : Reader Entry := do
  let _ ← Reader.takeWhile (· != '\n')
  return .nothing

def header : Reader Entry := do
  Reader.char '['
  let name ← textBefore (· == ']')
  Reader.char ']'
  return .header (String.ofList (trimWith isSpace name))

def isAssignment (c : Char) : Bool := c == '=' || c == ':'

/-- A name, which may go over several lines, and its value. -/
def assignment : Reader Entry := do
  let name ← textBefore isAssignment
  let _ ← Reader.satisfy isAssignment
  let name := trimWith isSpace name
  if name.isEmpty then failure
  return .value (String.ofList name) (← value)

/-- A name that starts with a blank may begin with any character, and need not have a value at the
end of a text. -/
def indented : Reader Entry :=
  (do
    let _ ← textBefore isAssignment
    Reader.finish
    return .nothing) <|> assignment

/-- An entry behind the blank space before it.  A comment has none on its own line. -/
def entry : Reader Entry := do
  let atStart ← fun cs => some (skipGap false cs)
  match ← Reader.peek with
  | none => failure
  | some c =>
      if c = ';' || c = '#' then if atStart then comment else failure
      else if c = '[' then header
      else if isBlankOrTab c then indented
      else assignment

/-- The settings of entries; those inside of a section make up one table. -/
def settings : List Entry → Source
  | [] => []
  | .nothing :: rest => settings rest
  | .value name v :: rest => (name, .text v) :: settings rest
  | .header name :: rest =>
      (name, .compound) :: (rest.filterMap fun e =>
        match e with
        | .header n => some (n, .compound)
        | _ => none)

def document : Reader (List Entry) := do
  let entries ← Reader.many entry
  let _ ← Reader.takeWhile isSpace
  return entries

end Ini

/-- The settings of a document.  It begins with a new line. -/
def ini? (cs : List Char) : Option Source := (Ini.document.whole? ('\n' :: cs)).map Ini.settings

end ChatHub.Config.File

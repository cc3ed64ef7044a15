import ChatHub.Text.Letter
import ChatHub.Text.Reader
/-!
Patterns for the values of fields.  No value of an entry is compared with one here, but one that
cannot be read spoils the filter that it is in.
-/

namespace ChatHub.Logging.Pattern

open ChatHub.Text

/-- Groups and brackets nest no deeper. -/
def nestingLimit : Nat := 250

/-! ## Characters -/

/-- What a backslash and what follows it stand for. -/
inductive Escaped where
  | character (c : Char)
  /-- All characters of a kind. -/
  | kind
  /-- A place in a text. -/
  | place
deriving DecidableEq, Repr

/-- A backslash in front of letters that mean something, or of a sign that means itself.  The
places at the ends of words are none that a pattern can ask for. -/
def escaped : Reader Escaped := do
  Reader.char '\\'
  let c ← Reader.satisfy fun _ => true
  if "dDsSwW".toList.contains c then return .kind
  else if c == 'p' || c == 'P' then
    let _ ← Reader.satisfy fun k => "LMNPSZClmnpszc".toList.contains k
    return .kind
  else if c == 'A' || c == 'z' then return .place
  else if "aftnrv".toList.contains c then return .character (control c)
  else if c == 'x' then return .character (← Reader.codePoint 2)
  else if c == 'u' then return .character (← Reader.codePoint 4)
  else if c == 'U' then return .character (← Reader.codePoint 8)
  else if c.toNat < 0x80 && !c.isAlphanum && c != '<' && c != '>' then return .character c
  else failure
where
  control (c : Char) : Char :=
    match c with
    | 'a' => '\x07'
    | 'f' => '\x0c'
    | 't' => '\t'
    | 'n' => '\n'
    | 'r' => '\r'
    | _ => '\x0b'

/-! ## Brackets -/

def kindNames : List String :=
  ["alnum", "alpha", "ascii", "blank", "cntrl", "digit", "graph", "lower", "print", "punct",
    "space", "upper", "word", "xdigit"]

/-- The name of a kind of characters between colons. -/
def namedKind : Reader Unit := do
  Reader.word "[:"
  let _ ← Reader.optional (Reader.char '^')
  let name ← Reader.takeWhile (· != ':')
  Reader.word ":]"
  if !kindNames.contains (String.ofList name) then failure

/-- Signs between two parts of a bracket. -/
def bracketSign : Reader Unit :=
  Reader.word "&&" <|> Reader.word "--" <|> Reader.word "~~"

def bracketItem (p : Char → Bool) : Reader Escaped :=
  escaped <|> (do return .character (← Reader.satisfy fun c => p c && c != '\\'))

/-- Whether a minus that is next stands for a range. -/
def startsRange : List Char → Bool
  | '-' :: c :: _ => c != ']' && c != '-'
  | _ => false

/-- A character or a kind of them, or all characters from one to another. -/
def bracketRange : Reader Unit := do
  let first ← bracketItem fun c => c != '[' && c != ']'
  if startsRange (← get) then
    Reader.char '-'
    match first, ← bracketItem fun _ => true with
    | .character a, .character b => if b < a then failure
    | _, _ => failure
  else if first = .place then failure

def bracket : Nat → Reader Unit
  | 0 => failure
  | depth + 1 => do
      Reader.char '['
      let _ ← Reader.optional (Reader.char '^')
      let dashes ← Reader.takeWhile (· == '-')
      if dashes.isEmpty then
        let _ ← Reader.optional (Reader.char ']')
      let _ ← Reader.many (namedKind <|> bracket depth <|> bracketSign <|> bracketRange)
      Reader.char ']'

/-! ## Groups -/

/-- Letters that change how a pattern is read, each only once, and a minus in front of those that
are taken back. -/
def flags : Reader (List Char) := do
  let cs ← Reader.takeWhile fun c => "imsUuxR-".toList.contains c
  if cs.eraseDups.length != cs.length || cs.getLast? == some '-' then failure else return cs

def isNameChar (c : Char) : Bool :=
  isLetterOrNumber c || c == '_' || c == '.' || c == '[' || c == ']'

/-- The name of a group. -/
def groupName : Reader (List Char) := do
  Reader.word "?P<" <|> Reader.word "?<"
  let first ← Reader.satisfy fun c => isLetter c || c == '_'
  let rest ← Reader.takeWhile isNameChar
  Reader.char '>'
  return first :: rest

/-- What stands at the start of a group.  Gives its name, if it has one. -/
def groupStart : Reader (List (List Char)) := do
  Reader.char '('
  if (← Reader.peek) == some '?' then
    (do return [← groupName]) <|> (do
      Reader.char '?'
      let _ ← flags
      Reader.char ':'
      return [])
  else return []

/-- Flags for all that follows. -/
def standingFlags : Reader Unit := do
  Reader.word "(?"
  if (← flags).isEmpty then failure
  Reader.char ')'

def isPlain (c : Char) : Bool := !"\\()[*+?|\x7b".toList.contains c

/-- A part of a pattern, and how often it comes.  Gives the names of the groups in it. -/
def part (inner : Reader (List (List Char))) : Reader (List (List Char)) :=
  (do
    standingFlags
    if (← Reader.peek).any ("*+?".toList.contains ·) then failure
    return []) <|>
  (do
    let names ←
      (do
        let names ← groupStart
        let more ← inner
        Reader.char ')'
        return names ++ more) <|>
      (do bracket nestingLimit; return []) <|>
      (do let _ ← escaped; return []) <|>
      (do let _ ← Reader.satisfy isPlain; return [])
    let _ ← Reader.takeWhile ("*+?".toList.contains ·)
    return names)

/-- A pattern that nests no deeper than `depth`: parts, with bars between those of which one is
enough. -/
def pattern : Nat → Reader (List (List Char))
  | 0 => failure
  | depth + 1 => do
      let branch := Reader.many (part (pattern depth))
      let first ← branch
      let others ← Reader.many do
        Reader.char '|'
        branch
      return (first :: others).flatten.flatten

end Pattern

/-- Whether a text is a pattern.  No two of its groups have one name. -/
def isPattern (cs : List Char) : Bool :=
  match (Pattern.pattern (Pattern.nestingLimit + 1)).whole? cs with
  | some names => names.eraseDups.length = names.length
  | none => false

end ChatHub.Logging

import ChatHub.Config.File.Yaml.Cursor
/-!
Single values as they are written: without quotes, between quotes of either kind, and as a block
of lines.  Ends of lines are folded: one stands for a blank, and more for one less.
-/

namespace ChatHub.Config.File.Yaml

open ChatHub.Text

/-! ## Gaps -/

/-- What stands between two words of a value. -/
structure Gap where
  /-- An end of a line behind a backslash comes first. -/
  joined : Bool
  /-- Blanks on one line. -/
  blanks : List Char
  /-- The number of ends of lines. -/
  breaks : Nat
deriving DecidableEq, Repr

namespace Gap

def isLeading (g : Gap) : Bool := g.joined || 0 < g.breaks

/-- The text that it stands for. -/
def text (g : Gap) : List Char :=
  if g.joined then List.replicate g.breaks '\n'
  else match g.breaks with
    | 0 => g.blanks
    | 1 => [' ']
    | n + 2 => List.replicate (n + 1) '\n'

/-- Reads on through a gap.  A tab left of a column is left to a reader of its own. -/
def read (column : Int) (tab : Walk Unit) : Gap → Walk Gap :=
  Walk.turns fun g => do
    let c ← get
    match c.peek with
    | some '\n' =>
        Walk.skip
        return .inl ⟨g.joined, [], g.breaks + 1⟩
    | some x =>
        if !isBlankOrTab x then return .inr g
        else if !g.isLeading then
          Walk.skip
          return .inl ⟨g.joined, g.blanks ++ [x], g.breaks⟩
        else if x == '\t' && (c.column : Int) < column then
          tab
          return .inl g
        else
          Walk.skip
          return .inl g
    | none => return .inr g

end Gap

/-- A value as far as it has been read. -/
structure Draft where
  fromEnd : List Char
deriving DecidableEq, Repr

namespace Draft

def empty : Draft := ⟨[]⟩

def add (d : Draft) (part : List Char) : Draft := ⟨part.reverse ++ d.fromEnd⟩

def text (d : Draft) : List Char := d.fromEnd.reverse

end Draft

/-! ## Without quotes -/

/-- The rest of a word.  A colon ends it where a value may follow. -/
def plainWord (inFlow : Bool) : List Char → List Char
  | [] => []
  | c :: rest =>
      if isBlankOrEnd (some c) || (inFlow && isFlow c) ||
          (c == ':' && (isBlankOrEnd rest.head? || (inFlow && rest.head?.any isFlow))) then []
      else c :: plainWord inFlow rest

/-- Tabs in front of nothing but an end of a line. -/
def emptyLine : Walk Unit := do
  let _ ← Walk.blanks isBlankOrTab
  Walk.requireLineEnd

/-- A value without quotes.  It goes on as long as lines are indented. -/
def plain (place : Place) : Walk (List Char) := do
  Walk.require !(place.inFlow && ((← get).column : Int) ≤ place.indent)
  let draft ← Walk.turns (fun (draft, gap) => do
    let c ← get
    if c.isAtMark || c.peek == some '#' then return .inr draft
    if place.inFlow && c.peek == some '-' && (c.rest.drop 1).head?.any isFlow then failure
    let word := plainWord place.inFlow c.rest
    if word.isEmpty then return .inr draft
    set (c.skipMany word.length)
    let draft := (draft.add gap.text).add word
    let gap ← Gap.read (place.indent + 1) emptyLine ⟨false, [], 0⟩
    if !place.inFlow && ((← get).column : Int) ≤ place.indent then return .inr draft
    else return .inl (draft, gap)) (Draft.empty, (⟨false, [], 0⟩ : Gap))
  return draft.text

/-! ## Between quotes -/

/-- A backslash and what follows it, for one character. -/
def escape : Reader Char := do
  Reader.char '\\'
  match ← Reader.satisfy fun _ => true with
  | '0' => return '\x00'
  | 'a' => return '\x07'
  | 'b' => return '\x08'
  | 't' => return '\t'
  | '\t' => return '\t'
  | 'n' => return '\n'
  | 'v' => return '\x0b'
  | 'f' => return '\x0c'
  | 'r' => return '\r'
  | 'e' => return '\x1b'
  | ' ' => return ' '
  | '"' => return '"'
  | '/' => return '/'
  | '\\' => return '\\'
  | 'N' => return '\u0085'
  | '_' => return '\u00a0'
  | 'L' => return '\u2028'
  | 'P' => return '\u2029'
  | 'x' => Reader.codePoint 2
  | 'u' => Reader.codePoint 4
  | 'U' => Reader.codePoint 8
  | _ => failure

/-- A word between quotes, up to the quote, a gap, or a backslash that stands for nothing. -/
def quotedWord (quote : Char) : Reader (List Char) :=
  Reader.many <|
    if quote == '"' then
      escape <|> Reader.satisfy fun c => !isBlankOrEnd (some c) && c != '"' && c != '\\'
    else
      (do Reader.word "''"; return '\'') <|>
        Reader.satisfy fun c => !isBlankOrEnd (some c) && c != '\''

/-- What may follow a value between quotes that starts on a line. -/
def mayFollowQuote (place : Place) (line : Nat) (c : Cursor) : Bool :=
  isLineEnd c.peek ||
    if place.inFlow then c.peek.any fun x => x == ',' || x == ']' || x == '\x7d' || x == ':'
    else c.peek == some ':' && c.line = line

/-- A value between quotes.  Its lines are indented no less than what is around them. -/
def quoted (place : Place) (quote : Char) : Walk (List Char) := do
  let line := (← get).line
  Walk.skip
  let draft ← Walk.turns (fun (draft : Draft) => do
    let c ← get
    if c.isAtMark || (c.column : Int) < place.indent then failure
    let draft := draft.add (← Walk.read (quotedWord quote))
    if (← Walk.peek) == some quote then return .inr draft
    let joined := ['\\', '\n'].isPrefixOf (← get).rest
    if joined then modify (Cursor.skipMany 2)
    else Walk.require (isBlankOrEnd (← Walk.peek))
    let gap ← Gap.read place.indent failure ⟨joined, [], 0⟩
    Walk.require (← Walk.peek).isSome
    return .inl (draft.add gap.text)) .empty
  Walk.skip
  let _ ← Walk.blanks isBlankOrTab
  Walk.require (mayFollowQuote place line (← get))
  return draft.text

/-! ## Blocks of lines -/

/-- What becomes of the ends of lines behind a block: one is kept, or none, or all. -/
inductive Ending where
  | one
  | none
  | all
deriving DecidableEq, Repr

/-- The form of a block, from the marks behind its first character. -/
structure BlockForm where
  ending : Ending
  /-- How far its lines are indented, if that is given. -/
  depth : Option Nat
deriving DecidableEq, Repr

def Ending.read : Reader Ending :=
  (do Reader.char '+'; return .all) <|> (do Reader.char '-'; return .none)

def blockDepth : Reader Nat := do
  let digit ← Reader.satisfy Char.isDigit
  if digit == '0' then failure else return digit.toNat - '0'.toNat

/-- The marks in either order. -/
def BlockForm.read : Reader BlockForm := do
  match ← Reader.optional Ending.read with
  | some ending => return ⟨ending, ← Reader.optional blockDepth⟩
  | none =>
      let depth ← Reader.optional blockDepth
      let ending ← if depth.isSome then Reader.optional Ending.read else pure none
      return ⟨ending.getD .one, depth⟩

/-- Blanks up to a column, and empty lines, whose number is given. -/
def blockIndent (column : Nat) : Walk Nat :=
  Walk.turns (fun breaks => do
    let c ← get
    let blanks := (c.rest.take (column - c.column)).takeWhile (· == ' ')
    set (c.skipMany blanks.length)
    if (← Walk.peek) == some '\n' then
      Walk.skip
      return .inl (breaks + 1)
    else return .inr breaks) 0

/-- The greatest column up to which there are blanks on the lines before the first that is not
empty, and on that one. -/
def firstIndent (cs : List Char) : Nat :=
  let lines := cs.takeWhile fun c => c == ' ' || c == '\n'
  (lines.foldl (fun (column, most) c =>
    if c == ' ' then (column + 1, max most (column + 1)) else (0, most)) (0, 0)).2

/-- A block as far as it has been read. -/
structure BlockDraft where
  draft : Draft
  /-- Its last line has ended. -/
  ended : Bool
  /-- The number of empty lines behind it. -/
  breaks : Nat
  /-- Its last line starts with a blank. -/
  indented : Bool
deriving DecidableEq, Repr

/-- What stands between two lines of a block, of which the next may start with a blank. -/
def BlockDraft.between (b : BlockDraft) (folded indented : Bool) : List Char :=
  let breaks := List.replicate b.breaks '\n'
  if folded && b.ended && !b.indented && !indented then if b.breaks = 0 then [' '] else breaks
  else if b.ended then '\n' :: breaks
  else breaks

/-- The lines of a block that starts at a column. -/
def blockLines (folded : Bool) (column : Nat) : BlockDraft → Walk BlockDraft :=
  Walk.turns fun b => do
    let c ← get
    if c.column != column || c.rest.isEmpty then return .inr b
    let indented := c.peek.any isBlankOrTab
    let line ← Walk.takeWhile (· != '\n')
    let draft := (b.draft.add (b.between folded indented)).add line
    if (← Walk.peek).isNone then return .inr ⟨draft, false, 0, indented⟩
    Walk.skip
    return .inl ⟨draft, true, ← blockIndent column, indented⟩

/-- The text of a block without any line: an end of a line stands behind its marks, or not. -/
def emptyBlock (ending : Ending) (ended : Bool) (breaks : Nat) : List Char :=
  match ending with
  | .none => []
  | .one => if ended then ['\n'] else []
  | .all => if ended then List.replicate (max breaks 1) '\n' else []

/-- The ends of lines behind a block.  One that ends with the text counts as ended by a line. -/
def BlockDraft.tail (b : BlockDraft) (ending : Ending) (unfinished : Bool) : List Char :=
  let last := (if b.ended then ['\n'] else []) ++ if unfinished then ['\n'] else []
  match ending with
  | .none => []
  | .one => last
  | .all => last ++ List.replicate b.breaks '\n'

/-- A block of lines, folded or as they are. -/
def block (place : Place) : Walk (List Char) := do
  let folded := (← Walk.peek) == some '>'
  Walk.skip
  let form ← Walk.read BlockForm.read
  emptyLine
  let ended := (← Walk.peek).isSome
  Walk.skip
  Walk.require ((← Walk.peek) != some '\t')
  let first := firstIndent (← get).rest
  let column := match form.depth with
    | some n => place.indent.toNat + n
    | none => max first (place.indent + 1).toNat
  let breaks ← blockIndent column
  let c ← get
  if c.rest.isEmpty then return emptyBlock form.ending ended breaks
  Walk.require !(c.column < column && place.indent < c.column)
  let b ← blockLines folded column ⟨.empty, false, breaks, false⟩
  let c ← get
  return (b.draft.add (b.tail form.ending (c.rest.isEmpty && max column 1 ≤ c.column))).text

end ChatHub.Config.File.Yaml

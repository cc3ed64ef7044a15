import ChatHub.Text.Reader
import ChatHub.Text.Blank
import ChatHub.Text.Turns
/-!
A place in a text whose lines and columns count, and the ways to move on from it.
-/

namespace ChatHub.Config.File.Yaml

open ChatHub.Text

/-- What follows a place, and where it is. -/
structure Cursor where
  rest : List Char
  index : Nat
  line : Nat
  column : Nat
  /-- Only blanks stand before it on its line. -/
  leading : Bool
deriving DecidableEq, Repr

def isBlankOrEnd (c : Option Char) : Bool := c.all fun c => isBlankOrTab c || c == '\n'

def isLineEnd (c : Option Char) : Bool := c.all (· == '\n')

/-- Brackets, braces, and the commas between them. -/
def isFlow (c : Char) : Bool :=
  c == ',' || c == '[' || c == ']' || c == '\x7b' || c == '\x7d'

namespace Cursor

def ofText (cs : List Char) : Cursor := ⟨cs, 0, 0, 0, true⟩

def peek (c : Cursor) : Option Char := c.rest.head?

/-- The place behind the next character. -/
def skip (c : Cursor) : Cursor :=
  match c.rest with
  | [] => c
  | '\n' :: rest => ⟨rest, c.index + 1, c.line + 1, 0, true⟩
  | x :: rest => ⟨rest, c.index + 1, c.line, c.column + 1, c.leading && isBlankOrTab x⟩

def skipMany : Nat → Cursor → Cursor
  | 0, c => c
  | n + 1, c => skipMany n c.skip

/-- Three dashes or points at the start of a line, that part one document from the next. -/
def isAtMark (c : Cursor) : Bool :=
  c.column = 0 && (['-', '-', '-'].isPrefixOf c.rest || ['.', '.', '.'].isPrefixOf c.rest) &&
    isBlankOrEnd (c.rest.drop 3).head?

end Cursor

/-- Readers that keep track of where they are. -/
abbrev Walk := StateT Cursor Option

/-- Where a value stands. -/
structure Place where
  /-- The column of the innermost block, or -1 outside of all. -/
  indent : Int
  inBlock : Bool
  /-- Whether it stands between brackets or braces. -/
  inFlow : Bool
deriving DecidableEq, Repr

namespace Walk

variable {α σ : Type}

def peek : Walk (Option Char) := do
  return (← get).peek

def skip : Walk Unit := modify Cursor.skip

def read (r : Reader α) : Walk α := fun c =>
  (r c.rest).map fun (a, rest) => (a, c.skipMany (c.rest.length - rest.length))

def takeWhile (p : Char → Bool) : Walk (List Char) := read (Reader.takeWhile p)

/-- Turns of which each but the last moves on. -/
def turns (turn : σ → Walk (σ ⊕ α)) (s : σ) : Walk α := do
  Text.turns turn ((← get).rest.length + 2) s

def require (holds : Bool) : Walk Unit := if holds then pure () else failure

def requireLineEnd : Walk Unit := do
  require (isLineEnd (← peek))

/-- Blanks and a comment behind them.  Gives the blanks. -/
def blanks (isBlank : Char → Bool) : Walk (List Char) := do
  let taken ← takeWhile isBlank
  if (← peek) == some '#' then
    require !taken.isEmpty
    let _ ← takeWhile (· != '\n')
  return taken

/-- All that may stand between two parts of a document.  Tells whether a line has ended.  In front
of what stands in a block, tabs are no indentation. -/
def gap (place : Place) : Walk Bool :=
  turns (fun ended => do
    let c ← get
    match c.peek with
    | some '\t' =>
        if place.inBlock && c.leading && (c.column : Int) < place.indent then
          let _ ← blanks isBlankOrTab
          requireLineEnd
        else skip
        return .inl ended
    | some ' ' =>
        skip
        return .inl ended
    | some '\n' =>
        skip
        return .inl true
    | some '#' =>
        let _ ← takeWhile (· != '\n')
        return .inl ended
    | _ => return .inr ended) false

end Walk

end ChatHub.Config.File.Yaml

import ChatHub.Config.File.Yaml.Property
import ChatHub.Config.File.Yaml.Scalar
/-!
The parts of a document as its lines and columns lay them out.  Indentation opens and closes blocks,
and what a colon follows is a key, which is known only when the colon has been found.
-/

namespace ChatHub.Config.File.Yaml

open ChatHub.Text

/-- A level of indentation: that of a block, or that of what stands right of its start. -/
structure Level where
  column : Nat
  isBlock : Bool
deriving DecidableEq, Repr

/-- A part that is a key if a colon follows it. -/
structure Candidate where
  /-- The number of parts before it. -/
  position : Nat
  /-- It has to be one: nothing else may start here. -/
  required : Bool
  index : Nat
  line : Nat
  column : Nat
deriving DecidableEq, Repr

structure Layout where
  cursor : Cursor
  /-- The parts so far, from the last. -/
  tokens : List Token
  /-- The levels of indentation, from the innermost. -/
  levels : List Level
  /-- Whether what follows may be a key. -/
  keyAllowed : Bool
  /-- What may become a key in each of the open brackets and braces, from the innermost, and
  outside of them. -/
  candidates : List (Option Candidate)
  /-- For each open bracket, whether a pair stands in it without braces. -/
  pairs : List Bool
  /-- Whether a brace or a question mark has started a table of pairs. -/
  inTable : Bool
  /-- A place at which a value may follow its colon at once. -/
  adjacent : Nat
deriving DecidableEq, Repr

namespace Layout

def ofText (cs : List Char) : Layout :=
  ⟨.ofText cs, [], [], true, [none], [], false, 0⟩

/-- Brackets and braces nest no deeper. -/
def nestingLimit : Nat := 255

/-- A key ends no further behind its start. -/
def keyLimit : Nat := 1024

def indent (l : Layout) : Int := (l.levels.head?.map fun v => (v.column : Int)).getD (-1)

def inFlow (l : Layout) : Bool := 1 < l.candidates.length

def place (l : Layout) : Place := ⟨l.indent, !l.levels.isEmpty, l.inFlow⟩

def peek (l : Layout) : Option Char := l.cursor.peek

def push (l : Layout) (t : Token) : Layout := { l with tokens := t :: l.tokens }

/-- Puts a part behind the first so many. -/
def insert (l : Layout) (position : Nat) (t : Token) : Layout :=
  let behind := l.tokens.length - position
  { l with tokens := l.tokens.take behind ++ t :: l.tokens.drop behind }

/-! ## Indentation -/

/-- Closes the blocks that are indented further than a column. -/
def closeBlocks (l : Layout) (column : Int) : Layout :=
  if l.inFlow then l
  else
    let isInner (v : Level) : Bool := decide (column < (v.column : Int))
    let closed := (l.levels.takeWhile isInner).filter (·.isBlock)
    { l with
      levels := l.levels.dropWhile isInner
      tokens := closed.map (fun _ => .blockEnd) ++ l.tokens }

/-- Leaves the levels that are none of blocks. -/
def leaveInner (l : Layout) : Layout :=
  { l with levels := l.levels.dropWhile (!·.isBlock) }

/-- What follows in a block stands right of its start. -/
def enterInner (l : Layout) : Layout :=
  match l.levels with
  | v :: _ =>
      if v.isBlock && !l.inFlow then { l with levels := ⟨v.column + 1, false⟩ :: l.levels } else l
  | [] => l

/-- Opens a block at a column, in front of all parts but the first so many, unless it is open. -/
def openBlock (l : Layout) (t : Token) (position column : Nat) : Layout :=
  if l.inFlow then l
  else
    let levels := match l.levels with
      | v :: outer => if v.isBlock || column < v.column then l.levels else outer
      | [] => []
    let l := { l with levels }
    if l.indent < (column : Int) then
      { l.insert position t with levels := ⟨column, true⟩ :: levels }
    else l

/-! ## Keys -/

def allowKey (l : Layout) : Layout := { l with keyAllowed := true }

def forbidKey (l : Layout) : Layout := { l with keyAllowed := false }

/-- A key may follow on its own line, or on none. -/
def allowKeyOutside (l : Layout) : Layout := { l with keyAllowed := !l.inFlow }

def candidate (l : Layout) : Option Candidate := l.candidates.head?.join

def setCandidate (l : Layout) (c : Option Candidate) : Layout :=
  { l with candidates := c :: l.candidates.tail }

/-- Takes what follows for a key, as long as nothing speaks against it. -/
def startKey (l : Layout) : Layout :=
  if l.keyAllowed then
    let required := !l.inFlow && (l.levels.head?.any fun v => v.isBlock) &&
      l.indent = l.cursor.column
    l.setCandidate
      (some ⟨l.tokens.length, required, l.cursor.index, l.cursor.line, l.cursor.column⟩)
  else l

/-- What has been taken for a key is none. -/
def dropKey? (l : Layout) : Option Layout :=
  if l.candidate.any (·.required) then none else some (l.setCandidate none)

/-- Outside of brackets a key ends on its line, and not too far behind its start. -/
def dropOldKey? (l : Layout) : Option Layout :=
  let isOld (c : Candidate) : Bool :=
    c.line < l.cursor.line || c.index + keyLimit < l.cursor.index
  if !l.inFlow && l.candidate.any isOld then l.dropKey? else some l

end Layout

/-- Readers of parts. -/
abbrev LayoutReader := StateT Layout Option

namespace LayoutReader

open Layout

variable {α : Type}

def walk (w : Walk α) : LayoutReader α := fun l =>
  (w l.cursor).map fun (a, c) => (a, { l with cursor := c })

/-- Whether the next character but so many may end what is before it. -/
def endsAt (n : Nat) : LayoutReader Bool := do
  return isBlankOrEnd ((← get).cursor.rest.drop n).head?

def add (t : Token) : LayoutReader Unit := modify (·.push t)

def dropKey : LayoutReader Unit := do
  set (← (← get).dropKey?)

/-- Blanks, comments and ends of lines, behind which a key may follow. -/
def gap : LayoutReader Unit := do
  let ended ← walk (Walk.gap (← get).place)
  if ended && !(← get).inFlow then modify (·.allowKey)

def spaces : LayoutReader Unit := do
  let _ ← walk (Walk.blanks isBlankOrTab)

/-! ## Documents -/

def leaveDocument : LayoutReader Unit := do
  modify (·.closeBlocks (-1))
  dropKey
  modify (·.forbidKey)

def directive : LayoutReader Unit := do
  leaveDocument
  let t ← walk (Walk.read Yaml.directive)
  spaces
  walk Walk.requireLineEnd
  walk Walk.skip
  add t

def documentMark : LayoutReader Unit := do
  leaveDocument
  let isStart := (← get).peek == some '-'
  walk (modify (Cursor.skipMany 3))
  if isStart then add .documentStart
  else
    add .documentEnd
    spaces
    walk Walk.requireLineEnd

/-! ## Brackets and braces -/

/-- Ends a pair that stands in a bracket without braces. -/
def endPair : LayoutReader Unit := do
  match (← get).pairs with
  | true :: outer =>
      modify fun l => { l.push .braceClose with inTable := false, pairs := false :: outer }
  | _ => pure ()

def openFlow (isBracket : Bool) : LayoutReader Unit := do
  modify fun l => l.startKey.enterInner
  let l ← get
  if nestingLimit < l.candidates.length then failure
  modify fun l => { l.allowKey with candidates := none :: l.candidates }
  walk Walk.skip
  if isBracket then modify fun l => { l with pairs := false :: l.pairs }
  else modify fun l => { l with inTable := true }
  spaces
  add (if isBracket then .bracketOpen else .braceOpen)

def closeFlow (isBracket : Bool) : LayoutReader Unit := do
  dropKey
  modify fun l => if l.inFlow then { l with candidates := l.candidates.tail } else l
  modify (·.forbidKey)
  if isBracket then
    endPair
    modify fun l => { l with pairs := l.pairs.tail }
  walk Walk.skip
  spaces
  modify fun l => if l.inFlow then { l with adjacent := l.cursor.index } else l
  add (if isBracket then .bracketClose else .braceClose)

def comma : LayoutReader Unit := do
  dropKey
  modify (·.allowKey)
  endPair
  walk Walk.skip
  spaces
  add .comma

/-! ## Items, keys and values -/

def item : LayoutReader Unit := do
  let l ← get
  if l.inFlow || !l.keyAllowed then failure
  walk Walk.skip
  modify (·.openBlock .listStart l.tokens.length l.cursor.column)
  let blanks ← walk (Walk.blanks isBlankOrTab)
  if blanks.contains '\t' && (← get).peek == some '-' && (← endsAt 1) then failure
  if (← get).peek.any fun c => c == '\n' || isFlow c then modify (·.enterInner)
  dropKey
  modify fun l => l.allowKey.push .item

/-- A key behind a question mark, which may be a list or a table. -/
def markedKey : LayoutReader Unit := do
  let l ← get
  if l.inFlow then modify fun l => { l with inTable := true }
  else if l.keyAllowed then modify (·.openBlock .tableStart l.tokens.length l.cursor.column)
  else failure
  dropKey
  modify (·.allowKeyOutside)
  walk Walk.skip
  let next := (← get).peek
  if next.isNone || next == some '\t' then failure
  walk keyGap
  if (← get).peek == some '\t' then failure
  add .key
where
  /-- Blanks that are no tabs, comments and ends of lines. -/
  keyGap : Walk Unit :=
    Walk.turns (fun (_ : Unit) => do
      match ← Walk.peek with
      | some ' ' =>
          Walk.skip
          return .inl ()
      | some '\n' =>
          Walk.skip
          return .inl ()
      | some '#' =>
          let _ ← Walk.takeWhile (· != '\n')
          return .inl ()
      | _ => return .inr ()) ()

/-- A tab behind a colon does not part it from what could be the rest of a word. -/
def afterColon : LayoutReader Unit := do
  if (← get).peek == some '\t' then
    let blanks ← walk (Walk.blanks isBlankOrTab)
    if !blanks.contains ' ' && (← get).peek.any isHandleChar then failure

def value : LayoutReader Unit := do
  let start ← get
  let isPair := !start.pairs.isEmpty && !start.inTable
  if isPair then modify fun l => { l with pairs := true :: l.pairs.tail }
  walk Walk.skip
  afterColon
  match start.candidate with
  | some k =>
      modify (·.insert k.position .key)
      if isPair then
        if k.line < start.cursor.line then failure
        modify (·.insert k.position .braceOpen)
      modify fun l =>
        ((l.openBlock .tableStart k.position k.column).enterInner.setCandidate none).forbidKey
  | none =>
      if isPair then add .braceOpen
      if !start.inFlow then
        if !start.keyAllowed then failure
        modify fun l => l.openBlock .tableStart l.tokens.length start.cursor.column
      modify fun l => l.enterInner.allowKeyOutside
  add .value

/-! ## Single values -/

def reference : LayoutReader Unit := do
  modify fun l => l.startKey.forbidKey
  let name ← walk (Walk.read anchorName)
  add (.reference name)

def anchor : LayoutReader Unit := do
  modify fun l => l.startKey.forbidKey
  let name ← walk (Walk.read anchorName)
  add (.anchor name)

def tag : LayoutReader Unit := do
  modify fun l => l.startKey.forbidKey
  let t ← walk (Walk.read Yaml.tag)
  let l ← get
  if !isBlankOrEnd l.peek && !(l.inFlow && l.peek.any isFlow) then failure
  add t

def plain : LayoutReader Unit := do
  modify fun l => l.startKey.forbidKey.leaveInner
  let text ← walk (Yaml.plain (← get).place)
  modify fun l => (if l.cursor.leading then l.allowKey else l).push (.scalar true text)

def quoted (quote : Char) : LayoutReader Unit := do
  modify fun l => l.startKey.forbidKey
  let text ← walk (Yaml.quoted (← get).place quote)
  gap
  modify fun l => { l.push (.scalar false text) with adjacent := l.cursor.index }

def block : LayoutReader Unit := do
  modify fun l => l.startKey.allowKey.leaveInner
  let text ← walk (Yaml.block (← get).place)
  add (.scalar false text)

/-! ## All parts -/

/-- The next part, by its first character. -/
def part (c : Char) : LayoutReader Unit := do
  let l ← get
  let next := (l.cursor.rest.drop 1).head?
  match c with
  | '[' => openFlow true
  | '\x7b' => openFlow false
  | ']' => closeFlow true
  | '\x7d' => closeFlow false
  | ',' => comma
  | '*' => reference
  | '&' => anchor
  | '!' => tag
  | '\'' => quoted c
  | '"' => quoted c
  | '%' => failure
  | '@' => failure
  | '\x60' => failure
  | '-' => if isBlankOrEnd next then item else plain
  | '?' => if isBlankOrEnd next then markedKey else plain
  | ':' =>
      if isBlankOrEnd next || (l.inFlow && (next.any isFlow || l.cursor.index = l.adjacent)) then
        value
      else plain
  | '|' => if l.inFlow then plain else block
  | '>' => if l.inFlow then plain else block
  | _ => plain

/-- Reads one part on.  Tells whether the text has ended. -/
def turn : LayoutReader Bool := do
  gap
  set (← (← get).dropOldKey?)
  modify fun l => l.closeBlocks l.cursor.column
  let l ← get
  match l.peek with
  | none =>
      if l.candidates.any fun c => c.any (·.required) then failure
      modify (·.closeBlocks (-1))
      return true
  | some c =>
      if l.cursor.column = 0 && c == '%' then directive
      else if l.cursor.isAtMark then documentMark
      else if (l.cursor.column : Int) < l.indent then failure
      else part c
      return false

/-- All parts of a text. -/
def parts (length : Nat) : LayoutReader Unit :=
  turns (fun (_ : Unit) => do
    return if ← turn then .inr () else .inl ()) (length + 2) ()

end LayoutReader

/-- The parts of a text. -/
def tokens? (cs : List Char) : Option (List Token) :=
  (LayoutReader.parts cs.length (Layout.ofText cs)).map fun (_, l) => l.tokens.reverse

end ChatHub.Config.File.Yaml

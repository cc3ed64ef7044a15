import ChatHub.Config.File.Yaml.Node
import ChatHub.Config.File.Yaml.Token
import ChatHub.Text.Turns
/-!
Documents: the value that a row of parts gives, and how many documents there are.
-/

namespace ChatHub.Config.File.Yaml

open ChatHub.Text

/-- What is known while the parts of a document are read. -/
structure Reading where
  rest : List Token
  /-- The starts of tags by their short names. -/
  handles : List (String × String)
  /-- The numbers of anchors by their names, from the last. -/
  anchors : List (String × Nat)
  /-- The values behind anchors by their numbers, as far as they have been read. -/
  values : List (Nat × Node)

abbrev DocumentReader := StateT Reading Option

namespace DocumentReader

variable {α : Type}

def peek : DocumentReader (Option Token) := do
  return (← get).rest.head?

def skip : DocumentReader Unit := modify fun r => { r with rest := r.rest.drop 1 }

/-- Whether one of some parts comes next. -/
def isNext (ts : List Token) : DocumentReader Bool := do
  return (← peek).any (ts.contains ·)

/-- Takes a part if it comes next. -/
def found (t : Token) : DocumentReader Bool := do
  if ← isNext [t] then
    skip
    return true
  else return false

/-- As many rows of nodes as there are, up to one that is none. -/
def rows (row : DocumentReader (Option (List Node))) : DocumentReader (List Node) := do
  turns (fun (nodes : List Node) => do
    match ← row with
    | some more => return .inl (nodes ++ more)
    | none => return .inr nodes) ((← get).rest.length + 1) []

/-- A node, or nothing in front of some parts. -/
def maybe (ends : List Token) (node : DocumentReader Node) : DocumentReader Node := do
  if ← isNext ends then return .null else node

/-- A node behind a part that may be left out together with it. -/
def behind (t : Token) (ends : List Token) (node : DocumentReader Node) : DocumentReader Node := do
  if ← found t then maybe ends node else return .null

/-! ## Blocks -/

/-- The items of a list that has an indentation of its own. -/
def blockList (node : DocumentReader Node) : DocumentReader (List Node) :=
  rows do
    if ← found .item then return some [← maybe [.item, .blockEnd] node]
    else if ← found .blockEnd then return none
    else failure

/-- The items of a list that is not indented further than the table around it. -/
def flatList (node : DocumentReader Node) : DocumentReader (List Node) :=
  rows do
    if ← found .item then return some [← maybe [.item, .key, .value, .blockEnd] node]
    else return none

def blockTable (node : DocumentReader Node) : DocumentReader (List Node) :=
  rows do
    let ends := [Token.key, Token.value, Token.blockEnd]
    if ← found .blockEnd then return none
    else if ← isNext [.key, .value] then
      let k ← behind .key ends node
      let v ← behind .value ends node
      return some [k, v]
    else failure

/-! ## Between brackets and braces -/

/-- Rows with commas between them and perhaps one behind the last, up to an end.  None may stand
in front of the first. -/
def separated (last : Token) (row : DocumentReader (List Node)) : DocumentReader (List Node) := do
  let end? : DocumentReader (Option (List Node)) := do
    if ← found last then return none else return some (← row)
  match ← end? with
  | none => return []
  | some first =>
      let others ← rows do
        if ← found last then return none
        else if ← found .comma then end?
        else failure
      return first ++ others

/-- A pair in a list.  What stands in place of its key is taken for nothing. -/
def pair (node : DocumentReader Node) : DocumentReader Node := do
  let ends := [Token.comma, Token.bracketClose]
  let k ←
    if ← isNext (.value :: ends) then
      skip
      pure Node.null
    else node
  let v ← behind .value ends node
  (Node.ofPairs? [k, v] : Option Node)

def flowList (node : DocumentReader Node) : DocumentReader (List Node) :=
  separated .bracketClose do
    if ← found .key then return [← pair node] else return [← node]

def flowTable (node : DocumentReader Node) : DocumentReader (List Node) :=
  separated .braceClose do
    let ends := [Token.comma, Token.braceClose]
    if ← isNext [.key, .value] then
      let k ← behind .key (.value :: ends) node
      let v ← behind .value ends node
      return [k, v]
    else return [← node, .null]

/-! ## Nodes -/

/-- The start of the tags of a handle.  Two marks stand for the common tags, unless a document says
otherwise, and any other handle between marks has to be known. -/
def tagStart? (r : Reading) (handle : String) : Option String :=
  match r.handles.lookup handle with
  | some start => some start
  | none =>
      if handle == "!!" then some Node.commonTags
      else if isClosed handle.toList then none
      else some handle

def tag? : DocumentReader (Option Tag) := do
  match ← peek with
  | some (.tag handle suffix) =>
      skip
      let start ← tagStart? (← get) handle
      return some ⟨start, suffix⟩
  | _ => return none

/-- An anchor gets a number of its own. -/
def anchor? : DocumentReader (Option Nat) := do
  match ← peek with
  | some (.anchor name) =>
      skip
      let number := (← get).anchors.length
      modify fun r => { r with anchors := (name, number) :: r.anchors }
      return some number
  | _ => return none

/-- What stands behind an anchor: nothing while it is being read. -/
def anchored (name : String) : DocumentReader Node := do
  let r ← get
  let number ← r.anchors.lookup name
  return (r.values.lookup number).getD .void

/-- What is said in front of a node: an anchor and a tag in either order. -/
def properties : DocumentReader (Option Nat × Option Tag) := do
  match ← tag? with
  | some tag => return (← anchor?, some tag)
  | none => return (← anchor?, ← tag?)

/-- What a node stands in.  In a block it may be a block of its own, and in a table also a list
that is not indented any further.  A document counts as a list of one. -/
inductive Around where
  | list
  | table
  | flow
deriving DecidableEq, Repr

/-- A table of keys and values in turn. -/
def tableOf (nodes : DocumentReader (List Node)) : DocumentReader Node := do
  (Node.ofPairs? (← nodes) : Option Node)

/-- A node without what is said in front of it, given a reader of the nodes in it.  If nothing
follows, something has to be said. -/
def content (inner : Around → DocumentReader Node) (around : Around) (tag : Option Tag)
    (mayBeEmpty : Bool) : DocumentReader Node := do
  match ← peek, around with
  | some (.scalar isPlain cs), _ =>
      skip
      return if isPlain then .ofPlain tag cs else .text cs
  | some .bracketOpen, _ =>
      skip
      return .list (← flowList (inner .flow))
  | some .braceOpen, _ =>
      skip
      tableOf (flowTable (inner .flow))
  | some .item, .table => return .list (← flatList (inner .list))
  | next, _ =>
      if next == some .listStart && around != .flow then
        skip
        return .list (← blockList (inner .list))
      else if next == some .tableStart && around != .flow then
        skip
        tableOf (blockTable (inner .table))
      else if mayBeEmpty then return .ofPlain tag []
      else failure

/-- A node that nests no deeper than `depth`. -/
def node : Nat → Around → DocumentReader Node
  | 0, _ => failure
  | depth + 1, around => do
      match ← peek with
      | some (.reference name) =>
          skip
          anchored name
      | _ =>
          let (number, tag) ← properties
          let n ← content (node depth) around tag (number.isSome || tag.isSome)
          if let some number := number then
            modify fun r => { r with values := (number, n) :: r.values }
          return n

/-! ## Documents -/

/-- What the lines at the start of a document say.  The last of them counts, and a version is
given only once.  Tells whether there are any. -/
def directives : DocumentReader Bool := do
  turns (fun versions => do
    match ← peek with
    | some .version =>
        if versions.any id then failure
        skip
        modify fun r => { r with handles := [] }
        return .inl (true :: versions)
    | some (.handle name start) =>
        skip
        modify fun r => { r with handles := [(name, start)] }
        return .inl (false :: versions)
    | _ => return .inr !versions.isEmpty) ((← get).rest.length + 1) ([] : List Bool)

def skipEnds : DocumentReader Unit :=
  modify fun r => { r with rest := r.rest.dropWhile (· == .documentEnd) }

/-- A document.  Behind lines of its own it has to start with a mark. -/
def document : DocumentReader Node := do
  let hasDirectives ← directives
  let isMarked ← found .documentStart
  if hasDirectives && !isMarked then failure
  node ((← get).rest.length + 1) .list

/-- The only document that there is, or none. -/
def only : DocumentReader (Option Node) := do
  skipEnds
  if (← peek).isNone then return none
  let n ← document
  skipEnds
  if (← peek).isSome then failure
  return some n

end DocumentReader

/-- The only document of a row of parts.  There may be none. -/
def document? (ts : List Token) : Option (Option Node) :=
  (DocumentReader.only ⟨ts, [], [], []⟩).map (·.1)

end ChatHub.Config.File.Yaml

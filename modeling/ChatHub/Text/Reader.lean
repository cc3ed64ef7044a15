import ChatHub.Json.StringLiteral
/-!
Readers of text.  Each takes what it wants from the front of a text and leaves the rest, or fails;
one that fails has taken nothing, so another may be tried in its place.
-/

namespace ChatHub.Text

abbrev Reader := StateT (List Char) Option

namespace Reader

variable {α β : Type}

/-- What a reader makes of a whole text. -/
def whole? (r : Reader α) (cs : List Char) : Option α :=
  match r cs with
  | some (a, []) => some a
  | _ => none

def peek : Reader (Option Char) := fun cs => some (cs.head?, cs)

/-- The next character, if it is of a kind. -/
def satisfy (p : Char → Bool) : Reader Char := fun cs =>
  match cs with
  | c :: rest => if p c then some (c, rest) else none
  | [] => none

def char (c : Char) : Reader Unit := do
  let _ ← satisfy (· == c)

def word (w : String) : Reader Unit := fun cs =>
  if w.toList.isPrefixOf cs then some ((), cs.drop w.toList.length) else none

def takeWhile (p : Char → Bool) : Reader (List Char) := fun cs =>
  some (cs.takeWhile p, cs.dropWhile p)

/-- Succeeds at the end of a text alone. -/
def finish : Reader Unit := fun cs => if cs.isEmpty then some ((), cs) else none

/-- One character of a kind or more. -/
def takeSome (p : Char → Bool) : Reader (List Char) := do
  let taken ← takeWhile p
  if taken.isEmpty then failure else pure taken

def optional (r : Reader α) : Reader (Option α) := fun cs =>
  match r cs with
  | some (a, rest) => some (some a, rest)
  | none => some (none, cs)

/-- Whether a reader finds something here.  Takes it if so. -/
def found (r : Reader α) : Reader Bool := do
  return (← optional r).isSome

/-- As often as a reader finds something.  A turn that takes nothing is the last. -/
def many (r : Reader α) : Reader (List α) := fun cs =>
  match r cs with
  | none => some ([], cs)
  | some (a, rest) =>
      if rest.length < cs.length then (many r rest).map fun (as, last) => (a :: as, last)
      else some ([], cs)
termination_by cs => cs.length

/-- Items up to an end, which is taken too. -/
def upTo (last : Reader β) (item : Reader α) : Reader (List α) := do
  let items ← many fun cs =>
    match last cs with
    | some _ => none
    | none => item cs
  let _ ← last
  pure items

/-- A number written with `count` hexadecimal digits. -/
def hexNumber (count : Nat) : Reader Nat := fun cs =>
  let digits := (cs.take count).filterMap Json.hexDigit?
  if digits.length = count then some (digits.foldl (fun n d => n * 16 + d) 0, cs.drop count)
  else none

/-- A character given by its number, written with `count` hexadecimal digits. -/
def codePoint (count : Nat) : Reader Char := do
  let n ← hexNumber count
  if n.isValidChar then return Char.ofNat n else failure

/-- Items with commas between them, and perhaps one behind the last.  `gap` stands around each. -/
def separated (gap : Reader β) (item : Reader α) : Reader (List α) := do
  let _ ← gap
  match ← optional item with
  | none => return []
  | some first =>
      let _ ← gap
      let rest ← many do
        char ','
        let _ ← gap
        let next ← item
        let _ ← gap
        return next
      let _ ← optional (char ',')
      let _ ← gap
      return first :: rest

end Reader

end ChatHub.Text

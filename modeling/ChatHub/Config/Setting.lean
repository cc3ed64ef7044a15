import ChatHub.Decimal.Layout
import ChatHub.Decimal.Literal
import ChatHub.Text.Blank
import ChatHub.Text.Reader
/-!
A setting as a source gives it, before it is known what is needed, and what can be made of it.
-/

namespace ChatHub

inductive Setting where
  | null
  | bool (b : Bool)
  | integer (n : Int)
  | number (v : Decimal.Value)
  | text (s : String)
  /-- A list or a table.  No setting needs one. -/
  | compound
deriving DecidableEq, Repr

namespace Setting

/-- Numbers are shown without an exponent, and without a point if they are whole. -/
def layout : Decimal.Layout := ⟨none, none, false⟩

def writeInteger (n : Int) : List Char :=
  (if n < 0 then ['-'] else []) ++ Nat.toDigits 10 n.natAbs

/-- A setting where a text is needed. -/
def text? : Setting → Option String
  | bool b => some (if b then "true" else "false")
  | integer n => some (String.ofList (writeInteger n))
  | number v => some (String.ofList (layout.write Decimal.Binary.shortest v))
  | text s => some s
  | null => none
  | compound => none

/-- A text where a whole number is needed.  Words for yes and no count as one and zero. -/
def wordOfText? (s : String) : Option Nat :=
  match Text.lowerCase s with
  | "true" => some 1
  | "on" => some 1
  | "yes" => some 1
  | "false" => some 0
  | "off" => some 0
  | "no" => some 0
  | _ => Decimal.word64? s.toList

/-- A number where one of 64 bits is needed: rounded, and no greater than the greatest. -/
def wordOfNumber : Decimal.Value → Nat
  | .nan => 0
  | .infinite negative => if negative then 0 else UInt64.size - 1
  | .zero _ => 0
  | .finite negative b => if negative then 0 else min b.round (UInt64.size - 1)

/-- A setting where a whole number of 64 bits is needed. -/
def word? : Setting → Option Nat
  | bool b => some (if b then 1 else 0)
  | integer n => if 0 ≤ n then some n.toNat else none
  | number v => some (wordOfNumber v)
  | text s => wordOfText? s
  | null => none
  | compound => none

/-- A setting where a text may be left out. -/
def optionalText? : Setting → Option (Option String)
  | null => some none
  | s => s.text?.map some

end Setting

/-- What one source gives, in its order. -/
abbrev Source := List (String × Setting)

/-- Settings by name.  Of two with one name the first counts. -/
abbrev Settings := List (String × Setting)

namespace Settings

def isNameChar (c : Char) : Bool := c.isAlphanum || c == '_' || c == '-'

open Text (Reader)

/-- A step of a name after its first word: `.name` into a table, `[1]` into a list. -/
def pathStep : Reader Unit :=
  (do
    Reader.char '.'
    let _ ← Reader.takeSome isNameChar) <|>
  (do
    Reader.char '['
    let _ ← Reader.takeWhile Text.isBlankOrTab
    let minus ← Reader.found (Reader.char '-')
    let digits ← Reader.takeSome Char.isDigit
    let _ ← Reader.takeWhile Text.isBlankOrTab
    Reader.char ']'
    if (Decimal.integer? (if minus then '-' :: digits else digits)).isNone then failure)

def isPathTail (cs : List Char) : Bool := ((Reader.many pathStep).whole? cs).isSome

/-- The name whose setting is given, and whether all of it is: `name.part` gives a part only. -/
def target (name : String) : String × Bool :=
  let root := name.toList.takeWhile isNameChar
  let tail := name.toList.dropWhile isNameChar
  if root.isEmpty || tail.isEmpty || !isPathTail tail then (name, true)
  else (String.ofList root, false)

/-- Gives a setting, in place of one given before. -/
def put (settings : Settings) (name : String) (value : Setting) : Settings :=
  let (name, isWhole) := target name
  (name, if isWhole then value else .compound) :: settings

/-- Gives all that a source has, the later in place of the earlier. -/
def putAll (settings : Settings) (source : Source) : Settings :=
  source.foldl (fun s (name, value) => s.put name value) settings

/-- The settings of several sources.  What a later source gives counts. -/
def ofSources (sources : List Source) : Settings := sources.foldl putAll []

def get? (settings : Settings) (name : String) : Option Setting := settings.lookup name

end Settings

end ChatHub

import ChatHub.Config.Setting
import ChatHub.Text.Blank
import ChatHub.Text.Split
/-!
Settings from a document of lines `name = value` and of tables `[name]`.  No name may be given
twice, also not inside of a table.
-/

namespace ChatHub.Config.File.Toml

open ChatHub.Text

/-- Characters that may stand nowhere but at the end of a line. -/
def isControl (c : Char) : Bool := (c < ' ' && c != '\t') || c == '\x7f'

def blanks : Reader Unit := do
  let _ ← Reader.takeWhile isBlankOrTab

def newline : Reader Unit := Reader.char '\n' <|> Reader.word "\r\n"

def comment : Reader Unit := do
  Reader.char '#'
  let _ ← Reader.takeWhile (!isControl ·)

/-- Blanks, comments and ends of lines. -/
def gap : Reader Unit := do
  let _ ← Reader.many ((do let _ ← Reader.takeSome isBlankOrTab) <|> newline <|> comment)

/-! ## Texts -/

def escape : Reader Char := do
  Reader.char '\\'
  match ← Reader.satisfy fun _ => true with
  | 'b' => return '\x08'
  | 't' => return '\t'
  | 'n' => return '\n'
  | 'f' => return '\x0c'
  | 'r' => return '\r'
  | 'e' => return '\x1b'
  | '"' => return '"'
  | '\\' => return '\\'
  | 'x' => Reader.codePoint 2
  | 'u' => Reader.codePoint 4
  | 'U' => Reader.codePoint 8
  | _ => failure

def basic : Reader String := do
  Reader.char '"'
  let cs ← Reader.upTo (Reader.char '"')
    (escape <|> Reader.satisfy fun c => c != '\\' && !isControl c)
  return String.ofList cs

def literal : Reader String := do
  Reader.char '\''
  let cs ← Reader.takeWhile fun c => c != '\'' && !isControl c
  Reader.char '\''
  return String.ofList cs

/-- Three quotes that are followed by no further one. -/
def tripleEnd (q : Char) : Reader Unit := fun cs =>
  match cs with
  | a :: b :: c :: rest =>
      if a = q ∧ b = q ∧ c = q ∧ rest.head? ≠ some q then some ((), rest) else none
  | _ => none

/-- The end of a line, which is part of a text as it is written. -/
def lineEnd : Reader (List Char) :=
  (do
    Reader.char '\n'
    return ['\n']) <|>
  (do
    Reader.word "\r\n"
    return ['\r', '\n'])

/-- A backslash at the end of a line, with all blank space that follows. -/
def continuation : Reader (List Char) := do
  Reader.char '\\'
  blanks
  newline
  let _ ← Reader.takeWhile fun c => isBlankOrTab c || c == '\n' || c == '\r'
  return []

def one (r : Reader Char) : Reader (List Char) := do
  return [← r]

def longBasic : Reader String := do
  Reader.word "\"\"\""
  let _ ← Reader.optional newline
  let parts ← Reader.upTo (tripleEnd '"')
    (continuation <|> one escape <|> lineEnd <|>
      one (Reader.satisfy fun c => c != '\\' && !isControl c))
  return String.ofList parts.flatten

def longLiteral : Reader String := do
  Reader.word "'''"
  let _ ← Reader.optional newline
  let parts ← Reader.upTo (tripleEnd '\'') (lineEnd <|> one (Reader.satisfy (!isControl ·)))
  return String.ofList parts.flatten

def text : Reader String := longBasic <|> longLiteral <|> basic <|> literal

/-! ## Numbers and times -/

/-- Digits with single marks between them that mean nothing. -/
def digits? (isDigit : Char → Bool) (cs : List Char) : Option (List Char) :=
  let parts := splitAt '_' cs
  if parts.all fun p => !p.isEmpty && p.all isDigit then some parts.flatten else none

def ofRadix (radix : Nat) (cs : List Char) : Option Int :=
  let values := cs.filterMap ChatHub.Json.hexDigit?
  (digits? (fun c => (ChatHub.Json.hexDigit? c).any (decide <| · < radix)) cs).bind fun _ =>
    let n := values.foldl (fun n d => n * radix + d) 0
    if n < UInt64.size / 2 then some n else none

/-- Digits that do not start with a zero, or a lone zero. -/
def whole? (cs : List Char) : Option (List Char) :=
  (digits? Char.isDigit cs).filter fun ds => ds.length = 1 || ds.head? != some '0'

def integer? (cs : List Char) : Option Int :=
  match cs with
  | '0' :: 'x' :: rest => ofRadix 16 rest
  | '0' :: 'o' :: rest => ofRadix 8 rest
  | '0' :: 'b' :: rest => ofRadix 2 rest
  | _ =>
      let (negative, body) := Decimal.takeSign cs
      (whole? body).bind fun ds => Decimal.integer? (if negative then '-' :: ds else ds)

/-- A decimal with digits on both sides of its point, or with an exponent. -/
def decimal? (cs : List Char) : Option Decimal.Value :=
  let (negative, body) := Decimal.takeSign cs
  let isExponent (c : Char) : Bool := c == 'e' || c == 'E'
  let mantissa := body.takeWhile (!isExponent ·)
  let exponent := body.dropWhile (!isExponent ·)
  let (before, after) := cutAt '.' mantissa
  let soundExponent := match exponent with
    | [] => after.isSome
    | _ :: rest => (digits? Char.isDigit (Decimal.takeSign rest).2).isSome
  let soundFraction := after.all fun a => (digits? Char.isDigit a).isSome
  match String.ofList body with
  | "inf" => some (.infinite negative)
  | "nan" => some .nan
  | _ =>
      if (whole? before).isSome && soundFraction && soundExponent then
        match Decimal.magnitude? negative (body.filter (· != '_')) with
        | some (.infinite _) => none
        | v => v
      else none

/-- A number of `count` digits from `low` to `high`. -/
def takeField (count low high : Nat) : Reader Nat := do
  let ds ← Reader.takeWhile Char.isDigit
  let n := Decimal.ofDigits ds
  if ds.length = count ∧ low ≤ n ∧ n ≤ high then return n else failure

def isLeapYear (year : Nat) : Bool := year % 4 = 0 && (year % 100 != 0 || year % 400 = 0)

def daysInMonth (year : Nat) : Nat → Nat
  | 2 => if isLeapYear year then 29 else 28
  | 4 => 30
  | 6 => 30
  | 9 => 30
  | 11 => 30
  | _ => 31

def date : Reader Unit := do
  let year ← takeField 4 0 9999
  Reader.char '-'
  let month ← takeField 2 1 12
  Reader.char '-'
  let _ ← takeField 2 1 (daysInMonth year month)

/-- A time of day.  Seconds may be left out, and have a fraction if not. -/
def time : Reader Unit := do
  let _ ← takeField 2 0 23
  Reader.char ':'
  let _ ← takeField 2 0 59
  if ← Reader.found (Reader.char ':') then
    let _ ← takeField 2 0 60
    let _ ← Reader.optional do
      Reader.char '.'
      let _ ← Reader.takeSome Char.isDigit

def zone : Reader Unit :=
  (do let _ ← Reader.satisfy fun c => c == 'Z' || c == 'z') <|>
  (do
    let _ ← Reader.satisfy fun c => c == '+' || c == '-'
    let _ ← takeField 2 0 23
    Reader.char ':'
    let _ ← takeField 2 0 59)

/-- A date, a time, or both with or without a zone. -/
def moment : Reader Unit :=
  (do
    date
    let _ ← Reader.optional do
      let _ ← Reader.satisfy fun c => c == 'T' || c == 't' || c == ' '
      time
      let _ ← Reader.optional zone) <|>
  time

/-- How a fraction of a second is written: with nine digits at most, and no zeros at its end. -/
def fractionText (digits : List Char) : List Char :=
  match ((digits.take 9).reverse.dropWhile (· == '0')).reverse with
  | [] => []
  | kept => '.' :: kept

/-- A zone that is the universal one has a plus. -/
def zoneText (cs : List Char) : List Char :=
  if cs = "-00:00".toList then "+00:00".toList else cs

/-- How a moment is written: with `T` between date and time. -/
def momentText (cs : List Char) : String :=
  let large := cs.map fun c => if c = ' ' || c = 't' then 'T' else if c = 'z' then 'Z' else c
  let inTime := large.dropWhile (· != ':')
  let isZone (c : Char) : Bool := c == 'Z' || c == '+' || c == '-'
  let start := large.takeWhile (· != ':') ++ inTime.takeWhile fun c => c != '.' && !isZone c
  let fraction := (inTime.dropWhile (· != '.')).drop 1
  String.ofList (start ++ fractionText (fraction.takeWhile Char.isDigit) ++
    zoneText (inTime.dropWhile (!isZone ·)))

/-- The characters that a reader takes. -/
def taken (r : Reader Unit) : Reader (List Char) := fun cs =>
  (r cs).map fun (_, rest) => (cs.take (cs.length - rest.length), rest)

/-- A truth value, a number or a moment: as many characters as may belong to one. -/
def word : Reader Setting :=
  (do
    let cs ← taken moment
    match ← Reader.peek with
    | some c => if c.isAlphanum || c == ':' || c == '.' || c == '-' || c == '_' then failure
    | none => pure ()
    return .text (momentText cs)) <|>
  (do
    let cs ← Reader.takeSome fun c =>
      c.isAlphanum || c == '+' || c == '-' || c == '.' || c == '_'
    match String.ofList cs with
    | "true" => return .bool true
    | "false" => return .bool false
    | _ =>
        match integer? cs, decimal? cs with
        | some n, _ => return .integer n
        | none, some v => return .number v
        | none, none => failure)

/-! ## Tables -/

/-- A step from a table into one of its parts: by name, or by place in a list of tables. -/
inductive Step where
  | name (s : String)
  | item (n : Nat)
deriving DecidableEq, Repr

/-- How a part came to be. -/
inductive Kind where
  /-- It has a value, to which nothing can be added. -/
  | value
  /-- It is a table that names with points have made. -/
  | dotted
  /-- It is a table because a table inside of it has a line of its own. -/
  | implied
  /-- It is a table with a line of its own. -/
  | table
  /-- It is a list of tables. -/
  | list (count : Nat)
deriving DecidableEq, Repr

abbrev Path := List Step

/-- All parts that there are so far. -/
abbrev Parts := List (Path × Kind)

/-- Gives a part inside of `table` a value.  Tables on the way are made, but none that was made in
another way is added to. -/
def Parts.assign (parts : Parts) (table : Path) : List String → Option Parts
  | [] => none
  | [n] =>
      let p := table ++ [.name n]
      match parts.lookup p with
      | none => some ((p, .value) :: parts)
      | some _ => none
  | n :: more =>
      let p := table ++ [.name n]
      match parts.lookup p with
      | none => assign ((p, .dotted) :: parts) p more
      | some .dotted => assign parts p more
      | some _ => none

/-- Goes into a part of `table`, the last one where it is a list, and then does `last`. -/
def Parts.enter (last : Parts → Path → Option (Parts × Path)) (parts : Parts) (table : Path) :
    List String → Option (Parts × Path)
  | [] => none
  | [n] => last parts (table ++ [.name n])
  | n :: more =>
      let p := table ++ [.name n]
      match parts.lookup p with
      | none => enter last ((p, .implied) :: parts) p more
      | some .value => none
      | some (.list count) => enter last parts (p ++ [.item (count - 1)]) more
      | some _ => enter last parts p more

/-- Opens a table by a line of its own. -/
def openTable (parts : Parts) (p : Path) : Option (Parts × Path) :=
  match parts.lookup p with
  | none => some ((p, .table) :: parts, p)
  | some .implied => some ((p, .table) :: parts, p)
  | some _ => none

/-- Opens a further table of a list. -/
def openItem (parts : Parts) (p : Path) : Option (Parts × Path) :=
  match parts.lookup p with
  | none => some ((p, .list 1) :: parts, p ++ [.item 0])
  | some (.list count) => some ((p, .list (count + 1)) :: parts, p ++ [.item count])
  | some _ => none

/-- Whether names with points can be given values in one table. -/
def areDistinct (names : List (List String)) : Bool :=
  (names.foldlM (fun (parts : Parts) n => parts.assign [] n) []).isSome

def isBare (c : Char) : Bool := c.isAlphanum || c == '_' || c == '-'

def simpleName : Reader String :=
  basic <|> literal <|> (do return String.ofList (← Reader.takeSome isBare))

/-- How deep lists and tables may nest, and how many parts a name may have. -/
def nestingLimit : Nat := 80

/-- One name or more with points between them. -/
def name : Reader (List String) := do
  let first ← simpleName
  let rest ← Reader.many do
    blanks
    Reader.char '.'
    blanks
    simpleName
  if nestingLimit < (first :: rest).length then failure
  return first :: rest

/-- A name and its value, which is read by `value`. -/
def assignment (value : Reader Setting) : Reader (List String × Setting) := do
  let n ← name
  blanks
  Reader.char '='
  blanks
  return (n, ← value)

/-- A table between braces. -/
def inlineTable (value : Reader Setting) : Reader Setting := do
  Reader.char '\x7b'
  let given ← Reader.separated gap (assignment value)
  Reader.char '\x7d'
  if areDistinct (given.map (·.1)) then return .compound else failure

/-- A value that has no parts. -/
def scalar : Reader Setting := do
  match ← Reader.peek with
  | some '"' => return .text (← text)
  | some '\'' => return .text (← text)
  | _ => word

/-- A value that nests no deeper than `depth`. -/
def value : Nat → Reader Setting
  | 0 => scalar
  | depth + 1 => do
      match ← Reader.peek with
      | some '[' =>
          Reader.char '['
          let _ ← Reader.separated gap (value depth)
          Reader.char ']'
          return .compound
      | some '\x7b' => inlineTable (value depth)
      | _ => scalar

/-! ## Documents -/

inductive Line where
  | table (name : List String)
  | item (name : List String)
  | value (name : List String) (v : Setting)

def line : Reader Line :=
  (do
    Reader.word "[["
    blanks
    let n ← name
    blanks
    Reader.word "]]"
    return .item n) <|>
  (do
    Reader.char '['
    blanks
    let n ← name
    blanks
    Reader.char ']'
    return .table n) <|>
  (do
    let (n, v) ← assignment (value nestingLimit)
    return .value n v)

def document : Reader (List Line) := do
  gap
  Reader.many do
    let l ← line
    blanks
    let _ ← Reader.optional comment
    newline <|> Reader.finish
    gap
    return l

/-- What lines give, from inside of a table. -/
def settings (parts : Parts) (table : Path) : List Line → Option Source
  | [] => some []
  | .table n :: rest => do
      let (parts, table) ← Parts.enter openTable parts [] n
      return (n.headD "", .compound) :: (← settings parts table rest)
  | .item n :: rest => do
      let (parts, table) ← Parts.enter openItem parts [] n
      return (n.headD "", .compound) :: (← settings parts table rest)
  | .value n v :: rest => do
      let parts ← parts.assign table n
      let given ← settings parts table rest
      match table, n with
      | [], [n] => return (n, v) :: given
      | [], _ => return (n.headD "", .compound) :: given
      | _, _ => return given

end Toml

/-- The settings of a document. -/
def toml? (cs : List Char) : Option Source :=
  (Toml.document.whole? cs).bind (Toml.settings [] [])

end ChatHub.Config.File

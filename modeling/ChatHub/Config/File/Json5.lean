import ChatHub.Config.Setting
import ChatHub.Text.Letter
/-!
Settings from a document in the form of a program's own object: names without quotes, quotes of
either kind, comments, and commas behind the last of many.
-/

namespace ChatHub.Config.File.Json5

open ChatHub.Text

def isBlank (c : Char) : Bool :=
  let n := c.toNat
  (9 ≤ n && n ≤ 13) || n = 0x20 || n = 0xA0 || n = 0xFEFF || n = 0x2028 || n = 0x2029 ||
    n = 0x1680 || (0x2000 ≤ n && n ≤ 0x200A) || n = 0x202F || n = 0x205F || n = 0x3000

def isLineEnd (c : Char) : Bool := c == '\n' || c == '\r' || c == '\u2028' || c == '\u2029'

def lineComment : Reader Unit := do
  Reader.word "//"
  let _ ← Reader.takeWhile (!isLineEnd ·)

def comment : Reader Unit := do
  Reader.word "/*"
  let _ ← Reader.upTo (Reader.word "*/") (Reader.satisfy fun _ => true)

/-- Blanks and comments. -/
def gap : Reader Unit := do
  let _ ← Reader.many ((do let _ ← Reader.takeSome isBlank) <|> lineComment <|> comment)

/-- A character given by a unit of 16 bits, or by two. -/
def unicodeEscape : Reader Char := do
  let n ← Reader.hexNumber 4
  if ChatHub.Json.isLead n then
    Reader.word "\\u"
    let m ← Reader.hexNumber 4
    if ChatHub.Json.isTrail m then
      return ChatHub.Json.paired n m
    else failure
  else if ChatHub.Json.isTrail n then failure
  else return Char.ofNat n

/-- What a backslash and what follows it stand for; an end of a line stands for nothing. -/
def escape : Reader (Option Char) := do
  Reader.char '\\'
  match ← Reader.satisfy fun _ => true with
  | 'b' => return some '\x08'
  | 'f' => return some '\x0c'
  | 'n' => return some '\n'
  | 'r' => return some '\r'
  | 't' => return some '\t'
  | 'v' => return some '\x0b'
  | '0' =>
      match ← Reader.peek with
      | some c => if c.isDigit then failure else return some '\x00'
      | none => return some '\x00'
  | 'x' => return some (← Reader.codePoint 2)
  | 'u' => return some (← unicodeEscape)
  | '\r' =>
      let _ ← Reader.optional (Reader.char '\n')
      return none
  | c => if isLineEnd c then return none else if c.isDigit then failure else return some c

def text : Reader String := do
  let q ← Reader.satisfy fun c => c == '"' || c == '\''
  let cs ← Reader.upTo (Reader.char q)
    (escape <|> (do
      let c ← Reader.satisfy fun c => c != '\\' && c != '\n' && c != '\r'
      return some c))
  return String.ofList (cs.filterMap id)

def isNameStart (c : Char) : Bool := isLetter c || c == '$' || c == '_'

/-- Two characters without a shape may stand inside of a name, to tell how its letters join. -/
def isNameChar (c : Char) : Bool :=
  isNameStart c || isJoining c || c == '\u200c' || c == '\u200d'

/-- A character of a name, as it is or by its number. -/
def nameChar (p : Char → Bool) : Reader Char :=
  Reader.satisfy p <|> (do
    Reader.word "\\u"
    let c ← unicodeEscape
    if p c then return c else failure)

def name : Reader String := do
  let first ← nameChar isNameStart
  let rest ← Reader.many (nameChar isNameChar)
  return String.ofList (first :: rest)

def ofHex (digits : List Char) : Nat :=
  (digits.filterMap ChatHub.Json.hexDigit?).foldl (fun n d => n * 16 + d) 0

def isHex (c : Char) : Bool := (ChatHub.Json.hexDigit? c).isSome

/-- Whole part of a decimal: a lone zero, or digits that do not start with one. -/
def isWhole (digits : List Char) : Bool := digits.length ≤ 1 || digits.head? != some '0'

/-- A whole number is one of 64 bits with a sign.  Those that 64 bits hold only without one are
refused, and all that are larger count as decimals. -/
def ofWhole (negative : Bool) (n : Nat) : Option Setting :=
  if negative then
    if n ≤ UInt64.size / 2 then some (.integer (-n)) else some (.number (.nearest true n 1))
  else if n < UInt64.size / 2 then some (.integer n)
  else if n < UInt64.size then none
  else some (.number (.nearest false n 1))

/-- A number without its sign: a whole one of 64 bits in base sixteen, or a decimal. -/
def magnitude (negative : Bool) (cs : List Char) : Option Setting :=
  match cs with
  | '0' :: x :: digits =>
      if x = 'x' || x = 'X' then
        let n := ofHex digits
        if digits.isEmpty || !digits.all isHex || UInt64.size ≤ n then none
        else ofWhole negative n
      else decimal
  | _ => decimal
where
  decimal : Option Setting :=
    let whole := cs.takeWhile Char.isDigit
    if !isWhole whole then none
    else if whole.length = cs.length then ofWhole negative (Decimal.ofDigits cs)
    else (Decimal.magnitude? negative cs).map .number

/-- Characters of a number, with those of a kind between them.  A sign may follow the letter of
an exponent. -/
def digits (isMark : Char → Bool) : Reader (List Char) := do
  let start ← Reader.takeSome fun c => c.isAlphanum || c == '.' || isMark c
  let isDecimal : Bool := !(start.take 2 == ['0', 'x'] || start.take 2 == ['0', 'X'])
  let last := start.getLast?
  if isDecimal && (last == some 'e' || last == some 'E') then
    let sign ← Reader.satisfy fun c => c == '+' || c == '-'
    let power ← Reader.takeSome Char.isDigit
    return start ++ sign :: power
  else return start

def number : Reader Setting := do
  let sign ← Reader.optional (Reader.satisfy fun c => c == '+' || c == '-')
  let negative := sign == some '-'
  let cs ← digits fun _ => false
  match String.ofList cs with
  | "Infinity" => return .number (.infinite negative)
  | "NaN" => return .number .nan
  | _ =>
      match magnitude negative cs with
      | some s => return s
      | none => failure

def scalar : Reader Setting :=
  (do Reader.word "null"; return .null) <|>
  (do Reader.word "true"; return .bool true) <|>
  (do Reader.word "false"; return .bool false) <|>
  (do return .text (← text)) <|>
  number

/-- A member, with its value read by `value`. -/
def member (value : Reader Setting) : Reader (String × Setting) := do
  let n ← text <|> name
  gap
  Reader.char ':'
  gap
  return (n, ← value)

def object (value : Reader Setting) : Reader Source := do
  Reader.char '\x7b'
  let members ← Reader.separated gap (member value)
  Reader.char '\x7d'
  return members

/-- A value that nests no deeper than `depth`. -/
def value : Nat → Reader Setting
  | 0 => scalar
  | depth + 1 => do
      match ← Reader.peek with
      | some '[' =>
          Reader.char '['
          let _ ← Reader.separated gap (value depth)
          Reader.char ']'
          return .compound
      | some '\x7b' =>
          let _ ← object (value depth)
          return .compound
      | _ => scalar

def document (depth : Nat) : Reader Source := do
  gap
  let members ← object (value depth)
  gap
  return members

end Json5

/-- The settings of a document, which has to be an object.  No text nests deeper than it is
long. -/
def json5? (cs : List Char) : Option Source := (Json5.document cs.length).whole? cs

end ChatHub.Config.File

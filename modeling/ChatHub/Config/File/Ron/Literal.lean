import ChatHub.Config.Setting
import ChatHub.Text.Bytes
import ChatHub.Text.Letter
/-!
Names, texts, characters and numbers of a document of records.
-/

namespace ChatHub.Config.File.Ron

open ChatHub.Text

/-! ## Names -/

def isNameStart (c : Char) : Bool := isLetter c || c == '_'

def isNameChar (c : Char) : Bool := isNameStart c || isJoining c

/-- Further characters may stand in a name behind its mark. -/
def isMarkedNameChar (c : Char) : Bool := isNameChar c || c == '.' || c == '+' || c == '-'

/-- What looks like the start of a name but is that of a text. -/
def textStarts : List String := ["b\"", "b'", "br#", "br\"", "r\"", "r#\"", "r##"]

def plainName : Reader String := do
  let first ← Reader.satisfy isNameStart
  let rest ← Reader.takeWhile isNameChar
  return String.ofList (first :: rest)

/-- A name, which a mark may tell from a word with a meaning. -/
def name : Reader String := fun cs =>
  if textStarts.any fun w => w.toList.isPrefixOf cs then none
  else if "r#".toList.isPrefixOf cs then
    (do return String.ofList (← Reader.takeSome isMarkedNameChar) : Reader String) (cs.drop 2)
  else plainName cs

/-- A word that is no part of a longer one. -/
def keyword (w : String) : Reader Unit := do
  Reader.word w
  if (← Reader.peek).any isNameChar then failure

/-! ## Texts -/

/-- What a backslash and one further character stand for. -/
def simpleEscape? : Char → Option Char
  | '\'' => some '\''
  | '"' => some '"'
  | '\\' => some '\\'
  | 'n' => some '\n'
  | 'r' => some '\r'
  | 't' => some '\t'
  | '0' => some '\x00'
  | _ => none

/-- The digits of a number in base sixteen, one to six of them between braces. -/
def bracedNumber : Reader Nat := do
  Reader.char '\x7b'
  let digits ← Reader.takeSome fun c => (Json.hexDigit? c).isSome
  Reader.char '\x7d'
  if 6 < digits.length then failure
  return (digits.filterMap Json.hexDigit?).foldl (fun n d => n * 16 + d) 0

/-- A character given by its number. -/
def numbered : Reader Char := do
  Reader.word "\\u"
  let n ← bracedNumber
  if n.isValidChar then return Char.ofNat n else failure

def byteEscape : Reader UInt8 := do
  Reader.word "\\x"
  return (← Reader.hexNumber 2).toUInt8

/-- A character given by the bytes that encode it, of which some are known. -/
def encoded : Nat → List UInt8 → Reader Char
  | 0, _ => failure
  | more + 1, bytes => do
      let bytes := bytes ++ [← byteEscape]
      match ofBytes? bytes with
      | some [c] => return c
      | _ => encoded more bytes

def simpleEscape : Reader Char := do
  Reader.char '\\'
  let c ← Reader.satisfy fun _ => true
  match simpleEscape? c with
  | some c => return c
  | none => failure

/-- A backslash at the end of a line, with all blank space that follows. -/
def continuation : Reader Unit := do
  Reader.char '\\'
  let gap ← Reader.takeSome fun c => c == ' ' || c == '\t' || c == '\n' || c == '\r'
  if !("\n".toList.isPrefixOf gap || "\r\n".toList.isPrefixOf gap) then failure

def quoted : Reader String := do
  Reader.char '"'
  let cs ← Reader.upTo (Reader.char '"')
    ((do continuation; return none) <|>
      (do return some (← simpleEscape <|> numbered <|> encoded 4 [] <|>
        Reader.satisfy (· != '\\'))))
  return String.ofList (cs.filterMap id)

/-- What stands between quotes with as many number signs as it needs. -/
def verbatim : Reader (List Char) := do
  let signs ← Reader.takeWhile (· == '#')
  Reader.char '"'
  Reader.upTo (Reader.word (String.ofList ('"' :: signs))) (Reader.satisfy fun _ => true)

/-- A text, as it is behind a mark. -/
def text : Reader String :=
  quoted <|> (do
    Reader.char 'r'
    return String.ofList (← verbatim))

/-- A single character. -/
def character : Reader String := do
  Reader.char '\''
  let c ← simpleEscape <|> numbered <|> encoded 1 [] <|> Reader.satisfy (· != '\\')
  Reader.char '\''
  return String.ofList [c]

/-- Bytes in the form of a text. -/
def bytes : Reader (List UInt8) := do
  Reader.char 'b'
  (do
    Reader.char '"'
    let parts ← Reader.upTo (Reader.char '"')
      ((do continuation; return []) <|> (do return [← byteEscape]) <|>
        (do return bytesOf (← simpleEscape <|> numbered <|> Reader.satisfy (· != '\\'))))
    return parts.flatten) <|>
  (do
    Reader.char 'r'
    return (← verbatim).flatMap bytesOf)

/-! ## Numbers -/

/-- A byte in the form of a character. -/
def byte : Reader Setting := do
  Reader.word "b'"
  let b ← byteEscape <|> (do
    let c ← simpleEscape <|> Reader.satisfy (· != '\\')
    if c.toNat < 128 then return c.toNat.toUInt8 else failure)
  Reader.char '\''
  return .integer b.toNat

/-- A sign, if there is one; tells whether it is a minus. -/
def sign : Reader Bool := do
  return (← Reader.optional (Reader.satisfy fun c => c == '+' || c == '-')) == some '-'

/-- The letter and the number of bits of a type behind a number. -/
def integerType : Reader (Bool × Nat) := do
  let isSigned ← (do Reader.char 'i'; return true) <|> (do Reader.char 'u'; return false)
  let bits ← (do Reader.word "8"; return 8) <|> (do Reader.word "16"; return 16) <|>
    (do Reader.word "32"; return 32) <|> (do Reader.word "64"; return 64)
  if (← Reader.peek).any isNameChar then failure
  return (isSigned, bits)

/-- Whether a whole number belongs to a type. -/
def fits (isSigned : Bool) (bits : Nat) (n : Int) : Bool :=
  if isSigned then -(Nat.pow 2 (bits - 1) : Int) ≤ n && n < Nat.pow 2 (bits - 1)
  else 0 ≤ n && n < Nat.pow 2 bits

def radix : Reader Nat :=
  (do Reader.word "0b"; return 2) <|> (do Reader.word "0o"; return 8) <|>
    (do Reader.word "0x"; return 16) <|> pure 10

/-- A whole number, perhaps with a type.  Without one it has 64 bits. -/
def integer : Reader Setting := do
  let negative ← sign
  let base ← radix
  let digits ← Reader.takeSome fun c => (Json.hexDigit? c).isSome || c == '_'
  let values := digits.filterMap Json.hexDigit?
  if digits.head? == some '_' || values.any (decide <| base ≤ ·) then failure
  let n := values.foldl (fun n d => n * base + d) 0
  let value : Int := if negative then -n else n
  let isSound := match ← Reader.optional integerType with
    | some (isSigned, bits) => fits isSigned bits value
    | none => fits negative 64 value
  let isWhole := (← Reader.peek).all fun c => !(isMarkedNameChar c)
  if isSound && isWhole then return .integer value else failure

def isDecimalChar (c : Char) : Bool :=
  c.isDigit || c == 'e' || c == 'E' || c == '.' || c == '+' || c == '-' || c == '_'

/-- A mark between digits means nothing.  It may not stand first, nor behind a point. -/
def marksAreSound : Bool → List Char → Bool
  | _, [] => true
  | allowed, '_' :: rest => allowed && marksAreSound allowed rest
  | _, '.' :: rest => marksAreSound false rest
  | allowed, c :: rest => marksAreSound (allowed || c.isDigit || c == 'e' || c == 'E') rest

/-- The precision behind a number. -/
def decimalType : Reader (Bool → Nat → Nat → Decimal.Value) :=
  (do keyword "f32"; return Decimal.Value.nearestSingle) <|>
  (do keyword "f64"; return Decimal.Value.nearest) <|>
  pure Decimal.Value.nearest

def decimal : Reader Setting := do
  let negative ← sign
  let cs ← Reader.takeSome isDecimalChar
  let nearest ← decimalType
  if !marksAreSound false cs then failure
  match Decimal.magnitudeWith? nearest negative (cs.filter (· != '_')) with
  | some v => return .number v
  | none => failure

/-- The values that are no numbers, with or without a precision. -/
def special : Reader Setting := do
  let negative ← sign
  let named (w : String) : Reader Unit :=
    keyword w <|> keyword (w ++ "f32") <|> keyword (w ++ "f64")
  (do named "inf"; return .number (.infinite negative)) <|>
    (do named "NaN"; return .number .nan)

def number : Reader Setting := special <|> byte <|> integer <|> decimal

end ChatHub.Config.File.Ron

import ChatHub.Config.File.Yaml.Cursor
import ChatHub.Config.File.Yaml.Token
/-!
What is said about a value in front of it, and about a document at its start: anchors, tags, and
lines that start with a percent sign.
-/

namespace ChatHub.Config.File.Yaml

open ChatHub.Text

/-! ## Anchors -/

def isAnchorChar (c : Char) : Bool := !isBlankOrEnd (some c) && !isFlow c && c != '\ufeff'

/-- A name behind `&` or `*`. -/
def anchorName : Reader String := do
  let _ ← Reader.satisfy fun c => c == '&' || c == '*'
  return String.ofList (← Reader.takeSome isAnchorChar)

/-! ## Tags -/

/-- Characters of a short name of tags. -/
def isHandleChar (c : Char) : Bool := c.isAlphanum || c == '-' || c == '_'

def isAddressChar (c : Char) : Bool :=
  c.isAlphanum || "-#;/?:@&=+$,_.!~*'()[]%".toList.contains c

def isTagChar (c : Char) : Bool := isAddressChar c && !isFlow c && c != '!'

/-- A percent sign and two hexadecimal digits. -/
def percentByte : Reader Nat := do
  Reader.char '%'
  Reader.hexNumber 2

/-- A character by its bytes.  The first of them tells their number, and all are read as one
number as they are, so that only short rows give a character. -/
def percentChar : Reader Char := do
  let lead ← percentByte
  let count := if lead < 0x80 then 0 else if lead < 0xE0 then 1 else if lead < 0xF0 then 2 else 3
  if 0x80 ≤ lead && (lead < 0xC0 || 0xF8 ≤ lead) then failure
  let code ← (List.range count).foldlM (fun code _ => do
    let byte ← percentByte
    if byte / 0x40 = 2 then return code * 0x100 + byte else failure) lead
  if code.isValidChar then return Char.ofNat code else failure

/-- Characters of a kind, as they are or by their bytes. -/
def addressChars (p : Char → Bool) : Reader (List Char) := do
  let cs ← Reader.many (percentChar <|> Reader.satisfy fun c => p c && c != '%')
  if (← Reader.peek) == some '%' then failure
  return cs

/-- An exclamation mark, a name, and another mark if there is one. -/
def tagHandle : Reader (List Char) := do
  Reader.char '!'
  let name ← Reader.takeWhile isHandleChar
  let closed ← Reader.found (Reader.char '!')
  return '!' :: name ++ if closed then ['!'] else []

/-- A tag with a handle, or without one in angle brackets. -/
def tag : Reader Token :=
  (do
    Reader.word "!<"
    let address ← addressChars isAddressChar
    Reader.char '>'
    return .tag "" (String.ofList address)) <|>
  (do
    let handle ← tagHandle
    let suffix ← addressChars isTagChar
    match isClosed handle, handle.drop 1 ++ suffix with
    | true, _ =>
        if suffix.isEmpty then failure
        return .tag (String.ofList handle) (String.ofList suffix)
    | false, [] => return .tag "" "!"
    | false, whole => return .tag "!" (String.ofList whole))

/-! ## Lines at the start of a document -/

def versionNumber : Reader Unit := do
  let digits ← Reader.takeSome Char.isDigit
  if 9 < digits.length then failure

def version : Reader Token := do
  let _ ← Reader.takeWhile isBlankOrTab
  versionNumber
  Reader.char '.'
  versionNumber
  return .version

/-- The start of the tags of a handle: a mark and an address, or an address. -/
def tagStart : Reader (List Char) := do
  let first ← (do Reader.char '!'; return '!') <|> percentChar <|>
    Reader.satisfy fun c => isTagChar c && c != '%'
  return first :: (← addressChars isAddressChar)

def handle : Reader Token := do
  let _ ← Reader.takeWhile isBlankOrTab
  let name ← tagHandle
  if name != ['!'] && !isClosed name then failure
  let _ ← Reader.takeWhile isBlankOrTab
  let start ← tagStart
  if isBlankOrEnd (← Reader.peek) then return .handle (String.ofList name) (String.ofList start)
  else failure

/-- A line that starts with a percent sign, up to what follows its content.  One of no known kind
counts as a handle without a name. -/
def directive : Reader Token := do
  Reader.char '%'
  let name ← Reader.takeSome isHandleChar
  if !isBlankOrEnd (← Reader.peek) then failure
  match String.ofList name with
  | "YAML" => version
  | "TAG" => handle
  | _ =>
      let _ ← Reader.takeWhile (· != '\n')
      return .handle "" ""

end ChatHub.Config.File.Yaml

import ChatHub.Config.File.Ron.Literal
/-!
Settings from a document of records: `(name: value, …)` or a map with texts for names.
-/

namespace ChatHub.Config.File.Ron

open ChatHub.Text

/-! ## Blanks -/

def isBlank (c : Char) : Bool :=
  let n := c.toNat
  (9 ≤ n && n ≤ 13) || n = 0x20 || n = 0x85 || n = 0x200E || n = 0x200F || n = 0x2028 || n = 0x2029

/-- What follows a comment that is open as many times as given. -/
def afterComment : Nat → List Char → Option (List Char)
  | 0, cs => some cs
  | depth + 1, '*' :: '/' :: rest => afterComment depth rest
  | depth + 1, '/' :: '*' :: rest => afterComment (depth + 2) rest
  | depth + 1, _ :: rest => afterComment (depth + 1) rest
  | _ + 1, [] => none
termination_by _ cs => cs.length

/-- A comment between `/*` and `*/`, in which others of its kind may stand. -/
def comment : Reader Unit := do
  Reader.word "/*"
  fun cs => (afterComment 1 cs).map fun rest => ((), rest)

def lineComment : Reader Unit := do
  Reader.word "//"
  let _ ← Reader.takeWhile (· != '\n')

/-- Blanks and comments. -/
def gap : Reader Unit := do
  let _ ← Reader.many ((do let _ ← Reader.takeSome isBlank) <|> lineComment <|> comment)

/-! ## Values -/

def field (value : Reader Setting) : Reader (String × Setting) := do
  let n ← name
  gap
  Reader.char ':'
  gap
  return (n, ← value)

/-- The name of an entry: a text, a character, or bytes that are a text. -/
def entryName : Reader String :=
  text <|> character <|> (do
    match ofBytes? (← bytes) with
    | some cs => return String.ofList cs
    | none => failure)

/-- An entry of a map.  No other names than texts can be used. -/
def entry (value : Reader Setting) : Reader (String × Setting) := do
  let n ← entryName
  gap
  Reader.char ':'
  gap
  return (n, ← value)

/-- Whether a name with a colon behind it comes next. -/
def startsField : Reader Bool := fun cs =>
  (Reader.found (do let _ ← name; gap; Reader.char ':') : Reader Bool) cs |>.map fun (b, _) =>
    (b, cs)

/-- What a document or a value of it is. -/
inductive Value where
  /-- A record or a map, with its parts. -/
  | table (source : Source)
  | other (s : Setting)

/-- As a setting, a table is as good as any other. -/
def Value.setting : Value → Setting
  | table _ => .compound
  | other s => s

/-- Values between an opening and a closing character. -/
def items (opening closing : Char) (value : Reader Setting) : Reader Value := do
  Reader.char opening
  let _ ← Reader.separated gap value
  Reader.char closing
  return .other .compound

/-- Fields or values between parentheses.  The first of them tells which. -/
def parenthesized (value : Reader Setting) : Reader Value := do
  Reader.char '('
  gap
  if ← startsField then
    let fields ← Reader.separated gap (field value)
    Reader.char ')'
    return .table fields
  else
    let _ ← Reader.separated gap value
    Reader.char ')'
    return .other .compound

def map (value : Reader Setting) : Reader Value := do
  Reader.char '\x7b'
  let entries ← Reader.separated gap (entry value)
  Reader.char '\x7d'
  return .table entries

/-- What a name stands for where a value is needed.  `value` reads what is inside of it. -/
def named (value : Reader Value) : Reader Value := do
  match ← name with
  | "true" => return .other (.bool true)
  | "false" => return .other (.bool false)
  | "None" => return .other .null
  | "Some" =>
      gap
      Reader.char '('
      gap
      let v ← value
      gap
      let _ ← Reader.optional (Reader.char ',')
      gap
      Reader.char ')'
      return v
  | _ =>
      gap
      if (← Reader.peek) == some '(' then parenthesized (do return (← value).setting)
      else return .other .null

/-- A value whose parts `value` reads. -/
def valueOf (value : Reader Value) : Reader Value :=
  let part : Reader Setting := do return (← value).setting
  (do return .other (.text (← text))) <|>
  (do return .other (.text (← character))) <|>
  (do let _ ← bytes; return .other .compound) <|>
  (do return .other (← number)) <|>
  (do Reader.word "()"; return .other .null) <|>
  parenthesized part <|>
  map part <|>
  items '[' ']' part <|>
  named value

/-- How deep values may nest. -/
def nestingLimit : Nat := 128

/-- A value that nests no deeper than `depth`. -/
def value : Nat → Reader Value
  | 0 => valueOf failure
  | depth + 1 => valueOf (value depth)

/-! ## Documents -/

/-- The options that a document may turn on.  None of them changes what settings it gives. -/
def extensions : List String :=
  ["unwrap_newtypes", "implicit_some", "unwrap_variant_newtypes", "explicit_struct_names"]

def extension : Reader Unit := do
  if !extensions.contains (← name) then failure

/-- Words with gaps behind them. -/
def words (ws : List String) : Reader Unit :=
  ws.forM fun w => do
    Reader.word w
    gap

/-- A line at the start that turns options on. -/
def options : Reader Unit := do
  words ["#", "!", "[", "enable", "("]
  let turnedOn ← Reader.separated gap extension
  if turnedOn.isEmpty then failure
  words [")", "]"]

def document : Reader Source := do
  gap
  let _ ← Reader.many options
  match ← value nestingLimit with
  | .table source =>
      gap
      return source
  | .other _ => failure

end Ron

/-- The settings of a document, which has to be a record or a map. -/
def ron? (cs : List Char) : Option Source := Ron.document.whole? cs

end ChatHub.Config.File

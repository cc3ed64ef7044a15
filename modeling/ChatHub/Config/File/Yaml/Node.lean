import ChatHub.Config.Setting
/-!
The values of a document: what a single value stands for, tables that give no key twice, and the
settings that they give.
-/

namespace ChatHub.Config.File.Yaml

inductive Node where
  | null
  | bool (b : Bool)
  | integer (n : Int)
  /-- A decimal, as it is written. -/
  | decimal (cs : List Char)
  | text (cs : List Char)
  | list (items : List Node)
  | table (entries : List (Node × Node))
  /-- A value that its tag does not fit, or one inside of itself. -/
  | void
deriving Repr

/-- A tag, whose start may have a short name. -/
structure Tag where
  start : String
  suffix : String
deriving DecidableEq, Repr

namespace Node

mutual

/-- Whether two nodes are the same.  Decimals are so if they are written alike. -/
def same : Node → Node → Bool
  | null, null => true
  | bool a, bool b => a == b
  | integer a, integer b => a == b
  | decimal a, decimal b => a == b
  | text a, text b => a == b
  | list as, list bs => sameItems as bs
  | table as, table bs => sameEntries as bs
  | void, void => true
  | _, _ => false

def sameItems : List Node → List Node → Bool
  | [], [] => true
  | a :: as, b :: bs => same a b && sameItems as bs
  | _, _ => false

def sameEntries : List (Node × Node) → List (Node × Node) → Bool
  | [], [] => true
  | (k, a) :: as, (l, b) :: bs => same k l && same a b && sameEntries as bs
  | _, _ => false

end

instance : BEq Node := ⟨same⟩

/-! ## Single values -/

/-- A whole number of 64 bits in a radix, as far as it can be one. -/
def ofRadix? (radix : Nat) (cs : List Char) : Option Node :=
  let (negative, digits) := Decimal.takeSign cs
  let values := digits.filterMap ChatHub.Json.hexDigit?
  let n := values.foldl (fun n d => n * radix + d) 0
  if digits.isEmpty || values.length != digits.length || values.any (decide <| radix ≤ ·) then none
  else if negative then if n ≤ UInt64.size / 2 then some (integer (-n)) else none
  else if n < UInt64.size / 2 then some (integer n) else none

def integer? (cs : List Char) : Option Node := (Decimal.integer? cs).map integer

/-- Texts for decimals that are no digits. -/
def decimalNames : List String :=
  [".inf", ".Inf", ".INF", "+.inf", "+.Inf", "+.INF", "-.inf", "-.Inf", "-.INF", ".nan", "NaN",
    ".NAN"]

def decimal? (cs : List Char) : Option Node :=
  if decimalNames.contains (String.ofList cs) ||
      (cs.any Char.isDigit && (Decimal.Value.ofText? cs).isSome) then some (decimal cs)
  else none

def bool? (cs : List Char) : Option Node :=
  let s := String.ofList cs
  if ["true", "True", "TRUE"].contains s then some (bool true)
  else if ["false", "False", "FALSE"].contains s then some (bool false)
  else none

def null? (cs : List Char) : Option Node :=
  if ["~", "null"].contains (String.ofList cs) then some null else none

/-- A whole number in a form of its own. -/
def prefixed? : List Char → Option Node
  | '0' :: 'x' :: digits => ofRadix? 16 digits
  | '0' :: 'o' :: digits => ofRadix? 8 digits
  | '+' :: digits => integer? digits
  | _ => none

/-- The first kind that a value fits. -/
def ofUntagged (cs : List Char) : Node :=
  if cs.isEmpty then null
  else
    (prefixed? cs <|> null? cs <|> bool? cs <|> integer? cs <|> decimal? cs).getD (text cs)

/-- Where the tags of the common kinds start. -/
def commonTags : String := "tag:yaml.org,2002:"

/-- A value whose tag tells its kind. -/
def ofTagged (tag : Tag) (cs : List Char) : Node :=
  if tag.start == commonTags then
    match tag.suffix with
    | "bool" => (bool? cs).getD void
    | "int" => (integer? cs).getD void
    | "float" => (decimal? cs).getD void
    | "null" => (null? cs).getD void
    | _ => text cs
  else text cs

/-- A value without quotes. -/
def ofPlain (tag : Option Tag) (cs : List Char) : Node :=
  match tag with
  | some tag => ofTagged tag cs
  | none => ofUntagged cs

/-! ## Tables -/

/-- A table as far as it has been read.  A key may wait for its value. -/
structure Pairs where
  entries : List (Node × Node)
  key : Option Node

namespace Pairs

/-- Takes one more node.  One without a value is no key, and no key comes twice. -/
def add? (p : Pairs) (n : Node) : Option Pairs :=
  match p.key with
  | none => some { p with key := if n == void then none else some n }
  | some k =>
      if p.entries.any fun (other, _) => other == k then none
      else some ⟨p.entries ++ [(k, n)], none⟩

end Pairs

/-- A table of keys and values in turn. -/
def ofPairs? (nodes : List Node) : Option Node :=
  (nodes.foldlM Pairs.add? ⟨[], none⟩).map fun p => table p.entries

/-! ## Settings -/

/-- The name that a key is. -/
def name? : Node → Option String
  | text cs => some (String.ofList cs)
  | decimal cs => some (String.ofList cs)
  | integer n => some (String.ofList (Setting.writeInteger n))
  | bool b => some (if b then "true" else "false")
  | _ => none

mutual

/-- Whether every decimal in it can be read, and every key is a name. -/
def isSound : Node → Bool
  | decimal cs => (Decimal.Value.ofText? cs).isSome
  | list items => areSound items
  | table entries => areSoundEntries entries
  | _ => true

def areSound : List Node → Bool
  | [] => true
  | n :: rest => n.isSound && areSound rest

def areSoundEntries : List (Node × Node) → Bool
  | [] => true
  | (k, n) :: rest => k.name?.isSome && n.isSound && areSoundEntries rest

end

def setting : Node → Setting
  | null => .null
  | void => .null
  | bool b => .bool b
  | integer n => .integer n
  | decimal cs => ((Decimal.Value.ofText? cs).map .number).getD .null
  | text cs => .text (String.ofList cs)
  | list _ => .compound
  | table _ => .compound

/-- The settings of a table. -/
def source? (n : Node) : Option Source :=
  match n with
  | table entries =>
      if n.isSound then
        some (entries.filterMap fun (k, v) => k.name?.map fun name => (name, v.setting))
      else none
  | _ => none

end Node

end ChatHub.Config.File.Yaml

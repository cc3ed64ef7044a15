import ChatHub.Json.Scan
/-!
JSON values kept as text, and what one level of such a value shows.  A nested value is cut out
exactly as it was written, so it can be passed on unchanged or looked at later.
-/

namespace ChatHub.Json

/-- The text of one value, without blanks around it. -/
structure Raw where
  text : List Char
deriving DecidableEq, Repr

/-- The value that starts here, and what follows it. -/
def takeRaw? (cs : List Char) : Option (Raw × List Char) :=
  let start := skipBlanks cs
  (skipValue [] start).map fun rest => (⟨start.take (start.length - rest.length)⟩, rest)

theorem takeRaw?_length {cs rest : List Char} {v : Raw} (h : takeRaw? cs = some (v, rest)) :
    rest.length < cs.length := by
  obtain ⟨after, ha, he⟩ := Option.map_eq_some_iff.1 h
  simp only [Prod.mk.injEq] at he
  obtain ⟨-, rfl⟩ := he
  exact Nat.lt_of_lt_of_le (skipValue_length ha) (skipBlanks_length_le cs)

/-- The value that a whole text consists of, up to blanks around it. -/
def Raw.ofText? (cs : List Char) : Option Raw :=
  match takeRaw? cs with
  | some (v, rest) => if (skipBlanks rest).isEmpty then some v else none
  | none => none

/-- The elements of an array from the first of one or more to the closing bracket. -/
def takeItems (cs : List Char) : Option (List Raw × List Char) :=
  match _h : takeRaw? cs with
  | none => none
  | some (v, after) =>
      match _hs : skipBlanks after with
      | ']' :: rest => some ([v], rest)
      | ',' :: rest => (takeItems rest).map fun (vs, last) => (v :: vs, last)
      | _ => none
termination_by cs.length
decreasing_by
  have h1 := takeRaw?_length ‹_›
  have h2 := skipBlanks_length_le after
  rw [_hs] at h2
  simp only [List.length_cons] at h2
  omega

/-- The members of an object from the first of one or more to the closing brace. -/
def takeMembers (cs : List Char) : Option (List (List Piece × Raw) × List Char) :=
  match _hn : takeName cs with
  | none => none
  | some (name, afterName) =>
      match _h : takeRaw? afterName with
      | none => none
      | some (v, after) =>
          match _hs : skipBlanks after with
          | '}' :: rest => some ([(name, v)], rest)
          | ',' :: rest => (takeMembers rest).map fun (ms, last) => ((name, v) :: ms, last)
          | _ => none
termination_by cs.length
decreasing_by
  have h0 := takeName_length _hn
  have h1 := takeRaw?_length _h
  have h2 := skipBlanks_length_le after
  rw [_hs] at h2
  simp only [List.length_cons] at h2
  omega

/-- One level of a value. -/
inductive Shape where
  | null
  | bool (b : Bool)
  | number (text : List Char)
  | string (pieces : List Piece)
  | array (items : List Raw)
  | object (members : List (List Piece × Raw))
deriving DecidableEq, Repr

def takeShape (cs : List Char) : Option (Shape × List Char) :=
  match cs with
  | '"' :: rest => (pieces? rest).map fun (ps, after) => (.string ps, after)
  | '[' :: rest =>
      match skipBlanks rest with
      | ']' :: after => some (.array [], after)
      | _ => (takeItems rest).map fun (items, after) => (.array items, after)
  | '{' :: rest =>
      match skipBlanks rest with
      | '}' :: after => some (.object [], after)
      | _ => (takeMembers rest).map fun (members, after) => (.object members, after)
  | 'n' :: _ => (skipWord ['n', 'u', 'l', 'l'] cs).map fun after => (.null, after)
  | 't' :: _ => (skipWord ['t', 'r', 'u', 'e'] cs).map fun after => (.bool true, after)
  | 'f' :: _ => (skipWord ['f', 'a', 'l', 's', 'e'] cs).map fun after => (.bool false, after)
  | _ => (skipNumber cs).map fun after => (.number (cs.take (cs.length - after.length)), after)

/-- One level of the value that a whole text consists of. -/
def Shape.ofText? (cs : List Char) : Option Shape :=
  match takeShape (skipBlanks cs) with
  | some (s, rest) => if (skipBlanks rest).isEmpty then some s else none
  | none => none

namespace Raw

def shape? (v : Raw) : Option Shape := Shape.ofText? v.text

def isNull (v : Raw) : Bool := v.shape? == some .null

/-- The text that `decode` finds in a string literal. -/
def stringWith? (decode : List Piece → Option (List Char)) (v : Raw) : Option String :=
  match v.shape? with
  | some (.string ps) => (decode ps).map String.ofList
  | _ => none

/-- The text that a string literal stands for. -/
def string? : Raw → Option String := stringWith? text?

def bool? (v : Raw) : Option Bool :=
  match v.shape? with
  | some (.bool b) => some b
  | _ => none

/-- The number that a row of digits spells. -/
def decimal (digits : List Char) : Nat :=
  digits.foldl (fun n d => n * 10 + (d.toNat - '0'.toNat)) 0

/-- A whole number of 64 bits, written with digits alone. -/
def word64? (v : Raw) : Option Nat :=
  match v.shape? with
  | some (.number text) =>
      if text.all Char.isDigit && decimal text < UInt64.size then some (decimal text) else none
  | _ => none

/-- An array all of whose elements can be read. -/
def list? {α : Type} (read : Raw → Option α) (v : Raw) : Option (List α) :=
  match v.shape? with
  | some (.array items) => items.mapM read
  | _ => none

/-- Either `null` or a value that can be read. -/
def nullable? {α : Type} (read : Raw → Option α) (v : Raw) : Option (Option α) :=
  if v.isNull then some none else (read v).map some

/-- The name of one of several cases without content: a string, or an object whose only member
has that name and a value that is `empty`. -/
def caseWith? (decode : List Piece → Option (List Char)) (empty : Raw → Bool) (v : Raw) :
    Option String :=
  match v.shape? with
  | some (.string ps) => (decode ps).map String.ofList
  | some (.object [(name, content)]) =>
      if empty content then (decode name).map String.ofList else none
  | _ => none

/-- The name of such a case, with `null` in an object. -/
def case? : Raw → Option String := caseWith? text? isNull

end Raw

end ChatHub.Json

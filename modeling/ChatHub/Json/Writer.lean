import ChatHub.Json.Raw
/-!
Writing JSON without blanks: arrays, objects in the order of their members, and numbers.
-/

namespace ChatHub.Json

/-- Texts one after the other with commas between them. -/
def commas : List (List Char) → List Char
  | [] => []
  | [t] => t
  | t :: ts => t ++ ',' :: commas ts

def array (items : List (List Char)) : List Char :=
  '[' :: (commas items ++ [']'])

def member (name : String) (value : List Char) : List Char :=
  quote name ++ ':' :: value

/-- An object with the given members, each with its value already written. -/
def object (members : List (String × List Char)) : List Char :=
  '{' :: (commas (members.map fun (name, value) => member name value) ++ ['}'])

def bool (b : Bool) : List Char :=
  if b then ['t', 'r', 'u', 'e'] else ['f', 'a', 'l', 's', 'e']

def nat (n : Nat) : List Char := Nat.toDigits 10 n

def null : List Char := ['n', 'u', 'l', 'l']

/-- A value as it was written. -/
def raw (v : Raw) : List Char := v.text

def optional {α : Type} (write : α → List Char) : Option α → List Char
  | some a => write a
  | none => null

end ChatHub.Json

/-!
String literals of JSON: the items between the quotes, the text they stand for, and the one
spelling in which a text is written.
-/

namespace ChatHub.Json

/-- One item between the quotes of a literal: a character, written as itself or by a short
escape, or a 16-bit unit written with four hexadecimal digits. -/
inductive Piece where
  | plain (c : Char)
  | unit (n : Nat)
deriving DecidableEq, Repr

def hexDigit? (c : Char) : Option Nat :=
  if '0' ≤ c ∧ c ≤ '9' then some (c.toNat - '0'.toNat)
  else if 'a' ≤ c ∧ c ≤ 'f' then some (c.toNat - 'a'.toNat + 10)
  else if 'A' ≤ c ∧ c ≤ 'F' then some (c.toNat - 'A'.toNat + 10)
  else none

/-- The unit that four hexadecimal digits spell, in either case of the letters. -/
def hexUnit? (a b c d : Char) : Option Nat := do
  let a ← hexDigit? a
  let b ← hexDigit? b
  let c ← hexDigit? c
  let d ← hexDigit? d
  some (((a * 16 + b) * 16 + c) * 16 + d)

/-- The character that a backslash and one more character stand for. -/
def shortEscape? : Char → Option Char
  | '"' => some '"'
  | '\\' => some '\\'
  | '/' => some '/'
  | 'b' => some '\x08'
  | 'f' => some '\x0c'
  | 'n' => some '\n'
  | 'r' => some '\r'
  | 't' => some '\t'
  | _ => none

/-- The items up to the closing quote and what follows it, for a text that starts behind the
opening quote.  Control characters have to be escaped. -/
def pieces? : List Char → Option (List Piece × List Char)
  | [] => none
  | '"' :: rest => some ([], rest)
  | '\\' :: 'u' :: a :: b :: c :: d :: rest =>
      match hexUnit? a b c d, pieces? rest with
      | some n, some (ps, after) => some (.unit n :: ps, after)
      | _, _ => none
  | '\\' :: e :: rest =>
      match shortEscape? e, pieces? rest with
      | some c, some (ps, after) => some (.plain c :: ps, after)
      | _, _ => none
  | c :: rest =>
      if c < ' ' then none
      else match pieces? rest with
        | some (ps, after) => some (.plain c :: ps, after)
        | none => none

theorem pieces?_length {cs : List Char} {ps : List Piece} {rest : List Char}
    (h : pieces? cs = some (ps, rest)) : rest.length < cs.length := by
  fun_induction pieces? cs generalizing ps with
  | case1 => simp at h
  | _ => simp only [List.length_cons]; grind

/-- First half of a pair of units that stands for one character. -/
def isLead (n : Nat) : Bool := 0xD800 ≤ n && n < 0xDC00

/-- Second half of such a pair. -/
def isTrail (n : Nat) : Bool := 0xDC00 ≤ n && n < 0xE000

/-- The character that such a pair stands for. -/
def paired (lead trail : Nat) : Char :=
  Char.ofNat (0x10000 + (lead - 0xD800) * 0x400 + (trail - 0xDC00))

/-- The text that the items stand for.  There is none if a half of a pair stands alone. -/
def text? : List Piece → Option (List Char)
  | [] => some []
  | .plain c :: ps => (text? ps).map (c :: ·)
  | .unit n :: .unit m :: ps =>
      if isLead n && isTrail m then
        (text? ps).map (paired n m :: ·)
      else if isLead n || isTrail n then none
      else (text? (.unit m :: ps)).map (Char.ofNat n :: ·)
  | .unit n :: ps =>
      if isLead n || isTrail n then none
      else (text? ps).map (Char.ofNat n :: ·)

def lowerHexDigit (n : Nat) : Char :=
  if n < 10 then Char.ofNat ('0'.toNat + n) else Char.ofNat ('a'.toNat + (n - 10))

/-- How a character is written: quote, backslash and control characters are escaped, with a
short escape where there is one, and all else stands for itself. -/
def escape (c : Char) : List Char :=
  match c with
  | '"' => ['\\', '"']
  | '\\' => ['\\', '\\']
  | '\x08' => ['\\', 'b']
  | '\x0c' => ['\\', 'f']
  | '\n' => ['\\', 'n']
  | '\r' => ['\\', 'r']
  | '\t' => ['\\', 't']
  | _ =>
      if c < ' ' then
        ['\\', 'u', '0', '0', lowerHexDigit (c.toNat / 16), lowerHexDigit (c.toNat % 16)]
      else [c]

/-- The literal that stands for a text. -/
def quote (s : String) : List Char :=
  '"' :: (s.toList.flatMap escape ++ ['"'])

end ChatHub.Json

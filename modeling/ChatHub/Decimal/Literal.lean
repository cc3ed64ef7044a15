import ChatHub.Decimal.Nearest
import ChatHub.Text.Case
/-!
Numbers as people write them in a setting: whole numbers, and decimals with a point or an exponent.
-/

namespace ChatHub.Decimal

/-- The number that a row of digits spells. -/
def ofDigits (digits : List Char) : Nat :=
  digits.foldl (fun n d => n * 10 + (d.toNat - '0'.toNat)) 0

/-- A sign, if there is one, and what follows it.  Tells whether it is a minus. -/
def takeSign : List Char → Bool × List Char
  | '-' :: rest => (true, rest)
  | '+' :: rest => (false, rest)
  | cs => (false, cs)

/-- A whole number without a sign. -/
def natural? (cs : List Char) : Option Nat :=
  if cs.isEmpty || !cs.all Char.isDigit then none else some (ofDigits cs)

/-- A whole number of 64 bits with or without a sign. -/
def integer? (cs : List Char) : Option Int :=
  let (negative, digits) := takeSign cs
  (natural? digits).bind fun n =>
    if negative then if n ≤ UInt64.size / 2 then some (-n) else none
    else if n < UInt64.size / 2 then some n else none

/-- A whole number of 64 bits that is not negative.  Only a plus may stand before it. -/
def word64? (cs : List Char) : Option Nat :=
  (natural? (match cs with | '+' :: rest => rest | _ => cs)).filter (· < UInt64.size)

/-- An exponent behind its letter, or nothing. -/
def exponent? : List Char → Option Int
  | [] => some 0
  | c :: rest =>
      if c = 'e' || c = 'E' then
        let (negative, digits) := takeSign rest
        (natural? digits).map fun n => if negative then -n else n
      else none

/-- Digits with a point before, between or behind them, and an exponent: the number that is
`nearest` to what they spell. -/
def magnitudeWith? (nearest : Bool → Nat → Nat → Value) (negative : Bool) (cs : List Char) :
    Option Value :=
  let before := cs.takeWhile Char.isDigit
  let rest := cs.dropWhile Char.isDigit
  let (after, rest) := match rest with
    | '.' :: r => (r.takeWhile Char.isDigit, r.dropWhile Char.isDigit)
    | _ => ([], rest)
  if before.isEmpty && after.isEmpty then none
  else
    (exponent? rest).map fun e =>
      Value.ofDecimal nearest negative (ofDigits (before ++ after)) (e - after.length)

/-- Such digits as a number of double precision. -/
def magnitude? : Bool → List Char → Option Value := magnitudeWith? Value.nearest

/-- A decimal, or the name of a value that is no number, in any case. -/
def Value.ofText? (cs : List Char) : Option Value :=
  let (negative, body) := takeSign cs
  match String.ofList (body.map Text.lowerChar) with
  | "inf" => some (.infinite negative)
  | "infinity" => some (.infinite negative)
  | "nan" => some .nan
  | _ => magnitude? negative body

end ChatHub.Decimal

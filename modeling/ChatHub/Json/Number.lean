import ChatHub.Decimal.Literal
/-!
What the numbers of JSON stand for.
-/

namespace ChatHub.Json

open Decimal (Value Binary)

/-- A whole number of 64 bits, with a sign if it is negative, or else a decimal. -/
inductive Number where
  | integer (n : Int)
  | decimal (v : Value)
deriving DecidableEq, Repr

namespace Number

/-- Digits taken into a significand of 64 bits, and how many were left out.  After one that does
not fit none is taken. -/
def takeInto (significand : Nat) : List Char → Nat × Nat
  | [] => (significand, 0)
  | d :: rest =>
      let n := significand * 10 + (d.toNat - '0'.toNat)
      if n < UInt64.size then takeInto n rest else (significand, rest.length + 1)

/-- A positive number as a fraction. -/
def fraction (b : Binary) : Nat × Nat :=
  (b.significand * Nat.pow 2 b.exponent.toNat, Nat.pow 2 (-b.exponent).toNat)

/-- A number times or divided by a power of ten that is rounded itself. -/
def scaleBy (up : Bool) (power : Nat) (v : Value) : Value :=
  match v, Value.ofDecimal Value.nearest false 1 power with
  | .finite negative b, .finite _ p =>
      let (n, d) := fraction b
      let (pn, pd) := fraction p
      if up then .nearest negative (n * pn) (d * pd) else .nearest negative (n * pd) (d * pn)
  | v, _ => v

/-- Greatest power of ten among the numbers of double precision. -/
def greatestPower : Nat := 308

/-- The number `significand * 10 ^ exponent`, computed with at most one rounding of each of the
two and one of the result.  There is none if it is too large. -/
def scaled? (negative : Bool) (significand : Nat) (exponent : Int) : Option Value :=
  let v := Value.nearest negative significand 1
  let power := exponent.natAbs
  if significand = 0 then some (.zero negative)
  else if 0 ≤ exponent then
    if power ≤ greatestPower then
      match scaleBy true power v with
      | .infinite _ => none
      | v => some v
    else none
  else if power ≤ greatestPower then some (scaleBy false power v)
  else if power ≤ 2 * greatestPower then
    some (scaleBy false (power - greatestPower) (scaleBy false greatestPower v))
  else some (.zero negative)

/-- The parts of a number: whole digits, those of the fraction if it has one, the exponent if it
has one. -/
def numberParts (cs : List Char) : List Char × Option (List Char) × Option (Bool × List Char) :=
  let isExponent (c : Char) : Bool := c = 'e' || c = 'E'
  let whole := cs.takeWhile Char.isDigit
  let rest := cs.dropWhile Char.isDigit
  let (fraction, rest) := match rest with
    | '.' :: r => (some (r.takeWhile Char.isDigit), r.dropWhile Char.isDigit)
    | _ => (none, rest)
  let exponent := match rest with
    | c :: r => if isExponent c then some (Decimal.takeSign r) else none
    | [] => none
  (whole, fraction, exponent)

/-- Exponents beyond this are taken for infinite. -/
def exponentBound : Int := (UInt32.size / 2 : Nat)

/-- Reads a number.  There is none if it is too large. -/
def ofText? (cs : List Char) : Option Number :=
  let (negative, body) := match cs with
    | '-' :: rest => (true, rest)
    | _ => (false, cs)
  let (whole, fraction, exponent) := numberParts body
  let (significand, left) := takeInto 0 whole
  match fraction, exponent with
  | none, none =>
      if left = 0 && negative && 0 < significand && significand ≤ UInt64.size / 2 then
        some (.integer (-significand))
      else if left = 0 && !negative then
        some (.integer significand)
      else (scaled? negative significand left).map .decimal
  | _, _ =>
      let digits := fraction.getD []
      let (significand, ignored) := takeInto significand digits
      let exponentSoFar : Int := (left : Int) - (digits.length - ignored : Nat)
      match exponent with
      | none => (scaled? negative significand exponentSoFar).map .decimal
      | some (below, power) =>
          let power : Int := Decimal.ofDigits power
          if exponentBound ≤ power then
            if significand = 0 || below then some (.decimal (.zero negative)) else none
          else
            (scaled? negative significand (exponentSoFar + if below then -power else power)).map
              .decimal

/-- Whether the exponent of a number is beyond the bound before its last digit. -/
def exponentOverflows (cs : List Char) : Bool :=
  match (numberParts (cs.dropWhile (· == '-'))).2.2 with
  | some (_, power) => decide (exponentBound ≤ Decimal.ofDigits power.dropLast)
  | none => false

end Number

end ChatHub.Json

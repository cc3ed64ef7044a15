import ChatHub.Decimal.Shortest
/-!
How a decimal is laid out as text.
-/

namespace ChatHub.Decimal

/-- The decisions of a format.  The place of the point is the number of digits before it, or,
if not positive, of the zeros behind it, negated. -/
structure Layout where
  /-- Least place of the point without an exponent, if there is one. -/
  lowest : Option Int
  /-- Greatest place of the point without an exponent, if there is one. -/
  highest : Option Int
  /-- Whole numbers end with `.0`. -/
  pointZero : Bool
deriving DecidableEq, Repr

def zeros (n : Nat) : List Char := List.replicate n '0'

namespace Layout

/-- Digits with the point at the given place. -/
def positional (l : Layout) (digits : List Char) (place : Int) : List Char :=
  if place ≤ 0 then ['0', '.'] ++ zeros (-place).toNat ++ digits
  else
    let n := place.toNat
    if digits.length ≤ n then
      digits ++ zeros (n - digits.length) ++ if l.pointZero then ['.', '0'] else []
    else digits.take n ++ '.' :: digits.drop n

/-- One digit before the point, and an exponent. -/
def scientific (digits : List Char) (place : Int) : List Char :=
  let mantissa := match digits with
    | [] => []
    | [d] => [d]
    | d :: rest => d :: '.' :: rest
  let e := place - 1
  mantissa ++ 'e' :: ((if e < 0 then ['-'] else []) ++ Nat.toDigits 10 e.natAbs)

def isPositional (l : Layout) (place : Int) : Bool :=
  l.lowest.all (decide <| · ≤ place) && l.highest.all (decide <| place ≤ ·)

def magnitude (l : Layout) (d : Decimal) : List Char :=
  let digits := Nat.toDigits 10 d.digits
  let place := digits.length + d.exponent
  if l.isPositional place then l.positional digits place else scientific digits place

def sign (negative : Bool) : List Char := if negative then ['-'] else []

/-- The text of a number, with the digits that `decimal` chooses for it. -/
def write (l : Layout) (decimal : Binary → Decimal) : Value → List Char
  | .nan => ['N', 'a', 'N']
  | .infinite negative => sign negative ++ ['i', 'n', 'f']
  | .zero negative => sign negative ++ '0' :: if l.pointZero then ['.', '0'] else []
  | .finite negative b => sign negative ++ l.magnitude (decimal b)

end Layout

end ChatHub.Decimal

import ChatHub.Decimal.Shortest
/-!
The binary number that is nearest to a fraction; of two that are equally near, the one with an even
significand.
-/

namespace ChatHub.Decimal

/-- A fraction rounded to a whole number, half of one to the even neighbour. -/
def roundEven (num den : Nat) : Nat :=
  let n := num / den
  let twice := 2 * (num % den)
  if twice < den || (twice = den && n % 2 = 0) then n else n + 1

/-- The fraction `num / den` in units of `2 ^ e`, rounded. -/
def inUnits (num den : Nat) (e : Int) : Nat :=
  roundEven (num * Nat.pow 2 (-e).toNat) (den * Nat.pow 2 e.toNat)

/-- A format of binary numbers. -/
structure Precision where
  /-- The least significand with as many binary digits as there may be. -/
  fullSignificand : Nat
  /-- Exponent of the least positive numbers. -/
  leastExponent : Int
  /-- Exponent of the greatest numbers. -/
  greatestExponent : Int
deriving DecidableEq, Repr

namespace Precision

def double : Precision := ⟨Decimal.fullSignificand, -1074, 971⟩

def single : Precision := ⟨Nat.pow 2 23, -149, 104⟩

/-- The exponent with which a significand has all its binary digits before it is rounded. -/
def unitExponent (p : Precision) (num den : Nat) : Int :=
  let e : Int := (num.log2 : Int) - den.log2 - p.fullSignificand.log2 - 1
  let wide : Bool :=
    2 * p.fullSignificand * (den * Nat.pow 2 e.toNat) ≤ num * Nat.pow 2 (-e).toNat
  max (if wide then e + 1 else e) p.leastExponent

/-- Significand and exponent of the nearest number; `den` is not zero. -/
def round (p : Precision) (num den : Nat) : Nat × Int :=
  let e := p.unitExponent num den
  let rounded := inUnits num den e
  if rounded = 2 * p.fullSignificand then (p.fullSignificand, e + 1) else (rounded, e)

end Precision

/-- The nearest number of double precision; `den` is not zero. -/
def Value.nearest (negative : Bool) (num den : Nat) : Value :=
  let (m, e) := Precision.double.round num den
  if m = 0 then .zero negative
  else if Precision.double.greatestExponent < e then .infinite negative
  else
    .finite negative
      ⟨m, e, m = fullSignificand && Precision.double.leastExponent < e⟩

/-- The nearest number of single precision, as one of double precision; `den` is not zero. -/
def Value.nearestSingle (negative : Bool) (num den : Nat) : Value :=
  let (m, e) := Precision.single.round num den
  if Precision.single.greatestExponent < e then .infinite negative
  else .nearest negative (m * Nat.pow 2 e.toNat) (Nat.pow 2 (-e).toNat)

/-- What `nearest` makes of `digits * 10 ^ exponent`.  Outside of some hundred decimal places all
numbers are zero or infinite. -/
def Value.ofDecimal (nearest : Bool → Nat → Nat → Value) (negative : Bool) (digits : Nat)
    (exponent : Int) : Value :=
  let size : Int := (Nat.toDigits 10 digits).length + exponent
  if digits = 0 || size < -330 then .zero negative
  else if 310 < size then .infinite negative
  else nearest negative (digits * Nat.pow 10 exponent.toNat) (Nat.pow 10 (-exponent).toNat)

/-- The whole number nearest to `m * 2 ^ e`, half of one away from zero. -/
def Binary.round (b : Binary) : Nat :=
  let den := Nat.pow 2 (-b.exponent).toNat
  (2 * b.significand * Nat.pow 2 b.exponent.toNat + den) / (2 * den)

end ChatHub.Decimal

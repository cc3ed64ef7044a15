/-!
The shortest decimal of a binary number: of all decimals that are nearer to it than to any other
number of its format it has the fewest digits, and of those it is the nearest, or the greater of two
that are equally near.  All is done in whole numbers.
-/

namespace ChatHub

/-- The number `digits * 10 ^ exponent`. -/
structure Decimal where
  digits : Nat
  exponent : Int
deriving DecidableEq, Repr

namespace Decimal

/-- The positive number `significand * 2 ^ exponent`, as a number of a binary format. -/
structure Binary where
  significand : Nat
  exponent : Int
  /-- The next smaller number of the format is half as far away as the next larger one. -/
  narrowBelow : Bool
deriving DecidableEq, Repr

namespace Binary

/-- A number and the ends of the interval of those that are nearest to it, as multiples of
`1 / unit` on the grid of the multiples of a power of ten. -/
structure Grid where
  low : Nat
  value : Nat
  high : Nat
  unit : Nat
  /-- The ends belong to the interval. -/
  closed : Bool

/-- The number on the grid of the multiples of `10 ^ t`.  Quarters of the last binary place make
the ends of the interval whole. -/
def grid (b : Binary) (t : Int) : Grid :=
  let quarter := b.exponent - 2
  let factor := Nat.pow 2 quarter.toNat * Nat.pow 10 (-t).toNat
  let v := 4 * b.significand
  ⟨(v - if b.narrowBelow then 1 else 2) * factor, v * factor, (v + 2) * factor,
    Nat.pow 2 (-quarter).toNat * Nat.pow 10 t.toNat, b.significand % 2 = 0⟩

def Grid.contains (g : Grid) (n : Nat) : Bool :=
  if g.closed then g.low ≤ n * g.unit && n * g.unit ≤ g.high
  else g.low < n * g.unit && n * g.unit < g.high

/-- The nearest point of the grid in the interval, the upper one of two that are equally near.  Only
the two next to the number can be. -/
def Grid.nearest? (g : Grid) : Option Nat :=
  let below := g.value / g.unit
  let above := below + 1
  match g.contains below, g.contains above with
  | true, true =>
      let toBelow := g.value - below * g.unit
      let toAbove := above * g.unit - g.value
      if toBelow < toAbove then some below else some above
  | true, false => some below
  | false, true => some above
  | false, false => none

/-- Looks at ever finer grids. -/
def search (b : Binary) : Nat → Int → Decimal
  | 0, t => ⟨0, t⟩
  | n + 1, t =>
      match (b.grid t).nearest? with
      | some d => ⟨d, t⟩
      | none => search b n (t - 1)

/-- A power of ten above the number: a binary place is worth about 0.30103 decimal ones. -/
def firstExponent (b : Binary) : Int :=
  Int.fdiv (((b.significand.log2 : Int) + b.exponent + 1) * 30103) 100000 + 2

def shortest (b : Binary) : Decimal := search b 30 b.firstExponent

end Binary

/-- What a number of double precision is. -/
inductive Value where
  | nan
  | infinite (negative : Bool)
  | zero (negative : Bool)
  | finite (negative : Bool) (magnitude : Binary)
deriving DecidableEq, Repr

/-- The least significand with 53 binary digits, as many as there are at most. -/
def fullSignificand : Nat := Nat.pow 2 52

/-- Takes a number apart: a sign, eleven bits of exponent, 52 of fraction. -/
def Value.ofBits (bits : Nat) : Value :=
  let negative : Bool := bits / Nat.pow 2 63 % 2 = 1
  let e : Nat := bits / fullSignificand % Nat.pow 2 11
  let f := bits % fullSignificand
  if e = 2047 then if f = 0 then .infinite negative else .nan
  else if e = 0 then if f = 0 then .zero negative else .finite negative ⟨f, -1074, false⟩
  else .finite negative ⟨fullSignificand + f, (e : Int) - 1075, f = 0 && 1 < e⟩

def Value.ofFloat (x : Float) : Value := .ofBits x.toBits.toNat

end Decimal

end ChatHub

import ChatHub.Decimal.Shortest
/-!
A short decimal of a binary number, found with significands of 64 binary digits.  The interval of
the numbers nearest to it is scaled by a power of ten that is itself rounded to 64 digits, and drawn
in by one unit at each end, so that the error of the scaling does not matter.  The decimal therefore
always reads back as the same number; once in some hundred times it is not the shortest that does.
-/

namespace ChatHub.Decimal

/-- The number `significand * 2 ^ exponent`, of 64 binary digits. -/
structure Scaled where
  significand : Nat
  exponent : Int
deriving DecidableEq, Repr

namespace Scaled

/-- The same number with exactly 64 binary digits. -/
def normalize (s : Scaled) : Scaled :=
  let shift := 63 - s.significand.log2
  ⟨s.significand * Nat.pow 2 shift, s.exponent - shift⟩

/-- The upper half of the product, rounded. -/
def mul (a b : Scaled) : Scaled :=
  ⟨(a.significand * b.significand + UInt64.size / 2) / UInt64.size, a.exponent + b.exponent + 64⟩

/-- The power of ten, rounded to 64 binary digits. -/
def powerOfTen (k : Int) : Scaled :=
  let power := Nat.pow 10 k.natAbs
  let size := power.log2
  if 0 ≤ k then
    let shift : Int := size - 63
    ⟨(2 * power * Nat.pow 2 (-shift).toNat + Nat.pow 2 shift.toNat) /
      (2 * Nat.pow 2 shift.toNat), shift⟩
  else ⟨(2 * Nat.pow 2 (64 + size) + power) / (2 * power), -(64 + size : Nat)⟩

/-- The power, among each eighth from `10 ^ -348` on, that brings a number with the given exponent
and 64 digits to an exponent between -60 and -32. -/
def scaleExponent (exponent : Int) : Int :=
  let least := 347 - Int.fdiv ((exponent + 61) * 30103) 100000
  8 * (Int.fdiv least 8 + 1) - 348

end Scaled

/-- A number and the decimals that may stand for it, as multiples of a common unit: all from `high`
down to `high - width`, and the number itself is `offset` below `high`. -/
structure Window where
  high : Nat
  width : Nat
  offset : Nat
deriving DecidableEq, Repr

namespace Window

/-- A candidate: how many units of a decimal place, and how far it is below the upper end. -/
structure Candidate where
  digits : Nat
  below : Nat
deriving DecidableEq, Repr

/-- Goes down by one decimal place while that stays in the window and comes nearer to the number. -/
def approach (place width offset : Nat) : Nat → Candidate → Candidate
  | 0, c => c
  | n + 1, c =>
      let next := c.below + place
      if c.below < offset && next ≤ width && (next < offset || next - offset < offset - c.below)
      then approach place width offset n ⟨c.digits - 1, next⟩
      else c

/-- The decimals with `10 ^ t` as last place, in units of `1 / one`.  Below the ninth decimal place
the offset is left out, and the first decimal found is the answer. -/
def candidate? (w : Window) (one : Nat) (t : Int) : Option Candidate :=
  let fine := Nat.pow 10 (-t).toNat
  let place := Nat.pow 10 t.toNat * one
  let high := w.high * fine
  let width := w.width * fine
  let c : Candidate := ⟨high / place, high % place⟩
  if c.below < width || (0 ≤ t && c.below = width) then
    some (approach place width (if -9 < t then w.offset * fine else 0) 10 c)
  else none

/-- The first decimal place, from the given one on, at which there is a candidate. -/
def search (w : Window) (one : Nat) : Nat → Int → Decimal
  | 0, t => ⟨0, t⟩
  | n + 1, t =>
      match w.candidate? one t with
      | some c => ⟨c.digits, t⟩
      | none => search w one n (t - 1)

end Window

namespace Binary

/-- The middle between the number and its upper neighbour. -/
def upperEnd (b : Binary) : Scaled := ⟨2 * b.significand + 1, b.exponent - 1⟩

/-- The middle between the number and its lower neighbour, which is taken to be half as far away
as the upper one below every power of two. -/
def lowerEnd (b : Binary) : Scaled :=
  if b.significand = fullSignificand then ⟨4 * b.significand - 1, b.exponent - 2⟩
  else ⟨2 * b.significand - 1, b.exponent - 1⟩

/-- A number with the exponent of another that is not greater. -/
def align (s : Scaled) (exponent : Int) : Scaled :=
  ⟨s.significand * Nat.pow 2 (s.exponent - exponent).toNat, exponent⟩

/-- A short decimal that reads back as the number. -/
def compact (b : Binary) : Decimal :=
  let upper := b.upperEnd.normalize
  let k := Scaled.scaleExponent upper.exponent
  let scale := Scaled.powerOfTen k
  let value := (Scaled.normalize ⟨b.significand, b.exponent⟩).mul scale
  let high := (upper.mul scale).significand - 1
  let low := ((align b.lowerEnd upper.exponent).mul scale).significand + 1
  let one := Nat.pow 2 (-value.exponent).toNat
  let places := (Nat.toDigits 10 (high / one)).length
  let d := Window.search ⟨high, high - low, high - value.significand⟩ one 40 ((places : Int) - 1)
  ⟨d.digits, d.exponent - k⟩

end Binary

end ChatHub.Decimal

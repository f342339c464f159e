import ResilientCalls.Decimal.Binary64

/-!
# The fewest digits that read back

Every decimal inside the rounding interval of a float reads back as that float. The shortest such
decimal is found on grids of one digit, two digits and so on: a grid with a point in the interval
has one next to the value itself.
-/

namespace ResilientCalls

/-- The decimal number `digits · 10 ^ exponent`. -/
structure Decimal where
  /-- All digits, read as one number. -/
  digits : Nat
  /-- The power of ten of the last digit. -/
  exponent : Int
deriving Repr, DecidableEq

namespace Decimal

/-- A value and the interval of the numbers that round to it, over one denominator. -/
structure Interval where
  /-- Numerator of the value. -/
  value : Nat
  /-- Numerator of the lower end. -/
  low : Nat
  /-- Numerator of the upper end. -/
  high : Nat
  /-- The common denominator. -/
  denominator : Nat
  /-- Whether the two ends round to the value too. -/
  closed : Bool

namespace Interval

/-- The interval of `significand · 2 ^ exponent`; it reaches half as far down where the floats
below lie twice as dense. -/
def ofBinary (significand : Nat) (exponent : Int) : Interval :=
  let unit := twoTo (exponent - 2).toNat
  let below := if significand = twoTo 52 ∧ -1074 < exponent then 1 else 2
  { value := 4 * significand * unit
    low := (4 * significand - below) * unit
    high := (4 * significand + 2) * unit
    denominator := twoTo (2 - exponent).toNat
    closed := significand % 2 == 0 }

/-- Whether the decimal `digits · 10 ^ place` lies in the interval. -/
def contains (i : Interval) (digits : Nat) (place : Int) : Bool :=
  let x := digits * tenTo place.toNat * i.denominator
  let scale := tenTo (-place).toNat
  if i.closed then i.low * scale ≤ x && x ≤ i.high * scale
  else i.low * scale < x && x < i.high * scale

/-- The largest multiple of `10 ^ place` that is not above the value. -/
def floorAt (i : Interval) (place : Int) : Nat :=
  i.value * tenTo (-place).toNat / (i.denominator * tenTo place.toNat)

/-- Number of decimal digits. -/
def digitCount (n : Nat) : Nat := (Nat.toDigits 10 n).length

/-- The value lies below this power of ten, and not below the one before it. -/
def magnitude (i : Interval) : Int :=
  if i.denominator ≤ i.value then digitCount (i.value / i.denominator)
  else 1 - digitCount ((i.denominator - 1) / i.value)

/-- Whether the value is nearer to `digits · 10 ^ place` than to the next point up. -/
def nearerBelow (i : Interval) (digits : Nat) (place : Int) : Bool :=
  2 * i.value * tenTo (-place).toNat < (2 * digits + 1) * tenTo place.toNat * i.denominator

/-- The point of the grid in the interval that is nearest to the value; a tie goes up. -/
def nearest? (i : Interval) (place : Int) : Option Decimal :=
  let below := i.floorAt place
  match i.contains below place, i.contains (below + 1) place with
  | true, true => some ⟨if i.nearerBelow below place then below else below + 1, place⟩
  | true, false => some ⟨below, place⟩
  | false, true => some ⟨below + 1, place⟩
  | false, false => none

end Interval

/-- Drops trailing zeros from the digits, at most `limit` of them. -/
def trimmed : Nat → Decimal → Decimal
  | 0, d => d
  | limit + 1, d =>
      if d.digits ≠ 0 ∧ d.digits % 10 = 0 then trimmed limit ⟨d.digits / 10, d.exponent + 1⟩ else d

/-- The shortest decimal that reads back as `significand · 2 ^ exponent`; seventeen digits always
do. -/
def shortest (significand : Nat) (exponent : Int) : Decimal :=
  let i := Interval.ofBinary significand exponent
  let grids := (List.range 17).map fun n => i.magnitude - (n + 1 : Nat)
  let last := i.magnitude - 17
  trimmed 17 ((grids.findSome? i.nearest?).getD ⟨i.floorAt last, last⟩)

end Decimal

end ResilientCalls

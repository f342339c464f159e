import ResilientCalls.Decimal.Power

/-!
# The number a 64-bit float stands for

A finite float is a significand times a power of two. Reading it off the bits makes truncation and
printing exact integer arithmetic.
-/

namespace ResilientCalls.Decimal

/-- What the bits of a float say. -/
inductive Binary64
  /-- Not a number. -/
  | nan
  /-- Beyond every number, on one of the two sides. -/
  | infinite (negative : Bool)
  /-- The number `significand · 2 ^ exponent`, with a sign. -/
  | finite (negative : Bool) (significand : Nat) (exponent : Int)
deriving Repr, DecidableEq

namespace Binary64

/-- Reads sign, exponent and fraction from the bits. -/
def ofBits (bits : Nat) : Binary64 :=
  let negative := bits / twoTo 63 % 2 == 1
  let scale : Nat := bits / twoTo 52 % twoTo 11
  let fraction : Nat := bits % twoTo 52
  if scale = 2047 then if fraction = 0 then infinite negative else nan
  else if scale = 0 then finite negative fraction (-1074)
  else finite negative (fraction + twoTo 52) (scale - 1075)

/-- The number a float stands for. -/
def ofFloat (x : Float) : Binary64 := ofBits x.toBits.toNat

/-- The whole part of `significand · 2 ^ exponent`. -/
def wholePart (significand : Nat) (exponent : Int) : Nat :=
  significand * twoTo exponent.toNat / twoTo (-exponent).toNat

/-- The number without its fraction; nothing for a float that is not finite, zero for a negative
one. -/
def truncated? : Binary64 → Option Nat
  | nan | infinite _ => none
  | finite true _ _ => some 0
  | finite false m e => some (wholePart m e)

end Binary64

end ResilientCalls.Decimal

import ResilientCalls.Decimal.Written
import ResilientCalls.Duration
import ResilientCalls.Text.Layout

/-!
# Pauses between retries

A `Pacing` gives the pause before each retry. It is the same every time, or grows geometrically up
to a cap.
-/

namespace ResilientCalls

open Text (Layout)
open Decimal (Binary64 exact)

/-- The pause before each retry, and how the rule itself is shown. -/
structure Pacing where
  /-- The pause before a retry; the first retry has number zero. -/
  pause : Nat → Duration
  layout : Layout

/-- The same pause before every retry. -/
def Pacing.fixed (interval : Duration) : Pacing where
  pause _ := interval
  layout := .struct "FixedInterval" [("interval", .word interval.toText)]

/-! ## Geometric growth -/

/-- Multiplies `acc` by the powers of `base` at the binary digits of `n`, lowest first. -/
def powerLoop : Nat → Float → Float → Nat → Float
  | 0, acc, _, _ => acc
  | digits + 1, acc, base, n =>
      let acc := if n % 2 = 1 then acc * base else acc
      if n / 2 = 0 then acc else powerLoop digits acc (base * base) (n / 2)

/-- A float to a whole power, by repeated squaring. -/
def power (base : Float) (n : Nat) : Float := powerLoop (n.log2 + 1) 1.0 base n

/-- A pause that is multiplied by a factor with each retry. -/
structure Backoff where
  initial : Duration
  multiplier : Float
  /-- No pause is longer than this one. -/
  cap : Option Duration
deriving DecidableEq

namespace Backoff

/-- Doubling without a cap. -/
def doubling (initial : Duration) : Backoff := ⟨initial, 2.0, none⟩

/-- Exponents stop growing here. -/
def maxExponent : Nat := twoTo 31 - 1

/-- The pause in nanoseconds, as a float, before it is cut to a duration. -/
def product (b : Backoff) (attempt : Nat) : Float :=
  Float.ofScientific b.initial.nanos false 0 * power b.multiplier (min attempt maxExponent)

/-- Whole nanoseconds below `2 ^ 64`; anything else is the largest duration. -/
def toDuration (x : Float) : Duration :=
  match (Binary64.ofFloat x).truncated? with
  | some n => if h : n < twoTo 64 then .ofNanos n h else .max
  | none => .max

/-- The pause before a retry. -/
def pause (b : Backoff) (attempt : Nat) : Duration :=
  let interval := toDuration (b.product attempt)
  match b.cap with
  | some cap => interval.atMost cap
  | none => interval

def layout (b : Backoff) : Layout :=
  .struct "ExponentialBackoff"
    [("initial_interval", .word b.initial.toText), ("multiplier", .word (exact.write b.multiplier)),
      ("max_interval", .option (b.cap.map fun c => .word c.toText))]

def pacing (b : Backoff) : Pacing := ⟨b.pause, b.layout⟩

end Backoff

end ResilientCalls
